import RackMcp.Json

/-!
# Probe telemetry accumulation

`core/telemetry.hpp`: the running statistics of one channel over one measurement window. A sample is a `Double` whose
finite values are exact, and sums of samples are exact too; `sqrt` is `std::sqrt`.
-/

namespace RackMcp

/-- `PROBE_MAX_CHANNELS`. -/
def probeMaxChannels : ℕ := 16

/-- `PROBE_CLIP_VOLTS`. -/
def probeClipVolts : ℚ := 10

/-- `PROBE_GATE_LOW_VOLTS`, the float nearest to 0.1. -/
def probeGateLowVolts : ℚ := 13421773 / 134217728

/-- `PROBE_GATE_HIGH_VOLTS`. -/
def probeGateHighVolts : ℚ := 1

/-- `ChannelAccumulator`. -/
structure ChannelAccumulator where
  minV : ℚ := 0
  maxV : ℚ := 0
  peakAbs : ℚ := 0
  sum : ℚ := 0
  sumSquares : ℚ := 0
  clipped : UInt32 := 0
  nonFinite : UInt32 := 0
  risingEdges : UInt32 := 0
  frames : UInt32 := 0
  gateHigh : Bool := false

namespace ChannelAccumulator

/-- `reset`, which leaves `gateHigh` as it is. -/
def reset (acc : ChannelAccumulator) : ChannelAccumulator := { gateHigh := acc.gateHigh }

/-- `std::fabs`. -/
def fabs (v : ℚ) : ℚ := if v < 0 then -v else v

/-- `accumulate`. -/
def accumulate (acc : ChannelAccumulator) (v : Double) (first : Bool) : ChannelAccumulator :=
  match v with
  | .finite v =>
    let a := fabs v
    { acc with
      minV := if first || decide (v < acc.minV) then v else acc.minV
      maxV := if first || decide (v > acc.maxV) then v else acc.maxV
      peakAbs := if a > acc.peakAbs then a else acc.peakAbs
      clipped := if a ≥ probeClipVolts then acc.clipped + 1 else acc.clipped
      sum := acc.sum + v
      sumSquares := acc.sumSquares + v * v
      frames := acc.frames + 1
      gateHigh := if acc.gateHigh then !decide (v ≤ probeGateLowVolts) else decide (v ≥ probeGateHighVolts)
      risingEdges := if !acc.gateHigh && decide (v ≥ probeGateHighVolts) then acc.risingEdges + 1 else acc.risingEdges }
  | _ => { acc with nonFinite := acc.nonFinite + 1 }

end ChannelAccumulator

/-- `ChannelStats`. -/
structure ChannelStats where
  minV : ℚ := 0
  maxV : ℚ := 0
  peakAbs : ℚ := 0
  rms : ℚ := 0
  mean : ℚ := 0
  clipped : UInt32 := 0
  nonFinite : UInt32 := 0
  risingEdges : UInt32 := 0

/-- `ProbeWindowSnapshot`; a channel is below `PROBE_MAX_CHANNELS`. -/
structure ProbeWindowSnapshot where
  sequence : UInt32
  windowFrames : UInt32
  sampleRate : ℚ
  channelCount : ℕ
  channels : ℕ → ChannelStats

/-- `finalizeChannel`. -/
def finalizeChannel (sqrt : ℚ → ℚ) (acc : ChannelAccumulator) : ChannelStats where
  minV := acc.minV
  maxV := acc.maxV
  peakAbs := acc.peakAbs
  rms := if acc.frames > 0 then sqrt (acc.sumSquares / acc.frames.toNat) else 0
  mean := if acc.frames > 0 then acc.sum / acc.frames.toNat else 0
  clipped := acc.clipped
  nonFinite := acc.nonFinite
  risingEdges := acc.risingEdges

end RackMcp
