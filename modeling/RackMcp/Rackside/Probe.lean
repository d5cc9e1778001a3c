import RackMcp.Core.Telemetry
import Mathlib.Algebra.Group.Nat.Defs
import Mathlib.Logic.Function.Basic

/-!
# The probe module

`rackside/ProbeModule.cpp` between two changes of the sample rate. An input is below `NUM_PROBE_INPUTS`, a channel below
`PROBE_MAX_CHANNELS`. The module keeps all windows that it published, and its lights are left out.
-/

namespace RackMcp

/-- An input port in one frame: `getChannels` and `getVoltage`. -/
structure PortFrame where
  channels : ℕ
  voltage : ℕ → Double

/-- The channels that the loop of `process` visits. -/
def PortFrame.visits (port : PortFrame) : ℕ :=
  if port.channels % 256 > probeMaxChannels then probeMaxChannels else port.channels % 256

/-- What the module keeps for one input. -/
structure ProbeInput where
  acc : ℕ → ChannelAccumulator := fun _ => {}
  channelSeen : ℕ := 0
  windowChannels : ℕ := 0

namespace ProbeInput

/-- The body of `beginWindow` for one input. -/
def beginWindow (input : ProbeInput) : ProbeInput := { acc := fun c => (input.acc c).reset }

/-- The body of the channel loop. -/
def visitChannel (voltage : ℕ → Double) (input : ProbeInput) (c : ℕ) : ProbeInput :=
  let bit := 2 ^ c
  let first := input.channelSeen &&& bit = 0
  let v := voltage c
  { input with
    acc := Function.update input.acc c ((input.acc c).accumulate v first)
    channelSeen :=
      match v with
      | .finite _ => if first then input.channelSeen ||| bit else input.channelSeen
      | _ => input.channelSeen }

/-- The body of the input loop. -/
def visit (input : ProbeInput) (port : PortFrame) : ProbeInput :=
  (List.range port.visits).foldl (visitChannel port.voltage)
    { input with windowChannels := if port.visits > input.windowChannels then port.visits else input.windowChannels }

end ProbeInput

/-- `ProbeModule`. -/
structure ProbeModule where
  windowTarget : UInt32
  sampleRate : ℚ
  inputs : ℕ → ProbeInput := fun _ => {}
  windowFrame : UInt32 := 0
  sequence : UInt32 := 0
  published : List (ℕ → ProbeWindowSnapshot) := []

namespace ProbeModule

/-- `beginWindow`. -/
def beginWindow (m : ProbeModule) : ProbeModule :=
  { m with windowFrame := 0, inputs := fun i => (m.inputs i).beginWindow }

variable (sqrt : ℚ → ℚ)

/-- The snapshot of one input. -/
def snapshot (m : ProbeModule) (input : ProbeInput) : ProbeWindowSnapshot where
  sequence := m.sequence
  windowFrames := m.windowFrame
  sampleRate := m.sampleRate
  channelCount := input.windowChannels
  channels c := if c < input.windowChannels then finalizeChannel sqrt (input.acc c) else {}

/-- `process`, of what is at each input. -/
def process (m : ProbeModule) (frame : ℕ → PortFrame) : ProbeModule :=
  let m := { m with inputs := fun i => (m.inputs i).visit (frame i), windowFrame := m.windowFrame + 1 }
  if m.windowFrame ≥ m.windowTarget then
    let m := { m with sequence := m.sequence + 1 }
    { m with published := m.published ++ [fun i => m.snapshot sqrt (m.inputs i)] }.beginWindow
  else m

/-- The module after so many frames. -/
def run (m : ProbeModule) (frames : List (ℕ → PortFrame)) : ProbeModule := frames.foldl (process sqrt) m

end ProbeModule

end RackMcp
