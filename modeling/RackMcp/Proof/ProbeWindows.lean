import RackMcp.Lib.Schmitt
import RackMcp.Rackside.Probe
import Mathlib.Algebra.GroupWithZero.Nat
import Mathlib.Algebra.Order.Field.Rat
import Mathlib.Algebra.BigOperators.Group.List.Basic
import Mathlib.Data.Nat.Bitwise
import Mathlib.Tactic.Linarith

/-!
# What a probe window reports

The accumulator of a channel keeps the statistics of the samples it was given since the window began, and the state of its
trigger goes on from window to window. So each window reports the samples of its own frames, and the edges of consecutive
windows add up to those of the whole stream.
-/

namespace RackMcp

open Schmitt (state count rises)

/-- The finite ones of some samples. -/
def finiteSamples (samples : List Double) : List ℚ :=
  samples.filterMap fun
    | .finite v => some v
    | _ => none

/-- The trigger of a channel after these samples. -/
abbrev gateState (up : Bool) (samples : List Double) : Bool :=
  state probeGateLowVolts probeGateHighVolts up (finiteSamples samples)

/-- The edges it counts in these samples. -/
abbrev gateCount (up : Bool) (samples : List Double) : ℕ :=
  count probeGateLowVolts probeGateHighVolts up (finiteSamples samples)

/-- An extreme of some values in this order, or 0 if there are none. -/
def Extreme (r : ℚ → ℚ → Prop) (values : List ℚ) (x : ℚ) : Prop :=
  (values = [] ∧ x = 0) ∨ (x ∈ values ∧ ∀ v ∈ values, r x v)

theorem finiteSamples_append (samples more : List Double) :
    finiteSamples (samples ++ more) = finiteSamples samples ++ finiteSamples more := List.filterMap_append

theorem gateState_append (up : Bool) (samples more : List Double) :
    gateState up (samples ++ more) = gateState (gateState up samples) more := by
  unfold gateState
  rw [finiteSamples_append, Schmitt.state_append]

theorem gateCount_append (up : Bool) (samples more : List Double) :
    gateCount up (samples ++ more) = gateCount up samples + gateCount (gateState up samples) more := by
  unfold gateCount gateState
  rw [finiteSamples_append, Schmitt.count_append]

/-! ### The accumulator of a channel -/

/-- The accumulator has what the samples of the window give; its trigger started the window in this state. -/
structure Gathered (up : Bool) (samples : List Double) (acc : ChannelAccumulator) : Prop where
  minV : Extreme (· ≤ ·) (finiteSamples samples) acc.minV
  maxV : Extreme (· ≥ ·) (finiteSamples samples) acc.maxV
  peakAbs : Extreme (· ≥ ·) ((finiteSamples samples).map ChannelAccumulator.fabs) acc.peakAbs
  sum : acc.sum = (finiteSamples samples).sum
  sumSquares : acc.sumSquares = ((finiteSamples samples).map fun v => v * v).sum
  clipped : acc.clipped =
    UInt32.ofNat ((finiteSamples samples).countP fun v => decide (probeClipVolts ≤ ChannelAccumulator.fabs v))
  nonFinite : acc.nonFinite = UInt32.ofNat (samples.length - (finiteSamples samples).length)
  frames : acc.frames = UInt32.ofNat (finiteSamples samples).length
  gateHigh : acc.gateHigh = gateState up samples
  risingEdges : acc.risingEdges = UInt32.ofNat (gateCount up samples)

theorem gathered_reset (acc : ChannelAccumulator) : Gathered acc.gateHigh [] acc.reset := by
  constructor
  case minV => exact .inl ⟨rfl, rfl⟩
  case maxV => exact .inl ⟨rfl, rfl⟩
  case peakAbs => exact .inl ⟨rfl, rfl⟩
  all_goals rfl

theorem ofNat_succ (n : ℕ) : UInt32.ofNat n + 1 = UInt32.ofNat (n + 1) := (UInt32.ofNat_add n 1).symm

theorem fabs_nonneg (v : ℚ) : 0 ≤ ChannelAccumulator.fabs v := by
  unfold ChannelAccumulator.fabs
  split
  · linarith
  · linarith

/-- The extreme moves to a new value that goes beyond it. -/
theorem Extreme.concat {r : ℚ → ℚ → Prop} {values : List ℚ} {x v y : ℚ} (h : Extreme r values x)
    (htrans : ∀ a b c, r a b → r b c → r a c) (hrefl : ∀ a, r a a) (hnil : values = [] → y = v)
    (hnew : values ≠ [] → (y = v ∧ r v x) ∨ (y = x ∧ r x v)) : Extreme r (values ++ [v]) y := by
  right
  rcases h with ⟨rfl, -⟩ | ⟨hmem, hall⟩
  · rw [hnil rfl]
    refine ⟨List.mem_singleton_self v, fun w hw => ?_⟩
    rw [List.mem_singleton.mp hw]
    exact hrefl v
  · rcases hnew (List.ne_nil_of_mem hmem) with ⟨rfl, hbeyond⟩ | ⟨rfl, hwithin⟩
    · refine ⟨List.mem_append_right _ (List.mem_singleton_self y), fun w hw => ?_⟩
      rcases List.mem_append.mp hw with hw | hw
      · exact htrans _ _ _ hbeyond (hall w hw)
      · rw [List.mem_singleton.mp hw]
        exact hrefl y
    · refine ⟨List.mem_append_left _ hmem, fun w hw => ?_⟩
      rcases List.mem_append.mp hw with hw | hw
      · exact hall w hw
      · rw [List.mem_singleton.mp hw]
        exact hwithin

theorem length_finiteSamples_le (samples : List Double) : (finiteSamples samples).length ≤ samples.length :=
  List.length_filterMap_le _ _

/-- One more sample; `first` is set until a finite one has come. -/
theorem Gathered.concat {up : Bool} {samples : List Double} {acc : ChannelAccumulator} (h : Gathered up samples acc)
    (v : Double) {first : Bool} (hfirst : first = true ↔ finiteSamples samples = []) :
    Gathered up (samples ++ [v]) (acc.accumulate v first) := by
  have hle := length_finiteSamples_le samples
  have hother : finiteSamples [v] = [] → (acc.accumulate v first) = { acc with nonFinite := acc.nonFinite + 1 } →
      Gathered up (samples ++ [v]) (acc.accumulate v first) := by
    intro hnone hacc
    have hfinite : finiteSamples (samples ++ [v]) = finiteSamples samples := by
      rw [finiteSamples_append, hnone, List.append_nil]
    rw [hacc]
    constructor
    case nonFinite =>
      show acc.nonFinite + 1 = _
      rw [hfinite, h.nonFinite, ofNat_succ, List.length_append, List.length_singleton]
      congr 1
      omega
    case gateHigh => rw [gateState, hfinite]; exact h.gateHigh
    case risingEdges => rw [gateCount, hfinite]; exact h.risingEdges
    all_goals rw [hfinite]
    · exact h.minV
    · exact h.maxV
    · exact h.peakAbs
    · exact h.sum
    · exact h.sumSquares
    · exact h.clipped
    · exact h.frames
  rcases v with v | negative | _
  case infinite => exact hother rfl rfl
  case nan => exact hother rfl rfl
  case finite =>
    have hfinite : finiteSamples (samples ++ [.finite v]) = finiteSamples samples ++ [v] := finiteSamples_append _ _
    have hseen : finiteSamples samples ≠ [] → first = false := by
      intro hne
      rw [← Bool.not_eq_true, hfirst]
      exact hne
    constructor
    case minV =>
      rw [hfinite]
      refine h.minV.concat (fun _ _ _ => le_trans) le_refl (fun hnil => ?_) fun hne => ?_
      · show (if first || decide (v < acc.minV) then v else acc.minV) = v
        rw [hfirst.mpr hnil, Bool.true_or, if_pos rfl]
      · show (if first || decide (v < acc.minV) then v else acc.minV) = v ∧ _ ∨
          (if first || decide (v < acc.minV) then v else acc.minV) = acc.minV ∧ _
        rw [hseen hne, Bool.false_or]
        by_cases hlt : v < acc.minV
        · exact .inl ⟨if_pos (decide_eq_true hlt), hlt.le⟩
        · exact .inr ⟨if_neg (by simpa using hlt), not_lt.mp hlt⟩
    case maxV =>
      rw [hfinite]
      refine h.maxV.concat (fun _ _ _ hab hbc => le_trans hbc hab) le_refl (fun hnil => ?_) fun hne => ?_
      · show (if first || decide (v > acc.maxV) then v else acc.maxV) = v
        rw [hfirst.mpr hnil, Bool.true_or, if_pos rfl]
      · show (if first || decide (v > acc.maxV) then v else acc.maxV) = v ∧ _ ∨
          (if first || decide (v > acc.maxV) then v else acc.maxV) = acc.maxV ∧ _
        rw [hseen hne, Bool.false_or]
        by_cases hlt : v > acc.maxV
        · exact .inl ⟨if_pos (decide_eq_true hlt), le_of_lt hlt⟩
        · exact .inr ⟨if_neg (by simpa using hlt), not_lt.mp hlt⟩
    case peakAbs =>
      rw [hfinite, List.map_append, List.map_singleton]
      refine h.peakAbs.concat (fun _ _ _ hab hbc => le_trans hbc hab) le_refl (fun hnil => ?_) fun _ => ?_
      · show (if ChannelAccumulator.fabs v > acc.peakAbs then ChannelAccumulator.fabs v else acc.peakAbs) =
          ChannelAccumulator.fabs v
        have hzero : acc.peakAbs = 0 := by
          rcases h.peakAbs with ⟨-, hzero⟩ | ⟨hmem, -⟩
          · exact hzero
          · rw [hnil] at hmem
            exact absurd hmem List.not_mem_nil
        have hnonneg := fabs_nonneg v
        split
        · rfl
        · linarith
      · show (if ChannelAccumulator.fabs v > acc.peakAbs then ChannelAccumulator.fabs v else acc.peakAbs) =
            ChannelAccumulator.fabs v ∧ _ ∨
          (if ChannelAccumulator.fabs v > acc.peakAbs then ChannelAccumulator.fabs v else acc.peakAbs) = acc.peakAbs ∧ _
        by_cases hlt : ChannelAccumulator.fabs v > acc.peakAbs
        · exact .inl ⟨if_pos hlt, le_of_lt hlt⟩
        · exact .inr ⟨if_neg hlt, not_lt.mp hlt⟩
    case sum =>
      rw [hfinite, List.sum_append, List.sum_singleton, ← h.sum]
      rfl
    case sumSquares =>
      rw [hfinite, List.map_append, List.map_singleton, List.sum_append, List.sum_singleton, ← h.sumSquares]
      rfl
    case clipped =>
      show (if ChannelAccumulator.fabs v ≥ probeClipVolts then acc.clipped + 1 else acc.clipped) = _
      rw [hfinite, List.countP_append, List.countP_singleton, h.clipped]
      split
      · next hclips =>
        rw [if_pos (decide_eq_true hclips), ofNat_succ]
      · next hclips =>
        rw [if_neg (by simpa using hclips), Nat.add_zero]
    case nonFinite =>
      rw [hfinite, List.length_append, List.length_append, List.length_singleton, List.length_singleton,
        Nat.add_sub_add_right]
      exact h.nonFinite
    case frames =>
      show acc.frames + 1 = _
      rw [hfinite, List.length_append, List.length_singleton, h.frames, ofNat_succ]
    case gateHigh =>
      rw [gateState_append, ← h.gateHigh]
      rfl
    case risingEdges =>
      show (if !acc.gateHigh && decide (v ≥ probeGateHighVolts) then acc.risingEdges + 1 else acc.risingEdges) = _
      have hcount : gateCount acc.gateHigh [.finite v] = (!acc.gateHigh && decide (v ≥ probeGateHighVolts)).toNat := rfl
      rw [gateCount_append, ← h.gateHigh, hcount, h.risingEdges]
      rcases !acc.gateHigh && decide (v ≥ probeGateHighVolts) with _ | _
      · rfl
      · exact ofNat_succ _

/-! ### The statistics of a window -/

/-- The statistics are those of the samples that the channel contributed. -/
structure Reports (sqrt : ℚ → ℚ) (up : Bool) (samples : List Double) (stats : ChannelStats) : Prop where
  minV : Extreme (· ≤ ·) (finiteSamples samples) stats.minV
  maxV : Extreme (· ≥ ·) (finiteSamples samples) stats.maxV
  peakAbs : Extreme (· ≥ ·) ((finiteSamples samples).map ChannelAccumulator.fabs) stats.peakAbs
  clipped : stats.clipped.toNat = (finiteSamples samples).countP fun v => decide (probeClipVolts ≤ ChannelAccumulator.fabs v)
  visited : stats.nonFinite.toNat + (finiteSamples samples).length = samples.length
  mean : stats.mean = (finiteSamples samples).sum / (finiteSamples samples).length
  rms : finiteSamples samples ≠ [] →
    stats.rms = sqrt (((finiteSamples samples).map fun v => v * v).sum / (finiteSamples samples).length)
  ordered : stats.minV ≤ stats.mean ∧ stats.mean ≤ stats.maxV
  risingEdges : stats.risingEdges.toNat = gateCount up samples

theorem mul_length_le_sum {m : ℚ} {values : List ℚ} (h : ∀ v ∈ values, m ≤ v) : m * values.length ≤ values.sum := by
  induction values with
  | nil => simp
  | cons v values ih =>
    have hv := h v List.mem_cons_self
    have hrest := ih fun w hw => h w (List.mem_cons_of_mem v hw)
    rw [List.length_cons, List.sum_cons, Nat.cast_succ]
    linarith

theorem sum_le_mul_length {m : ℚ} {values : List ℚ} (h : ∀ v ∈ values, v ≤ m) : values.sum ≤ m * values.length := by
  induction values with
  | nil => simp
  | cons v values ih =>
    have hv := h v List.mem_cons_self
    have hrest := ih fun w hw => h w (List.mem_cons_of_mem v hw)
    rw [List.length_cons, List.sum_cons, Nat.cast_succ]
    linarith

/-- A mean lies between the extremes. -/
theorem mean_between {values : List ℚ} {low high : ℚ} (hlow : Extreme (· ≤ ·) values low) (hhigh : Extreme (· ≥ ·) values high) :
    low ≤ values.sum / values.length ∧ values.sum / values.length ≤ high := by
  rcases hlow with ⟨rfl, rfl⟩ | ⟨hmem, hleast⟩
  · rcases hhigh with ⟨-, rfl⟩ | ⟨hmem, -⟩
    · simp
    · exact absurd hmem List.not_mem_nil
  · rcases hhigh with ⟨rfl, -⟩ | ⟨-, hgreatest⟩
    · exact absurd hmem List.not_mem_nil
    · have hpos : (0 : ℚ) < values.length := by
        exact_mod_cast List.length_pos_of_mem hmem
      rw [le_div_iff₀ hpos, div_le_iff₀ hpos]
      exact ⟨mul_length_le_sum hleast, sum_le_mul_length hgreatest⟩

theorem gateCount_le (up : Bool) (samples : List Double) : gateCount up samples ≤ (finiteSamples samples).length := by
  unfold gateCount
  induction finiteSamples samples generalizing up with
  | nil => exact Nat.le_refl 0
  | cons v values ih =>
    have hone : (Schmitt.fires probeGateHighVolts up v).toNat ≤ 1 := Bool.toNat_le _
    have hrest := ih (Schmitt.next probeGateLowVolts probeGateHighVolts up v)
    rw [Schmitt.count, List.length_cons]
    omega

/-- What is gathered is reported, as long as no counter wraps. -/
theorem Gathered.finalize (sqrt : ℚ → ℚ) {up : Bool} {samples : List Double} {acc : ChannelAccumulator}
    (h : Gathered up samples acc) (hlength : samples.length < 2 ^ 32) : Reports sqrt up samples (finalizeChannel sqrt acc) := by
  have hle := length_finiteSamples_le samples
  have htoNat : ∀ n ≤ samples.length, (UInt32.ofNat n).toNat = n := by
    intro n hn
    exact UInt32.toNat_ofNat_of_lt' (Nat.lt_of_le_of_lt hn hlength)
  have hframes : acc.frames.toNat = (finiteSamples samples).length := by rw [h.frames, htoNat _ hle]
  have hdivides : acc.frames > 0 ↔ finiteSamples samples ≠ [] := by
    rw [gt_iff_lt, UInt32.lt_iff_toNat_lt, hframes]
    exact List.length_pos_iff
  have hmean : (finalizeChannel sqrt acc).mean = (finiteSamples samples).sum / (finiteSamples samples).length := by
    show (if acc.frames > 0 then acc.sum / acc.frames.toNat else 0) = _
    rw [hframes, h.sum]
    by_cases hsome : acc.frames > 0
    · rw [if_pos hsome]
    · rw [if_neg hsome, not_not.mp (mt hdivides.mpr hsome)]
      simp
  constructor
  case minV => exact h.minV
  case maxV => exact h.maxV
  case peakAbs => exact h.peakAbs
  case clipped =>
    show acc.clipped.toNat = _
    rw [h.clipped, htoNat _ (List.countP_le_length.trans hle)]
  case visited =>
    show acc.nonFinite.toNat + _ = _
    rw [h.nonFinite, htoNat _ (Nat.sub_le _ _)]
    omega
  case mean => exact hmean
  case rms =>
    intro hne
    show (if acc.frames > 0 then sqrt (acc.sumSquares / acc.frames.toNat) else 0) = _
    rw [if_pos (hdivides.mpr hne), hframes, h.sumSquares]
  case ordered =>
    rw [hmean]
    exact mean_between h.minV h.maxV
  case risingEdges =>
    show acc.risingEdges.toNat = _
    rw [h.risingEdges, htoNat _ ((gateCount_le up samples).trans hle)]

/-! ### The loops of a frame -/

/-- The samples that a channel of an input contributes to some frames. -/
def visitedSamples (i c : ℕ) (frames : List (ℕ → PortFrame)) : List Double :=
  frames.filterMap fun frame => if c < (frame i).visits then some ((frame i).voltage c) else none

theorem visitedSamples_append (i c : ℕ) (frames more : List (ℕ → PortFrame)) :
    visitedSamples i c (frames ++ more) = visitedSamples i c frames ++ visitedSamples i c more := List.filterMap_append

/-- `first` is the bit of the channel. -/
theorem first_eq (seen c : ℕ) : decide (seen &&& 2 ^ c = 0) = !seen.testBit c := by
  rw [Nat.and_two_pow]
  rcases seen.testBit c with _ | _
  · simp
  · simp

theorem visitChannel_self (voltage : ℕ → Double) (input : ProbeInput) (c : ℕ) :
    (input.visitChannel voltage c).acc c = (input.acc c).accumulate (voltage c) (!input.channelSeen.testBit c) := by
  show Function.update input.acc c _ c = _
  rw [Function.update_self, first_eq]

theorem visitChannel_of_ne (voltage : ℕ → Double) (input : ProbeInput) {c n : ℕ} (h : c ≠ n) :
    (input.visitChannel voltage n).acc c = input.acc c := Function.update_of_ne h _ _

/-- The bit is set once a finite sample has come. -/
theorem testBit_visitChannel (voltage : ℕ → Double) (input : ProbeInput) (c n : ℕ) :
    (input.visitChannel voltage n).channelSeen.testBit c =
      (input.channelSeen.testBit c || (decide (c = n) && decide (finiteSamples [voltage n] ≠ []))) := by
  have hset : (if decide (input.channelSeen &&& 2 ^ n = 0) = true then input.channelSeen ||| 2 ^ n
      else input.channelSeen).testBit c = (input.channelSeen.testBit c || decide (c = n)) := by
    rw [first_eq]
    rcases hbit : input.channelSeen.testBit n with _ | _
    · rw [Bool.not_false, if_pos rfl, Nat.testBit_or, Nat.testBit_two_pow]
      congr 1
      exact decide_eq_decide.mpr eq_comm
    · rw [Bool.not_true, if_neg Bool.false_ne_true]
      by_cases hc : c = n
      · rw [hc, hbit, Bool.true_or]
      · simp [hc]
  unfold ProbeInput.visitChannel
  dsimp only
  rcases voltage n with v | negative | _
  · have hfinite : finiteSamples [.finite v] ≠ [] := by simp [finiteSamples]
    rw [decide_eq_true hfinite, Bool.and_true]
    simpa using hset
  · have hfinite : finiteSamples [.infinite negative] = [] := rfl
    simp [hfinite]
  · have hfinite : finiteSamples [.nan] = [] := rfl
    simp [hfinite]

/-- The channel loop gives every visited channel its sample and leaves the others alone. -/
theorem foldl_visitChannel (voltage : ℕ → Double) (input : ProbeInput) (n c : ℕ) :
    let visited := (List.range n).foldl (ProbeInput.visitChannel voltage) input
    visited.acc c = (if c < n then (input.acc c).accumulate (voltage c) (!input.channelSeen.testBit c) else input.acc c) ∧
      visited.channelSeen.testBit c =
        (input.channelSeen.testBit c || (decide (c < n) && decide (finiteSamples [voltage c] ≠ []))) ∧
      visited.windowChannels = input.windowChannels := by
  induction n with
  | zero => simp
  | succ n ih =>
    obtain ⟨hacc, hseen, hchannels⟩ := ih
    intro visited
    have hvisited : visited = ((List.range n).foldl (ProbeInput.visitChannel voltage) input).visitChannel voltage n := by
      show (List.range (n + 1)).foldl _ _ = _
      rw [List.range_succ, List.foldl_append]
      rfl
    rw [hvisited]
    refine ⟨?_, ?_, hchannels⟩
    · by_cases hc : c = n
      · subst hc
        rw [visitChannel_self, if_pos (Nat.lt_succ_self c), hacc, if_neg (Nat.lt_irrefl c), hseen]
        simp
      · rw [visitChannel_of_ne voltage _ hc, hacc]
        have hlt : c < n ↔ c < n + 1 := by omega
        simp only [hlt]
    · rw [testBit_visitChannel, hseen, Bool.or_assoc]
      congr 1
      by_cases hc : c = n
      · subst hc
        simp
      · have hlt : c < n ↔ c < n + 1 := by omega
        simp [hc, hlt]

/-- The channel count is the highest of some frames. -/
def Highest (i : ℕ) (frames : List (ℕ → PortFrame)) (channels : ℕ) : Prop :=
  (∀ frame ∈ frames, (frame i).visits ≤ channels) ∧ (channels = 0 ∨ ∃ frame ∈ frames, (frame i).visits = channels)

theorem Highest.concat {i : ℕ} {frames : List (ℕ → PortFrame)} {channels : ℕ} (h : Highest i frames channels)
    (frame : ℕ → PortFrame) :
    Highest i (frames ++ [frame]) (if (frame i).visits > channels then (frame i).visits else channels) := by
  obtain ⟨hle, hsome⟩ := h
  have hmem : frame ∈ frames ++ [frame] := List.mem_append_right _ (List.mem_singleton_self frame)
  split
  · next hhigher =>
    refine ⟨fun f hf => ?_, .inr ⟨frame, hmem, rfl⟩⟩
    rcases List.mem_append.mp hf with hf | hf
    · exact (hle f hf).trans (Nat.le_of_lt hhigher)
    · rw [List.mem_singleton.mp hf]
  · next hlower =>
    refine ⟨fun f hf => ?_, hsome.imp_right fun ⟨f, hf, heq⟩ => ⟨f, List.mem_append_left _ hf, heq⟩⟩
    rcases List.mem_append.mp hf with hf | hf
    · exact hle f hf
    · rw [List.mem_singleton.mp hf]
      exact not_lt.mp hlower

/-- An input has what the frames of the window so far give, which came after the others. -/
structure Collected (before window : List (ℕ → PortFrame)) (i : ℕ) (input : ProbeInput) : Prop where
  acc : ∀ c, Gathered (gateState false (visitedSamples i c before)) (visitedSamples i c window) (input.acc c)
  seen : ∀ c, input.channelSeen.testBit c = true ↔ finiteSamples (visitedSamples i c window) ≠ []
  channels : Highest i window input.windowChannels

theorem Collected.visit {before window : List (ℕ → PortFrame)} {i : ℕ} {input : ProbeInput}
    (h : Collected before window i input) (frame : ℕ → PortFrame) :
    Collected before (window ++ [frame]) i (input.visit (frame i)) := by
  have hloop := foldl_visitChannel (frame i).voltage
    { input with
      windowChannels := if (frame i).visits > input.windowChannels then (frame i).visits else input.windowChannels }
    (frame i).visits
  have hsample : ∀ c, visitedSamples i c [frame] = if c < (frame i).visits then [(frame i).voltage c] else [] := by
    intro c
    by_cases hc : c < (frame i).visits
    · simp [visitedSamples, hc]
    · simp [visitedSamples, hc]
  constructor
  case acc =>
    intro c
    have hacc : (input.visit (frame i)).acc c = _ := (hloop c).1
    rw [hacc, visitedSamples_append, hsample]
    by_cases hc : c < (frame i).visits
    · rw [if_pos hc, if_pos hc]
      apply (h.acc c).concat
      rw [Bool.not_eq_true', ← Bool.not_eq_true, h.seen, not_not]
    · rw [if_neg hc, if_neg hc, List.append_nil]
      exact h.acc c
  case seen =>
    intro c
    have hseen : (input.visit (frame i)).channelSeen.testBit c = _ := (hloop c).2.1
    have hnil : finiteSamples [] = [] := rfl
    rw [hseen, Bool.or_eq_true, h.seen, visitedSamples_append, finiteSamples_append, hsample]
    by_cases hc : c < (frame i).visits
    · simp [hc, imp_iff_not_or]
    · simp [hc, hnil]
  case channels =>
    have hchannels : (input.visit (frame i)).windowChannels = _ := (hloop 0).2.2
    rw [hchannels]
    exact h.channels.concat frame

/-- The next window starts with the triggers as they are. -/
theorem Collected.beginWindow {before window : List (ℕ → PortFrame)} {i : ℕ} {input : ProbeInput}
    (h : Collected before window i input) : Collected (before ++ window) [] i input.beginWindow := by
  constructor
  case acc =>
    intro c
    rw [visitedSamples_append, gateState_append, ← (h.acc c).gateHigh]
    exact gathered_reset (input.acc c)
  case seen =>
    intro c
    simp [ProbeInput.beginWindow, visitedSamples, finiteSamples]
  case channels => exact ⟨by simp, .inl rfl⟩

/-! ### Windows -/

/-- A snapshot of an input reports the window, which came after the frames before. -/
structure Published (sqrt : ℚ → ℚ) (before window : List (ℕ → PortFrame)) (i : ℕ) (snap : ProbeWindowSnapshot) : Prop where
  windowFrames : snap.windowFrames.toNat = window.length
  channelCount : Highest i window snap.channelCount
  reports : ∀ c < snap.channelCount,
    Reports sqrt (gateState false (visitedSamples i c before)) (visitedSamples i c window) (snap.channels c)
  risingEdges : ∀ c, (snap.channels c).risingEdges.toNat =
    gateCount (gateState false (visitedSamples i c before)) (visitedSamples i c window)

theorem length_visitedSamples_le (i c : ℕ) (frames : List (ℕ → PortFrame)) :
    (visitedSamples i c frames).length ≤ frames.length := List.length_filterMap_le _ _

theorem visitedSamples_eq_nil {i c channels : ℕ} {frames : List (ℕ → PortFrame)} (h : Highest i frames channels)
    (hc : channels ≤ c) : visitedSamples i c frames = [] := by
  unfold visitedSamples
  rw [List.filterMap_eq_nil_iff]
  intro frame hframe
  exact if_neg (not_lt.mpr ((h.1 frame hframe).trans hc))

theorem Collected.snapshot (sqrt : ℚ → ℚ) {before window : List (ℕ → PortFrame)} {i : ℕ} {input : ProbeInput}
    (h : Collected before window i input) (m : ProbeModule) (hframes : m.windowFrame.toNat = window.length) :
    Published sqrt before window i (m.snapshot sqrt input) := by
  have hlength : ∀ c, (visitedSamples i c window).length < 2 ^ 32 := by
    intro c
    have hle := length_visitedSamples_le i c window
    have hlt := m.windowFrame.toNat_lt
    omega
  constructor
  case windowFrames => exact hframes
  case channelCount => exact h.channels
  case reports =>
    intro c hc
    have hc : c < input.windowChannels := hc
    show Reports _ _ _ (if c < input.windowChannels then _ else _)
    rw [if_pos hc]
    exact (h.acc c).finalize sqrt (hlength c)
  case risingEdges =>
    intro c
    show (if c < input.windowChannels then finalizeChannel sqrt (input.acc c) else {}).risingEdges.toNat = _
    split
    · exact ((h.acc c).finalize sqrt (hlength c)).risingEdges
    · next hc =>
      rw [visitedSamples_eq_nil h.channels (not_lt.mp hc)]
      rfl

/-- How many frames a window has. -/
def windowLength (windowTarget : UInt32) : ℕ := if windowTarget = 0 then 1 else windowTarget.toNat

/-- The module has published these windows, and the rest of the frames is in the one that is running. -/
structure Running (sqrt : ℚ → ℚ) (windowTarget : UInt32) (windows : List (List (ℕ → PortFrame)))
    (rest : List (ℕ → PortFrame)) (m : ProbeModule) : Prop where
  target : m.windowTarget = windowTarget
  lengths : ∀ window ∈ windows, window.length = windowLength windowTarget
  short : rest.length < windowLength windowTarget
  windowFrame : m.windowFrame.toNat = rest.length
  count : m.published.length = windows.length
  published : ∀ k window snaps, windows[k]? = some window → m.published[k]? = some snaps →
    ∀ i, Published sqrt (windows.take k).flatten window i (snaps i)
  collected : ∀ i, Collected windows.flatten rest i (m.inputs i)

/-- A frame goes on with the window or ends it. -/
theorem Running.process {sqrt : ℚ → ℚ} {windowTarget : UInt32} {windows : List (List (ℕ → PortFrame))}
    {rest : List (ℕ → PortFrame)} {m : ProbeModule} (h : Running sqrt windowTarget windows rest m) (frame : ℕ → PortFrame) :
    Running sqrt windowTarget windows (rest ++ [frame]) (m.process sqrt frame) ∨
      Running sqrt windowTarget (windows ++ [rest ++ [frame]]) [] (m.process sqrt frame) := by
  have hcollected : ∀ i, Collected windows.flatten (rest ++ [frame]) i ((m.inputs i).visit (frame i)) :=
    fun i => (h.collected i).visit frame
  have hshort := h.short
  have hlength : windowLength windowTarget < 2 ^ 32 := by
    have hlt := windowTarget.toNat_lt
    unfold windowLength
    split <;> omega
  have hframe : (m.windowFrame + 1).toNat = (rest ++ [frame]).length := by
    rw [UInt32.toNat_add, h.windowFrame, List.length_append, List.length_singleton]
    show (rest.length + 1) % 2 ^ 32 = rest.length + 1
    exact Nat.mod_eq_of_lt (by omega)
  have hends : m.windowFrame + 1 ≥ m.windowTarget ↔ (rest ++ [frame]).length = windowLength windowTarget := by
    rw [ge_iff_le, UInt32.le_iff_toNat_le, hframe, h.target]
    rw [List.length_append, List.length_singleton]
    unfold windowLength at hshort ⊢
    by_cases hzero : windowTarget = 0
    · rw [if_pos hzero] at hshort ⊢
      rw [hzero]
      show 0 ≤ _ ↔ _
      omega
    · rw [if_neg hzero] at hshort ⊢
      omega
  by_cases hfull : m.windowFrame + 1 ≥ m.windowTarget
  case neg =>
    left
    have hprocess : m.process sqrt frame =
        { m with inputs := fun i => (m.inputs i).visit (frame i), windowFrame := m.windowFrame + 1 } := if_neg hfull
    rw [hprocess]
    rw [hends, List.length_append, List.length_singleton] at hfull
    refine ⟨h.target, h.lengths, ?_, hframe, h.count, h.published, hcollected⟩
    rw [List.length_append, List.length_singleton]
    omega
  case pos =>
    right
    let m' : ProbeModule :=
      { m with
        inputs := fun i => (m.inputs i).visit (frame i), windowFrame := m.windowFrame + 1, sequence := m.sequence + 1 }
    have hprocess : m.process sqrt frame =
        { m' with published := m.published ++ [fun i => m'.snapshot sqrt (m'.inputs i)] }.beginWindow := if_pos hfull
    rw [hprocess]
    constructor
    case target => exact h.target
    case lengths =>
      intro window hwindow
      rcases List.mem_append.mp hwindow with hwindow | hwindow
      · exact h.lengths window hwindow
      · rw [List.mem_singleton.mp hwindow]
        exact hends.mp hfull
    case short => exact Nat.zero_lt_of_lt hshort
    case windowFrame => rfl
    case count =>
      show (m.published ++ [_]).length = _
      rw [List.length_append, List.length_append, h.count, List.length_singleton, List.length_singleton]
    case published =>
      intro k window snaps hwindow hsnaps i
      have hsnaps : (m.published ++ [fun i => m'.snapshot sqrt (m'.inputs i)])[k]? = some snaps := hsnaps
      have hk := (List.getElem?_eq_some_iff.mp hwindow).1
      rw [List.length_append, List.length_singleton] at hk
      rcases Nat.lt_succ_iff_lt_or_eq.mp hk with hk | rfl
      · rw [List.getElem?_append_left hk] at hwindow
        rw [List.getElem?_append_left (h.count ▸ hk)] at hsnaps
        rw [List.take_append_of_le_length hk.le]
        exact h.published k window snaps hwindow hsnaps i
      · rw [List.getElem?_concat_length] at hwindow
        rw [← h.count, List.getElem?_concat_length] at hsnaps
        obtain rfl := Option.some.inj hwindow
        obtain rfl := Option.some.inj hsnaps
        rw [List.take_left]
        exact (hcollected i).snapshot sqrt m' hframe
    case collected =>
      intro i
      rw [List.flatten_append, List.flatten_singleton]
      exact (hcollected i).beginWindow

/-- Every run is cut into windows. -/
theorem running_run (sqrt : ℚ → ℚ) (windowTarget : UInt32) (sampleRate : ℚ) (frames : List (ℕ → PortFrame)) :
    ∃ windows rest, frames = windows.flatten ++ rest ∧
      Running sqrt windowTarget windows rest (ProbeModule.run sqrt { windowTarget, sampleRate } frames) := by
  induction frames using List.reverseRecOn with
  | nil =>
    refine ⟨[], [], rfl, rfl, by simp, ?_, rfl, rfl, by simp, fun i => ⟨fun c => ?_, fun c => ?_, by simp, .inl rfl⟩⟩
    · show 0 < windowLength windowTarget
      unfold windowLength
      split
      · exact Nat.one_pos
      · next hne => exact Nat.pos_of_ne_zero fun hzero => hne (UInt32.toNat_inj.mp hzero)
    · exact gathered_reset {}
    · show Nat.testBit 0 c = true ↔ _
      simp [visitedSamples, finiteSamples]
  | append_singleton frames frame ih =>
    obtain ⟨windows, rest, hframes, h⟩ := ih
    rw [ProbeModule.run, List.foldl_append]
    rcases h.process frame with h | h
    · refine ⟨windows, rest ++ [frame], ?_, h⟩
      rw [hframes, List.append_assoc]
    · refine ⟨windows ++ [rest ++ [frame]], [], ?_, h⟩
      rw [hframes, List.flatten_append, List.flatten_singleton, List.append_nil, List.append_assoc]

/-- The edges of consecutive windows add up. -/
theorem Running.edges {sqrt : ℚ → ℚ} {windowTarget : UInt32} {windows : List (List (ℕ → PortFrame))}
    {rest : List (ℕ → PortFrame)} {m : ProbeModule} (h : Running sqrt windowTarget windows rest m) (i c : ℕ) {n : ℕ}
    (hn : n ≤ windows.length) :
    ((m.published.take n).map fun snaps => ((snaps i).channels c).risingEdges.toNat).sum =
      gateCount false (visitedSamples i c (windows.take n).flatten) := by
  induction n with
  | zero => rfl
  | succ n ih =>
    have hwindow : windows[n]? = some windows[n] := List.getElem?_eq_getElem hn
    have hcount : n < m.published.length := h.count ▸ hn
    have hsnaps : m.published[n]? = some m.published[n] := List.getElem?_eq_getElem hcount
    have hedges := (h.published n _ _ hwindow hsnaps i).risingEdges c
    rw [List.take_succ_eq_append_getElem hcount, List.take_succ_eq_append_getElem hn, List.map_append, List.sum_append,
      List.map_singleton, List.sum_singleton, ih (Nat.le_of_succ_le hn), hedges, List.flatten_append, List.flatten_singleton,
      visitedSamples_append, gateCount_append]

/-- Every window that is published reports the samples of its own frames, and the edges of the windows up to any of them
are those of everything the channel contributed in them. -/
theorem probe_windows_report (sqrt : ℚ → ℚ) (windowTarget : UInt32) (sampleRate : ℚ) (frames : List (ℕ → PortFrame)) :
    let published := (ProbeModule.run sqrt { windowTarget, sampleRate } frames).published
    ∃ (windows : List (List (ℕ → PortFrame))) (rest : List (ℕ → PortFrame)), frames = windows.flatten ++ rest ∧
      (∀ window ∈ windows, window.length = windowLength windowTarget) ∧ rest.length < windowLength windowTarget ∧
      published.length = windows.length ∧
      (∀ k window snaps, windows[k]? = some window → published[k]? = some snaps → ∀ i,
        Highest i window (snaps i).channelCount ∧
          ∀ c < (snaps i).channelCount,
            Reports sqrt (gateState false (visitedSamples i c (windows.take k).flatten)) (visitedSamples i c window)
              ((snaps i).channels c)) ∧
      ∀ n ≤ windows.length, ∀ i c,
        ((published.take n).map fun snaps => ((snaps i).channels c).risingEdges.toNat).sum =
          rises probeGateLowVolts probeGateHighVolts (finiteSamples (visitedSamples i c (windows.take n).flatten)) := by
  obtain ⟨windows, rest, hframes, h⟩ := running_run sqrt windowTarget sampleRate frames
  refine ⟨windows, rest, hframes, h.lengths, h.short, h.count, fun k window snaps hwindow hsnaps i => ?_, fun n hn i c => ?_⟩
  · have hpublished := h.published k window snaps hwindow hsnaps i
    exact ⟨hpublished.channelCount, hpublished.reports⟩
  · have hthresholds : probeGateLowVolts < probeGateHighVolts := by
      unfold probeGateLowVolts probeGateHighVolts
      norm_num
    rw [h.edges i c hn]
    exact Schmitt.count_eq_rises hthresholds _

end RackMcp
