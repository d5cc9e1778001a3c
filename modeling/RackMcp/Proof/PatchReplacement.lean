import RackMcp.Lib.Trace
import RackMcp.Proof.Lockstep
import RackMcp.Proof.SessionStep
import RackMcp.Rackside.Handlers

/-!
# What the poll notices

The poll compares the host with what it was when the watermark was last armed. A patch that the user replaced has an
empty history, so the poll tells it from the patch of the watermark exactly if that one had a history, or differs in
both its path and its modules, or has no module in common with it (`Host.Distinguishable`). The epoch has risen by the
first poll exactly if that is so, or if the plugin replaced the patch once more in between (`replacement_noticed_iff`).
-/

namespace RackMcp

variable {rack : Rack} {J : Jansson} {r : RackReadings} {h : Host}

namespace Host

/-! ### What a command does to the epoch and the watermark -/

/-- What `armReplacementWatermark` records of the host. -/
def snapshot (h : Host) : Watermark := ⟨h.path, h.historyCount, h.sortedModuleIds⟩

/-- From `h` to `t` the epoch rises by `bumps`, and the watermark stays or is armed at `t`. -/
structure Marks (h t : Host) (bumps : Int) : Prop where
  epoch : t.rack.patchEpoch = h.rack.patchEpoch + bumps
  mark : t.watermark = h.watermark ∨ t.watermark = some t.snapshot

theorem Marks.still {t : Host} (hepoch : t.rack.patchEpoch = h.rack.patchEpoch)
    (hmark : t.watermark = h.watermark) : Marks h t 0 := ⟨by rw [hepoch, Int.add_zero], .inl hmark⟩

theorem Marks.arm {t : Host} {bumps : Int} (hm : Marks h t bumps) : Marks h t.armReplacementWatermark bumps :=
  ⟨hm.epoch, .inr rfl⟩

theorem Marks.of_eq {h' t : Host} {bumps : Int} (hm : Marks h' t bumps)
    (hepoch : h'.rack.patchEpoch = h.rack.patchEpoch) (hmark : h'.watermark = h.watermark) : Marks h t bumps := by
  refine ⟨by rw [hm.epoch, hepoch], ?_⟩
  rw [← hmark]
  exact hm.mark

end Host

open Host

theorem ensureBridge_marks (r : RackReadings) (h : Host) : Marks h (ensureBridge r h).2 0 := by
  unfold ensureBridge
  split
  · exact .still rfl rfl
  · rcases r.insertion with _ | _ | _ | ⟨m, panels⟩ | ⟨e, patch⟩ <;> exact .still rfl rfl

/-- A replaced patch that is given its Bridge module. -/
theorem bumped_marks (r : RackReadings) (h : Host) : Marks h (ensureBridge r h.bumpEpoch).2 1 := by
  have hensure := ensureBridge_marks r h.bumpEpoch
  refine ⟨?_, hensure.mark⟩
  rw [hensure.epoch, Int.add_zero]
  rfl

theorem finishReplacement_marks (rack : Rack) (r : RackReadings) (saved : Bool) (h : Host) :
    Marks h (finishReplacement rack r saved h).2 1 := by
  have hbumped := bumped_marks r h
  unfold finishReplacement
  rcases heq : ensureBridge r h.bumpEpoch with ⟨e | warnings, left⟩
  · rw [heq] at hbumped
    exact hbumped
  · rw [heq] at hbumped
    exact hbumped.arm

theorem loadFailed_marks (r : RackReadings) (what : String) (h : Host) : Marks h (loadFailed r what h).2 1 := by
  have hbumped := bumped_marks r h
  unfold loadFailed
  rcases heq : ensureBridge r h.bumpEpoch with ⟨e | warnings, left⟩
  · rw [heq] at hbumped
    exact hbumped
  · rw [heq] at hbumped
    exact hbumped.arm

/-- The patch manager returned, or threw what the handlers catch. -/
def RackReadings.settles (r : RackReadings) : Bool :=
  match r.replacement.threw with
  | none | some (.exception _) => true
  | some _ => false

/-- The command replaces the patch when its handler runs: a load of a file or a clear. -/
def PluginReplaces (r : RackReadings) (cmd : BridgeCommand) : Prop :=
  (cmd.method = "patchfile.load" ∧ jstr cmd.payload "path" ≠ "" ∨ cmd.method = "patchfile.clear") ∧ r.settles = true

instance (r : RackReadings) (cmd : BridgeCommand) : Decidable (PluginReplaces r cmd) :=
  inferInstanceAs (Decidable (_ ∧ _))

theorem patchSave_marks (rack : Rack) (r : RackReadings) (request : Json) (h : Host) :
    Marks h (patchSave rack r request h).2 0 := by
  unfold patchSave
  dsimp only
  split
  · exact .still rfl rfl
  · rcases savePatchAtomic r (saveTarget request h) with _ | (what | what | _)
    · exact (Marks.still (h := h) (t := { h with path := saveTarget request h }) rfl rfl).arm
    · exact .still rfl rfl
    · exact .still rfl rfl
    · exact .still rfl rfl

theorem patchSaveCopy_eq (rack : Rack) (r : RackReadings) (request : Json) (h : Host) :
    (patchSaveCopy rack r request h).2 = h := by
  unfold patchSaveCopy
  dsimp only
  split
  · rfl
  · rcases savePatchAtomic r (jstr request "path") with _ | (what | what | _) <;> rfl

theorem patchLoad_marks (rack : Rack) (r : RackReadings) (request : Json) (h : Host) :
    Marks h (patchLoad rack r request h).2 (if jstr request "path" ≠ "" ∧ r.settles then 1 else 0) := by
  unfold patchLoad RackReadings.settles
  dsimp only
  by_cases hpath : jstr request "path" = ""
  · simp only [hpath, if_true, not_true_eq_false, ne_eq, false_and, if_false]
    exact .still rfl rfl
  · simp only [hpath, if_false, not_false_eq_true, ne_eq, true_and]
    rcases r.replacement.threw with _ | (what | what | _)
    · exact (finishReplacement_marks rack r true _).of_eq rfl rfl
    · exact (loadFailed_marks r what _).of_eq rfl rfl
    · exact .still rfl rfl
    · exact .still rfl rfl

theorem patchClear_marks (rack : Rack) (r : RackReadings) (h : Host) :
    Marks h (patchClear rack r h).2 (if r.settles then 1 else 0) := by
  unfold patchClear RackReadings.settles
  dsimp only
  rcases r.replacement.threw with _ | (what | what | _)
  · exact (finishReplacement_marks rack r false _).of_eq rfl rfl
  · exact ⟨rfl, .inr rfl⟩
  · exact .still rfl rfl
  · exact .still rfl rfl

theorem txnCommit_patchEpoch (rack : Rack) (request : Json) (durationMs : Double) (rs : RackState) :
    (txnCommit rack request durationMs rs).2.patchEpoch = rs.patchEpoch := by
  unfold txnCommit
  split
  · rfl
  · split
    · unfold finishCommit
      dsimp only
      split <;> rfl
    · rfl

theorem txnUndoLast_patchEpoch (rack : Rack) (request : Json) (rs : RackState) :
    (txnUndoLast rack request rs).2.patchEpoch = rs.patchEpoch := by
  unfold txnUndoLast undoHistory
  split
  · rfl
  · rcases rs.history.getLast? with _ | ⟨name, actions⟩
    · rfl
    · dsimp only
      rcases Outcomes.runFrom rack.undo 0 actions.reverse rs.patch with patch | ⟨what, patch⟩ <;> rfl

theorem txn_marks (rack : Rack) (r : RackReadings) (method : String) (request : Json) (h : Host) :
    Marks h (h.txn rack r method request).2 0 := by
  unfold Host.txn
  split
  · exact .still rfl rfl
  split
  · exact .still (txnCommit_patchEpoch rack request r.durationMs h.rack) rfl
  · exact .still (txnUndoLast_patchEpoch rack request h.rack) rfl

theorem after_marks (rack : Rack) (r : RackReadings) (cmd : BridgeCommand) (h : Host) :
    Marks h (h.after rack r cmd) (if PluginReplaces r cmd then 1 else 0) := by
  have hother : cmd.method ≠ "patchfile.load" → cmd.method ≠ "patchfile.clear" → ¬ PluginReplaces r cmd := by
    rintro hload hclear ⟨⟨hmethod, -⟩ | hmethod, -⟩
    · exact hload hmethod
    · exact hclear hmethod
  unfold Host.after
  by_cases htxn : cmd.method ∈ Host.txnMethods
  · have hall : ∀ method ∈ Host.txnMethods, method ≠ "patchfile.load" ∧ method ≠ "patchfile.clear" := by decide
    rw [if_pos htxn, if_neg (hother (hall _ htxn).1 (hall _ htxn).2)]
    exact txn_marks rack r cmd.method cmd.payload h
  · rw [if_neg htxn]
    by_cases hfile : cmd.method ∈ patchFileMethods
    · rw [if_pos hfile]
      unfold Host.patchFile
      by_cases hsave : cmd.method = "patchfile.save"
      · rw [if_pos hsave, if_neg (hother (by rw [hsave]; decide) (by rw [hsave]; decide))]
        exact patchSave_marks rack r cmd.payload h
      rw [if_neg hsave]
      by_cases hcopy : cmd.method = "patchfile.saveCopy"
      · rw [if_pos hcopy, if_neg (hother (by rw [hcopy]; decide) (by rw [hcopy]; decide)), patchSaveCopy_eq]
        exact .still rfl rfl
      rw [if_neg hcopy]
      by_cases hload : cmd.method = "patchfile.load"
      · have hreplaces : PluginReplaces r cmd ↔ jstr cmd.payload "path" ≠ "" ∧ r.settles = true := by
          unfold PluginReplaces
          simp [hload]
        rw [if_pos hload, if_congr hreplaces rfl rfl]
        exact patchLoad_marks rack r cmd.payload h
      · have hclear : cmd.method = "patchfile.clear" := by
          simp only [patchFileMethods, List.mem_cons, List.not_mem_nil, or_false] at hfile
          tauto
        have hreplaces : PluginReplaces r cmd ↔ r.settles = true := by
          unfold PluginReplaces
          simp [hclear]
        rw [if_neg hload, if_congr hreplaces rfl rfl]
        exact patchClear_marks rack r h
    · have hall : "patchfile.load" ∈ patchFileMethods ∧ "patchfile.clear" ∈ patchFileMethods := by decide
      rw [if_neg hfile, if_neg (hother (fun hm => hfile (hm ▸ hall.1)) (fun hm => hfile (hm ▸ hall.2)))]
      exact .still rfl rfl

/-! ### What an event does to them -/

namespace Host

/-- The next poll is not skipped. -/
def due (h : Host) : Bool := h.pollCountdown ≤ 1

/-- The poll finds a watermark that it tells the host from. -/
def pollNotices (h : Host) : Bool := h.due && h.watermark.any h.replacedSince

/-- By how much an event raises the epoch. -/
def bumps (rack : Rack) (J : Jansson) (h : Host) : HostEvent → Int
  | .execute t r cmd => if (h.execute rack J t r cmd).1.handlerRan = true ∧ PluginReplaces r cmd then 1 else 0
  | .poll => if h.pollNotices then 1 else 0
  | .edit .. | .userFile .. => 0

theorem pollPatchReplacement_marks (h : Host) : Marks h h.pollPatchReplacement (if h.pollNotices then 1 else 0) := by
  unfold pollPatchReplacement pollNotices due
  by_cases hdue : h.pollCountdown ≤ 1
  · have hnot : ¬ h.pollCountdown - 1 > 0 := by omega
    simp only [hnot, hdue, if_false, decide_true, Bool.true_and]
    rcases h.watermark with _ | mark
    · exact ⟨(Int.add_zero _).symm, .inr rfl⟩
    · dsimp only [Option.any]
      change Marks h (if h.replacedSince mark = true then _ else _) _
      by_cases hreplaced : h.replacedSince mark = true
      · rw [if_pos hreplaced, if_pos hreplaced]
        exact ⟨rfl, .inr rfl⟩
      · rw [if_neg hreplaced, if_neg hreplaced]
        exact ⟨(Int.add_zero _).symm, .inr rfl⟩
  · have hgt : h.pollCountdown - 1 > 0 := by omega
    simp only [hgt, hdue, if_true, decide_false, Bool.false_and, Bool.false_eq_true, if_false]
    exact .still rfl rfl

theorem execute_marks (t : ExecutionReadings) (r : RackReadings) (cmd : BridgeCommand) (h : Host) :
    Marks h (h.execute rack J t r cmd).2 (h.bumps rack J (.execute t r cmd)) := by
  have hafter := after_marks rack r cmd h
  unfold bumps
  dsimp only
  by_cases hran : (h.execute rack J t r cmd).1.handlerRan = true
  · have heq : (h.execute rack J t r cmd).2 =
        { h.after rack r cmd with opCache := (h.execute rack J t r cmd).2.opCache } := by
      unfold Host.execute at hran ⊢
      dsimp only at hran ⊢
      rw [if_pos hran]
    rw [heq]
    simp only [hran, true_and]
    exact ⟨hafter.epoch, hafter.mark⟩
  · have heq : (h.execute rack J t r cmd).2 = { h with opCache := (h.execute rack J t r cmd).2.opCache } := by
      unfold Host.execute at hran ⊢
      dsimp only at hran ⊢
      rw [if_neg hran]
    rw [heq]
    rw [if_neg fun h => hran h.1]
    exact .still rfl rfl

theorem step_marks (rack : Rack) (J : Jansson) (h : Host) (e : HostEvent) : Marks h (h.step rack J e).1 (h.bumps rack J e) := by
  rcases e with ⟨t, r, cmd⟩ | _ | _ | _
  · exact execute_marks t r cmd h
  · exact .still rfl rfl
  · exact .still rfl rfl
  · exact pollPatchReplacement_marks h

theorem bumps_nonneg (rack : Rack) (J : Jansson) (h : Host) (e : HostEvent) : 0 ≤ h.bumps rack J e := by
  unfold bumps
  split
  · split <;> omega
  · split <;> omega
  · omega
  · omega

/-! ### Runs -/

/-- The host before the event at index `k`. -/
def hostAt (rack : Rack) (J : Jansson) (h : Host) (es : List HostEvent) (k : ℕ) : Host :=
  Trace.stateAt (Host.step rack J) h es k

/-- The patch epoch before the event at index `k`. -/
def epochAt (rack : Rack) (J : Jansson) (h : Host) (es : List HostEvent) (k : ℕ) : Int :=
  (hostAt rack J h es k).rack.patchEpoch

variable {es : List HostEvent}

theorem hostAt_succ {k : ℕ} {e : HostEvent} (he : es[k]? = some e) :
    hostAt rack J h es (k + 1) = ((hostAt rack J h es k).step rack J e).1 := Trace.stateAt_succ he

/-- The watermark is what the host was after some event before. -/
theorem watermark_run (hstart : h.watermark = none) {k : ℕ} {mark : Watermark}
    (hmark : (hostAt rack J h es k).watermark = some mark) :
    ∃ a, a < k ∧ mark = (hostAt rack J h es (a + 1)).snapshot := by
  induction k with
  | zero =>
    have hnone : (hostAt rack J h es 0).watermark = none := hstart
    rw [hnone] at hmark
    exact absurd hmark (by simp)
  | succ k ih =>
    have hkept : (hostAt rack J h es k).watermark = some mark →
        ∃ a, a < k + 1 ∧ mark = (hostAt rack J h es (a + 1)).snapshot := by
      intro hold
      obtain ⟨a, ha, heq⟩ := ih hold
      exact ⟨a, by omega, heq⟩
    rcases he : es[k]? with _ | e
    · have hsame : hostAt rack J h es (k + 1) = hostAt rack J h es k := Trace.stateAt_succ_of_none he
      rw [hsame] at hmark
      exact hkept hmark
    · have hmarks := (step_marks rack J (hostAt rack J h es k) e).mark
      rw [← hostAt_succ he, hmark] at hmarks
      obtain hold | harmed := hmarks
      · exact hkept hold.symm
      · exact ⟨k, by omega, Option.some.inj harmed⟩

/-- The event at index `i` raises the epoch. -/
def BumpsAt (rack : Rack) (J : Jansson) (h : Host) (es : List HostEvent) (i : ℕ) : Prop :=
  ∃ e, es[i]? = some e ∧ 0 < (hostAt rack J h es i).bumps rack J e

theorem epochAt_next (rack : Rack) (J : Jansson) (h : Host) (es : List HostEvent) (i : ℕ) : epochAt rack J h es i ≤ epochAt rack J h es (i + 1) ∧
    (epochAt rack J h es i < epochAt rack J h es (i + 1) ↔ BumpsAt rack J h es i) := by
  unfold epochAt BumpsAt
  rcases he : es[i]? with _ | e
  · have hsame : hostAt rack J h es (i + 1) = hostAt rack J h es i := Trace.stateAt_succ_of_none he
    rw [hsame]
    simp
  · have hepoch := (step_marks rack J (hostAt rack J h es i) e).epoch
    have hnonneg := bumps_nonneg rack J (hostAt rack J h es i) e
    rw [hostAt_succ he, hepoch]
    refine ⟨by omega, fun hlt => ⟨e, rfl, by omega⟩, ?_⟩
    rintro ⟨e', he', hpos⟩
    obtain rfl := Option.some.inj he'
    omega

/-- The epoch never falls, and it has risen exactly if an event in between raised it. -/
theorem epochAt_run (rack : Rack) (J : Jansson) (h : Host) (es : List HostEvent) {j k : ℕ} (hjk : j ≤ k) : epochAt rack J h es j ≤ epochAt rack J h es k ∧
    (epochAt rack J h es j < epochAt rack J h es k ↔ ∃ i, j ≤ i ∧ i < k ∧ BumpsAt rack J h es i) := by
  induction k, hjk using Nat.le_induction with
  | base =>
    refine ⟨le_rfl, fun h => absurd h (lt_irrefl _), ?_⟩
    rintro ⟨i, hj, hi, -⟩
    omega
  | succ k hjk ih =>
    have hnext := epochAt_next rack J h es k
    refine ⟨by omega, fun hlt => ?_, ?_⟩
    · by_cases hbump : epochAt rack J h es k < epochAt rack J h es (k + 1)
      · exact ⟨k, hjk, by omega, hnext.2.mp hbump⟩
      · obtain ⟨i, hj, hi, hbumps⟩ := ih.2.mp (by omega)
        exact ⟨i, hj, by omega, hbumps⟩
    · rintro ⟨i, hj, hi, hbumps⟩
      by_cases heq : i = k
      · subst heq
        have hlt := hnext.2.mpr hbumps
        omega
      · have hlt := ih.2.mpr ⟨i, hj, by omega, hbumps⟩
        omega

/-! ### Replacements -/

/-- The user replaces the patch with the event at index `j`: the history is empty then, and the path and the modules
are those of the file. The event at index `k` is the first poll after it, and no action is pushed in between. -/
structure UserReplacement (rack : Rack) (J : Jansson) (h : Host) (es : List HostEvent) (j k : ℕ) : Prop where
  replaced : ∃ patch path, es[j]? = some (.userFile patch [] 0 path)
  later : j < k
  poll : es[k]? = some .poll
  due : (hostAt rack J h es k).due = true
  first : ∀ i, j < i → i < k → es[i]? = some .poll → (hostAt rack J h es i).due = false
  unedited : ∀ i, j < i → i < k →
    (hostAt rack J h es (i + 1)).historyCount ≤ (hostAt rack J h es i).historyCount

/-- A revert with no edits since the load: the file of the patch is opened while the history is empty. -/
def RevertsUnedited (rack : Rack) (J : Jansson) (h : Host) (es : List HostEvent) (j : ℕ) : Prop :=
  ∃ patch path, es[j]? = some (.userFile patch [] 0 path) ∧ path ≠ "" ∧ path = (hostAt rack J h es j).path ∧
    (hostAt rack J h es j).historyCount = 0

/-- The plugin replaces the patch with the event at index `i`. -/
def ReplacedByPlugin (rack : Rack) (J : Jansson) (h : Host) (es : List HostEvent) (i : ℕ) : Prop :=
  ∃ t r cmd, es[i]? = some (.execute t r cmd) ∧
    ((hostAt rack J h es i).execute rack J t r cmd).1.handlerRan = true ∧ PluginReplaces r cmd

/-- A host whose history is empty can be told from the one that `h₀` was. -/
def Distinguishable (h₀ h : Host) : Prop :=
  0 < h₀.historyCount ∨ (h.path ≠ h₀.path ∧ h.sortedModuleIds ≠ h₀.sortedModuleIds) ∨
    (h₀.sortedModuleIds ≠ [] ∧ h₀.sortedModuleIds.Disjoint h.sortedModuleIds)

theorem replacedSince_snapshot {h₀ : Host} (hempty : h.historyCount = 0) :
    h.replacedSince h₀.snapshot = true ↔ Distinguishable h₀ h := by
  have hdisjoint : (h.sortedModuleIds.all fun id => !h₀.sortedModuleIds.contains id) = true ↔
      h₀.sortedModuleIds.Disjoint h.sortedModuleIds := by
    rw [List.all_eq_true]
    refine ⟨fun hall id hold hnew => ?_, fun hdisjoint id hnew => ?_⟩
    · have hnot := hall id hnew
      rw [List.contains_iff_mem.mpr hold] at hnot
      exact absurd hnot (by decide)
    · rw [Bool.not_eq_true', ← Bool.not_eq_true]
      intro hold
      exact hdisjoint (List.contains_iff_mem.mp hold) hnew
  unfold replacedSince Distinguishable snapshot
  by_cases hedited : 0 < h₀.historyCount
  · rw [if_pos ⟨hempty, hedited⟩]
    simp [hedited]
  · rw [if_neg fun h => hedited h.2, if_neg (by rw [hempty]; exact Nat.not_lt_zero _)]
    simp only [Bool.or_eq_true, Bool.and_eq_true, decide_eq_true_eq, hdisjoint, hedited, false_or]

variable {j k : ℕ}

/-- The history is still empty at the poll. -/
theorem UserReplacement.historyCount_eq (hrep : UserReplacement rack J h es j k) :
    (hostAt rack J h es k).historyCount = 0 := by
  have hempty : ∀ i, j + 1 ≤ i → i ≤ k → (hostAt rack J h es i).historyCount = 0 := by
    intro i hi
    induction i, hi using Nat.le_induction with
    | base =>
      intro _
      obtain ⟨patch, path, he⟩ := hrep.replaced
      rw [hostAt_succ he]
      rfl
    | succ i hi ih =>
      intro hik
      have hle := hrep.unedited i (by omega) (by omega)
      have hzero := ih (by omega)
      omega
  exact hempty k hrep.later le_rfl

/-- Between the replacement and the poll, only the plugin raises the epoch. -/
theorem UserReplacement.bumpsAt_iff (hrep : UserReplacement rack J h es j k) {i : ℕ} (hj : j ≤ i) (hi : i < k) :
    BumpsAt rack J h es i ↔ j < i ∧ ReplacedByPlugin rack J h es i := by
  constructor
  · rintro ⟨e, he, hbumps⟩
    have hlt : j < i := by
      rcases Nat.lt_or_ge j i with hlt | hge
      · exact hlt
      · obtain rfl : i = j := by omega
        obtain ⟨patch, path, hreplaced⟩ := hrep.replaced
        obtain rfl := Option.some.inj (he.symm.trans hreplaced)
        exact absurd hbumps (lt_irrefl _)
    refine ⟨hlt, ?_⟩
    rcases e with ⟨t, r, cmd⟩ | _ | _ | _
    · have hruns : ((hostAt rack J h es i).execute rack J t r cmd).1.handlerRan = true ∧ PluginReplaces r cmd := by
        by_contra hnot
        have hzero : bumps rack J (hostAt rack J h es i) (.execute t r cmd) = 0 := if_neg hnot
        omega
      exact ⟨t, r, cmd, he, hruns⟩
    · exact absurd hbumps (lt_irrefl _)
    · exact absurd hbumps (lt_irrefl _)
    · have hskips := hrep.first i hlt hi he
      have hzero : bumps rack J (hostAt rack J h es i) .poll = 0 := by
        unfold bumps pollNotices
        rw [hskips]
        rfl
      omega
  · rintro ⟨-, t, r, cmd, he, hruns⟩
    refine ⟨_, he, ?_⟩
    have hone : bumps rack J (hostAt rack J h es i) (.execute t r cmd) = 1 := if_pos hruns
    omega

end Host

open Host

/-- In every run of commands, user edits, user files and polls: by the first poll after a replacement through Rack's own
UI, with no edit in between, the epoch has risen exactly if the plugin replaced the patch once more in between, or
if the host at the poll can be told from the one at which the watermark was armed. -/
theorem replacement_noticed_iff (rack : Rack) (J : Jansson) (h : Host) (es : List HostEvent) (j k : ℕ)
    (hstart : h.watermark = none) (hrep : UserReplacement rack J h es j k) :
    epochAt rack J h es j < epochAt rack J h es (k + 1) ↔
      (∃ i, j < i ∧ i < k ∧ ReplacedByPlugin rack J h es i) ∨
        ∃ a, a < k ∧ (hostAt rack J h es k).watermark = some (hostAt rack J h es (a + 1)).snapshot ∧
          Distinguishable (hostAt rack J h es (a + 1)) (hostAt rack J h es k) := by
  have hempty := hrep.historyCount_eq
  have hnext := epochAt_next rack J h es k
  have hrun := epochAt_run rack J h es hrep.later.le
  have hbetween : epochAt rack J h es j < epochAt rack J h es k ↔
      ∃ i, j < i ∧ i < k ∧ ReplacedByPlugin rack J h es i := by
    rw [hrun.2]
    constructor
    · rintro ⟨i, hj, hi, hbumps⟩
      obtain ⟨hlt, hplugin⟩ := (hrep.bumpsAt_iff hj hi).mp hbumps
      exact ⟨i, hlt, hi, hplugin⟩
    · rintro ⟨i, hj, hi, hplugin⟩
      exact ⟨i, hj.le, hi, (hrep.bumpsAt_iff hj.le hi).mpr ⟨hj, hplugin⟩⟩
  have hpoll : epochAt rack J h es k < epochAt rack J h es (k + 1) ↔
      ∃ a, a < k ∧ (hostAt rack J h es k).watermark = some (hostAt rack J h es (a + 1)).snapshot ∧
        Distinguishable (hostAt rack J h es (a + 1)) (hostAt rack J h es k) := by
    have hnotices : BumpsAt rack J h es k ↔ (hostAt rack J h es k).pollNotices = true := by
      constructor
      · rintro ⟨e, he, hbumps⟩
        obtain rfl := Option.some.inj (he.symm.trans hrep.poll)
        by_contra hnot
        have hzero : bumps rack J (hostAt rack J h es k) .poll = 0 := if_neg hnot
        omega
      · intro hnotices
        have hone : bumps rack J (hostAt rack J h es k) .poll = 1 := if_pos hnotices
        exact ⟨_, hrep.poll, by omega⟩
    rw [hnext.2, hnotices]
    unfold pollNotices
    rw [hrep.due, Bool.true_and]
    constructor
    · intro hany
      obtain ⟨mark, hmark, hreplaced⟩ := (Option.any_eq_true ..).mp hany
      obtain ⟨a, ha, rfl⟩ := watermark_run hstart hmark
      exact ⟨a, ha, hmark, (replacedSince_snapshot hempty).mp hreplaced⟩
    · rintro ⟨a, -, hmark, hdistinct⟩
      exact (Option.any_eq_true ..).mpr ⟨_, hmark, (replacedSince_snapshot hempty).mpr hdistinct⟩
  rw [← hbetween, ← hpoll]
  omega

/-! ### Replacements on the bench -/

/-- The bench is open as a file when the plugin starts. -/
def benchOpened (history : List HistoryEntry) : Host :=
  { rack := { patch := benchPatch, history }, path := "/song.vcv" }

/-- The same modules without their cable. -/
def benchCopy : Patch := { benchPatch with cables := [] }

/-- The first poll arms the watermark, the user opens the copy, and the polls go on. -/
def benchOpens : List HostEvent := .poll :: .userFile benchCopy [] 0 "/copy.vcv" :: List.replicate 30 .poll

theorem benchOpens_replaced (history : List HistoryEntry)
    (hdue : ∀ i < 32, (hostAt benchRack benchJansson (benchOpened history) benchOpens i).due = decide (i = 0 ∨ i = 31))
    (hempty : ∀ i < 32, 1 < i →
      (hostAt benchRack benchJansson (benchOpened history) benchOpens i).historyCount = 0) :
    UserReplacement benchRack benchJansson (benchOpened history) benchOpens 1 31 where
  replaced := ⟨benchCopy, "/copy.vcv", rfl⟩
  later := by decide
  poll := rfl
  due := hdue 31 (by decide)
  first i hi hlt _ := by
    rw [hdue i (by omega)]
    exact decide_eq_false (by omega)
  unedited i hi hlt := by
    rw [hempty i (by omega) hi, hempty (i + 1) (by omega) (by omega)]

set_option maxRecDepth 4000 in
/-- After an edit, opening the copy is noticed. -/
theorem opened_after_edit_noticed :
    epochAt benchRack benchJansson (benchOpened [(stringBytes "edit", [])]) benchOpens 1 <
      epochAt benchRack benchJansson (benchOpened [(stringBytes "edit", [])]) benchOpens 32 :=
  (replacement_noticed_iff benchRack benchJansson (benchOpened [(stringBytes "edit", [])]) benchOpens 1 31 rfl
    (benchOpens_replaced [(stringBytes "edit", [])] (by decide) (by decide))).mpr
    (.inr ⟨0, by decide, rfl, .inl (by decide)⟩)

set_option maxRecDepth 4000 in
/-- Without one, it is not. -/
theorem opened_copy_unnoticed :
    ¬ ∀ (rack : Rack) (J : Jansson) (h : Host) (es : List HostEvent) (j k : ℕ), h.watermark = none →
      UserReplacement rack J h es j k → ¬ RevertsUnedited rack J h es j →
        epochAt rack J h es j < epochAt rack J h es (k + 1) := by
  intro hall
  have hrevert : ¬ RevertsUnedited benchRack benchJansson (benchOpened []) benchOpens 1 := by
    rintro ⟨patch, path, he, -, hpath, -⟩
    obtain ⟨-, -, -, rfl⟩ := HostEvent.userFile.inj (Option.some.inj he)
    revert hpath
    decide
  have hlt := hall benchRack benchJansson (benchOpened []) benchOpens 1 31 rfl
    (benchOpens_replaced [] (by decide) (by decide)) hrevert
  have hsame : epochAt benchRack benchJansson (benchOpened []) benchOpens 1 =
      epochAt benchRack benchJansson (benchOpened []) benchOpens 31 := rfl
  have hbumps := (epochAt_next _ _ _ _ 31).2.mp (hsame ▸ hlt)
  obtain ⟨e, he, hbumps⟩ := hbumps
  obtain rfl := Option.some.inj (he.symm.trans (show benchOpens[31]? = some HostEvent.poll from rfl))
  have hmark : (hostAt benchRack benchJansson (benchOpened []) benchOpens 31).watermark =
      some (hostAt benchRack benchJansson (benchOpened []) benchOpens 1).snapshot := rfl
  -- the modules are the same
  have hids : (hostAt benchRack benchJansson (benchOpened []) benchOpens 31).sortedModuleIds =
      (hostAt benchRack benchJansson (benchOpened []) benchOpens 1).sortedModuleIds := rfl
  have hnot : ¬ Distinguishable (hostAt benchRack benchJansson (benchOpened []) benchOpens 1)
      (hostAt benchRack benchJansson (benchOpened []) benchOpens 31) := by
    rintro (hedited | ⟨-, hne⟩ | ⟨hne, hdisjoint⟩)
    · exact absurd hedited (by decide)
    · exact hne hids
    · obtain ⟨id, hid⟩ := List.exists_mem_of_ne_nil _ hne
      exact hdisjoint hid (hids ▸ hid)
  have hunnoticed : (hostAt benchRack benchJansson (benchOpened []) benchOpens 31).pollNotices = false := by
    unfold pollNotices
    rw [hmark, Bool.and_eq_false_iff]
    exact .inr (Bool.eq_false_iff.mpr fun h => hnot ((replacedSince_snapshot rfl).mp h))
  unfold bumps at hbumps
  rw [hunnoticed] at hbumps
  exact absurd hbumps (by decide)

end RackMcp
