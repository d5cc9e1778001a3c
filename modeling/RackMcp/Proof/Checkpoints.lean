import Mathlib.Logic.Function.Iterate
import RackMcp.Proof.PathText
import RackMcp.Server.Checkpoints

/-!
# No checkpoint is lost to another

Names of checkpoints collide, and the exclusive create decides between the calls: a path that a call holds is there and
no other call holds it (`Checkpoints.Sound`). So a reservation is new, only its call writes to it, and what is given
back is empty (`checkpoints_kept`).
-/

namespace RackMcp.Server

/-! ### Names -/

theorem no_slash_padded (width n : ℕ) : '/' ∉ (padded width n).toList := by
  unfold padded
  rw [String.toList_ofList]
  intro hmem
  obtain hzero | hdigit := List.mem_append.mp hmem
  · exact absurd (List.eq_of_mem_replicate hzero) (by decide)
  · exact absurd (Nat.isDigit_of_mem_toDigits (by decide) (by decide) hdigit) (by decide)

theorem no_slash_append {a b : String} (ha : '/' ∉ a.toList) (hb : '/' ∉ b.toList) : '/' ∉ (a ++ b).toList := by
  rw [String.toList_append, List.mem_append, not_or]
  exact ⟨ha, hb⟩

theorem no_slash_isoYear (year : ℤ) : '/' ∉ (isoYear year).toList := by
  unfold isoYear
  split
  · exact no_slash_padded _ _
  · split
    · exact no_slash_append (by decide) (no_slash_padded _ _)
    · exact no_slash_append (by decide) (no_slash_padded _ _)

theorem no_slash_isoText (year : ℤ) (month day time : ℕ) : '/' ∉ (isoText year month day time).toList := by
  have hyear := no_slash_isoYear year
  unfold isoText
  simp [no_slash_padded, hyear]

theorem no_slash_toISOString {ms : ℤ} {isoStamp : String} (h : toISOString ms = some isoStamp) :
    '/' ∉ isoStamp.toList := by
  unfold toISOString at h
  split at h
  · exact absurd h (by simp)
  · exact Option.some.inj h ▸ no_slash_isoText _ _ _ _

theorem no_slash_safeStamp {isoStamp : String} (h : '/' ∉ isoStamp.toList) : '/' ∉ (safeStamp isoStamp).toList := by
  unfold safeStamp
  rw [String.toList_ofList]
  intro hmem
  obtain ⟨c, hc, heq⟩ := List.mem_map.mp hmem
  split at heq
  · exact absurd heq (by decide)
  · exact h (heq ▸ hc)

theorem no_slash_safeLabel (label : Option String) : '/' ∉ (safeLabel label).toList := by
  unfold safeLabel
  rw [String.toList_ofList]
  intro hmem
  obtain ⟨c, -, hc⟩ := List.mem_flatMap.mp (List.mem_of_mem_take hmem)
  unfold safeLabelChars at hc
  split at hc
  · next hsafe =>
    rw [← List.mem_singleton.mp hc] at hsafe
    exact absurd hsafe (by decide)
  · split at hc
    · exact absurd hc (by decide)
    · exact absurd hc (by decide)

theorem no_slash_repr (n : ℕ) : '/' ∉ (toString n).toList := by
  have hdigits : (toString n).toList = Nat.toDigits 10 n := String.toList_ofList
  rw [hdigits]
  exact fun hmem => absurd (Nat.isDigit_of_mem_toDigits (by decide) (by decide) hmem) (by decide)

theorem isSegment_of_underscore {name : String} (hmark : '_' ∈ name.toList) (hslash : '/' ∉ name.toList) :
    IsSegment name := by
  have hne : ∀ other : String, '_' ∉ other.toList → name ≠ other := fun other hother heq => hother (heq ▸ hmark)
  exact ⟨hne "" (by decide), hne "." (by decide), hne ".." (by decide), hslash⟩

/-- The path is that of a `.vcv` file directly in the directory. -/
def CheckpointIn (root path : String) : Prop :=
  ∃ base, IsSegment (base ++ ".vcv") ∧ path = joinSegments (normalizeSegments (splitPath root) ++ [base ++ ".vcv"])

/-- The stem of names in the directory. -/
def StemIn (root stem : String) : Prop :=
  ∃ name : String, '_' ∈ name.toList ∧ '/' ∉ name.toList ∧
    stem = joinSegments (normalizeSegments (splitPath root) ++ [name])

theorem stemIn_checkpointStem {config : ServerConfig} {fs : FileSystem} {label : Option String} {ms : ℤ}
    {isoStamp stem : String} (hiso : toISOString ms = some isoStamp)
    (h : checkpointStem config fs label isoStamp = .ok stem) :
    ∃ root, canonicalDir fs config.checkpointsDir = .ok root ∧ StemIn root stem := by
  unfold checkpointStem at h
  rcases hroot : canonicalDir fs config.checkpointsDir with e | root
  · rw [hroot] at h
    exact absurd h nofun
  · rw [hroot] at h
    have hmark : '_' ∈ (safeStamp isoStamp ++ "_" ++ safeLabel label).toList := by simp
    have hslash : '/' ∉ (safeStamp isoStamp ++ "_" ++ safeLabel label).toList :=
      no_slash_append (no_slash_append (no_slash_safeStamp (no_slash_toISOString hiso)) (by decide))
        (no_slash_safeLabel label)
    refine ⟨root, rfl, _, hmark, hslash, ?_⟩
    rw [← Except.ok.inj h, resolveSegments_segment root (isSegment_of_underscore hmark hslash)]

/-- Whatever the attempt, the candidate stays in the directory. -/
theorem StemIn.candidate {root stem : String} (h : StemIn root stem) (n : ℕ) :
    CheckpointIn root (checkpointCandidate stem n) := by
  obtain ⟨name, hmark, hslash, rfl⟩ := h
  have hsegment : ∀ suffix : String, '/' ∉ suffix.toList → IsSegment (name ++ suffix ++ ".vcv") := by
    intro suffix hsuffix
    exact isSegment_of_underscore (by simp [hmark]) (no_slash_append (no_slash_append hslash hsuffix) (by decide))
  unfold checkpointCandidate
  split
  · refine ⟨name, ?_, joinSegments_concat ..⟩
    have hplain := hsegment "" (by decide)
    rwa [String.append_empty] at hplain
  · refine ⟨name ++ "-" ++ toString n, ?_, ?_⟩
    · have hassoc : name ++ "-" ++ toString n = name ++ ("-" ++ toString n) := String.append_assoc
      rw [hassoc]
      exact hsegment _ (no_slash_append (by decide) (no_slash_repr n))
    · rw [joinSegments_concat, joinSegments_concat, joinSegments_concat]

/-! ### Steps -/

/-- The path that a call was given and has not given back. -/
def Reservation.path? : Reservation → Option String
  | .reserved path | .failed path | .inspected path => some path
  | _ => none

namespace Checkpoints

/-- The call holds a reservation of the path. -/
def Holds (s : Checkpoints) (c : ℕ) (path : String) : Prop := (s.calls c).path? = some path

/-- What an event does. -/
inductive Step (s : Checkpoints) : CheckpointEvent → Checkpoints → List CheckpointAct → Prop
  | still {e : CheckpointEvent} : Step s e s []
  | began (c : ℕ) (config : ServerConfig) (fs : FileSystem) (label : Option String) (stampMs : ℤ)
      (idle : s.calls c = .idle) :
      Step s (.reserve c config fs label stampMs) (s.setCall c (begins config fs label stampMs)) []
  | retried (c : ℕ) (error : Option String) (stem : String) (n left : ℕ) (trying : s.calls c = .trying stem n (left + 1)) :
      Step s (.create c error) (s.setCall c (.trying stem (n + 1) left)) []
  | refused (c : ℕ) (error : Option String) (stem : String) (n left : ℕ) (e : Thrown)
      (trying : s.calls c = .trying stem n left) : Step s (.create c error) (s.setCall c (.refused e)) []
  | created (c : ℕ) (error : Option String) (stem : String) (n left : ℕ) (trying : s.calls c = .trying stem n left)
      (absent : s.files (checkpointCandidate stem n) = none) :
      Step s (.create c error)
        ((s.setFile (checkpointCandidate stem n) (some 0)).setCall c (.reserved (checkpointCandidate stem n)))
        [.returned c (checkpointCandidate stem n)]
  | renamed (c size : ℕ) (path : String) (reserved : s.calls c = .reserved path) :
      Step s (.rename c size) (s.setFile path (some size)) []
  | reported (c : ℕ) (path : String) (reserved : s.calls c = .reserved path) :
      Step s (.reportFailure c) (s.setCall c (.failed path)) []
  | inspected (c : ℕ) (path : String) (failed : s.calls c = .failed path) (empty : s.files path = some 0) :
      Step s (.stat c) (s.setCall c (.inspected path)) []
  | left (c : ℕ) (path : String) (failed : s.calls c = .failed path) :
      Step s (.stat c) (s.setCall c .released) []
  | removed (c : ℕ) (path : String) (inspected : s.calls c = .inspected path) :
      Step s (.unlink c) ((s.setFile path none).setCall c .released) [.removed c path]

theorem attempt_cases (s : Checkpoints) (c : ℕ) (error : Option String) (stem : String) (n left : ℕ)
    (htrying : s.calls c = .trying stem n left) :
    Step s (.create c error) (s.attempt c error stem n left).1 (s.attempt c error stem n left).2 := by
  rcases left with _ | left
  · exact .refused c error stem n 0 _ htrying
  · unfold attempt createAnswer
    dsimp only
    by_cases hthere : (s.files (checkpointCandidate stem n)).isSome = true
    · rw [if_pos hthere]
      exact .retried c error stem n left htrying
    · rw [if_neg hthere]
      split
      · exact .created c none stem n (left + 1) htrying (Option.not_isSome_iff_eq_none.mp hthere)
      · exact .retried c _ stem n left htrying
      · exact .refused c _ stem n (left + 1) _ htrying

theorem step_cases (s : Checkpoints) (e : CheckpointEvent) : Step s e (s.step e).1 (s.step e).2 := by
  unfold step
  rcases e with ⟨c, config, fs, label, stampMs⟩ | ⟨c, error⟩ | ⟨c, size⟩ | c | c | c
  · dsimp only
    split
    · next hidle => exact .began c config fs label stampMs hidle
    · exact .still
  · dsimp only
    split
    · next stem n left htrying => exact attempt_cases s c error stem n left htrying
    · exact .still
  · dsimp only
    split
    · next path hreserved => exact .renamed c size path hreserved
    · exact .still
  · dsimp only
    split
    · next path hreserved => exact .reported c path hreserved
    · exact .still
  · dsimp only
    split
    · next path hfailed =>
      by_cases hempty : s.files path = some 0
      · rw [if_pos hempty]
        exact .inspected c path hfailed hempty
      · rw [if_neg hempty]
        exact .left c path hfailed
    · exact .still
  · dsimp only
    split
    · next path hinspected => exact .removed c path hinspected
    · exact .still

/-! ### The invariant -/

/-- A path that a call holds is there, and it alone holds it; what was found empty is empty. -/
structure Sound (s : Checkpoints) : Prop where
  alone : ∀ c d path, s.Holds c path → s.Holds d path → c = d
  there : ∀ c path, s.Holds c path → (s.files path).isSome
  empty : ∀ c path, s.calls c = .inspected path → s.files path = some 0

theorem sound_start (files : String → Option ℕ) : (start files).Sound := ⟨nofun, nofun, nofun⟩

variable {s t : Checkpoints} {c : ℕ} {r : Reservation} {path : String}

theorem calls_setCall (d : ℕ) : (s.setCall c r).calls d = if d = c then r else s.calls d := Function.update_apply ..

theorem files_setFile (file : Option ℕ) (other : String) :
    (s.setFile path file).files other = if other = path then file else s.files other := Function.update_apply ..

/-- A call that is given no new path changes who holds what only by giving up. -/
theorem Holds.of_setCall {d : ℕ} (hr : r.path? = none ∨ r.path? = (s.calls c).path?) (h : (s.setCall c r).Holds d path) :
    s.Holds d path := by
  unfold Holds at h ⊢
  rw [calls_setCall] at h
  split at h
  · next heq =>
    rw [heq]
    obtain hnone | hsame := hr
    · rw [hnone] at h
      exact absurd h (by simp)
    · rw [← hsame]
      exact h
  · exact h

theorem Sound.setCall (hs : s.Sound) (hr : r.path? = none ∨ r.path? = (s.calls c).path?)
    (hempty : ∀ path, r = .inspected path → s.files path = some 0) : (s.setCall c r).Sound := by
  refine ⟨fun d e path hd he => hs.alone d e path (hd.of_setCall hr) (he.of_setCall hr),
    fun d path hd => hs.there d path (hd.of_setCall hr), fun d path hd => ?_⟩
  rw [calls_setCall] at hd
  split at hd
  · exact hempty path hd
  · exact hs.empty d path hd

theorem path?_begins (config : ServerConfig) (fs : FileSystem) (label : Option String) (stampMs : ℤ) :
    (begins config fs label stampMs).path? = none := by
  unfold begins
  split
  · rfl
  · split <;> rfl

/-- A call creates a file where there was none. -/
theorem Sound.create (hs : s.Sound) (habsent : s.files path = none) :
    ((s.setFile path (some 0)).setCall c (.reserved path)).Sound := by
  -- nobody holds a path that is not there
  have hfree : ∀ d, ¬ s.Holds d path := by
    intro d hd
    have hthere := hs.there d path hd
    rw [habsent] at hthere
    exact absurd hthere (by simp)
  have hholds : ∀ d other, ((s.setFile path (some 0)).setCall c (.reserved path)).Holds d other →
      (d = c ∧ other = path) ∨ (d ≠ c ∧ other ≠ path ∧ s.Holds d other) := by
    intro d other hd
    unfold Holds at hd
    rw [calls_setCall] at hd
    split at hd
    · next heq => exact .inl ⟨heq, (Option.some.inj hd).symm⟩
    · next hne => exact .inr ⟨hne, fun heq => hfree d (heq ▸ hd), hd⟩
  refine ⟨fun d e other hd he => ?_, fun d other hd => ?_, fun d other hd => ?_⟩
  · obtain ⟨rfl, rfl⟩ | ⟨-, hne, hd⟩ := hholds d other hd
    · obtain ⟨rfl, -⟩ | ⟨-, hne, -⟩ := hholds e _ he
      · rfl
      · exact absurd rfl hne
    · obtain ⟨-, heq⟩ | ⟨-, -, he⟩ := hholds e other he
      · exact absurd heq hne
      · exact hs.alone d e other hd he
  · show ((s.setFile path (some 0)).files other).isSome = true
    rw [files_setFile]
    split
    · rfl
    · next hne =>
      obtain ⟨-, heq⟩ | ⟨-, -, hd⟩ := hholds d other hd
      · exact absurd heq hne
      · exact hs.there d other hd
  · rw [calls_setCall] at hd
    split at hd
    · exact absurd hd nofun
    · show (s.setFile path (some 0)).files other = some 0
      rw [files_setFile]
      split
      · rfl
      · exact hs.empty d other hd

/-- The plugin writes to the path of a call that still waits for it. -/
theorem Sound.rename (hs : s.Sound) (hreserved : s.calls c = .reserved path) (size : ℕ) :
    (s.setFile path (some size)).Sound := by
  refine ⟨hs.alone, fun d other hd => ?_, fun d other hd => ?_⟩
  · rw [files_setFile]
    split
    · rfl
    · exact hs.there d other hd
  · have hother : s.calls d = .inspected other := hd
    rw [files_setFile, if_neg]
    · exact hs.empty d other hother
    · rintro rfl
      obtain rfl := hs.alone d c other (by unfold Holds; rw [hother]; rfl) (by unfold Holds; rw [hreserved]; rfl)
      rw [hreserved] at hother
      exact absurd hother nofun

/-- A call removes the file of its path and gives the path up. -/
theorem Sound.remove (hs : s.Sound) (hinspected : s.calls c = .inspected path) :
    ((s.setFile path none).setCall c .released).Sound := by
  have hholds : ∀ d other, ((s.setFile path none).setCall c .released).Holds d other →
      s.Holds d other ∧ other ≠ path := by
    intro d other hd
    have hkept : s.Holds d other := Holds.of_setCall (s := s.setFile path none) (.inl rfl) hd
    refine ⟨hkept, ?_⟩
    rintro rfl
    obtain rfl := hs.alone d c other hkept (by unfold Holds; rw [hinspected]; rfl)
    unfold Holds at hd
    rw [calls_setCall, if_pos rfl] at hd
    exact absurd hd nofun
  have hfiles : ∀ other, other ≠ path → ((s.setFile path none).setCall c .released).files other = s.files other := by
    intro other hne
    show (s.setFile path none).files other = s.files other
    rw [files_setFile, if_neg hne]
  refine ⟨fun d e other hd he => hs.alone d e other (hholds d other hd).1 (hholds e other he).1, fun d other hd => ?_,
    fun d other hd => ?_⟩
  · rw [hfiles other (hholds d other hd).2]
    exact hs.there d other (hholds d other hd).1
  · have hheld := hholds d other (by unfold Holds; rw [hd]; rfl)
    rw [hfiles other hheld.2]
    rw [calls_setCall] at hd
    split at hd
    · exact absurd hd nofun
    · exact hs.empty d other hd

theorem Step.sound {e : CheckpointEvent} {acts : List CheckpointAct} (h : Step s e t acts) (hs : s.Sound) :
    t.Sound := by
  rcases h with _ | ⟨c, config, fs, label, stampMs, hidle⟩ | ⟨c, error, stem, n, left, htrying⟩ |
    ⟨c, error, stem, n, left, e, htrying⟩ | ⟨c, error, stem, n, left, htrying, habsent⟩ | ⟨c, size, path, hreserved⟩ |
    ⟨c, path, hreserved⟩ | ⟨c, path, hfailed, hfound⟩ | ⟨c, path, hfailed⟩ | ⟨c, path, hinspected⟩
  · exact hs
  · refine hs.setCall (.inl (path?_begins ..)) fun path heq => ?_
    have hnone := path?_begins config fs label stampMs
    rw [heq] at hnone
    exact absurd hnone nofun
  · exact hs.setCall (.inl rfl) nofun
  · exact hs.setCall (.inl rfl) nofun
  · exact hs.create habsent
  · exact hs.rename hreserved size
  · exact hs.setCall (.inr (by rw [hreserved]; rfl)) nofun
  · refine hs.setCall (.inr (by rw [hfailed]; rfl)) fun path' heq => ?_
    rw [← Reservation.inspected.inj heq]
    exact hfound
  · exact hs.setCall (.inl rfl) nofun
  · exact hs.remove hinspected

/-! ### One call alone -/

/-- What `reserveCheckpointPath` comes back with. -/
def ended : Except Thrown String → Reservation
  | .ok path => .reserved path
  | .error e => .refused e

/-- Attempts that nothing comes between end as the loop of `reserveCheckpointPath` does on one file system. -/
theorem attempts_eq_reserveFrom (fs : FileSystem) (error : Option String) (c : ℕ) (stem : String) (n left : ℕ)
    (s : Checkpoints) (hcreate : fs.create = s.createAnswer error) (htrying : s.calls c = .trying stem n left) :
    ((fun s : Checkpoints => (s.step (.create c error)).1)^[left + 1] s).calls c = ended (reserveFrom fs stem n left) := by
  induction left generalizing n s with
  | zero =>
    show (s.step (.create c error)).1.calls c = _
    unfold step
    simp only [htrying, attempt, reserveFrom, ended]
    exact if_pos rfl
  | succ left ih =>
    rw [Function.iterate_succ_apply]
    -- a call that is through makes no more attempts
    have hthrough : ∀ (r : Reservation) (t : Checkpoints), t.calls c = r → (∀ stem n left, r ≠ .trying stem n left) →
        ((fun s : Checkpoints => (s.step (.create c error)).1)^[left + 1] t).calls c = r := by
      intro r t hr hnot
      have hfixed : (t.step (.create c error)).1 = t := by
        unfold step
        dsimp only
        split
        · next h => exact absurd (hr.symm.trans h) (hnot _ _ _)
        · rfl
      rw [Function.iterate_fixed hfixed, hr]
    have hstep : (s.step (.create c error)).1 = (s.attempt c error stem n (left + 1)).1 := by
      unfold step
      simp only [htrying]
    unfold reserveFrom
    rw [hstep, hcreate]
    unfold attempt
    dsimp only
    generalize s.createAnswer error (checkpointCandidate stem n) = answer
    rcases answer with _ | code
    · refine hthrough (.reserved _) _ ?_ (by simp)
      exact (calls_setCall c).trans (if_pos rfl)
    · by_cases hcode : code = "EEXIST"
      · subst hcode
        exact ih (n + 1) (s.setCall c (.trying stem (n + 1) left)) hcreate ((calls_setCall c).trans (if_pos rfl))
      · simp only
        refine hthrough (.refused _) _ ?_ (by simp)
        exact (calls_setCall c).trans (if_pos rfl)

/-! ### Runs -/

variable {files : String → Option ℕ} {es : List CheckpointEvent} {k : ℕ}

theorem sound_run (files : String → Option ℕ) (es : List CheckpointEvent) (k : ℕ) : (checkpointsAt files es k).Sound :=
  Trace.invariant (sound_start files) (fun s e hs => (step_cases s e).sound hs) k

/-- The step of the run at index `k`. -/
theorem step_at (files : String → Option ℕ) {e : CheckpointEvent} (he : es[k]? = some e) :
    ∃ acts, Step (checkpointsAt files es k) e (checkpointsAt files es (k + 1)) acts ∧
      ∀ act, Acts files es k act ↔ act ∈ acts := by
  have hnext : checkpointsAt files es (k + 1) = ((checkpointsAt files es k).step e).1 := Trace.stateAt_succ he
  refine ⟨((checkpointsAt files es k).step e).2, ?_, fun act => ⟨fun ⟨e', he', hmem⟩ => ?_, fun h => ⟨e, he, h⟩⟩⟩
  · rw [hnext]
    exact step_cases _ e
  · obtain rfl := Option.some.inj (he.symm.trans he')
    exact hmem

/-- An earlier event began the call, and found this checkpoints root. -/
def FoundRoot (es : List CheckpointEvent) (k c : ℕ) (root : String) : Prop :=
  ∃ j config fs label stampMs, j < k ∧ es[j]? = some (.reserve c config fs label stampMs) ∧
    canonicalDir fs config.checkpointsDir = .ok root

theorem calls_setCall_trying {d n left : ℕ} {stem : String} (h : (s.setCall d r).calls c = .trying stem n left) :
    (c = d ∧ r = .trying stem n left) ∨ s.calls c = .trying stem n left := by
  rw [calls_setCall] at h
  split at h
  · next heq => exact .inl ⟨heq, h⟩
  · exact .inr h

/-- A call that makes attempts began now or was at them before. -/
theorem Step.trying {e : CheckpointEvent} {acts : List CheckpointAct} {n left : ℕ} {stem : String}
    (hstep : Step s e t acts) (h : t.calls c = .trying stem n left) :
    (∃ n left, s.calls c = .trying stem n left) ∨
      ∃ config fs label stampMs, e = .reserve c config fs label stampMs ∧
        begins config fs label stampMs = .trying stem n left := by
  rcases hstep with _ | ⟨d, config, fs, label, stampMs, hidle⟩ | ⟨d, error, stem', n', left', htrying⟩ |
    ⟨d, error, stem', n', left', e, htrying⟩ | ⟨d, error, stem', n', left', htrying, habsent⟩ | ⟨d, size, path, hreserved⟩ |
    ⟨d, path, hreserved⟩ | ⟨d, path, hfailed, hfound⟩ | ⟨d, path, hfailed⟩ | ⟨d, path, hinspected⟩
  · exact .inl ⟨n, left, h⟩
  · obtain ⟨rfl, heq⟩ | hold := calls_setCall_trying h
    · exact .inr ⟨config, fs, label, stampMs, rfl, heq⟩
    · exact .inl ⟨n, left, hold⟩
  · obtain ⟨rfl, heq⟩ | hold := calls_setCall_trying h
    · obtain ⟨rfl, -, -⟩ := Reservation.trying.inj heq
      exact .inl ⟨n', _, htrying⟩
    · exact .inl ⟨n, left, hold⟩
  · obtain ⟨-, heq⟩ | hold := calls_setCall_trying h
    · exact absurd heq nofun
    · exact .inl ⟨n, left, hold⟩
  · obtain ⟨-, heq⟩ | hold := calls_setCall_trying h
    · exact absurd heq nofun
    · exact .inl ⟨n, left, hold⟩
  · exact .inl ⟨n, left, h⟩
  · obtain ⟨-, heq⟩ | hold := calls_setCall_trying h
    · exact absurd heq nofun
    · exact .inl ⟨n, left, hold⟩
  · obtain ⟨-, heq⟩ | hold := calls_setCall_trying h
    · exact absurd heq nofun
    · exact .inl ⟨n, left, hold⟩
  · obtain ⟨-, heq⟩ | hold := calls_setCall_trying h
    · exact absurd heq nofun
    · exact .inl ⟨n, left, hold⟩
  · obtain ⟨-, heq⟩ | hold := calls_setCall_trying h
    · exact absurd heq nofun
    · exact .inl ⟨n, left, hold⟩

theorem stemIn_begins {config : ServerConfig} {fs : FileSystem} {label : Option String} {stampMs : ℤ} {stem : String}
    {n left : ℕ} (h : begins config fs label stampMs = .trying stem n left) :
    ∃ root, canonicalDir fs config.checkpointsDir = .ok root ∧ StemIn root stem := by
  unfold begins at h
  split at h
  · exact absurd h (by simp)
  · next isoStamp hiso =>
    split at h
    · exact absurd h (by simp)
    · next stem' hstem =>
      obtain ⟨rfl, -, -⟩ := Reservation.trying.inj h
      exact stemIn_checkpointStem hiso hstem

/-- The candidates of a call lie in the root it found. -/
theorem trying_run {c n left : ℕ} {stem : String} (h : (checkpointsAt files es k).calls c = .trying stem n left) :
    ∃ root, FoundRoot es k c root ∧ StemIn root stem := by
  induction k generalizing n left with
  | zero => exact absurd h nofun
  | succ k ih =>
    have hkept : (∃ n left, (checkpointsAt files es k).calls c = .trying stem n left) →
        ∃ root, FoundRoot es (k + 1) c root ∧ StemIn root stem := by
      rintro ⟨n, left, hold⟩
      obtain ⟨root, ⟨j, config, fs, label, stampMs, hj, hrest⟩, hstem⟩ := ih hold
      exact ⟨root, ⟨j, config, fs, label, stampMs, by omega, hrest⟩, hstem⟩
    rcases he : es[k]? with _ | e
    · have hsame : checkpointsAt files es (k + 1) = checkpointsAt files es k := Trace.stateAt_succ_of_none he
      rw [hsame] at h
      exact hkept ⟨n, left, h⟩
    · obtain ⟨acts, hstep, -⟩ := step_at files he
      obtain hold | ⟨config, fs, label, stampMs, rfl, hbegins⟩ := hstep.trying h
      · exact hkept hold
      · obtain ⟨root, hroot, hstem⟩ := stemIn_begins hbegins
        exact ⟨root, ⟨k, config, fs, label, stampMs, by omega, he, hroot⟩, hstem⟩

theorem returned_at {c : ℕ} {path : String} (h : Acts files es k (.returned c path)) :
    (checkpointsAt files es k).files path = none ∧ ∃ root, FoundRoot es k c root ∧ CheckpointIn root path := by
  obtain ⟨e, he, -⟩ := id h
  obtain ⟨acts, hstep, hacts⟩ := step_at files he
  have hmem := (hacts _).mp h
  have hfound := @trying_run files es k
  generalize checkpointsAt files es k = s at hstep hfound ⊢
  generalize checkpointsAt files es (k + 1) = t at hstep
  rcases hstep with _ | _ | _ | _ | ⟨d, error, stem, n, left, htrying, habsent⟩ | _ | _ | _ | _ | _
  case created =>
    obtain ⟨rfl, rfl⟩ := CheckpointAct.returned.inj (List.mem_singleton.mp hmem)
    obtain ⟨root, hroot, hstem⟩ := hfound htrying
    exact ⟨habsent, root, hroot, hstem.candidate n⟩
  all_goals exact absurd hmem (by simp)

theorem removed_at {c : ℕ} {path : String} (h : Acts files es k (.removed c path)) :
    (checkpointsAt files es k).files path = some 0 := by
  obtain ⟨e, he, -⟩ := id h
  obtain ⟨acts, hstep, hacts⟩ := step_at files he
  have hmem := (hacts _).mp h
  have hsound := sound_run files es k
  generalize checkpointsAt files es k = s at hstep hsound ⊢
  generalize checkpointsAt files es (k + 1) = t at hstep
  rcases hstep with _ | _ | _ | _ | _ | _ | _ | _ | _ | ⟨d, path', hinspected⟩
  case removed =>
    obtain ⟨rfl, rfl⟩ := CheckpointAct.removed.inj (List.mem_singleton.mp hmem)
    exact hsound.empty _ _ hinspected
  all_goals exact absurd hmem (by simp)

/-- A file with data stays, but for what the plugin writes to the path of a call that holds it. -/
theorem Step.files_kept {e : CheckpointEvent} {acts : List CheckpointAct} {size : ℕ} (h : Step s e t acts)
    (hs : s.Sound) (hdata : s.files path = some size) (hsize : 0 < size) :
    t.files path = some size ∨ ∃ c size', e = .rename c size' ∧ s.Holds c path := by
  rcases h with _ | _ | _ | _ | ⟨c, error, stem, n, left, htrying, habsent⟩ | ⟨c, size', path', hreserved⟩ | _ | _ | _ |
    ⟨c, path', hinspected⟩
  case created =>
    left
    show (s.setFile _ (some 0)).files path = some size
    rw [files_setFile, if_neg, hdata]
    rintro rfl
    rw [habsent] at hdata
    exact absurd hdata nofun
  case renamed =>
    by_cases heq : path = path'
    · exact .inr ⟨c, size', rfl, by unfold Holds; rw [hreserved, heq]; rfl⟩
    · left
      rw [files_setFile, if_neg heq, hdata]
  case removed =>
    left
    show (s.setFile path' none).files path = some size
    rw [files_setFile, if_neg, hdata]
    rintro rfl
    have hempty := hs.empty c path hinspected
    rw [hdata] at hempty
    have hzero := Option.some.inj hempty
    omega
  all_goals exact .inl hdata

end Checkpoints

open Checkpoints

/-- In every interleaving of reservations, renames and releases of any number of calls, over any files: two calls
never hold one path; a path that is returned holds nothing before, lies directly in the checkpoints root and ends in
`.vcv`; a file that is removed is empty; and a file with data stays but for what is saved on behalf of the call that holds
its path. -/
theorem checkpoints_kept (files : String → Option ℕ) (es : List CheckpointEvent) (k : ℕ) :
    (∀ c d path, (checkpointsAt files es k).Holds c path → (checkpointsAt files es k).Holds d path → c = d) ∧
      (∀ c path, Acts files es k (.returned c path) →
        (checkpointsAt files es k).files path = none ∧ ∃ root, FoundRoot es k c root ∧ CheckpointIn root path) ∧
      (∀ c path, Acts files es k (.removed c path) → (checkpointsAt files es k).files path = some 0) ∧
      ∀ path size, 0 < size → (checkpointsAt files es k).files path = some size →
        (checkpointsAt files es (k + 1)).files path = some size ∨
          ∃ c size', es[k]? = some (.rename c size') ∧ (checkpointsAt files es k).Holds c path := by
  have hsound := sound_run files es k
  refine ⟨hsound.alone, fun c path h => returned_at h, fun c path h => removed_at h, fun path size hsize hdata => ?_⟩
  rcases he : es[k]? with _ | e
  · have hsame : checkpointsAt files es (k + 1) = checkpointsAt files es k := Trace.stateAt_succ_of_none he
    rw [hsame]
    exact .inl hdata
  · obtain ⟨acts, hstep, -⟩ := step_at files he
    obtain hkept | ⟨c, size', rfl, hholds⟩ := hstep.files_kept hsound hdata hsize
    · exact .inl hkept
    · exact .inr ⟨c, size', rfl, hholds⟩

end RackMcp.Server
