import RackMcp.Core.Queues
import RackMcp.Lib.Trace

/-!
# A read is of one snapshot

Every store to `seq_` is counted by `stores`, of which `seq_` is the remainder modulo `2 ^ 32`. A snapshot is copied into
the slot that does not hold the one published last, so the latter stands while the count does; and a reader that finds
`seq_` as it was knows that the count is the same, if fewer than `2 ^ 31` snapshots were published in between.
-/

namespace RackMcp

namespace SnapshotState

variable {α : Type} {size : ℕ} {zero : α} {events : List (SnapshotEvent α)} {s : SnapshotState α}

/-! ### Counting the stores -/

/-- How often `seq_` was stored. -/
def stores (s : SnapshotState α) : ℕ :=
  2 * s.published.length +
    match s.writer with
    | .copying _ _ _ => 1
    | _ => 0

/-- The slot that holds what was published last. -/
def current (s : SnapshotState α) : ℕ → α := s.buffer.slots (s.published.length % 2)

/-- What holds between the writer's steps. -/
structure Sound (size : ℕ) (s : SnapshotState α) : Prop where
  seq : s.buffer.seq.toNat = s.stores % 2 ^ 32
  loaded : ∀ value t, s.writer = .loaded value t → t = s.buffer.seq
  copying : ∀ value t left, s.writer = .copying value t left → t.toNat = 2 * s.published.length % 2 ^ 32 ∧
    ∀ i < size, i ∉ left → s.buffer.slots ((s.published.length + 1) % 2) i = value i
  latest : ∀ value rest, s.published = value :: rest → ∀ i < size, s.current i = value i

theorem slot_writer {t : UInt32} {n : ℕ} (h : t.toNat = 2 * n % 2 ^ 32) : ((t / 2 + 1) % 2).toNat = (n + 1) % 2 := by
  rw [UInt32.toNat_mod, UInt32.toNat_add, UInt32.toNat_div, h]
  show ((2 * n % 2 ^ 32 / 2 + 1) % 2 ^ 32) % 2 = _
  omega

theorem slot_reader {t : UInt32} {n : ℕ} (h : t.toNat = 2 * n % 2 ^ 32) : (t / 2 % 2).toNat = n % 2 := by
  rw [UInt32.toNat_mod, UInt32.toNat_div, h]
  show (2 * n % 2 ^ 32 / 2) % 2 = _
  omega

theorem sound_initial : (initial zero).Sound size where
  seq := rfl
  loaded _ _ h := by cases h
  copying _ _ _ h := by cases h
  latest _ _ h := by cases h

theorem sound_setReader (h : s.Sound size) (reader : ℕ) (r : Reading α) : (s.setReader reader r).Sound size :=
  ⟨h.seq, h.loaded, h.copying, h.latest⟩

theorem readers_setReader_self (s : SnapshotState α) (reader : ℕ) (r : Reading α) :
    (s.setReader reader r).readers reader = r := by
  unfold setReader
  exact Function.update_self _ _ _

theorem readers_setReader_of_ne {reader reader' : ℕ} (h : reader' ≠ reader) (s : SnapshotState α) (r : Reading α) :
    (s.setReader reader r).readers reader' = s.readers reader' := by
  unfold setReader
  exact Function.update_of_ne h _ _

theorem buffer_setReader (s : SnapshotState α) (reader : ℕ) (r : Reading α) :
    (s.setReader reader r).buffer = s.buffer := rfl

/-- The reader whose step it is. -/
def readerOf : SnapshotEvent α → Option ℕ
  | .call reader _ | .load reader | .copyOut reader _ | .compare reader => some reader
  | _ => none

/-- The step of a reader changes that reader. -/
theorem step_of_reader (size : ℕ) (s : SnapshotState α) {e : SnapshotEvent α} {reader : ℕ} (h : readerOf e = some reader) :
    ∃ r, s.step size e = s.setReader reader r := by
  have hsame : s = s.setReader reader (s.readers reader) := by
    unfold setReader
    rw [Function.update_eq_self]
  cases e with
  | call reader' out =>
    obtain rfl := Option.some.inj h
    unfold step
    dsimp only
    split
    · exact ⟨_, rfl⟩
    · exact ⟨_, rfl⟩
    · exact ⟨_, hsame⟩
  | load reader' =>
    obtain rfl := Option.some.inj h
    unfold step
    dsimp only
    split
    swap
    · exact ⟨_, hsame⟩
    split
    · exact ⟨_, rfl⟩
    split
    · exact ⟨_, rfl⟩
    split
    · exact ⟨_, rfl⟩
    · exact ⟨_, rfl⟩
  | copyOut reader' word =>
    obtain rfl := Option.some.inj h
    unfold step
    dsimp only
    split
    swap
    · exact ⟨_, hsame⟩
    split
    · exact ⟨_, rfl⟩
    · exact ⟨_, hsame⟩
  | compare reader' =>
    obtain rfl := Option.some.inj h
    unfold step
    dsimp only
    split
    swap
    · exact ⟨_, hsame⟩
    split
    · exact ⟨_, rfl⟩
    · exact ⟨_, rfl⟩
  | _ => cases h

/-- A step of the writer changes no reader. -/
theorem readers_step_of_writer {e : SnapshotEvent α} (h : readerOf e = none) :
    (s.step size e).readers = s.readers := by
  cases e with
  | publish value =>
    unfold step
    dsimp only
    split <;> rfl
  | storeOdd =>
    unfold step
    dsimp only
    split <;> rfl
  | copyIn word =>
    unfold step
    dsimp only
    split
    · split <;> rfl
    · rfl
  | storeEven =>
    unfold step
    dsimp only
    split <;> rfl
  | _ => cases h

theorem sound_step (h : s.Sound size) (e : SnapshotEvent α) : (s.step size e).Sound size := by
  cases e with
  | publish value =>
    unfold step
    dsimp only
    split
    · next hidle =>
      have hstores : ({ s with writer := .loaded value s.buffer.seq } : SnapshotState α).stores = s.stores := by
        simp [stores, hidle]
      refine ⟨hstores.symm ▸ h.seq, ?_, fun _ _ _ hw => (by cases hw), h.latest⟩
      intro _ t hw
      cases hw
      rfl
    · exact h
  | storeOdd =>
    unfold step
    dsimp only
    split
    · next value t hw =>
      have hseq := h.seq
      obtain rfl := h.loaded value t hw
      have hstores : s.stores = 2 * s.published.length := by simp [stores, hw]
      rw [hstores] at hseq
      refine ⟨?_, fun _ _ hw => (by cases hw), ?_, h.latest⟩
      · show (s.buffer.seq + 1).toNat = (2 * s.published.length + 1) % 2 ^ 32
        rw [UInt32.toNat_add, hseq]
        show (2 * s.published.length % 2 ^ 32 + 1) % 2 ^ 32 = _
        omega
      · intro _ _ _ hw
        cases hw
        exact ⟨hseq, fun i hi hleft => absurd (List.mem_range.mpr hi) hleft⟩
    · exact h
  | copyIn word =>
    unfold step
    dsimp only
    split
    swap
    · exact h
    next value t left hw =>
    split
    swap
    · exact h
    next hword =>
    obtain ⟨ht, hcopied⟩ := h.copying value t left hw
    rw [slot_writer ht]
    have hstores : s.stores = 2 * s.published.length + 1 := by simp [stores, hw]
    have hseq := h.seq
    rw [hstores] at hseq
    refine ⟨hseq, fun _ _ hw => (by cases hw), ?_, ?_⟩
    · intro _ _ _ hw'
      cases hw'
      refine ⟨ht, fun i hi hleft => ?_⟩
      show Function.update s.buffer.slots _ _ ((s.published.length + 1) % 2) i = value i
      rw [Function.update_self]
      by_cases hiw : i = word
      · rw [hiw, Function.update_self]
      · rw [Function.update_of_ne hiw]
        exact hcopied i hi fun hmem => hleft (List.mem_filter.mpr ⟨hmem, by simpa using hiw⟩)
    · intro value' rest hpublished i hi
      show Function.update s.buffer.slots _ _ (s.published.length % 2) i = value' i
      rw [Function.update_of_ne (by omega)]
      exact h.latest value' rest hpublished i hi
  | storeEven =>
    unfold step
    dsimp only
    split
    swap
    · exact h
    next value t hw =>
    obtain ⟨ht, hcopied⟩ := h.copying value t [] hw
    refine ⟨?_, fun _ _ hw => (by cases hw), fun _ _ _ hw => (by cases hw), ?_⟩
    · show (t + 2).toNat = (2 * (s.published.length + 1) + 0) % 2 ^ 32
      rw [UInt32.toNat_add, ht]
      show (2 * s.published.length % 2 ^ 32 + 2) % 2 ^ 32 = _
      omega
    · intro _ _ hpublished i hi
      cases hpublished
      exact hcopied i hi (List.not_mem_nil)
  | call reader out =>
    obtain ⟨r, hset⟩ := step_of_reader size s (e := .call reader out) rfl
    exact hset.symm ▸ sound_setReader h reader r
  | load reader =>
    obtain ⟨r, hset⟩ := step_of_reader size s (e := .load reader) rfl
    exact hset.symm ▸ sound_setReader h reader r
  | copyOut reader word =>
    obtain ⟨r, hset⟩ := step_of_reader size s (e := .copyOut reader word) rfl
    exact hset.symm ▸ sound_setReader h reader r
  | compare reader =>
    obtain ⟨r, hset⟩ := step_of_reader size s (e := .compare reader) rfl
    exact hset.symm ▸ sound_setReader h reader r

/-! ### What later steps leave -/

/-- `t` comes after `s`. -/
structure Later (s t : SnapshotState α) : Prop where
  stores : s.stores ≤ t.stores
  published : ∃ new, t.published = new ++ s.published

theorem stores_le (s : SnapshotState α) : 2 * s.published.length ≤ s.stores ∧ s.stores ≤ 2 * s.published.length + 1 := by
  unfold stores
  split <;> omega

theorem Later.refl (s : SnapshotState α) : Later s s := ⟨le_refl _, [], rfl⟩

theorem Later.trans {t u : SnapshotState α} (h : Later s t) (h' : Later t u) : Later s u := by
  obtain ⟨new, hnew⟩ := h.published
  obtain ⟨new', hnew'⟩ := h'.published
  exact ⟨le_trans h.stores h'.stores, new' ++ new, by rw [hnew', hnew, List.append_assoc]⟩

/-- While the count stands, nothing is published. -/
theorem Later.published_eq {t : SnapshotState α} (h : Later s t) (heq : t.stores = s.stores) :
    t.published = s.published := by
  obtain ⟨new, hnew⟩ := h.published
  have hs := stores_le s
  have ht := stores_le t
  have hlength := congrArg List.length hnew
  rw [List.length_append] at hlength
  have hnil : new = [] := List.eq_nil_of_length_eq_zero (by omega)
  rw [hnew, hnil, List.nil_append]

theorem later_step (size : ℕ) (s : SnapshotState α) (e : SnapshotEvent α) : Later s (s.step size e) := by
  rcases hreader : readerOf e with _ | reader
  · cases e with
    | publish value =>
      unfold step
      dsimp only
      split
      · next hidle => exact ⟨by simp [stores, hidle], [], rfl⟩
      · exact .refl s
    | storeOdd =>
      unfold step
      dsimp only
      split
      · next hloaded => exact ⟨by simp [stores, hloaded], [], rfl⟩
      · exact .refl s
    | copyIn word =>
      unfold step
      dsimp only
      split
      · next hcopying =>
        split
        · exact ⟨by simp [stores, hcopying], [], rfl⟩
        · exact .refl s
      · exact .refl s
    | storeEven =>
      unfold step
      dsimp only
      split
      · next value t hcopying =>
        refine ⟨?_, [value], rfl⟩
        simp only [stores, hcopying, List.length_cons]
        omega
      · exact .refl s
    | _ => cases hreader
  · obtain ⟨r, hset⟩ := step_of_reader size s hreader
    rw [hset]
    exact ⟨le_refl _, [], rfl⟩

/-! ### The steps of a reader -/

/-- How a reader comes to be copying. -/
theorem copying_step {e : SnapshotEvent α} {r attempt : ℕ} {before : UInt32} {left : List ℕ} {out : ℕ → α}
    (h : (s.step size e).readers r = .copying attempt before left out) :
    s.readers r = .copying attempt before left out ∨
    (e = .load r ∧ before = s.buffer.seq ∧ before ≠ 0 ∧ before % 2 = 0 ∧ left = List.range size) ∨
    ∃ word left' out', e = .copyOut r word ∧ s.readers r = .copying attempt before left' out' ∧
      left = left'.filter (· ≠ word) ∧ out = Function.update out' word (s.buffer.slots ((before / 2) % 2).toNat word) := by
  rcases hreader : readerOf e with _ | reader
  · rw [readers_step_of_writer hreader] at h
    exact .inl h
  by_cases hr : r = reader
  swap
  · obtain ⟨x, hset⟩ := step_of_reader size s hreader
    rw [hset] at h
    exact .inl ((readers_setReader_of_ne hr s x).symm.trans h)
  subst hr
  cases e with
  | call reader' out' =>
    obtain rfl := Option.some.inj hreader
    unfold step at h
    dsimp only at h
    split at h
    · cases (readers_setReader_self _ _ _).symm.trans h
    · cases (readers_setReader_self _ _ _).symm.trans h
    · exact .inl h
  | load reader' =>
    obtain rfl := Option.some.inj hreader
    unfold step at h
    dsimp only at h
    split at h
    swap
    · exact .inl h
    split at h
    · cases (readers_setReader_self _ _ _).symm.trans h
    split at h
    · cases (readers_setReader_self _ _ _).symm.trans h
    next hzero =>
    split at h
    · cases (readers_setReader_self _ _ _).symm.trans h
    · next heven =>
      obtain ⟨rfl, rfl, rfl, rfl⟩ := Reading.copying.inj ((readers_setReader_self _ _ _).symm.trans h)
      exact .inr (.inl ⟨rfl, rfl, hzero, not_not.mp heven, rfl⟩)
  | copyOut reader' word =>
    obtain rfl := Option.some.inj hreader
    unfold step at h
    dsimp only at h
    split at h
    swap
    · exact .inl h
    next attempt' before' left' out' hcopying =>
    split at h
    · obtain ⟨rfl, rfl, rfl, rfl⟩ := Reading.copying.inj ((readers_setReader_self _ _ _).symm.trans h)
      exact .inr (.inr ⟨word, left', out', rfl, hcopying, rfl, rfl⟩)
    · exact .inl h
  | compare reader' =>
    obtain rfl := Option.some.inj hreader
    unfold step at h
    dsimp only at h
    split at h
    swap
    · exact .inl h
    split at h
    · cases (readers_setReader_self _ _ _).symm.trans h
    · cases (readers_setReader_self _ _ _).symm.trans h
  | _ => cases hreader

/-- How a read comes to return true. -/
theorem returned_step {e : SnapshotEvent α} {r : ℕ} {out : ℕ → α} (h : (s.step size e).readers r = .returned true out)
    (hnew : s.readers r ≠ .returned true out) :
    e = .compare r ∧ ∃ attempt, s.readers r = .copying attempt s.buffer.seq [] out := by
  rcases hreader : readerOf e with _ | reader
  · rw [readers_step_of_writer hreader] at h
    exact absurd h hnew
  by_cases hr : r = reader
  swap
  · obtain ⟨x, hset⟩ := step_of_reader size s hreader
    rw [hset] at h
    exact absurd ((readers_setReader_of_ne hr s x).symm.trans h) hnew
  subst hr
  cases e with
  | call reader' out' =>
    obtain rfl := Option.some.inj hreader
    unfold step at h
    dsimp only at h
    split at h
    · cases (readers_setReader_self _ _ _).symm.trans h
    · cases (readers_setReader_self _ _ _).symm.trans h
    · exact absurd h hnew
  | load reader' =>
    obtain rfl := Option.some.inj hreader
    unfold step at h
    dsimp only at h
    split at h
    swap
    · exact absurd h hnew
    split at h
    · cases (readers_setReader_self _ _ _).symm.trans h
    split at h
    · cases (readers_setReader_self _ _ _).symm.trans h
    split at h
    · cases (readers_setReader_self _ _ _).symm.trans h
    · cases (readers_setReader_self _ _ _).symm.trans h
  | copyOut reader' word =>
    obtain rfl := Option.some.inj hreader
    unfold step at h
    dsimp only at h
    split at h
    swap
    · exact absurd h hnew
    split at h
    · cases (readers_setReader_self _ _ _).symm.trans h
    · exact absurd h hnew
  | compare reader' =>
    obtain rfl := Option.some.inj hreader
    unfold step at h
    dsimp only at h
    split at h
    swap
    · exact absurd h hnew
    next attempt before out' hcopying =>
    split at h
    · next hsame =>
      obtain ⟨-, rfl⟩ := Reading.returned.inj ((readers_setReader_self _ _ _).symm.trans h)
      exact ⟨rfl, attempt, hsame ▸ hcopying⟩
    · cases (readers_setReader_self _ _ _).symm.trans h
  | _ => cases hreader

/-! ### Over a run -/

/-- The state before the event at an index. -/
def stateAt (size : ℕ) (zero : α) (events : List (SnapshotEvent α)) (k : ℕ) : SnapshotState α :=
  Trace.stateAt (α := Empty) (fun s e => (s.step size e, [])) (initial zero) events k

theorem stateAt_succ {k : ℕ} {e : SnapshotEvent α} (he : events[k]? = some e) :
    stateAt size zero events (k + 1) = (stateAt size zero events k).step size e := Trace.stateAt_succ he

theorem stateAt_succ_of_none {k : ℕ} (he : events[k]? = none) :
    stateAt size zero events (k + 1) = stateAt size zero events k := Trace.stateAt_succ_of_none he

theorem sound_run (size : ℕ) (zero : α) (events : List (SnapshotEvent α)) (k : ℕ) :
    (stateAt size zero events k).Sound size :=
  Trace.invariant sound_initial (fun _ e h => sound_step h e) k

/-- What a reader that is copying has, of the state it loaded `seq_` in. -/
structure CopyingSince (size : ℕ) (since now : SnapshotState α) (before : UInt32) (left : List ℕ) (out : ℕ → α) :
    Prop where
  before : before = since.buffer.seq
  settled : since.stores = 2 * since.published.length
  found : since.published ≠ []
  later : Later since now
  copied : now.stores = since.stores → ∀ i < size, i ∉ left → out i = since.current i

theorem CopyingSince.step {since now : SnapshotState α} {before : UInt32} {left : List ℕ} {out : ℕ → α}
    (h : CopyingSince size since now before left out) (e : SnapshotEvent α) :
    CopyingSince size since (now.step size e) before left out where
  before := h.before
  settled := h.settled
  found := h.found
  later := h.later.trans (later_step size now e)
  copied heq := h.copied (by
    have hstep := (later_step size now e).stores
    have hsince := h.later.stores
    omega)

/-- While the count stands, so does what was published last. -/
theorem current_eq {t : SnapshotState α} (hs : s.Sound size) (ht : t.Sound size) (h : Later s t)
    (hfound : s.published ≠ []) (heq : t.stores = s.stores) {i : ℕ} (hi : i < size) : t.current i = s.current i := by
  obtain ⟨value, rest, hpublished⟩ := List.exists_cons_of_ne_nil hfound
  rw [hs.latest value rest hpublished i hi, ht.latest value rest ((h.published_eq heq).trans hpublished) i hi]

/-- A reader that is copying loaded `seq_` before, and of what was published last at that time it has every word it has
copied, or the count has moved. -/
theorem copying_since (k r attempt : ℕ) (before : UInt32) (left : List ℕ) (out : ℕ → α)
    (h : (stateAt size zero events k).readers r = .copying attempt before left out) :
    ∃ j < k, events[j]? = some (.load r) ∧
      CopyingSince size (stateAt size zero events j) (stateAt size zero events k) before left out := by
  induction k generalizing attempt before left out with
  | zero => cases h
  | succ k ih =>
    have hsound := sound_run size zero events k
    rcases he : events[k]? with _ | e
    · rw [stateAt_succ_of_none he] at h ⊢
      obtain ⟨j, hj, hload, hsince⟩ := ih attempt before left out h
      exact ⟨j, by omega, hload, hsince⟩
    rw [stateAt_succ he] at h ⊢
    rcases copying_step h with hsame | ⟨rfl, rfl, hzero, heven, rfl⟩ | ⟨word, left', out', rfl, hcopying, rfl, rfl⟩
    · obtain ⟨j, hj, hload, hsince⟩ := ih attempt before left out hsame
      exact ⟨j, by omega, hload, hsince.step e⟩
    · refine ⟨k, by omega, he, rfl, ?_, ?_, later_step size _ _, fun _ i hi hleft => absurd (List.mem_range.mpr hi) hleft⟩
      · have hbounds := stores_le (stateAt size zero events k)
        have hparity := congrArg UInt32.toNat heven
        rw [UInt32.toNat_mod, hsound.seq] at hparity
        have hparity : (stateAt size zero events k).stores % 2 ^ 32 % 2 = 0 := hparity
        omega
      · intro hnil
        have hbounds := stores_le (stateAt size zero events k)
        have hparity := congrArg UInt32.toNat heven
        rw [UInt32.toNat_mod, hsound.seq] at hparity
        have hparity : (stateAt size zero events k).stores % 2 ^ 32 % 2 = 0 := hparity
        rw [hnil, List.length_nil] at hbounds
        have hseq := hsound.seq
        rw [show (stateAt size zero events k).stores = 0 by omega] at hseq
        exact hzero (UInt32.toNat_inj.mp hseq)
    · obtain ⟨j, hj, hload, hsince⟩ := ih attempt before left' out' hcopying
      have hsince' := hsince.step (.copyOut r word)
      refine ⟨j, by omega, hload, hsince.before, hsince.settled, hsince.found, hsince'.later, fun heq i hi hleft => ?_⟩
      have hstands : (stateAt size zero events k).stores = (stateAt size zero events j).stores := by
        have hstep := (later_step size (stateAt size zero events k) (.copyOut r word)).stores
        have hbefore := hsince.later.stores
        omega
      by_cases hword : i = word
      · subst hword
        have hsettled := hsince.settled
        have hseq : before.toNat = 2 * (stateAt size zero events k).published.length % 2 ^ 32 := by
          rw [hsince.before, (sound_run size zero events j).seq, hsettled, hsince.later.published_eq hstands]
        rw [Function.update_self, slot_reader hseq]
        exact current_eq (sound_run size zero events j) hsound hsince.later hsince.found hstands hi
      · rw [Function.update_of_ne hword]
        exact hsince.copied hstands i hi fun hmem => hleft (List.mem_filter.mpr ⟨hmem, by simpa using hword⟩)

/-! ### An undisturbed read -/

/-- The steps of a reader alone, from the call to the comparison. -/
def readSteps (size r : ℕ) (out : ℕ → α) : List (SnapshotEvent α) :=
  [.call r out, .load r] ++ (List.range size).map (.copyOut r) ++ [.compare r]

theorem copyOut_run {attempt : ℕ} {before : UInt32} (size r : ℕ) (words : List ℕ) (hwords : words.Nodup) (out : ℕ → α)
    (s : SnapshotState α) (h : s.readers r = .copying attempt before words out) :
    ∃ out', (words.map (.copyOut r)).foldl (step size) s = s.setReader r (.copying attempt before [] out') ∧
      ∀ i, out' i = if i ∈ words then s.buffer.slots ((before / 2) % 2).toNat i else out i := by
  induction words generalizing out s with
  | nil =>
    refine ⟨out, ?_, fun i => (if_neg List.not_mem_nil).symm⟩
    unfold setReader
    rw [← h, Function.update_eq_self]
    rfl
  | cons word words ih =>
    obtain ⟨hword, hwords⟩ := List.nodup_cons.mp hwords
    have hleft : (word :: words).filter (· ≠ word) = words := by
      rw [List.filter_cons, if_neg (by simp), List.filter_eq_self]
      intro i hi
      simpa using fun heq : i = word => hword (heq ▸ hi)
    have hstep : s.step size (.copyOut r word) = s.setReader r (.copying attempt before words
        (Function.update out word (s.buffer.slots ((before / 2) % 2).toNat word))) := by
      unfold step
      dsimp only
      rw [h]
      dsimp only
      rw [if_pos List.mem_cons_self, hleft]
    rw [List.map_cons, List.foldl_cons, hstep]
    obtain ⟨out', hrun, hout⟩ := ih hwords _ _ (readers_setReader_self _ _ _)
    refine ⟨out', hrun.trans ?_, fun i => (hout i).trans ?_⟩
    · unfold setReader
      simp only [Function.update_idem]
    · show (if i ∈ words then s.buffer.slots ((before / 2) % 2).toNat i else _) = _
      by_cases hi : i = word
      · subst hi
        rw [if_neg hword, if_pos List.mem_cons_self, Function.update_self]
      · rw [Function.update_of_ne hi]
        simp [hi]

/-- A reader alone reads what was published last. -/
theorem read_alone (hs : s.Sound size) (r : ℕ) (out : ℕ → α) (hwriter : s.writer = .idle)
    (hreader : s.readers r = .idle) (hfound : ¬ 2 ^ 31 ∣ s.published.length) :
    ∃ out', ((readSteps size r out).foldl (step size) s).readers r = .returned true out' ∧
      ∀ i < size, out' i = s.current i := by
  have hstores : s.stores = 2 * s.published.length := by simp [stores, hwriter]
  have hseq := hs.seq
  rw [hstores] at hseq
  have hzero : s.buffer.seq ≠ 0 := by
    intro h
    rw [h] at hseq
    have hseq : 0 = 2 * s.published.length % 2 ^ 32 := hseq
    omega
  have heven : ¬ s.buffer.seq % 2 ≠ 0 := by
    rw [not_not]
    apply UInt32.toNat_inj.mp
    rw [UInt32.toNat_mod, hseq]
    show 2 * s.published.length % 2 ^ 32 % 2 = 0
    omega
  have hcall : s.step size (.call r out) = s.setReader r (.attempting 0 out) := by
    unfold step
    dsimp only
    rw [hreader]
  have hload : (s.setReader r (.attempting 0 out)).step size (.load r) =
      s.setReader r (.copying 0 s.buffer.seq (List.range size) out) := by
    unfold step
    dsimp only
    rw [readers_setReader_self]
    dsimp only
    rw [if_neg (by decide)]
    show (if s.buffer.seq = 0 then _ else _) = _
    rw [if_neg hzero]
    show (if s.buffer.seq % 2 ≠ 0 then _ else _) = _
    rw [if_neg heven]
    unfold setReader
    simp only [Function.update_idem]
  obtain ⟨out', hrun, hout⟩ := copyOut_run size r (List.range size) List.nodup_range out
    (s.setReader r (.copying 0 s.buffer.seq (List.range size) out)) (readers_setReader_self _ _ _)
  refine ⟨out', ?_, fun i hi => ?_⟩
  · unfold readSteps
    rw [List.foldl_append, List.foldl_append]
    simp only [List.foldl_cons, List.foldl_nil]
    rw [hcall, hload, hrun]
    unfold step
    dsimp only
    rw [readers_setReader_self]
    dsimp only
    rw [buffer_setReader, buffer_setReader, if_pos rfl, readers_setReader_self]
  · rw [hout, if_pos (List.mem_range.mpr hi)]
    show s.buffer.slots _ i = _
    rw [slot_reader hseq]
    rfl

/-- Whatever the threads do in whatever order, a read that returns true has given one published snapshot, the last one
from the load of `seq_` to the return, if fewer than `2 ^ 31` snapshots were published in between. And a read that meets
no writer does return it, once a snapshot is published and unless their number is a multiple of `2 ^ 31`. -/
theorem read_of_one_snapshot (size : ℕ) (zero : α) (events : List (SnapshotEvent α)) (k r : ℕ) :
    (∀ out, (stateAt size zero events (k + 1)).readers r = .returned true out →
      (stateAt size zero events k).readers r ≠ .returned true out → ∃ j < k, events[j]? = some (.load r) ∧
        ((stateAt size zero events k).published.length < (stateAt size zero events j).published.length + 2 ^ 31 →
          ∃ value rest, (stateAt size zero events k).published = value :: rest ∧
            (stateAt size zero events j).published = value :: rest ∧ ∀ i < size, out i = value i)) ∧
    (∀ out, (stateAt size zero events k).writer = .idle → (stateAt size zero events k).readers r = .idle →
      ¬ 2 ^ 31 ∣ (stateAt size zero events k).published.length →
        ∃ out' value rest, ((readSteps size r out).foldl (step size) (stateAt size zero events k)).readers r =
            .returned true out' ∧
          (stateAt size zero events k).published = value :: rest ∧ ∀ i < size, out' i = value i) := by
  have hsound := sound_run size zero events k
  constructor
  · intro out hreturned hnew
    rcases he : events[k]? with _ | e
    · rw [stateAt_succ_of_none he] at hreturned
      exact absurd hreturned hnew
    rw [stateAt_succ he] at hreturned
    obtain ⟨-, attempt, hcopying⟩ := returned_step hreturned hnew
    obtain ⟨j, hj, hload, hsince⟩ := copying_since k r attempt _ _ out hcopying
    refine ⟨j, hj, hload, fun hfew => ?_⟩
    -- the two loads of `seq_` agree, and the count has not moved by as much as `2 ^ 32`
    have hseq := congrArg UInt32.toNat hsince.before
    rw [hsound.seq, (sound_run size zero events j).seq] at hseq
    have hle := hsince.later.stores
    have hsettled := hsince.settled
    have hbounds := stores_le (stateAt size zero events k)
    have hstands : (stateAt size zero events k).stores = (stateAt size zero events j).stores := by omega
    obtain ⟨value, rest, hpublished⟩ := List.exists_cons_of_ne_nil hsince.found
    refine ⟨value, rest, (hsince.later.published_eq hstands).trans hpublished, hpublished, fun i hi => ?_⟩
    rw [hsince.copied hstands i hi List.not_mem_nil]
    exact (sound_run size zero events j).latest value rest hpublished i hi
  · intro out hwriter hreader hfound
    obtain ⟨out', hreturned, hout⟩ := read_alone hsound r out hwriter hreader hfound
    have hne : (stateAt size zero events k).published ≠ [] := by
      intro hnil
      rw [hnil] at hfound
      exact hfound (Nat.dvd_zero _)
    obtain ⟨value, rest, hpublished⟩ := List.exists_cons_of_ne_nil hne
    exact ⟨out', value, rest, hreturned, hpublished, fun i hi =>
      (hout i hi).trans (hsound.latest value rest hpublished i hi)⟩

end SnapshotState

end RackMcp
