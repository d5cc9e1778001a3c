import Mathlib.Data.List.Basic
import Mathlib.Logic.Function.Basic

/-!
# One cell that several parties read and overwrite

Each party comes by a value once: it adopts what the cell holds, or installs a value of its own, and from then on it
keeps what it has, whatever becomes of the cell. `agrees_run_iff` says of any machine that works on such a cell when
all parties hold what the cell holds: exactly when none was overruled, that is, when every value was installed while
no party held another.
-/

namespace SharedCell

variable {ι α σ ε : Type*}

/-- The value in the cell, and what each party has come by. -/
structure Cell (ι α : Type*) where
  value : Option α
  held : ι → Option α

/-- What a party does: nothing to the cell, or it adopts what is there, or it installs a value. -/
inductive Deed (α : Type*) where
  | idle
  | adopt
  | install (a : α)

/-- A party that has come by a value does nothing more. -/
def Cell.apply [DecidableEq ι] (c : Cell ι α) (i : ι) (d : Deed α) : Cell ι α :=
  if (c.held i).isSome then c
  else
    match d with
    | .idle => c
    | .adopt => { c with held := Function.update c.held i c.value }
    | .install a => ⟨some a, Function.update c.held i (some a)⟩

/-- Whoever holds a value holds the one in the cell. -/
def Cell.Agrees (c : Cell ι α) : Prop := ∀ i a, c.held i = some a → c.value = some a

/-- Two parties hold different values. -/
def Cell.Split (c : Cell ι α) : Prop := ∃ i j a b, c.held i = some a ∧ c.held j = some b ∧ a ≠ b

/-- The deed installs a value while a party holds another. -/
def Cell.Overrules (c : Cell ι α) (i : ι) (d : Deed α) : Prop :=
  c.held i = none ∧ ∃ a, d = .install a ∧ ∃ j b, c.held j = some b ∧ b ≠ a

variable {c : Cell ι α} {i : ι} {d : Deed α}

theorem Cell.Agrees.not_split (h : c.Agrees) : ¬ c.Split := by
  intro ⟨j, k, a, b, hj, hk, hab⟩
  have ha := h j a hj
  rw [h k b hk] at ha
  exact hab (Option.some.inj ha).symm

variable [DecidableEq ι]

theorem held_apply {j : ι} {b : α} (h : c.held j = some b) : (c.apply i d).held j = some b := by
  unfold Cell.apply
  by_cases hi : (c.held i).isSome
  · rw [if_pos hi]
    exact h
  · have hj : j ≠ i := by
      intro hj
      subst hj
      simp [h] at hi
    rw [if_neg hi]
    rcases d with _ | _ | a
    · exact h
    · show Function.update c.held i c.value j = some b
      rw [Function.update_of_ne hj, h]
    · show Function.update c.held i (some a) j = some b
      rw [Function.update_of_ne hj, h]

theorem split_apply (h : c.Split) : (c.apply i d).Split := by
  obtain ⟨j, k, a, b, hj, hk, hab⟩ := h
  exact ⟨j, k, a, b, held_apply hj, held_apply hk, hab⟩

theorem split_of_overrules (h : c.Overrules i d) : (c.apply i d).Split := by
  obtain ⟨hi, a, rfl, j, b, hj, hab⟩ := h
  refine ⟨j, i, b, a, held_apply hj, ?_, hab⟩
  show (c.apply i (.install a)).held i = some a
  unfold Cell.apply
  rw [hi]
  exact Function.update_self i (some a) c.held

theorem agrees_apply (h : c.Agrees) (hover : ¬ c.Overrules i d) : (c.apply i d).Agrees := by
  unfold Cell.apply
  by_cases hi : (c.held i).isSome
  · rw [if_pos hi]
    exact h
  rw [if_neg hi]
  rcases d with _ | _ | a
  · exact h
  · intro j b (hb : Function.update c.held i c.value j = some b)
    by_cases hj : j = i
    · subst hj
      rwa [Function.update_self] at hb
    · rw [Function.update_of_ne hj] at hb
      exact h j b hb
  · intro j b (hb : Function.update c.held i (some a) j = some b)
    show some a = some b
    by_cases hj : j = i
    · subst hj
      rwa [Function.update_self] at hb
    · rw [Function.update_of_ne hj] at hb
      have hba : b = a := by
        by_contra hne
        exact hover ⟨Option.not_isSome_iff_eq_none.mp hi, a, rfl, j, b, hb, hne⟩
      rw [hba]

/-! ### Machines that work on a cell -/

variable {step : σ → ε → σ} {cell : σ → Cell ι α} {party : ε → ι} {deed : σ → ε → Deed α} {P : σ → Prop}

theorem split_run (hP : ∀ s e, P s → P (step s e))
    (hstep : ∀ s e, P s → cell (step s e) = (cell s).apply (party e) (deed s e)) (es : List ε) {s : σ} (hs : P s)
    (h : (cell s).Split) : (cell (es.foldl step s)).Split := by
  induction es generalizing s with
  | nil => exact h
  | cons e es ih =>
    refine ih (hP s e hs) ?_
    rw [hstep s e hs]
    exact split_apply h

/-- From a state in which the parties agree, a run leads to one in which they agree exactly when none of its steps
overrules a party. -/
theorem agrees_run_iff (hP : ∀ s e, P s → P (step s e))
    (hstep : ∀ s e, P s → cell (step s e) = (cell s).apply (party e) (deed s e)) (es : List ε) {s : σ} (hs : P s)
    (h : (cell s).Agrees) :
    (cell (es.foldl step s)).Agrees ↔
      ∀ before e after, es = before ++ e :: after →
        ¬ (cell (before.foldl step s)).Overrules (party e) (deed (before.foldl step s) e) := by
  induction es generalizing s with
  | nil => simpa using h
  | cons e es ih =>
    have hs' := hP s e hs
    by_cases hover : (cell s).Overrules (party e) (deed s e)
    · have hsplit : (cell (step s e)).Split := by
        rw [hstep s e hs]
        exact split_of_overrules hover
      constructor
      · intro hagrees
        exact absurd (split_run hP hstep es hs' hsplit) hagrees.not_split
      · intro hnone
        exact absurd hover (hnone [] e es rfl)
    · have hagrees : (cell (step s e)).Agrees := by
        rw [hstep s e hs]
        exact agrees_apply h hover
      show (cell (es.foldl step (step s e))).Agrees ↔ _
      rw [ih hs' hagrees]
      constructor
      · intro hnone before e' after heq
        rcases before with _ | ⟨b, before⟩
        · obtain ⟨rfl, -⟩ := List.cons.inj heq
          exact hover
        · obtain ⟨rfl, htail⟩ := List.cons.inj heq
          exact hnone before e' after htail
      · intro hnone before e' after heq
        exact hnone (e :: before) e' after (by rw [heq]; rfl)

end SharedCell
