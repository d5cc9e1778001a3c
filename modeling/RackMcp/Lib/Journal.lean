import RackMcp.Lib.Outcome

/-!
# Undo logs

A program that changes a state pushes, for each change, an entry whose inverse takes the change back.
`Restores base log s` says that running the inverses of the log on `s`, newest first, gives `base` up to an
equivalence of states. A change whose entry takes it back keeps it (`Restores.push`), and so does a change
that the equivalence does not see (`Restores.of_equiv`).
-/

namespace Journal

open Outcomes

variable {σ α ε : Type*} (inv : α → σ → σ) {log : List α} {a : α} {s s' base : σ}

/-- Runs the inverses of the log, newest first. -/
def undoAll (log : List α) (s : σ) : σ := log.foldr inv s

@[simp] theorem undoAll_nil : undoAll inv [] s = s := rfl

theorem undoAll_append (log log' : List α) :
    undoAll inv (log ++ log') s = undoAll inv log (undoAll inv log' s) := List.foldr_append

theorem undoAll_snoc (log : List α) (a : α) : undoAll inv (log ++ [a]) s = undoAll inv log (inv a s) :=
  undoAll_append inv log [a]

/-- What every inverse keeps, undoing keeps. -/
theorem undoAll_invariant {I : σ → Prop} (keep : ∀ a ∈ log, ∀ s, I s → I (inv a s)) (hs : I s) :
    I (undoAll inv log s) := by
  induction log with
  | nil => exact hs
  | cons a log ih => exact keep a List.mem_cons_self _ (ih fun b hb => keep b (List.mem_cons_of_mem _ hb))

/-- What every inverse keeps between two states, undoing keeps. -/
theorem undoAll_relation {τ : Type*} {inv' : α → τ → τ} {R : σ → τ → Prop} {t : τ}
    (keep : ∀ a ∈ log, ∀ s t, R s t → R (inv a s) (inv' a t)) (h : R s t) :
    R (undoAll inv log s) (undoAll inv' log t) := by
  induction log with
  | nil => exact h
  | cons a log ih => exact keep a List.mem_cons_self _ _ (ih fun b hb => keep b (List.mem_cons_of_mem _ hb))

/-- A loop over the reversed log whose steps are the inverses, none of which throws. -/
theorem runFrom_reverse {step : α → σ → Outcome ε σ} (hstep : ∀ a s, step a s = .done (inv a s)) (i : Nat) :
    runFrom step i log.reverse s = .done (undoAll inv log s) := by
  rw [runFrom_done_iff]
  induction log generalizing s with
  | nil => exact .nil s
  | cons a log ih =>
    rw [List.reverse_cons, Runs.append_iff]
    exact ⟨_, ih, Runs.cons_iff.mpr ⟨_, hstep a _, .nil _⟩⟩

section equiv
variable [Setoid σ] {inv} (hinv : ∀ a (s s' : σ), s ≈ s' → inv a s ≈ inv a s')
include hinv

theorem undoAll_congr (h : s ≈ s') : undoAll inv log s ≈ undoAll inv log s' := by
  induction log with
  | nil => exact h
  | cons a log ih => exact hinv a _ _ ih

variable (inv) in
/-- Undoing the log on `s` gives `base`. -/
def Restores (base : σ) (log : List α) (s : σ) : Prop := undoAll inv log s ≈ base

namespace Restores

theorem of_equiv (h : Restores inv base log s) (hs : s' ≈ s) : Restores inv base log s' :=
  Setoid.trans (undoAll_congr hinv hs) h

theorem push (h : Restores inv base log s) (hs : inv a s' ≈ s) : Restores inv base (log ++ [a]) s' := by
  rw [Restores, undoAll_snoc]
  exact Restores.of_equiv hinv h hs

end Restores

end equiv

end Journal
