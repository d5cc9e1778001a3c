import Mathlib.Data.List.Basic
import Mathlib.Data.Nat.Find

/-!
# Runs of a labelled step function

`step s e` is the state after the event `e` and the list of actions the system takes on it.
`stateAt step s es k` is the state before the event `es[k]`, and `Emits step s es k a` says that the
event at index `k` makes the system take the action `a`. A safety property of all runs is proved by
`invariant` (what every step keeps holds at every index), `stable` (what the later steps keep stays
true) and `exists_change` (what became true became so at some step). What the events add up to is
`total`, and `balanced` is the law of what each step neither loses nor makes.
-/

namespace Trace

variable {σ ε α : Type*} {step : σ → ε → σ × List α} {s : σ} {es : List ε}

/-- The state before the event at index `k`. -/
def stateAt (step : σ → ε → σ × List α) (s : σ) (es : List ε) (k : ℕ) : σ :=
  (es.take k).foldl (fun s e => (step s e).1) s

/-- The system takes the action `a` on the event at index `k`. -/
def Emits (step : σ → ε → σ × List α) (s : σ) (es : List ε) (k : ℕ) (a : α) : Prop :=
  ∃ e, es[k]? = some e ∧ a ∈ (step (stateAt step s es k) e).2

@[simp] theorem stateAt_zero : stateAt step s es 0 = s := rfl

theorem stateAt_succ {k : ℕ} {e : ε} (he : es[k]? = some e) :
    stateAt step s es (k + 1) = (step (stateAt step s es k) e).1 := by
  unfold stateAt
  rw [List.take_add_one, he]
  simp

/-- Past the last event nothing changes. -/
theorem stateAt_succ_of_none {k : ℕ} (he : es[k]? = none) :
    stateAt step s es (k + 1) = stateAt step s es k := by
  unfold stateAt
  rw [List.take_add_one, he]
  simp

/-- The state before an event depends on the events before it. -/
theorem stateAt_append (rest : List ε) : stateAt step s (es ++ rest) es.length = stateAt step s es es.length := by
  unfold stateAt
  rw [List.take_left, List.take_length]

/-- A run goes on from the state it has reached. -/
theorem stateAt_drop {t : σ} (j k : ℕ) (h : stateAt step s es j = t) :
    stateAt step s es (j + k) = stateAt step t (es.drop j) k := by
  unfold stateAt at *
  rw [List.take_add, List.foldl_append, h]

/-- What every event keeps holds at the next index. -/
theorem step_at {P : σ → σ → Prop} (k : ℕ) (hrefl : ∀ s, P s s)
    (hstep : ∀ e, es[k]? = some e → P (stateAt step s es k) (step (stateAt step s es k) e).1) :
    P (stateAt step s es k) (stateAt step s es (k + 1)) := by
  rcases he : es[k]? with _ | e
  · rw [stateAt_succ_of_none he]
    exact hrefl _
  · rw [stateAt_succ he]
    exact hstep e he

/-- What holds at the start and is kept by every step holds at every index. -/
theorem invariant {P : σ → Prop} (h0 : P s) (hstep : ∀ s e, P s → P (step s e).1) (k : ℕ) :
    P (stateAt step s es k) := by
  induction k with
  | zero => exact h0
  | succ k ih => exact step_at (P := fun s t => P s → P t) k (fun _ h => h) (fun e _ => hstep _ e) ih

/-- What holds at index `j` and is kept by every later step holds at every later index. -/
theorem stable {P : σ → Prop} {j k : ℕ} (hjk : j ≤ k) (hj : P (stateAt step s es j))
    (hstep : ∀ i e, j ≤ i → es[i]? = some e → P (stateAt step s es i) →
      P (step (stateAt step s es i) e).1) : P (stateAt step s es k) := by
  induction k, hjk using Nat.le_induction with
  | base => exact hj
  | succ i hji ih => exact step_at (P := fun s t => P s → P t) i (fun _ h => h) (fun e he => hstep i e hji he) ih

/-- What is false at the start and true at index `k` became true on an event before `k`. -/
theorem exists_change {P : σ → Prop} {k : ℕ} (h0 : ¬ P s) (hk : P (stateAt step s es k)) :
    ∃ j e, j < k ∧ es[j]? = some e ∧ ¬ P (stateAt step s es j) ∧
      P (step (stateAt step s es j) e).1 := by
  induction k with
  | zero => exact absurd hk h0
  | succ k ih =>
    by_cases hprev : P (stateAt step s es k)
    · obtain ⟨j, e, hj, he⟩ := ih hprev
      exact ⟨j, e, by omega, he⟩
    · rcases he : es[k]? with _ | e
      · rw [stateAt_succ_of_none he] at hk
        exact absurd hk hprev
      · rw [stateAt_succ he] at hk
        exact ⟨k, e, by omega, he, hprev, hk⟩

/-! ### Adding up -/

/-- What the events before index `k` add up to. -/
def total (step : σ → ε → σ × List α) (s : σ) (es : List ε) (measure : σ → ε → ℕ) : ℕ → ℕ
  | 0 => 0
  | k + 1 => total step s es measure k + ((es[k]?).elim 0 (measure (stateAt step s es k)))

variable {measure incoming outgoing : σ → ε → ℕ}

theorem total_succ {k : ℕ} {e : ε} (he : es[k]? = some e) :
    total step s es measure (k + 1) = total step s es measure k + measure (stateAt step s es k) e := by
  rw [total, he]
  rfl

theorem total_succ_of_none {k : ℕ} (he : es[k]? = none) :
    total step s es measure (k + 1) = total step s es measure k := by
  rw [total, he]
  rfl

/-- The events add up to nothing exactly if each of them does. -/
theorem total_eq_zero_iff (k : ℕ) : total step s es measure k = 0 ↔
    ∀ j e, j < k → es[j]? = some e → measure (stateAt step s es j) e = 0 := by
  induction k with
  | zero => exact ⟨fun _ j e hj => absurd hj (Nat.not_lt_zero j), fun _ => rfl⟩
  | succ k ih =>
    rcases hk : es[k]? with _ | e
    · rw [total_succ_of_none hk, ih]
      refine ⟨fun h j e hj he => ?_, fun h j e hj => h j e (by omega)⟩
      by_cases hjk : j = k
      · rw [hjk, hk] at he
        exact absurd he (by simp)
      · exact h j e (by omega) he
    · rw [total_succ hk, Nat.add_eq_zero_iff, ih]
      refine ⟨fun h j e' hj he => ?_, fun h => ⟨fun j e hj => h j e (by omega), h k e (Nat.lt_succ_self k) hk⟩⟩
      by_cases hjk : j = k
      · rw [hjk, hk] at he
        obtain rfl := Option.some.inj he
        rw [hjk]
        exact h.2
      · exact h.1 j e' (by omega) he

/-- What comes in and is not held goes out. -/
theorem balanced {held : σ → ℕ} {k : ℕ} (h0 : held s = 0)
    (hstep : ∀ j e, j < k → es[j]? = some e →
      incoming (stateAt step s es j) e + held (stateAt step s es j) =
        outgoing (stateAt step s es j) e + held (step (stateAt step s es j) e).1) :
    total step s es incoming k = total step s es outgoing k + held (stateAt step s es k) := by
  induction k with
  | zero =>
    rw [stateAt_zero, h0]
    rfl
  | succ k ih =>
    have hprev := ih fun j e hj => hstep j e (by omega)
    rcases hk : es[k]? with _ | e
    · rw [total_succ_of_none hk, total_succ_of_none hk, stateAt_succ_of_none hk, hprev]
    · have hnext := hstep k e (Nat.lt_succ_self k) hk
      rw [total_succ hk, total_succ hk, stateAt_succ hk, hprev]
      omega

/-- Measures that add up at each event add up over a run. -/
theorem total_add {k : ℕ} (hstep : ∀ j e, j < k → es[j]? = some e →
      measure (stateAt step s es j) e = incoming (stateAt step s es j) e + outgoing (stateAt step s es j) e) :
    total step s es measure k = total step s es incoming k + total step s es outgoing k := by
  induction k with
  | zero => rfl
  | succ k ih =>
    have hprev := ih fun j e hj => hstep j e (by omega)
    rcases hk : es[k]? with _ | e
    · rw [total_succ_of_none hk, total_succ_of_none hk, total_succ_of_none hk, hprev]
    · have hnext := hstep k e (Nat.lt_succ_self k) hk
      rw [total_succ hk, total_succ hk, total_succ hk, hprev, hnext]
      omega

end Trace
