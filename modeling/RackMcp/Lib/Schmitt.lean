import Mathlib.Data.List.Basic
import Mathlib.Data.List.Induction
import Mathlib.Order.Lattice

/-!
# Rising edges between two thresholds

A signal rises where it comes up to the upper threshold and has been down at the lower one since it was last up. A trigger
counts these edges sample by sample with one bit of state, and it goes on with that state when the signal comes in pieces.
-/

namespace Schmitt

variable {α : Type} [LinearOrder α] (low high : α)

/-- The signal rises at a position. -/
def RisesAt (xs : List α) (j : ℕ) : Prop :=
  (∃ x, xs[j]? = some x ∧ high ≤ x) ∧
    ∀ i < j, (∃ x, xs[i]? = some x ∧ high ≤ x) → ∃ k, i < k ∧ k < j ∧ ∃ x, xs[k]? = some x ∧ x ≤ low

/-- The signal has not been down since it was last up. -/
def Up (xs : List α) : Prop :=
  ∃ i : ℕ, (∃ x, xs[i]? = some x ∧ high ≤ x) ∧ ∀ k : ℕ, i < k → ∀ x, xs[k]? = some x → low < x

open Classical in
/-- How often the signal rises. -/
noncomputable def rises (xs : List α) : ℕ := (List.range xs.length).countP fun j => RisesAt low high xs j

/-! ### The trigger -/

/-- The state after a sample. -/
def next (up : Bool) (x : α) : Bool := if up then !decide (x ≤ low) else decide (high ≤ x)

/-- The sample is counted. -/
def fires (up : Bool) (x : α) : Bool := !up && decide (high ≤ x)

/-- The state after so many samples. -/
def state (up : Bool) (xs : List α) : Bool := xs.foldl (next low high) up

/-- How many of the samples are counted. -/
def count (up : Bool) : List α → ℕ
  | [] => 0
  | x :: xs => (fires high up x).toNat + count (next low high up x) xs

theorem state_append (up : Bool) (xs ys : List α) : state low high up (xs ++ ys) = state low high (state low high up xs) ys :=
  List.foldl_append

/-- The counts of the pieces add up. -/
theorem count_append (up : Bool) (xs ys : List α) :
    count low high up (xs ++ ys) = count low high up xs + count low high (state low high up xs) ys := by
  induction xs generalizing up with
  | nil => exact (Nat.zero_add _).symm
  | cons x xs ih =>
    rw [List.cons_append, count, count, ih, Nat.add_assoc]
    rfl

/-! ### The trigger counts the edges -/

variable {low high}

omit [LinearOrder α] in
theorem getElem?_concat_lt {xs : List α} {x : α} {i : ℕ} (h : i < xs.length) : (xs ++ [x])[i]? = xs[i]? :=
  List.getElem?_append_left h

theorem up_concat (xs : List α) (x : α) :
    Up low high (xs ++ [x]) ↔ high ≤ x ∨ Up low high xs ∧ low < x := by
  constructor
  · rintro ⟨i, ⟨y, hy, hhigh⟩, hlater⟩
    have hi : i < (xs ++ [x]).length := (List.getElem?_eq_some_iff.mp hy).1
    rw [List.length_append, List.length_singleton] at hi
    rcases Nat.lt_succ_iff_lt_or_eq.mp hi with hi | rfl
    · rw [getElem?_concat_lt hi] at hy
      refine .inr ⟨⟨i, ⟨y, hy, hhigh⟩, fun k hk z hz => hlater k hk z ?_⟩, ?_⟩
      · rw [getElem?_concat_lt (List.getElem?_eq_some_iff.mp hz).1]
        exact hz
      · exact hlater xs.length hi x List.getElem?_concat_length
    · rw [List.getElem?_concat_length] at hy
      obtain rfl := Option.some.inj hy
      exact .inl hhigh
  · rintro (hhigh | ⟨⟨i, ⟨y, hy, hhigh⟩, hlater⟩, hx⟩)
    · refine ⟨xs.length, ⟨x, List.getElem?_concat_length, hhigh⟩, fun k hk z hz => ?_⟩
      have hlength := (List.getElem?_eq_some_iff.mp hz).1
      rw [List.length_append, List.length_singleton] at hlength
      omega
    · have hi := (List.getElem?_eq_some_iff.mp hy).1
      refine ⟨i, ⟨y, (getElem?_concat_lt hi).trans hy, hhigh⟩, fun k hk z hz => ?_⟩
      have hlength := (List.getElem?_eq_some_iff.mp hz).1
      rw [List.length_append, List.length_singleton] at hlength
      rcases Nat.lt_succ_iff_lt_or_eq.mp hlength with hlength | rfl
      · exact hlater k hk z ((getElem?_concat_lt hlength).symm.trans hz)
      · rw [List.getElem?_concat_length] at hz
        obtain rfl := Option.some.inj hz
        exact hx

theorem state_eq_true_iff (hlt : low < high) (xs : List α) : state low high false xs = true ↔ Up low high xs := by
  induction xs using List.reverseRecOn with
  | nil =>
    constructor
    · intro h
      exact absurd h Bool.false_ne_true
    · rintro ⟨i, ⟨x, hx, -⟩, -⟩
      exact absurd hx (by simp)
  | append_singleton xs x ih =>
    rw [state_append, up_concat, ← ih]
    show next low high (state low high false xs) x = true ↔ _
    rcases hstate : state low high false xs with _ | _
    · simp [next]
    · constructor
      · intro h
        exact .inr ⟨rfl, by simpa [next] using h⟩
      · rintro (h | ⟨-, h⟩)
        · simpa [next] using hlt.trans_le h
        · simpa [next] using h

theorem risesAt_concat_lt {xs : List α} {x : α} {j : ℕ} (hj : j < xs.length) :
    RisesAt low high (xs ++ [x]) j ↔ RisesAt low high xs j := by
  unfold RisesAt
  rw [getElem?_concat_lt hj]
  apply and_congr_right
  intro _
  apply forall_congr'
  intro i
  apply forall_congr'
  intro hi
  rw [getElem?_concat_lt (Nat.lt_trans hi hj)]
  apply imp_congr_right
  intro _
  apply exists_congr
  intro k
  apply and_congr_right
  intro _
  apply and_congr_right
  intro hk
  rw [getElem?_concat_lt (Nat.lt_trans hk hj)]

theorem risesAt_concat_length {xs : List α} {x : α} :
    RisesAt low high (xs ++ [x]) xs.length ↔ high ≤ x ∧ ¬ Up low high xs := by
  unfold RisesAt Up
  rw [List.getElem?_concat_length]
  constructor
  · rintro ⟨⟨y, hy, hhigh⟩, hdown⟩
    obtain rfl := Option.some.inj hy
    refine ⟨hhigh, ?_⟩
    rintro ⟨i, ⟨y, hy, hup⟩, hlater⟩
    have hi := (List.getElem?_eq_some_iff.mp hy).1
    obtain ⟨k, hik, hk, z, hz, hlow⟩ := hdown i hi ⟨y, (getElem?_concat_lt hi).trans hy, hup⟩
    rw [getElem?_concat_lt hk] at hz
    exact absurd hlow (not_le.mpr (hlater k hik z hz))
  · rintro ⟨hhigh, hdown⟩
    refine ⟨⟨x, rfl, hhigh⟩, ?_⟩
    rintro i hi ⟨y, hy, hup⟩
    rw [getElem?_concat_lt hi] at hy
    by_contra hnone
    refine hdown ⟨i, ⟨y, hy, hup⟩, fun k hik z hz => ?_⟩
    by_contra hlow
    have hk := (List.getElem?_eq_some_iff.mp hz).1
    exact hnone ⟨k, hik, hk, z, (getElem?_concat_lt hk).trans hz, not_lt.mp hlow⟩

/-- The trigger counts every edge and nothing else. -/
theorem count_eq_rises (hlt : low < high) (xs : List α) : count low high false xs = rises low high xs := by
  induction xs using List.reverseRecOn with
  | nil => rfl
  | append_singleton xs x ih =>
    classical
    have hbefore : (List.range xs.length).countP (fun j => RisesAt low high (xs ++ [x]) j) =
        (List.range xs.length).countP fun j => RisesAt low high xs j := by
      apply List.countP_congr
      intro j hj
      rw [decide_eq_true_iff, decide_eq_true_iff, risesAt_concat_lt (List.mem_range.mp hj)]
    have hlast : (fires high (state low high false xs) x).toNat =
        [xs.length].countP fun j => RisesAt low high (xs ++ [x]) j := by
      rw [List.countP_singleton]
      by_cases hrise : RisesAt low high (xs ++ [x]) xs.length
      · rw [if_pos (decide_eq_true hrise)]
        obtain ⟨hhigh, hdown⟩ := risesAt_concat_length.mp hrise
        rw [← state_eq_true_iff hlt, Bool.not_eq_true] at hdown
        simp [fires, hdown, hhigh]
      · rw [if_neg (mt of_decide_eq_true hrise)]
        rw [risesAt_concat_length, ← state_eq_true_iff hlt, not_and, not_not] at hrise
        by_cases hhigh : high ≤ x
        · simp [fires, hrise hhigh]
        · simp [fires, hhigh]
    rw [count_append, ih, rises, rises, List.length_append, List.length_singleton, List.range_succ, List.countP_append,
      hbefore, ← hlast]
    rfl

end Schmitt
