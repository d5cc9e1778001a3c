import Mathlib.Data.List.Basic

/-!
# Reading a list page by page

A page is a stretch of a list from some position on, and names the position behind it unless that is the end. Who goes on
where the page before ended reads the list once, whatever the lengths of the pages.
-/

namespace Paging

variable {α : Type}

/-- The page at a position. -/
def page (xs : List α) (start limit : ℕ) : List α := (xs.drop start).take limit

/-- Where the next page starts. -/
def next (xs : List α) (start limit : ℕ) : Option ℕ := if start + limit < xs.length then some (start + limit) else none

/-- The pages of these lengths, each where the one before ended, and where the next one would start. -/
def follow (xs : List α) (start : ℕ) : List ℕ → List (List α) × Option ℕ
  | [] => ([], some start)
  | limit :: limits =>
    match next xs start limit with
    | none => ([page xs start limit], none)
    | some start' =>
      let (pages, rest) := follow xs start' limits
      (page xs start limit :: pages, rest)

theorem drop_of_next_eq_none {xs : List α} {start limit : ℕ} (h : next xs start limit = none) :
    page xs start limit = xs.drop start := by
  unfold next at h
  split at h
  · exact absurd h (Option.some_ne_none _)
  · apply List.take_of_length_le
    rw [List.length_drop]
    omega

theorem drop_of_next_eq_some {xs : List α} {start limit start' : ℕ} (h : next xs start limit = some start') :
    start' = start + limit ∧ start' < xs.length ∧ page xs start limit ++ xs.drop start' = xs.drop start := by
  unfold next at h
  split at h
  · next hlt =>
    obtain rfl := Option.some.inj h
    refine ⟨rfl, hlt, ?_⟩
    rw [page, ← List.drop_drop, List.take_append_drop]
  · exact absurd h.symm (Option.some_ne_none _)

/-- What is read and what is left are the list from the first position on. -/
theorem flatten_follow (xs : List α) (start : ℕ) (limits : List ℕ) :
    (follow xs start limits).1.flatten ++ ((follow xs start limits).2.elim [] xs.drop) = xs.drop start := by
  induction limits generalizing start with
  | nil => rfl
  | cons limit limits ih =>
    rw [follow]
    split
    · next hnext =>
      show (page xs start limit ++ []) ++ [] = _
      rw [List.append_nil, List.append_nil, drop_of_next_eq_none hnext]
    · next start' hnext =>
      show (page xs start limit ++ (follow xs start' limits).1.flatten) ++ _ = _
      rw [List.append_assoc, ih, (drop_of_next_eq_some hnext).2.2]

/-- Enough pages that are not empty come to the end. -/
theorem follow_ends {xs : List α} {start : ℕ} {limits : List ℕ} (hpos : ∀ limit ∈ limits, 0 < limit)
    (hlength : xs.length - start < limits.length) : (follow xs start limits).2 = none := by
  induction limits generalizing start with
  | nil => exact absurd hlength (Nat.not_lt_zero _)
  | cons limit limits ih =>
    rw [follow]
    split
    · rfl
    · next start' hnext =>
      obtain ⟨heq, hlt, -⟩ := drop_of_next_eq_some hnext
      have hlimit := hpos limit List.mem_cons_self
      rw [List.length_cons] at hlength
      exact ih (fun l hl => hpos l (List.mem_cons_of_mem _ hl)) (by omega)

/-- Where pages of one length leave off. -/
theorem follow_replicate (xs : List α) (start limit n : ℕ) (hn : 0 < n) :
    (follow xs start (List.replicate n limit)).2 =
      if start + n * limit < xs.length then some (start + n * limit) else none := by
  induction n generalizing start with
  | zero => exact absurd hn (Nat.lt_irrefl 0)
  | succ n ih =>
    rw [List.replicate_succ, follow, Nat.succ_mul]
    split
    · next hnext =>
      unfold next at hnext
      split at hnext
      · exact absurd hnext (Option.some_ne_none _)
      · rw [if_neg (by omega)]
    · next start' hnext =>
      obtain ⟨rfl, hlt, -⟩ := drop_of_next_eq_some hnext
      show (follow xs (start + limit) (List.replicate n limit)).2 = _
      rcases Nat.eq_zero_or_pos n with rfl | hpos
      · rw [if_pos (by omega)]
        show some (start + limit) = _
        rw [Nat.zero_mul, Nat.zero_add]
      · rw [ih (start + limit) hpos, Nat.add_assoc, Nat.add_comm limit]

end Paging
