import Mathlib.Data.List.Basic

/-!
# Self-synchronizing codes

Texts over a code whose words each start with a symbol that is no tail and go on with tails only. Walking back from
any position over tails leads to the start of the word that the position is in.
-/

namespace SelfSync

variable {α : Type*} (isTail : α → Bool)

/-- The last position up to this one that is no tail, or the start of the text. -/
def walkBack (text : List α) : ℕ → ℕ
  | 0 => 0
  | cut + 1 => if (text[cut + 1]?).any isTail then walkBack text cut else cut + 1

/-- A word of the code. -/
def Codeword (w : List α) : Prop := ∃ lead tails, w = lead :: tails ∧ isTail lead = false ∧ ∀ t ∈ tails, isTail t = true

variable {isTail}

/-- A position of a text of words is in one of the words. -/
theorem exists_word {words : List (List α)} {n : ℕ} (hn : n < words.flatten.length) :
    ∃ k, ∃ hk : k < words.length, (words.take k).flatten.length ≤ n ∧
      n < (words.take k).flatten.length + words[k].length := by
  induction words generalizing n with
  | nil => exact absurd hn (Nat.not_lt_zero n)
  | cons w words ih =>
    by_cases hlt : n < w.length
    · exact ⟨0, Nat.succ_pos _, Nat.zero_le n, by simpa using hlt⟩
    · rw [List.flatten_cons, List.length_append] at hn
      obtain ⟨k, hk, hstart, hend⟩ := ih (n := n - w.length) (by omega)
      refine ⟨k + 1, Nat.succ_lt_succ hk, ?_, ?_⟩
      · rw [List.take_succ_cons, List.flatten_cons, List.length_append]
        omega
      · rw [List.take_succ_cons, List.flatten_cons, List.length_append]
        show n < _ + words[k].length
        omega

theorem flatten_eq_take_append {words : List (List α)} {k : ℕ} (hk : k < words.length) :
    words.flatten = (words.take k).flatten ++ (words[k] ++ (words.drop (k + 1)).flatten) := by
  rw [← List.flatten_cons, ← List.drop_eq_getElem_cons hk, ← List.flatten_append, List.take_append_drop]

/-- The walk from inside of a word ends at its start. -/
theorem walkBack_add {before after tails : List α} {lead : α} (hlead : isTail lead = false)
    (htails : ∀ t ∈ tails, isTail t = true) {j : ℕ} (hj : j ≤ tails.length) :
    walkBack isTail (before ++ ((lead :: tails) ++ after)) (before.length + j) = before.length := by
  induction j with
  | zero =>
    rcases hbefore : before.length with _ | cut
    · rfl
    · have hat : (before ++ ((lead :: tails) ++ after))[cut + 1]? = some lead := by
        rw [← hbefore, List.getElem?_append_right (Nat.le_refl _), Nat.sub_self]
        rfl
      rw [Nat.add_zero, walkBack, hat, Option.any_some, hlead, if_neg Bool.false_ne_true]
  | succ j ih =>
    have hat : (before ++ ((lead :: tails) ++ after))[before.length + (j + 1)]? = some tails[j] := by
      rw [List.getElem?_append_right (Nat.le_add_right _ _), Nat.add_sub_cancel_left, List.cons_append,
        List.getElem?_cons_succ, List.getElem?_append_left hj, List.getElem?_eq_getElem hj]
    rw [← Nat.add_assoc] at hat ⊢
    rw [walkBack, hat, Option.any_some, htails _ (List.getElem_mem hj), if_pos rfl]
    exact ih (Nat.le_of_succ_le hj)

/-- The walk ends where the words that fit end. -/
theorem walkBack_flatten {words : List (List α)} (hwords : ∀ w ∈ words, Codeword isTail w) {n : ℕ}
    (hn : n < words.flatten.length) :
    ∃ k, ∃ hk : k < words.length, walkBack isTail words.flatten n = (words.take k).flatten.length ∧
      (words.take k).flatten.length ≤ n ∧ n < (words.take k).flatten.length + words[k].length := by
  obtain ⟨k, hk, hstart, hend⟩ := exists_word hn
  refine ⟨k, hk, ?_, hstart, hend⟩
  obtain ⟨lead, tails, hword, hlead, htails⟩ := hwords words[k] (List.getElem_mem hk)
  rw [hword, List.length_cons] at hend
  have hwalk : walkBack isTail ((words.take k).flatten ++ ((lead :: tails) ++ (words.drop (k + 1)).flatten))
      ((words.take k).flatten.length + (n - (words.take k).flatten.length)) = (words.take k).flatten.length :=
    walkBack_add hlead htails (by omega)
  rw [Nat.add_sub_cancel' hstart, ← hword, ← flatten_eq_take_append hk] at hwalk
  exact hwalk

end SelfSync
