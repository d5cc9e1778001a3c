import Mathlib.Data.List.Basic
import Mathlib.Data.List.Induction

/-!
# Decimal numerals

The decimal digits of a number as the bytes of a text, and which texts are numerals: the nonempty runs of digits
whose first is no zero, but for the numeral of zero itself.
-/

namespace Decimal

/-- The numeral of a number. -/
def numeral (n : ℕ) : List UInt8 := (toString n).toUTF8.data.toList

def IsDigit (c : UInt8) : Prop := 48 ≤ c.toNat ∧ c.toNat ≤ 57

/-- The number that some digits stand for. -/
def value (l : List UInt8) : ℕ := l.foldl (fun v c => v * 10 + (c.toNat - 48)) 0

/-- A digit as a byte. -/
def digit (d : ℕ) : UInt8 := UInt8.ofNat (48 + d)

theorem toNat_digit {d : ℕ} (h : d < 10) : (digit d).toNat = 48 + d := by
  unfold digit
  rw [UInt8.toNat_ofNat']
  omega

theorem isDigit_digit {d : ℕ} (h : d < 10) : IsDigit (digit d) := by
  unfold IsDigit
  rw [toNat_digit h]
  omega

theorem numeral_eq_flatMap (n : ℕ) : numeral n = (Nat.toDigits 10 n).flatMap String.utf8EncodeChar := by
  unfold numeral String.toUTF8
  rw [Nat.toString_eq_ofList_toDigits, String.toByteArray_ofList]
  show ((Nat.toDigits 10 n).flatMap String.utf8EncodeChar).toByteArray.data.toList = _
  rw [List.data_toByteArray]

theorem utf8EncodeChar_digitChar {d : ℕ} (h : d < 10) : String.utf8EncodeChar d.digitChar = [digit d] := by
  have hall : ∀ d < 10, String.utf8EncodeChar d.digitChar = [digit d] := by decide
  exact hall d h

/-- The last digit of a numeral, and those before it. -/
theorem numeral_eq_if (n : ℕ) : numeral n = if n < 10 then [digit n] else numeral (n / 10) ++ [digit (n % 10)] := by
  rw [numeral_eq_flatMap, Nat.toDigits_eq_if (by decide), numeral_eq_flatMap]
  split
  · next h =>
    rw [List.flatMap_cons, List.flatMap_nil, utf8EncodeChar_digitChar h, List.append_nil]
  · rw [List.flatMap_append, List.flatMap_cons, List.flatMap_nil, utf8EncodeChar_digitChar (Nat.mod_lt n (by decide)),
      List.append_nil]

theorem length_numeral (n : ℕ) : (numeral n).length = (Nat.toDigits 10 n).length := by
  induction n using Nat.strongRecOn with
  | ind n ih =>
    rw [numeral_eq_if, Nat.toDigits_eq_if (by decide)]
    split
    · rfl
    · rw [List.length_append, List.length_append, ih (n / 10) (by omega)]
      rfl

theorem numeral_ne_nil (n : ℕ) : numeral n ≠ [] := by
  intro h
  have hlength := length_numeral n
  rw [h] at hlength
  exact Nat.toDigits_ne_nil (List.length_eq_zero_iff.mp hlength.symm)

theorem isDigit_of_mem_numeral {n : ℕ} {c : UInt8} (h : c ∈ numeral n) : IsDigit c := by
  induction n using Nat.strongRecOn with
  | ind n ih =>
    rw [numeral_eq_if] at h
    split at h
    · next hn =>
      rw [List.mem_singleton.mp h]
      exact isDigit_digit hn
    · rcases List.mem_append.mp h with h | h
      · exact ih (n / 10) (by omega) h
      · rw [List.mem_singleton.mp h]
        exact isDigit_digit (Nat.mod_lt n (by decide))

theorem value_concat (l : List UInt8) (c : UInt8) : value (l ++ [c]) = value l * 10 + (c.toNat - 48) := by
  rw [value, List.foldl_append]
  rfl

/-- A numeral stands for its number. -/
theorem value_numeral (n : ℕ) : value (numeral n) = n := by
  induction n using Nat.strongRecOn with
  | ind n ih =>
    rw [numeral_eq_if]
    split
    · next hn =>
      rw [value, List.foldl_cons, List.foldl_nil, toNat_digit hn]
      omega
    · rw [value_concat, ih (n / 10) (by omega), toNat_digit (Nat.mod_lt n (by decide))]
      omega

/-- Only the numeral of zero starts with a zero. -/
theorem head?_numeral {n : ℕ} (hn : 0 < n) : (numeral n).head? ≠ some 48 := by
  induction n using Nat.strongRecOn with
  | ind n ih =>
    rw [numeral_eq_if]
    split
    · next hlt =>
      intro h
      have hdigit := congrArg UInt8.toNat (Option.some.inj h)
      rw [toNat_digit hlt] at hdigit
      have hdigit : 48 + n = 48 := hdigit
      omega
    · rw [List.head?_append_of_ne_nil _ (numeral_ne_nil _)]
      exact ih (n / 10) (by omega) (by omega)

/-- A run of digits is the numeral of what it stands for, unless it has a zero too many in front. -/
theorem numeral_value {l : List UInt8} (hne : l ≠ []) (hdigits : ∀ c ∈ l, IsDigit c)
    (hhead : l.head? = some 48 → l.length = 1) : numeral (value l) = l := by
  induction l using List.reverseRecOn with
  | nil => exact absurd rfl hne
  | append_singleton l c ih =>
    have hc : IsDigit c := hdigits c (List.mem_append_right l List.mem_cons_self)
    have hdigit : digit (c.toNat - 48) = c := by
      apply UInt8.toNat_inj.mp
      rw [toNat_digit (by have := hc.2; omega)]
      have := hc.1
      omega
    rw [value_concat]
    by_cases hl : l = []
    · subst hl
      have hlt : c.toNat - 48 < 10 := by
        have := hc.2
        omega
      show numeral (0 * 10 + (c.toNat - 48)) = [c]
      rw [Nat.zero_mul, Nat.zero_add, numeral_eq_if, if_pos hlt, hdigit]
    · rw [List.head?_append_of_ne_nil l hl] at hhead
      have hlength : (l ++ [c]).length ≠ 1 := by
        have := List.length_pos_iff.mpr hl
        rw [List.length_append, List.length_singleton]
        omega
      have hih := ih hl (fun c' hc' => hdigits c' (List.mem_append_left [c] hc')) fun h => absurd (hhead h) hlength
      have hpos : 0 < value l := by
        by_contra hzero
        rw [Nat.eq_zero_of_not_pos hzero] at hih
        exact hlength (hhead (by rw [← hih]; rfl))
      rw [numeral_eq_if, if_neg (by omega)]
      have hlast := hc.2
      have hdiv : (value l * 10 + (c.toNat - 48)) / 10 = value l := by omega
      have hmod : (value l * 10 + (c.toNat - 48)) % 10 = c.toNat - 48 := by omega
      rw [hdiv, hmod, hih, hdigit]

end Decimal
