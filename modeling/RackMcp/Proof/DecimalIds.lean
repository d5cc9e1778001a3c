import RackMcp.Core.Plan
import RackMcp.Lib.Decimal

/-!
# Decimal ids

`parseDecimalId` with its output parameter, and the values its digit loop computes in 64-bit integers. The loop takes
a digit in exactly when the number so far does not exceed `INT64_MAX` with it.
-/

namespace RackMcp

open Decimal

def int64Min : Int := -9223372036854775808

/-- What `parseDecimalId` returns, and what `out` holds afterwards. -/
def parseDecimalIdInto (text : List UInt8) (out : Int) : Bool × Int :=
  if text = [] ∨ text.length > 19 then (false, out)
  else if text.head? = some 48 then (if text.length ≠ 1 then (false, out) else (true, 0))
  else if text.any (fun c => c < 48 || c > 57) then (false, out)
  else
    match accumulateDigits 0 text with
    | none => (false, out)
    | some value => (true, value)

/-- The values of the signed expressions that the digit loop evaluates, in their order. -/
def loopValues (value : Int) : List UInt8 → List Int
  | [] => []
  | c :: rest =>
    let digit : Int := (c.toNat : Int) - 48
    [digit, int64Max - digit, (int64Max - digit) / 10] ++
      if value > (int64Max - digit) / 10 then []
      else value * 10 :: (value * 10 + digit) :: loopValues (value * 10 + digit) rest

/-- Those of a whole call, which gets to the loop with digits only. -/
def parseValues (text : List UInt8) : List Int :=
  if text = [] ∨ text.length > 19 then []
  else if text.head? = some 48 then []
  else if text.any (fun c => c < 48 || c > 57) then []
  else loopValues 0 text

/-! ### The loop -/

theorem isDigit_iff {c : UInt8} : (c < 48 || c > 57) = false ↔ IsDigit c := by
  unfold IsDigit
  rw [Bool.or_eq_false_iff, decide_eq_false_iff_not, decide_eq_false_iff_not, UInt8.lt_iff_toNat_lt, gt_iff_lt,
    UInt8.lt_iff_toNat_lt]
  show ¬ c.toNat < 48 ∧ ¬ 57 < c.toNat ↔ _
  omega

theorem any_not_digit {text : List UInt8} :
    text.any (fun c => c < 48 || c > 57) = false ↔ ∀ c ∈ text, IsDigit c := by
  rw [List.any_eq_false]
  exact forall₂_congr fun c _ => (Bool.eq_false_iff).symm.trans isDigit_iff

/-- The number that some digits make of the number before them. -/
theorem value_append_le (l l' : List UInt8) : value l ≤ value (l ++ l') := by
  induction l' using List.reverseRecOn with
  | nil => rw [List.append_nil]
  | append_singleton l' c ih =>
    rw [← List.append_assoc, value_concat]
    omega

/-- The loop gives the number if it fits, whatever digits came before. -/
theorem accumulateDigits_eq (done rest : List UInt8) (hrest : ∀ c ∈ rest, IsDigit c) (hdone : (value done : Int) ≤ int64Max) :
    accumulateDigits (value done) rest =
      if (value (done ++ rest) : Int) ≤ int64Max then some (value (done ++ rest) : Int) else none := by
  induction rest generalizing done with
  | nil => rw [accumulateDigits, List.append_nil, if_pos hdone]
  | cons c rest ih =>
    obtain ⟨hc, hrest⟩ := List.forall_mem_cons.mp hrest
    have hlow := hc.1
    have hhigh := hc.2
    have hnext : (value (done ++ [c]) : Int) = value done * 10 + ((c.toNat : Int) - 48) := by
      rw [value_concat]
      omega
    have hall : done ++ c :: rest = done ++ [c] ++ rest := by simp
    rw [accumulateDigits, hall]
    have hmax : int64Max = 9223372036854775807 := rfl
    split
    · next hover =>
      have hmono := value_append_le (done ++ [c]) rest
      rw [if_neg (by omega)]
    · next hfits =>
      rw [← hnext]
      exact ih (done ++ [c]) hrest (by omega)

/-- Every expression of the loop is a 64-bit integer. -/
theorem loopValues_le (done rest : List UInt8) (hrest : ∀ c ∈ rest, IsDigit c) (hdone : (value done : Int) ≤ int64Max) :
    ∀ x ∈ loopValues (value done) rest, int64Min ≤ x ∧ x ≤ int64Max := by
  induction rest generalizing done with
  | nil => exact fun x hx => absurd hx List.not_mem_nil
  | cons c rest ih =>
    obtain ⟨hc, hrest⟩ := List.forall_mem_cons.mp hrest
    have hlow := hc.1
    have hhigh := hc.2
    have hnext : (value (done ++ [c]) : Int) = value done * 10 + ((c.toNat : Int) - 48) := by
      rw [value_concat]
      omega
    have hmax : int64Max = 9223372036854775807 := rfl
    have hmin : int64Min = -9223372036854775808 := rfl
    rw [loopValues]
    intro x hx
    rcases List.mem_append.mp hx with hx | hx
    · simp only [List.mem_cons, List.not_mem_nil, or_false] at hx
      omega
    · split at hx
      · exact absurd hx List.not_mem_nil
      · rcases List.mem_cons.mp hx with rfl | hx
        · omega
        rcases List.mem_cons.mp hx with rfl | hx
        · omega
        · rw [← hnext] at hx
          exact ih (done ++ [c]) hrest (by omega) x hx

/-! ### The ids -/

/-- A numeral is refused by its shape only if it is longer than any id. -/
theorem parseDecimalIdInto_numeral (n : ℕ) (out : Int) :
    parseDecimalIdInto (numeral n) out = if (n : Int) ≤ int64Max then (true, (n : Int)) else (false, out) := by
  have hmax : int64Max = 9223372036854775807 := rfl
  have hlength : (numeral n).length ≤ 19 ↔ n < 10 ^ 19 := by
    rw [length_numeral]
    exact Nat.length_toDigits_le_iff (by decide) (by decide)
  have hpow : 10 ^ 19 = 10000000000000000000 := rfl
  unfold parseDecimalIdInto
  by_cases hlong : (numeral n).length > 19
  · rw [if_pos (.inr hlong), if_neg (by omega)]
  rw [if_neg (by simp [numeral_ne_nil]; omega)]
  by_cases hzero : n = 0
  · subst hzero
    rfl
  rw [if_neg (head?_numeral (Nat.pos_of_ne_zero hzero)), any_not_digit.mpr fun c hc => isDigit_of_mem_numeral hc,
    if_neg Bool.false_ne_true]
  have hloop := accumulateDigits_eq [] (numeral n) (fun c hc => isDigit_of_mem_numeral hc) (by decide)
  rw [List.nil_append, value_numeral] at hloop
  have hloop : accumulateDigits 0 (numeral n) = _ := hloop
  rw [hloop]
  by_cases hfits : (n : Int) ≤ int64Max
  · rw [if_pos hfits, if_pos hfits]
  · rw [if_neg hfits, if_neg hfits]

/-- What passes the checks of the shape is a numeral. -/
theorem exists_numeral_of_parse {text : List UInt8} {out : Int} (h : (parseDecimalIdInto text out).1 = true) :
    ∃ n, text = numeral n := by
  unfold parseDecimalIdInto at h
  split at h
  · exact absurd h Bool.false_ne_true
  next hlength =>
  obtain ⟨hne, -⟩ := not_or.mp hlength
  split at h
  · next hhead =>
    split at h
    · exact absurd h Bool.false_ne_true
    · next hone =>
      obtain ⟨c, rfl⟩ := List.length_eq_one_iff.mp (not_not.mp hone)
      exact ⟨0, by rw [Option.some.inj hhead]; rfl⟩
  next hhead =>
  split at h
  · exact absurd h Bool.false_ne_true
  next hdigits =>
  have hdigits := any_not_digit.mp (Bool.eq_false_iff.mpr hdigits)
  exact ⟨value text, (numeral_value hne hdigits fun hzero => absurd hzero hhead).symm⟩

/-- Refusing leaves the output parameter alone. -/
theorem parseDecimalIdInto_eq (text : List UInt8) (out : Int) :
    parseDecimalIdInto text out = ((parseDecimalIdBytes text).isSome, (parseDecimalIdBytes text).getD out) := by
  unfold parseDecimalIdInto parseDecimalIdBytes
  by_cases hlength : text = [] ∨ text.length > 19
  · rw [if_pos hlength, if_pos hlength]
    rfl
  rw [if_neg hlength, if_neg hlength]
  by_cases hhead : text.head? = some 48
  · rw [if_pos hhead, if_pos hhead]
    split
    · rfl
    · rfl
  rw [if_neg hhead, if_neg hhead]
  by_cases hdigits : text.any (fun c => c < 48 || c > 57) = true
  · rw [if_pos hdigits, if_pos hdigits]
    rfl
  rw [if_neg hdigits, if_neg hdigits]
  split
  · next hnone =>
    rw [hnone]
    rfl
  · next value hsome =>
    rw [hsome]
    rfl

theorem parseValues_le (text : List UInt8) : ∀ x ∈ parseValues text, int64Min ≤ x ∧ x ≤ int64Max := by
  unfold parseValues
  split
  · exact fun x hx => absurd hx List.not_mem_nil
  split
  · exact fun x hx => absurd hx List.not_mem_nil
  split
  · exact fun x hx => absurd hx List.not_mem_nil
  · next hdigits => exact loopValues_le [] text (any_not_digit.mp (Bool.eq_false_iff.mpr hdigits)) (by decide)

/-- The parse takes exactly the numerals of the ids, and gives the id; otherwise it leaves `out` as it was. No signed
expression of it overflows. -/
theorem parseDecimalId_exact (text : List UInt8) (out : Int) :
    ((parseDecimalIdInto text out).1 = true ↔ ∃ n : ℕ, (n : Int) ≤ int64Max ∧ text = numeral n) ∧
      (parseDecimalIdInto text out = (false, out) ∨
        ∃ n : ℕ, text = numeral n ∧ parseDecimalIdInto text out = (true, (n : Int))) ∧
      ∀ x ∈ parseValues text, int64Min ≤ x ∧ x ≤ int64Max := by
  have haccepted : (parseDecimalIdInto text out).1 = true → ∃ n : ℕ, (n : Int) ≤ int64Max ∧ text = numeral n := by
    intro h
    obtain ⟨n, rfl⟩ := exists_numeral_of_parse h
    refine ⟨n, ?_, rfl⟩
    by_contra hn
    rw [parseDecimalIdInto_numeral, if_neg hn] at h
    exact absurd h Bool.false_ne_true
  refine ⟨⟨haccepted, fun ⟨n, hn, htext⟩ => ?_⟩, ?_, parseValues_le text⟩
  · rw [htext, parseDecimalIdInto_numeral, if_pos hn]
  · by_cases hok : (parseDecimalIdInto text out).1 = true
    · obtain ⟨n, hn, rfl⟩ := haccepted hok
      exact .inr ⟨n, rfl, by rw [parseDecimalIdInto_numeral, if_pos hn]⟩
    · have hnone : (parseDecimalIdBytes text).isSome = false := by
        rw [parseDecimalIdInto_eq] at hok
        exact Bool.eq_false_iff.mpr hok
      rw [parseDecimalIdInto_eq, Option.isNone_iff_eq_none.mp (Option.isSome_eq_false_iff.mp hnone)]
      exact .inl rfl

end RackMcp
