import RackMcp.Core.Crypto
import RackMcp.Core.Frames

/-!
# The text jansson writes

`json_dumps` with `JSON_COMPACT`: no blanks, the members in their order, and of the characters of a string only the
quote, the backslash and the control characters escaped. How a real is written is a parameter.
-/

namespace RackMcp

/-! ### Strings -/

/-- An upper-case hex digit. -/
def upperHexDigit (n : Nat) : Char := if n < 10 then Char.ofNat (48 + n) else Char.ofNat (55 + n)

/-- A character in a string of the text. -/
def escapeChar (c : Char) : String :=
  if c = '\x22' then "\\\""
  else if c = '\x5c' then "\\\\"
  else if c = '\x08' then "\\b"
  else if c = '\x0c' then "\\f"
  else if c = '\n' then "\\n"
  else if c = '\r' then "\\r"
  else if c = '\t' then "\\t"
  else if c.toNat < 32 then
    "\\u00" ++ String.ofList [upperHexDigit (c.toNat / 16), upperHexDigit (c.toNat % 16)]
  else String.singleton c

/-- The characters between the quotes. -/
def escapeChars : List Char → String
  | [] => ""
  | c :: rest => escapeChar c ++ escapeChars rest

def escapeText (s : String) : String := escapeChars s.toList

/-! ### Values -/

mutual

def jsonText (numeral : Double → String) : Json → String
  | .null => "null"
  | .bool b => if b then "true" else "false"
  | .integer n => toString n
  | .real x => numeral x
  | .string s => "\"" ++ escapeText s ++ "\""
  | .array items => "[" ++ itemsText numeral items ++ "]"
  | .object members => "\x7b" ++ membersText numeral members ++ "\x7d"

def itemsText (numeral : Double → String) : List Json → String
  | [] => ""
  | [item] => jsonText numeral item
  | item :: rest => jsonText numeral item ++ "," ++ itemsText numeral rest

def membersText (numeral : Double → String) : List (String × Json) → String
  | [] => ""
  | [(key, v)] => "\"" ++ escapeText key ++ "\":" ++ jsonText numeral v
  | (key, v) :: rest => "\"" ++ escapeText key ++ "\":" ++ jsonText numeral v ++ "," ++ membersText numeral rest

end

example : jsonText (fun _ => "0.0") (.object [("a", .string "\"\x01\n"), ("b", .array [.integer (-3), .null])]) =
    "\x7b\"a\":\"\\\"\\u0001\\n\",\"b\":[-3,null]\x7d" := by decide

/-! ### What is escaped -/

/-- A character that stands for itself. -/
def Unescaped (c : Char) : Prop := c ≠ '\x22' ∧ c ≠ '\x5c' ∧ 32 ≤ c.toNat

theorem escapeChar_of_unescaped {c : Char} (h : Unescaped c) : escapeChar c = String.singleton c := by
  obtain ⟨hquote, hbackslash, hcontrol⟩ := h
  have hne : ∀ d : Char, d.toNat < 32 → c ≠ d := by
    rintro d hd rfl
    omega
  unfold escapeChar
  rw [if_neg hquote, if_neg hbackslash, if_neg (hne _ (by decide)), if_neg (hne _ (by decide)),
    if_neg (hne _ (by decide)), if_neg (hne _ (by decide)), if_neg (hne _ (by decide)), if_neg (by omega)]

theorem escapeChars_of_unescaped {chars : List Char} (h : ∀ c ∈ chars, Unescaped c) :
    escapeChars chars = String.ofList chars := by
  induction chars with
  | nil => rfl
  | cons c rest ih =>
    rw [escapeChars, escapeChar_of_unescaped (h c List.mem_cons_self),
      ih fun d hd => h d (List.mem_cons_of_mem c hd), String.ofList_cons]

theorem escapeText_of_unescaped {s : String} (h : ∀ c ∈ s.toList, Unescaped c) : escapeText s = s := by
  unfold escapeText
  rw [escapeChars_of_unescaped h, String.ofList_toList]

theorem unescaped_of_isHexChar {c : Char} (h : isHexChar c = true) : Unescaped c := by
  have hrange : '0' ≤ c ∧ c ≤ '9' ∨ 'a' ≤ c ∧ c ≤ 'f' := by
    simpa [isHexChar] using h
  have hval : 48 ≤ c.toNat ∧ c.toNat ≤ 57 ∨ 97 ≤ c.toNat ∧ c.toNat ≤ 102 := hrange
  refine ⟨?_, ?_, by omega⟩
  · rintro rfl
    exact absurd hval (by decide)
  · rintro rfl
    exact absurd hval (by decide)

theorem escapeText_of_isHex {s : String} {len : Nat} (h : isHex s len = true) : escapeText s = s := by
  unfold isHex at h
  rw [Bool.and_eq_true] at h
  exact escapeText_of_unescaped fun c hc => unescaped_of_isHexChar (List.all_eq_true.mp h.2 c hc)

theorem escapeChars_append (a b : List Char) : escapeChars (a ++ b) = escapeChars a ++ escapeChars b := by
  induction a with
  | nil => simp [escapeChars]
  | cons c rest ih => rw [List.cons_append, escapeChars, escapeChars, ih, String.append_assoc]

theorem escapeText_append (a b : String) : escapeText (a ++ b) = escapeText a ++ escapeText b := by
  unfold escapeText
  rw [String.toList_append, escapeChars_append]

/-! ### Sizes -/

/-- An escape is at most six times as long as the character. -/
theorem escapeChar_size (c : Char) : (escapeChar c).utf8ByteSize ≤ 6 * c.utf8Size := by
  have hpos := c.utf8Size_pos
  have hsize : ∀ s : String, s.utf8ByteSize ≤ 6 → s.utf8ByteSize ≤ 6 * c.utf8Size := fun s hs => by omega
  unfold escapeChar
  split_ifs with h₁ h₂ h₃ h₄ h₅ h₆ h₇ h₈
  · exact hsize _ (by decide)
  · exact hsize _ (by decide)
  · exact hsize _ (by decide)
  · exact hsize _ (by decide)
  · exact hsize _ (by decide)
  · exact hsize _ (by decide)
  · exact hsize _ (by decide)
  · apply hsize
    have hcontrol : ∀ n < 32, ("\\u00" ++ String.ofList [upperHexDigit (n / 16), upperHexDigit (n % 16)]).utf8ByteSize ≤ 6 := by
      decide
    exact hcontrol _ h₈
  · rw [String.utf8ByteSize_singleton]
    omega

theorem escapeChars_size (chars : List Char) : (escapeChars chars).utf8ByteSize ≤ 6 * (String.ofList chars).utf8ByteSize := by
  induction chars with
  | nil => decide
  | cons c rest ih =>
    have hc := escapeChar_size c
    rw [escapeChars, String.ofList_cons, String.utf8ByteSize_append, String.utf8ByteSize_append,
      String.utf8ByteSize_singleton]
    omega

theorem escapeText_size (s : String) : (escapeText s).utf8ByteSize ≤ 6 * s.utf8ByteSize := by
  have h := escapeChars_size s.toList
  rw [String.ofList_toList] at h
  exact h

end RackMcp
