import Mathlib.Data.List.DropRight
import Mathlib.Algebra.GroupWithZero.Nat

/-!
# Text as JavaScript reads it

`Buffer.toString("utf8")`, where each maximal part of a sequence that is none becomes one U+FFFD, `String.trim`, and
the UTF-16 code units that `length` and `slice` count. A text is a list of code points.
-/

namespace RackMcp

/-- The bytes of a text. -/
def encodeUtf8 (chars : List Char) : List UInt8 := chars.flatMap String.utf8EncodeChar

/-- The bytes that may follow a lead byte, as ranges. -/
def tailRanges (lead : UInt8) : List (UInt8 × UInt8) :=
  if 0xc2 ≤ lead ∧ lead ≤ 0xdf then [(0x80, 0xbf)]
  else if lead = 0xe0 then [(0xa0, 0xbf), (0x80, 0xbf)]
  else if lead = 0xed then [(0x80, 0x9f), (0x80, 0xbf)]
  else if 0xe1 ≤ lead ∧ lead ≤ 0xef then [(0x80, 0xbf), (0x80, 0xbf)]
  else if lead = 0xf0 then [(0x90, 0xbf), (0x80, 0xbf), (0x80, 0xbf)]
  else if lead = 0xf4 then [(0x80, 0x8f), (0x80, 0xbf), (0x80, 0xbf)]
  else if 0xf1 ≤ lead ∧ lead ≤ 0xf3 then [(0x80, 0xbf), (0x80, 0xbf), (0x80, 0xbf)]
  else []

/-- How many bytes one U+FFFD stands for: the lead byte, and those behind it that could follow it. -/
def invalidLength : List UInt8 → ℕ
  | [] => 0
  | lead :: rest =>
    1 + (((tailRanges lead).zip rest).takeWhile fun (range, b) => range.1 ≤ b && b ≤ range.2).length

/-- `toString("utf8")`. -/
def decodeUtf8 (bytes : List UInt8) : List Char :=
  if bytes = [] then []
  else
    match bytes.toByteArray.utf8DecodeChar? 0 with
    | some c => c :: decodeUtf8 (bytes.drop c.utf8Size)
    | none => '\uFFFD' :: decodeUtf8 (bytes.drop (invalidLength bytes))
termination_by bytes.length
decreasing_by
  · have hpos := List.length_pos_iff.mpr ‹_›
    have hsize := c.utf8Size_pos
    rw [List.length_drop]
    omega
  · have hpos := List.length_pos_iff.mpr ‹_›
    have hskip : 1 ≤ invalidLength bytes := by
      rcases bytes with _ | ⟨lead, rest⟩
      · exact absurd rfl ‹_›
      · exact Nat.le_add_right 1 _
    rw [List.length_drop]
    omega

/-- `length` of a string: its UTF-16 code units. -/
def utf16Length (s : String) : ℕ := (s.toList.map fun c => if c.toNat < 0x10000 then 1 else 2).sum

/-- `slice(0, units)`. Half of a pair at the cut is no text and stands as U+FFFD. -/
def takeUtf16 : ℕ → List Char → List Char
  | 0, _ | _, [] => []
  | units + 1, c :: rest =>
    if c.toNat < 0x10000 then c :: takeUtf16 units rest
    else if units = 0 then ['\uFFFD']
    else c :: takeUtf16 (units - 1) rest

/-- The characters that `trim` removes: white space and line terminators. -/
def isWhiteSpace (c : Char) : Bool :=
  ['\x09', '\x0a', '\x0b', '\x0c', '\x0d', '\x20', '\u00a0', '\u1680', '\u2028', '\u2029', '\u202f', '\u205f', '\u3000',
    '\ufeff'].contains c || ('\u2000' ≤ c && c ≤ '\u200a')

/-- `trim`. -/
def trim (text : List Char) : List Char := (text.dropWhile isWhiteSpace).rdropWhile isWhiteSpace

end RackMcp
