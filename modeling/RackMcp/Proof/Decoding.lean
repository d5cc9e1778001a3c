import RackMcp.Proof.Truncation
import RackMcp.Server.Text

/-!
# Decoded texts

What JavaScript decodes of the encoding of a text is that text, and bytes that decode without a replacement character
are the encoding of what they decode to. A byte below 0x80 is its own character wherever it stands, so that a text may be
decoded line by line, or name by name.
-/

namespace RackMcp

/-! ### Encodings -/

theorem decodeUtf8_nil : decodeUtf8 [] = [] := by rw [decodeUtf8, if_pos rfl]

/-- A character at the start is decoded. -/
theorem decodeUtf8_char (c : Char) (rest : List UInt8) :
    decodeUtf8 (String.utf8EncodeChar c ++ rest) = c :: decodeUtf8 rest := by
  have hne : String.utf8EncodeChar c ++ rest ≠ [] := by
    intro h
    exact String.utf8EncodeChar_ne_nil (List.append_eq_nil_iff.mp h).1
  have hdecoded : (String.utf8EncodeChar c ++ rest).toByteArray.utf8DecodeChar? 0 = some c := by
    rw [List.toByteArray_append]
    exact ByteArray.utf8DecodeChar?_utf8EncodeChar_append
  rw [decodeUtf8, if_neg hne, hdecoded]
  dsimp only
  rw [← String.length_utf8EncodeChar, List.drop_left]

theorem decodeUtf8_encodeUtf8_append (chars : List Char) (rest : List UInt8) :
    decodeUtf8 (encodeUtf8 chars ++ rest) = chars ++ decodeUtf8 rest := by
  induction chars with
  | nil => rfl
  | cons c chars ih =>
    rw [encodeUtf8, List.flatMap_cons, List.append_assoc, decodeUtf8_char]
    exact congrArg (c :: ·) ih

theorem decodeUtf8_encodeUtf8 (chars : List Char) : decodeUtf8 (encodeUtf8 chars) = chars := by
  have h := decodeUtf8_encodeUtf8_append chars []
  rwa [List.append_nil, decodeUtf8_nil, List.append_nil] at h

/-- Bytes that decode without a replacement character are the encoding of what they decode to. -/
theorem encodeUtf8_decodeUtf8 {bytes : List UInt8} (h : '\uFFFD' ∉ decodeUtf8 bytes) :
    encodeUtf8 (decodeUtf8 bytes) = bytes := by
  induction bytes using decodeUtf8.induct with
  | case1 => rw [decodeUtf8_nil]; rfl
  | case2 bytes hne c hc ih =>
    have hstart : String.utf8EncodeChar c = bytes.take c.utf8Size := by
      have hextract := congrArg (·.data.toList) (String.toByteArray_utf8EncodeChar_of_utf8DecodeChar?_eq_some hc)
      simpa [ByteArray.data_extract] using hextract
    rw [decodeUtf8, if_neg hne, hc] at h ⊢
    dsimp only at h ⊢
    rw [encodeUtf8, List.flatMap_cons, hstart]
    have hrest := ih fun hmem => h (List.mem_cons_of_mem c hmem)
    unfold encodeUtf8 at hrest
    rw [hrest, List.take_append_drop]
  | case3 bytes hne hc ih =>
    rw [decodeUtf8, if_neg hne, hc] at h
    exact absurd List.mem_cons_self h

theorem encodeUtf8_append (l l' : List Char) : encodeUtf8 (l ++ l') = encodeUtf8 l ++ encodeUtf8 l' := List.flatMap_append

theorem encodeUtf8_injective : Function.Injective encodeUtf8 := by
  intro l l' h
  rw [← decodeUtf8_encodeUtf8 l, h, decodeUtf8_encodeUtf8]

/-! ### ASCII characters -/

theorem utf8DecodeChar?_eq_some_iff {bytes : List UInt8} {c : Char} :
    bytes.toByteArray.utf8DecodeChar? 0 = some c ↔ String.utf8EncodeChar c <+: bytes := by
  constructor
  · intro h
    have hextract := congrArg (·.data.toList) (String.toByteArray_utf8EncodeChar_of_utf8DecodeChar?_eq_some h)
    have htake : String.utf8EncodeChar c = bytes.take c.utf8Size := by
      simpa [ByteArray.data_extract] using hextract
    rw [htake]
    exact List.take_prefix _ _
  · rintro ⟨rest, rfl⟩
    rw [List.toByteArray_append]
    exact ByteArray.utf8DecodeChar?_utf8EncodeChar_append

section Ascii
variable {b : UInt8} {c : Char} (hc : String.utf8EncodeChar c = [b])
include hc

/-- What is encoded in one byte is a byte below 0x80. -/
theorem lt_of_utf8EncodeChar : b < 0x80 := by
  rw [String.utf8EncodeChar_eq_utf8EncodeCharFast] at hc
  unfold String.utf8EncodeCharFast at hc
  dsimp only at hc
  split at hc
  · next hone =>
    have hval : c.val.toNat ≤ 127 := hone
    obtain rfl := List.head_eq_of_cons_eq hc
    rw [UInt8.lt_iff_toNat_lt, UInt32.toNat_toUInt8]
    change c.val.toNat % 256 < 128
    omega
  split at hc
  · simp at hc
  split at hc <;> simp at hc

/-- Only the character itself has that byte in its encoding. -/
theorem eq_of_mem_utf8EncodeChar {d : Char} (h : b ∈ String.utf8EncodeChar d) : d = c := by
  have hb := lt_of_utf8EncodeChar hc
  have hself : b ∈ String.utf8EncodeChar c := hc ▸ List.mem_singleton_self b
  exact Char.toNat_inj.mp ((toNat_eq_of_mem_utf8EncodeChar h hb).trans (toNat_eq_of_mem_utf8EncodeChar hself hb).symm)

/-- A sequence that starts in front of such a byte ends in front of it. -/
theorem encodeChar_prefix_ascii {d : Char} {before after : List UInt8} (hne : before ≠ []) :
    String.utf8EncodeChar d <+: before ++ b :: after ↔ String.utf8EncodeChar d <+: before := by
  constructor
  · intro h
    rcases List.prefix_or_prefix_of_prefix h (List.prefix_append before _) with hbefore | ⟨rest, hrest⟩
    · exact hbefore
    · rw [← hrest, List.prefix_append_right_inj] at h
      rcases rest with _ | ⟨b', rest⟩
      · exact ⟨[], by rw [List.append_nil, ← hrest, List.append_nil]⟩
      · obtain ⟨rfl, -⟩ := List.cons_prefix_cons.mp h
        have hmem : b' ∈ String.utf8EncodeChar d := by
          rw [← hrest]
          exact List.mem_append_right _ List.mem_cons_self
        have hlength := congrArg List.length hrest
        rw [eq_of_mem_utf8EncodeChar hc hmem, hc, List.length_append, List.length_cons, List.length_singleton] at hlength
        have hpos := List.length_pos_iff.mpr hne
        omega
  · intro h
    exact h.trans (List.prefix_append _ _)

omit hc

theorem ascii_lt_range (hb : b < 0x80) (lead : UInt8) : ∀ range ∈ tailRanges lead, b < range.1 := by
  have hall : (tailRanges lead).all (fun range => 0x80 ≤ range.1) = true := by
    revert lead
    exact forall_byte (by decide +kernel)
  intro range hrange
  exact UInt8.lt_of_lt_of_le hb (of_decide_eq_true (List.all_eq_true.mp hall range hrange))

/-- A byte of a range. -/
def inRange (entry : (UInt8 × UInt8) × UInt8) : Bool := entry.1.1 ≤ entry.2 && entry.2 ≤ entry.1.2

theorem takeWhile_zip_ascii {ranges : List (UInt8 × UInt8)} (h : ∀ range ∈ ranges, b < range.1)
    (before after : List UInt8) :
    (ranges.zip (before ++ b :: after)).takeWhile inRange = (ranges.zip before).takeWhile inRange := by
  induction before generalizing ranges with
  | nil =>
    rcases ranges with _ | ⟨range, ranges⟩
    · rfl
    · have hnot : ¬ range.1 ≤ b := UInt8.not_le.mpr (h range List.mem_cons_self)
      rw [List.nil_append, List.zip_cons_cons, List.takeWhile_cons_of_neg (by simp [inRange, hnot]), List.zip_nil_right]
      rfl
  | cons b' before ih =>
    rcases ranges with _ | ⟨range, ranges⟩
    · rfl
    · rw [List.cons_append, List.zip_cons_cons, List.zip_cons_cons, List.takeWhile_cons, List.takeWhile_cons,
        ih fun range hrange => h range (List.mem_cons_of_mem _ hrange)]

theorem invalidLength_cons (lead : UInt8) (rest : List UInt8) :
    invalidLength (lead :: rest) = 1 + (((tailRanges lead).zip rest).takeWhile inRange).length := rfl

theorem invalidLength_ascii (hb : b < 0x80) {before : List UInt8} (hne : before ≠ []) (after : List UInt8) :
    invalidLength (before ++ b :: after) = invalidLength before := by
  rcases before with _ | ⟨lead, before⟩
  · exact absurd rfl hne
  · rw [List.cons_append, invalidLength_cons, invalidLength_cons, takeWhile_zip_ascii (ascii_lt_range hb lead)]

theorem invalidLength_le (bytes : List UInt8) : invalidLength bytes ≤ bytes.length := by
  rcases bytes with _ | ⟨lead, rest⟩
  · exact Nat.le_refl _
  · have htake := (List.takeWhile_prefix inRange (l := (tailRanges lead).zip rest)).length_le
    rw [List.length_zip] at htake
    rw [invalidLength_cons, List.length_cons]
    omega

theorem decodeUtf8_of_some {bytes : List UInt8} {c : Char} (hne : bytes ≠ [])
    (h : bytes.toByteArray.utf8DecodeChar? 0 = some c) : decodeUtf8 bytes = c :: decodeUtf8 (bytes.drop c.utf8Size) := by
  rw [decodeUtf8, if_neg hne, h]

theorem decodeUtf8_of_none {bytes : List UInt8} (hne : bytes ≠ []) (h : bytes.toByteArray.utf8DecodeChar? 0 = none) :
    decodeUtf8 bytes = '\uFFFD' :: decodeUtf8 (bytes.drop (invalidLength bytes)) := by
  rw [decodeUtf8, if_neg hne, h]

include hc

/-- Such a byte ends whatever sequence of bytes is in front of it. -/
theorem decodeUtf8_ascii (before after : List UInt8) :
    decodeUtf8 (before ++ b :: after) = decodeUtf8 before ++ c :: decodeUtf8 after := by
  induction before using decodeUtf8.induct with
  | case1 =>
    rw [decodeUtf8_nil]
    have hdecoded := decodeUtf8_char c after
    rwa [hc] at hdecoded
  | case2 before hne d hd ih =>
    have hprefix := utf8DecodeChar?_eq_some_iff.mp hd
    have hlong : (before ++ b :: after).toByteArray.utf8DecodeChar? 0 = some d :=
      utf8DecodeChar?_eq_some_iff.mpr ((encodeChar_prefix_ascii hc hne).mpr hprefix)
    have hsize : d.utf8Size ≤ before.length := by
      rw [← String.length_utf8EncodeChar]
      exact hprefix.length_le
    rw [decodeUtf8_of_some (by simp) hlong, decodeUtf8_of_some hne hd, List.drop_append_of_le_length hsize, ih]
    rfl
  | case3 before hne hd ih =>
    have hlong : (before ++ b :: after).toByteArray.utf8DecodeChar? 0 = none := by
      rw [Option.eq_none_iff_forall_ne_some] at hd ⊢
      intro d hsome
      exact hd d (utf8DecodeChar?_eq_some_iff.mpr ((encodeChar_prefix_ascii hc hne).mp
        (utf8DecodeChar?_eq_some_iff.mp hsome)))
    rw [decodeUtf8_of_none (by simp) hlong, decodeUtf8_of_none hne hd, invalidLength_ascii (lt_of_utf8EncodeChar hc) hne,
      List.drop_append_of_le_length (invalidLength_le before), ih]
    rfl

/-- A character below 0x80 is decoded from its own byte. -/
theorem mem_of_mem_decodeUtf8 {bytes : List UInt8} (h : c ∈ decodeUtf8 bytes) : b ∈ bytes := by
  induction bytes using decodeUtf8.induct with
  | case1 =>
    rw [decodeUtf8_nil] at h
    exact absurd h List.not_mem_nil
  | case2 bytes hne d hd ih =>
    rw [decodeUtf8_of_some hne hd] at h
    rcases List.mem_cons.mp h with rfl | h
    · exact (utf8DecodeChar?_eq_some_iff.mp hd).subset (hc ▸ List.mem_singleton_self b)
    · exact List.mem_of_mem_drop (ih h)
  | case3 bytes hne hd ih =>
    rw [decodeUtf8_of_none hne hd] at h
    rcases List.mem_cons.mp h with rfl | h
    · have hlength : (String.utf8EncodeChar '\uFFFD').length ≠ 1 := by decide
      rw [hc] at hlength
      exact absurd rfl hlength
    · exact List.mem_of_mem_drop (ih h)

end Ascii

end RackMcp
