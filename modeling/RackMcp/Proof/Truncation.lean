import RackMcp.Core.Crypto
import RackMcp.Core.Frames
import RackMcp.Lib.SelfSync
import RackMcp.Server.Text
import Mathlib.Data.List.TakeWhile

/-!
# Truncated texts

UTF-8 is a self-synchronizing code, so the walk back over continuation bytes in `truncateUtf8` and `clampChatText` ends
where a character starts: what is kept is valid UTF-8, which jansson encodes, and as long as the bound allows.
-/

namespace RackMcp

open SelfSync

/-- The longest run of characters from the start of the text that fits into so many bytes. -/
def LongestFit (chars : List Char) (maxBytes : ℕ) (out : List UInt8) : Prop :=
  ∃ k ≤ chars.length, out = encodeUtf8 (chars.take k) ∧ out.length ≤ maxBytes ∧
    (k = chars.length ∨ maxBytes < (encodeUtf8 (chars.take (k + 1))).length)

/-! ### Characters as code words -/

theorem forall_byte {P : UInt8 → Prop} (h : ∀ n < 256, P (UInt8.ofNat n)) (b : UInt8) : P b := by
  have hb := h b.toNat b.toNat_lt
  rwa [UInt8.ofNat_toNat] at hb

theorem isContinuation_tail : ∀ b : UInt8, isContinuation (b &&& 0x3f ||| 0x80) = true :=
  forall_byte (by decide +kernel)

theorem isContinuation_lead₂ : ∀ b : UInt8, isContinuation (b &&& 0x1f ||| 0xc0) = false :=
  forall_byte (by decide +kernel)

theorem isContinuation_lead₃ : ∀ b : UInt8, isContinuation (b &&& 0x0f ||| 0xe0) = false :=
  forall_byte (by decide +kernel)

theorem isContinuation_lead₄ : ∀ b : UInt8, isContinuation (b &&& 0x07 ||| 0xf0) = false :=
  forall_byte (by decide +kernel)

theorem isContinuation_ascii : ∀ b : UInt8, b.toNat < 128 → isContinuation b = false :=
  forall_byte (by decide +kernel)

/-- A character is one lead byte and its continuation bytes. -/
theorem codeword_utf8EncodeChar (c : Char) : Codeword isContinuation (String.utf8EncodeChar c) := by
  rw [String.utf8EncodeChar_eq_utf8EncodeCharFast]
  unfold String.utf8EncodeCharFast
  dsimp only
  split
  · next hone =>
    have hval : c.val.toNat ≤ 127 := hone
    refine ⟨_, [], rfl, isContinuation_ascii _ ?_, by simp⟩
    rw [UInt32.toNat_toUInt8]
    omega
  split
  · exact ⟨_, _, rfl, isContinuation_lead₂ _, by simp [isContinuation_tail]⟩
  split
  · exact ⟨_, _, rfl, isContinuation_lead₃ _, by simp [isContinuation_tail]⟩
  · exact ⟨_, _, rfl, isContinuation_lead₄ _, by simp [isContinuation_tail]⟩

/-- A byte below 0x80 stands for its own character only. -/
theorem toNat_eq_of_mem_utf8EncodeChar {b : UInt8} {c : Char} (h : b ∈ String.utf8EncodeChar c) (hb : b < 0x80) :
    c.toNat = b.toNat := by
  have htail : ∀ x : UInt8, ¬ x &&& 0x3f ||| 0x80 < 0x80 := forall_byte (by decide +kernel)
  have hlead₂ : ∀ x : UInt8, ¬ x &&& 0x1f ||| 0xc0 < 0x80 := forall_byte (by decide +kernel)
  have hlead₃ : ∀ x : UInt8, ¬ x &&& 0x0f ||| 0xe0 < 0x80 := forall_byte (by decide +kernel)
  have hlead₄ : ∀ x : UInt8, ¬ x &&& 0x07 ||| 0xf0 < 0x80 := forall_byte (by decide +kernel)
  rw [String.utf8EncodeChar_eq_utf8EncodeCharFast] at h
  unfold String.utf8EncodeCharFast at h
  dsimp only at h
  split at h
  · next hone =>
    have hval : c.val.toNat ≤ 127 := hone
    rw [List.mem_singleton.mp h, UInt32.toNat_toUInt8]
    show c.val.toNat = c.val.toNat % 256
    omega
  split at h
  · simp only [List.mem_cons, List.not_mem_nil, or_false] at h
    rcases h with rfl | rfl
    · exact absurd hb (hlead₂ _)
    · exact absurd hb (htail _)
  split at h
  · simp only [List.mem_cons, List.not_mem_nil, or_false] at h
    rcases h with rfl | rfl | rfl
    · exact absurd hb (hlead₃ _)
    · exact absurd hb (htail _)
    · exact absurd hb (htail _)
  · simp only [List.mem_cons, List.not_mem_nil, or_false] at h
    rcases h with rfl | rfl | rfl | rfl
    · exact absurd hb (hlead₄ _)
    · exact absurd hb (htail _)
    · exact absurd hb (htail _)
    · exact absurd hb (htail _)

/-! ### The walk -/

theorem walkBack_eq (s : List UInt8) (n : ℕ) : walkBack s n = SelfSync.walkBack isContinuation s n := by
  induction n with
  | zero => rfl
  | succ n ih => rw [walkBack, SelfSync.walkBack, ih]

theorem encodeUtf8_take (chars : List Char) (k : ℕ) :
    encodeUtf8 (chars.take k) = ((chars.map String.utf8EncodeChar).take k).flatten := by
  rw [← List.map_take]
  rfl

/-- The truncated text is the longest that fits. -/
theorem truncateUtf8Bytes_longest (chars : List Char) (maxBytes : ℕ) :
    LongestFit chars maxBytes (truncateUtf8Bytes (encodeUtf8 chars) maxBytes) := by
  unfold truncateUtf8Bytes
  split
  · next hfits => exact ⟨chars.length, le_rfl, by rw [List.take_length], hfits, .inl rfl⟩
  next hlong =>
  have hwords : ∀ w ∈ chars.map String.utf8EncodeChar, Codeword isContinuation w := by
    intro w hw
    obtain ⟨c, -, rfl⟩ := List.mem_map.mp hw
    exact codeword_utf8EncodeChar c
  obtain ⟨k, hk, hwalk, hstart, hend⟩ := walkBack_flatten hwords (not_le.mp hlong)
  have htake : (encodeUtf8 chars).take (walkBack (encodeUtf8 chars) maxBytes) = encodeUtf8 (chars.take k) := by
    have hflat : encodeUtf8 chars = (chars.map String.utf8EncodeChar).flatten := rfl
    rw [walkBack_eq, encodeUtf8_take, hflat, hwalk, flatten_eq_take_append hk, List.take_left]
  rw [htake]
  rw [List.length_map] at hk
  refine ⟨k, hk.le, rfl, ?_, .inr ?_⟩
  · rw [encodeUtf8_take]
    exact hstart
  · rw [encodeUtf8_take, List.take_succ_eq_append_getElem (by rwa [List.length_map]), List.flatten_append,
      List.length_append]
    simpa using hend

/-! ### Texts that are characters already -/

theorem length_encodeUtf8_take_le (chars : List Char) {j k : ℕ} (h : j ≤ k) :
    (encodeUtf8 (chars.take j)).length ≤ (encodeUtf8 (chars.take k)).length := by
  obtain ⟨rest, hrest⟩ := List.take_prefix_take_left (l := chars) h
  rw [← hrest, encodeUtf8, encodeUtf8, List.flatMap_append, List.length_append]
  omega

/-- There is one longest run. -/
theorem LongestFit.unique {chars : List Char} {maxBytes : ℕ} {out out' : List UInt8} (h : LongestFit chars maxBytes out)
    (h' : LongestFit chars maxBytes out') : out = out' := by
  obtain ⟨k, hk, rfl, hfits, hmax⟩ := h
  obtain ⟨k', hk', rfl, hfits', hmax'⟩ := h'
  rcases Nat.lt_trichotomy k k' with hlt | rfl | hlt
  · have hnext := length_encodeUtf8_take_le chars (show k + 1 ≤ k' from hlt)
    rcases hmax with rfl | hmax
    · omega
    · omega
  · rfl
  · have hnext := length_encodeUtf8_take_le chars (show k' + 1 ≤ k from hlt)
    rcases hmax' with rfl | hmax'
    · omega
    · omega

theorem fits_longest (chars : List Char) (room : ℕ) :
    LongestFit chars room (encodeUtf8 (truncateUtf8.fits room chars)) := by
  induction chars generalizing room with
  | nil => exact ⟨0, le_rfl, rfl, Nat.zero_le room, .inl rfl⟩
  | cons c chars ih =>
    have hlength : ∀ l, (encodeUtf8 (c :: l)).length = c.utf8Size + (encodeUtf8 l).length := by
      intro l
      rw [encodeUtf8, List.flatMap_cons, List.length_append, String.length_utf8EncodeChar]
      rfl
    rw [truncateUtf8.fits]
    split
    · next hc =>
      obtain ⟨k, hk, hout, hfits, hmax⟩ := ih (room - c.utf8Size)
      refine ⟨k + 1, Nat.succ_le_succ hk, ?_, ?_, ?_⟩
      · show String.utf8EncodeChar c ++ encodeUtf8 _ = _
        rw [hout]
        rfl
      · rw [hlength]
        omega
      · rw [List.take_succ_cons, hlength, List.length_cons]
        omega
    · next hc =>
      refine ⟨0, Nat.zero_le _, rfl, Nat.zero_le room, .inr ?_⟩
      rw [List.take_succ_cons, hlength]
      omega

/-- Truncating a text as characters or as bytes is the same. -/
theorem stringBytes_truncateUtf8 (s : String) (maxBytes : ℕ) :
    stringBytes (truncateUtf8 s maxBytes) = truncateUtf8Bytes (stringBytes s) maxBytes := by
  have hs : stringBytes s = encodeUtf8 s.toList := by
    rw [← String.ofList_toList (s := s), stringBytes_ofList, String.toList_ofList]
    rfl
  rw [hs, truncateUtf8, stringBytes_ofList]
  exact (fits_longest s.toList maxBytes).unique (truncateUtf8Bytes_longest s.toList maxBytes)

/-- The texts clamped for the wire and for the panel. -/
theorem truncation_longest (chars : List Char) :
    (∀ maxBytes, LongestFit chars maxBytes (truncateUtf8Bytes (encodeUtf8 chars) maxBytes)) ∧
      LongestFit chars 2000 (clampChatText (encodeUtf8 chars)) :=
  ⟨truncateUtf8Bytes_longest chars, truncateUtf8Bytes_longest chars chatMaxTextBytes⟩

end RackMcp
