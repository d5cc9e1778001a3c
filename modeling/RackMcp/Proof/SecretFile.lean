import RackMcp.Core.Secret
import RackMcp.Server.Discovery
import RackMcp.Proof.Decoding

/-!
# The secret file, read by both sides

The plugin trims line ends and spaces from the end of the file and takes hex digits in either case; the server trims
white space of any kind from both ends and takes lowercase digits only. `Wrapped` is what either of them can accept:
64 hex digits between white space.
-/

namespace RackMcp

/-! ### White space and digits -/

/-- A lowercase hex digit. -/
def isLowerDigit (b : UInt8) : Bool := (0x30 ≤ b && b ≤ 0x39) || (0x61 ≤ b && b ≤ 0x66)

/-- A byte of ASCII as a character. -/
def asciiChar (b : UInt8) : Char := Char.ofNat b.toNat

theorem hexVal_none_of_isWhiteSpace {c : Char} (h : isWhiteSpace c = true) :
    ∀ b ∈ String.utf8EncodeChar c, hexVal b = none := by
  suffices hall : (String.utf8EncodeChar c).all (fun b => (hexVal b).isNone) = true by
    intro b hb
    exact Option.isNone_iff_eq_none.mp (List.all_eq_true.mp hall b hb)
  unfold isWhiteSpace at h
  rw [Bool.or_eq_true, List.contains_iff_mem, Bool.and_eq_true, decide_eq_true_eq, decide_eq_true_eq] at h
  rcases h with h | ⟨hlow, hhigh⟩
  · simp only [List.mem_cons, List.not_mem_nil, or_false] at h
    rcases h with rfl | rfl | rfl | rfl | rfl | rfl | rfl | rfl | rfl | rfl | rfl | rfl | rfl | rfl <;> decide
  · have hlow : 0x2000 ≤ c.toNat := hlow
    have hhigh : c.toNat ≤ 0x200a := hhigh
    have hc : c = Char.ofNat c.toNat := (Char.ofNat_toNat c).symm
    generalize c.toNat = n at *
    subst hc
    interval_cases n <;> decide

theorem isSome_hexVal_of_isLowerDigit : ∀ b : UInt8, isLowerDigit b = true → (hexVal b).isSome = true :=
  forall_byte (by decide +kernel)

/-- A lowercase digit is one byte, and a character the server admits. -/
theorem isHexChar_asciiChar : ∀ b : UInt8, isLowerDigit b = true →
    isHexChar (asciiChar b) = true ∧ String.utf8EncodeChar (asciiChar b) = [b] := forall_byte (by decide +kernel)

theorem exists_of_isHexChar {c : Char} (h : isHexChar c = true) : ∃ b, isLowerDigit b = true ∧ c = asciiChar b := by
  have hc : c = Char.ofNat c.toNat := (Char.ofNat_toNat c).symm
  simp only [isHexChar, Bool.or_eq_true, Bool.and_eq_true, decide_eq_true_eq] at h
  have hrange : (0x30 ≤ c.toNat ∧ c.toNat ≤ 0x39) ∨ (0x61 ≤ c.toNat ∧ c.toNat ≤ 0x66) := h
  refine ⟨c.toNat.toUInt8, ?_, ?_⟩
  · generalize c.toNat = n at *
    rcases hrange with ⟨hlow, hhigh⟩ | ⟨hlow, hhigh⟩
    · interval_cases n <;> rfl
    · interval_cases n <;> rfl
  · unfold asciiChar
    rw [UInt8.toNat_ofNat', Nat.mod_eq_of_lt (by omega)]
    exact hc

/-- The pairs of digits, read by either side. -/
theorem hexCharVal_asciiChar : ∀ b : UInt8, (hexVal b).isSome = true → hexCharVal (asciiChar b) = hexVal b :=
  forall_byte (by decide +kernel)

theorem fromHex_eq_bufferFromHex {digits : List UInt8} (heven : digits.length % 2 = 0)
    (hdigits : ∀ b ∈ digits, (hexVal b).isSome = true) :
    fromHex digits = some (bufferFromHex (digits.map asciiChar)) := by
  induction digits using fromHex.induct with
  | case1 => rfl
  | case2 b => cases heven
  | case3 hi lo hex ih =>
    obtain ⟨hhi, hlo, hhex⟩ : _ ∧ _ ∧ _ := by simpa using hdigits
    obtain ⟨h, hh⟩ := Option.isSome_iff_exists.mp hhi
    obtain ⟨l, hl⟩ := Option.isSome_iff_exists.mp hlo
    have hrest : hex.length % 2 = 0 := by
      rw [List.length_cons, List.length_cons] at heven
      omega
    have hih := ih hrest hhex
    rw [fromHex, List.map_cons, List.map_cons, bufferFromHex, hexCharVal_asciiChar hi hhi, hexCharVal_asciiChar lo hlo,
      hh, hl, hih]
    rfl

/-- Only digits are decoded. -/
theorem isSome_hexVal_of_fromHex {digits out : List UInt8} (h : fromHex digits = some out) :
    ∀ b ∈ digits, (hexVal b).isSome = true := by
  induction digits using fromHex.induct generalizing out with
  | case1 => exact fun b hb => absurd hb List.not_mem_nil
  | case2 b => cases h
  | case3 hi lo hex ih =>
    rw [fromHex] at h
    obtain ⟨h', hh, h⟩ := Option.bind_eq_some_iff.mp h
    obtain ⟨l', hl, h⟩ := Option.bind_eq_some_iff.mp h
    obtain ⟨rest, hrest, -⟩ := Option.bind_eq_some_iff.mp h
    intro b hb
    rcases List.mem_cons.mp hb with rfl | hb
    · rw [hh]
      rfl
    rcases List.mem_cons.mp hb with rfl | hb
    · rw [hl]
      rfl
    · exact ih hrest b hb

theorem length_of_fromHex {digits out : List UInt8} (h : fromHex digits = some out) : digits.length = 2 * out.length := by
  induction digits using fromHex.induct generalizing out with
  | case1 =>
    cases h
    rfl
  | case2 b => cases h
  | case3 hi lo hex ih =>
    rw [fromHex] at h
    obtain ⟨h', -, h⟩ := Option.bind_eq_some_iff.mp h
    obtain ⟨l', -, h⟩ := Option.bind_eq_some_iff.mp h
    obtain ⟨rest, hrest, hout⟩ := Option.bind_eq_some_iff.mp h
    have hout : (h' <<< 4 ||| l') :: rest = out := Option.some.inj hout
    rw [← hout, List.length_cons, List.length_cons, List.length_cons, ih hrest]
    omega

/-! ### What either side accepts -/

/-- The file is 64 hex digits between white space. -/
structure Wrapped (contents : List UInt8) (before : List Char) (digits : List UInt8) (after : List Char) : Prop where
  contents_eq : contents = encodeUtf8 before ++ (digits ++ encodeUtf8 after)
  before_space : ∀ c ∈ before, isWhiteSpace c = true
  after_space : ∀ c ∈ after, isWhiteSpace c = true
  length : digits.length = 64
  hex : ∀ b ∈ digits, (hexVal b).isSome = true

/-- The plugin trims no more than this. -/
def PluginTrims (before after : List Char) : Prop := before = [] ∧ ∀ c ∈ after, c = '\n' ∨ c = '\r' ∨ c = ' '

/-- Where a run that `p` admits ends. -/
theorem span_append {α : Type*} {p : α → Bool} {l m : List α} (hl : ∀ a ∈ l, p a = true)
    (hm : ∀ a, m.head? = some a → p a = false) : (l ++ m).takeWhile p = l ∧ (l ++ m).dropWhile p = m := by
  rw [List.takeWhile_append_of_pos hl, List.dropWhile_append_of_pos hl]
  rcases m with _ | ⟨a, m⟩
  · simp
  · have ha := hm a rfl
    simp [ha]

/-- What is dropped from the end. -/
theorem exists_rdropWhile {α : Type*} (p : α → Bool) (l : List α) :
    ∃ dropped, l = l.rdropWhile p ++ dropped ∧ ∀ a ∈ dropped, p a = true := by
  refine ⟨(l.reverse.takeWhile p).reverse, ?_, ?_⟩
  · rw [List.rdropWhile, ← List.reverse_append, List.takeWhile_append_dropWhile, List.reverse_reverse]
  · intro a ha
    exact List.mem_takeWhile_imp (List.mem_reverse.mp ha)

theorem rdropWhile_append {α : Type*} {p : α → Bool} {l m : List α} (hm : ∀ a ∈ m, p a = true)
    (hl : ∀ a ∈ l, p a = false) : (l ++ m).rdropWhile p = l := by
  have hspan := span_append (p := p) (l := m.reverse) (m := l.reverse) (fun a ha => hm a (List.mem_reverse.mp ha))
    fun a ha => hl a (List.mem_reverse.mp (List.mem_of_mem_head? ha))
  rw [List.rdropWhile, List.reverse_append, hspan.2, List.reverse_reverse]

theorem hexVal_none_of_mem_encodeUtf8 {chars : List Char} (h : ∀ c ∈ chars, isWhiteSpace c = true) :
    ∀ b ∈ encodeUtf8 chars, hexVal b = none := by
  intro b hb
  obtain ⟨c, hc, hb⟩ := List.mem_flatMap.mp hb
  exact hexVal_none_of_isWhiteSpace (h c hc) b hb

namespace Wrapped

variable {contents digits digits' : List UInt8} {before after before' after' : List Char}

theorem ne_nil (h : Wrapped contents before digits after) : digits ≠ [] := by
  intro hnil
  have hlength := h.length
  rw [hnil] at hlength
  cases hlength

/-- The digits of a file are its hex digits. -/
theorem unique (h : Wrapped contents before digits after) (h' : Wrapped contents before' digits' after') :
    before = before' ∧ digits = digits' ∧ after = after' := by
  have hcut : ∀ {before digits after}, Wrapped contents before digits after →
      contents.takeWhile (fun b => (hexVal b).isNone) = encodeUtf8 before ∧
      (contents.dropWhile (fun b => (hexVal b).isNone)).takeWhile (fun b => (hexVal b).isSome) = digits ∧
      (contents.dropWhile (fun b => (hexVal b).isNone)).dropWhile (fun b => (hexVal b).isSome) = encodeUtf8 after := by
    intro before digits after h
    have hspace : ∀ {chars}, (∀ c ∈ chars, isWhiteSpace c = true) → ∀ b ∈ encodeUtf8 chars, (hexVal b).isNone = true :=
      fun hchars b hb => Option.isNone_iff_eq_none.mpr (hexVal_none_of_mem_encodeUtf8 hchars b hb)
    have hfront := span_append (p := fun b => (hexVal b).isNone) (m := digits ++ encodeUtf8 after)
      (hspace h.before_space) fun b hb => by
        rw [List.head?_append_of_ne_nil _ h.ne_nil] at hb
        rw [← Option.not_isSome, h.hex b (List.mem_of_mem_head? hb)]
        rfl
    have hback := span_append (p := fun b => (hexVal b).isSome) (m := encodeUtf8 after) h.hex fun b hb => by
        rw [← Option.not_isNone, hspace h.after_space b (List.mem_of_mem_head? hb)]
        rfl
    rw [h.contents_eq, hfront.1, hfront.2]
    exact ⟨rfl, hback⟩
  obtain ⟨hb, hd, ha⟩ := hcut h
  obtain ⟨hb', hd', ha'⟩ := hcut h'
  exact ⟨encodeUtf8_injective (hb.symm.trans hb'), hd.symm.trans hd', encodeUtf8_injective (ha.symm.trans ha')⟩

end Wrapped

/-- A byte the plugin trims is white space, and no digit. -/
theorem asciiChar_of_isTrimmed : ∀ b : UInt8, isTrimmed b = true → isWhiteSpace (asciiChar b) = true ∧
    (asciiChar b = '\n' ∨ asciiChar b = '\r' ∨ asciiChar b = ' ') ∧ String.utf8EncodeChar (asciiChar b) = [b] :=
  forall_byte (by decide +kernel)

theorem isTrimmed_of_isSome_hexVal : ∀ b : UInt8, (hexVal b).isSome = true → isTrimmed b = false :=
  forall_byte (by decide +kernel)

/-- Bytes of ASCII as characters and back. -/
theorem encodeUtf8_map_asciiChar {bytes : List UInt8}
    (h : ∀ b ∈ bytes, String.utf8EncodeChar (asciiChar b) = [b]) : encodeUtf8 (bytes.map asciiChar) = bytes := by
  induction bytes with
  | nil => rfl
  | cons b bytes ih =>
    obtain ⟨hb, hbytes⟩ := List.forall_mem_cons.mp h
    rw [List.map_cons, encodeUtf8, List.flatMap_cons, hb]
    exact congrArg (b :: ·) (ih hbytes)

/-- What the plugin accepts. -/
theorem readSecretFile_eq_some_iff {contents : List UInt8} {raw : List UInt8} :
    (readSecretFile (some contents)).map (·.val) = some raw ↔
      ∃ digits after, Wrapped contents [] digits after ∧ PluginTrims [] after ∧ raw = bufferFromHex (digits.map asciiChar) := by
  constructor
  · intro h
    obtain ⟨dropped, hcontents, hdropped⟩ := exists_rdropWhile isTrimmed contents
    unfold readSecretFile at h
    dsimp only at h
    generalize contents.rdropWhile isTrimmed = hex at h hcontents
    split at h
    · cases h
    next hlength =>
    have hlength := not_not.mp hlength
    split at h
    · cases h
    next raw' hraw =>
    have hdigits := isSome_hexVal_of_fromHex hraw
    have hafter : encodeUtf8 (dropped.map asciiChar) = dropped :=
      encodeUtf8_map_asciiChar fun b hb => (asciiChar_of_isTrimmed b (hdropped b hb)).2.2
    split at h
    · refine ⟨hex, dropped.map asciiChar, ⟨?_, by simp, ?_, hlength, hdigits⟩, ⟨rfl, ?_⟩, ?_⟩
      · rw [hafter]
        exact hcontents
      · intro c hc
        obtain ⟨b, hb, rfl⟩ := List.mem_map.mp hc
        exact (asciiChar_of_isTrimmed b (hdropped b hb)).1
      · intro c hc
        obtain ⟨b, hb, rfl⟩ := List.mem_map.mp hc
        exact (asciiChar_of_isTrimmed b (hdropped b hb)).2.1
      · rw [fromHex_eq_bufferFromHex (by omega) hdigits] at hraw
        have hsame : raw' = raw := Option.some.inj h
        exact hsame.symm.trans (Option.some.inj hraw).symm
    · cases h
  · rintro ⟨digits, after, h, ⟨-, hafter⟩, rfl⟩
    have htrimmed : ∀ b ∈ encodeUtf8 after, isTrimmed b = true := by
      intro b hb
      obtain ⟨c, hc, hb⟩ := List.mem_flatMap.mp hb
      rcases hafter c hc with rfl | rfl | rfl
      · rw [List.mem_singleton.mp hb]
        rfl
      · rw [List.mem_singleton.mp hb]
        rfl
      · rw [List.mem_singleton.mp hb]
        rfl
    have hhex : contents.rdropWhile isTrimmed = digits := by
      rw [h.contents_eq]
      exact rdropWhile_append htrimmed fun b hb => isTrimmed_of_isSome_hexVal b (h.hex b hb)
    have hfrom := fromHex_eq_bufferFromHex (by rw [h.length]) h.hex
    have hlength := length_of_fromHex hfrom
    rw [h.length] at hlength
    unfold readSecretFile
    simp only [hhex, h.length, hfrom, ne_eq, not_true_eq_false, if_false]
    rw [dif_pos (by omega)]
    rfl

theorem replacement_not_mem {before hex after : List Char} (hbefore : ∀ c ∈ before, isWhiteSpace c = true)
    (hhex : ∀ c ∈ hex, isHexChar c = true) (hafter : ∀ c ∈ after, isWhiteSpace c = true) :
    '\uFFFD' ∉ before ++ (hex ++ after) := by
  intro hmem
  rcases List.mem_append.mp hmem with hmem | hmem
  · exact absurd (hbefore _ hmem) (by decide)
  rcases List.mem_append.mp hmem with hmem | hmem
  · exact absurd (hhex _ hmem) (by decide)
  · exact absurd (hafter _ hmem) (by decide)

theorem isWhiteSpace_of_isHexChar {c : Char} (h : isHexChar c = true) : isWhiteSpace c = false := by
  obtain ⟨b, hb, rfl⟩ := exists_of_isHexChar h
  have hall : ∀ b : UInt8, isLowerDigit b = true → isWhiteSpace (asciiChar b) = false := forall_byte (by decide +kernel)
  exact hall b hb

/-- Trimming what is between white space. -/
theorem trim_append {before hex after : List Char} (hbefore : ∀ c ∈ before, isWhiteSpace c = true)
    (hne : hex ≠ []) (hhex : ∀ c ∈ hex, isHexChar c = true) (hafter : ∀ c ∈ after, isWhiteSpace c = true) :
    trim (before ++ (hex ++ after)) = hex := by
  have hinner : ∀ c ∈ hex, isWhiteSpace c = false := fun c hc => isWhiteSpace_of_isHexChar (hhex c hc)
  have hfront := span_append (p := isWhiteSpace) (m := hex ++ after) hbefore fun c hc => by
    rw [List.head?_append_of_ne_nil _ hne] at hc
    exact hinner c (List.mem_of_mem_head? hc)
  rw [trim, hfront.2]
  exact rdropWhile_append hafter hinner

theorem exists_digits {hex : List Char} (h : ∀ c ∈ hex, isHexChar c = true) :
    ∃ digits : List UInt8, hex = digits.map asciiChar ∧ ∀ b ∈ digits, isLowerDigit b = true := by
  induction hex with
  | nil => exact ⟨[], rfl, by simp⟩
  | cons c hex ih =>
    obtain ⟨hc, hhex⟩ := List.forall_mem_cons.mp h
    obtain ⟨b, hb, rfl⟩ := exists_of_isHexChar hc
    obtain ⟨digits, rfl, hdigits⟩ := ih hhex
    exact ⟨b :: digits, rfl, List.forall_mem_cons.mpr ⟨hb, hdigits⟩⟩

/-- What the server accepts. -/
theorem loadPairingSecret_eq_some_iff {contents : List UInt8} {raw : List UInt8} :
    loadPairingSecret contents = some raw ↔
      ∃ before digits after, Wrapped contents before digits after ∧ digits.all isLowerDigit = true ∧
        raw = bufferFromHex (digits.map asciiChar) := by
  constructor
  · intro h
    obtain ⟨after, htext, hafter⟩ := exists_rdropWhile isWhiteSpace ((decodeUtf8 contents).dropWhile isWhiteSpace)
    have hdecoded := List.takeWhile_append_dropWhile (p := isWhiteSpace) (l := decodeUtf8 contents)
    have hbefore : ∀ c ∈ (decodeUtf8 contents).takeWhile isWhiteSpace, isWhiteSpace c = true :=
      fun c hc => List.mem_takeWhile_imp hc
    unfold loadPairingSecret trim at h
    dsimp only at h
    rw [htext] at hdecoded
    generalize ((decodeUtf8 contents).dropWhile isWhiteSpace).rdropWhile isWhiteSpace = hex at h hdecoded
    generalize (decodeUtf8 contents).takeWhile isWhiteSpace = before at hbefore hdecoded
    split at h
    swap
    · cases h
    next hhex =>
    obtain ⟨hlength, hhex⟩ := hhex
    have hhex := List.all_eq_true.mp hhex
    have hreplaced : '\uFFFD' ∉ decodeUtf8 contents := by
      rw [← hdecoded]
      exact replacement_not_mem hbefore hhex hafter
    have hcontents := encodeUtf8_decodeUtf8 hreplaced
    obtain ⟨digits, rfl, hdigits⟩ := exists_digits hhex
    refine ⟨before, digits, after, ⟨?_, hbefore, hafter, ?_, ?_⟩, List.all_eq_true.mpr hdigits, (Option.some.inj h).symm⟩
    · rw [← hcontents, ← hdecoded, encodeUtf8_append, encodeUtf8_append,
        encodeUtf8_map_asciiChar fun b hb => (isHexChar_asciiChar b (hdigits b hb)).2]
    · rwa [List.length_map] at hlength
    · exact fun b hb => isSome_hexVal_of_isLowerDigit b (hdigits b hb)
  · rintro ⟨before, digits, after, h, hlower, rfl⟩
    have hlower := List.all_eq_true.mp hlower
    have hdigits : encodeUtf8 (digits.map asciiChar) = digits :=
      encodeUtf8_map_asciiChar fun b hb => (isHexChar_asciiChar b (hlower b hb)).2
    have hhex : ∀ c ∈ digits.map asciiChar, isHexChar c = true := by
      intro c hc
      obtain ⟨b, hb, rfl⟩ := List.mem_map.mp hc
      exact (isHexChar_asciiChar b (hlower b hb)).1
    have hdecoded : decodeUtf8 contents = before ++ (digits.map asciiChar ++ after) := by
      rw [← decodeUtf8_encodeUtf8 (before ++ (digits.map asciiChar ++ after)), encodeUtf8_append, encodeUtf8_append,
        hdigits, h.contents_eq]
    have htrim := trim_append h.before_space (by simpa using h.ne_nil) hhex h.after_space
    unfold loadPairingSecret
    dsimp only
    rw [hdecoded, htrim, if_pos ⟨by rw [List.length_map, h.length], List.all_eq_true.mpr hhex⟩]

/-- Both sides read a file alike exactly if its digits, when it holds 64 between white space, are lowercase just when the
plugin trims that white space. -/
theorem secret_read_alike_iff (contents : List UInt8) :
    (readSecretFile (some contents)).map (·.val) = loadPairingSecret contents ↔
      ∀ before digits after, Wrapped contents before digits after →
        (digits.all isLowerDigit = true ↔ PluginTrims before after) := by
  constructor
  · intro halike before digits after h
    constructor
    · intro hlower
      have hserver := loadPairingSecret_eq_some_iff.mpr ⟨before, digits, after, h, hlower, rfl⟩
      obtain ⟨digits', after', h', htrims, -⟩ := readSecretFile_eq_some_iff.mp (halike.trans hserver)
      obtain ⟨rfl, rfl, rfl⟩ := h.unique h'
      exact htrims
    · intro htrims
      obtain rfl := htrims.1
      have hplugin := readSecretFile_eq_some_iff.mpr ⟨digits, after, h, htrims, rfl⟩
      obtain ⟨before', digits', after', h', hlower, -⟩ := loadPairingSecret_eq_some_iff.mp (halike.symm.trans hplugin)
      obtain ⟨rfl, rfl, rfl⟩ := h.unique h'
      exact hlower
  · intro hcond
    apply Option.ext
    intro raw
    rw [readSecretFile_eq_some_iff, loadPairingSecret_eq_some_iff]
    constructor
    · intro ⟨digits, after, h, htrims, hraw⟩
      exact ⟨[], digits, after, h, (hcond _ _ _ h).mpr htrims, hraw⟩
    · intro ⟨before, digits, after, h, hlower, hraw⟩
      have htrims := (hcond _ _ _ h).mp hlower
      obtain rfl := htrims.1
      exact ⟨digits, after, h, htrims, hraw⟩

/-- A secret in capitals. -/
def capitalSecret : List UInt8 := List.replicate 64 0x41 ++ [0x0a]

/-- The plugin starts with it, and the server takes it for malformed. -/
theorem capitalSecret_locks_out :
    ((readSecretFile (some capitalSecret)).map (·.val)) = some (List.replicate 32 0xaa) ∧
      loadPairingSecret capitalSecret = none := by
  have hhex : ∀ b ∈ List.replicate 64 (0x41 : UInt8), (hexVal b).isSome = true := by
    intro b hb
    rw [List.eq_of_mem_replicate hb]
    rfl
  have hwrapped : Wrapped capitalSecret [] (List.replicate 64 0x41) ['\n'] :=
    ⟨rfl, by simp, by simp [isWhiteSpace], by simp, hhex⟩
  refine ⟨readSecretFile_eq_some_iff.mpr ⟨_, _, hwrapped, ⟨rfl, by simp⟩, by decide⟩, ?_⟩
  rw [Option.eq_none_iff_forall_ne_some]
  intro raw hraw
  obtain ⟨before, digits, after, h, hlower, -⟩ := loadPairingSecret_eq_some_iff.mp hraw
  obtain ⟨rfl, rfl, rfl⟩ := hwrapped.unique h
  exact absurd hlower (by decide)

end RackMcp
