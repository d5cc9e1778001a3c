import Mathlib.Data.List.Basic
import Mathlib.Tactic.IntervalCases

/-!
# Hashes and hex digits

`core/crypto.cpp`: SHA-256, HMAC-SHA256, the comparison that takes the same time wherever the strings
differ, and hex digits. A `std::string` of raw bytes is a list of bytes.
-/

namespace RackMcp

/-! ### SHA-256 -/

/-- The round constants `K`. -/
def sha256K : List UInt32 :=
  [0x428a2f98, 0x71374491, 0xb5c0fbcf, 0xe9b5dba5, 0x3956c25b, 0x59f111f1, 0x923f82a4, 0xab1c5ed5,
   0xd807aa98, 0x12835b01, 0x243185be, 0x550c7dc3, 0x72be5d74, 0x80deb1fe, 0x9bdc06a7, 0xc19bf174,
   0xe49b69c1, 0xefbe4786, 0x0fc19dc6, 0x240ca1cc, 0x2de92c6f, 0x4a7484aa, 0x5cb0a9dc, 0x76f988da,
   0x983e5152, 0xa831c66d, 0xb00327c8, 0xbf597fc7, 0xc6e00bf3, 0xd5a79147, 0x06ca6351, 0x14292967,
   0x27b70a85, 0x2e1b2138, 0x4d2c6dfc, 0x53380d13, 0x650a7354, 0x766a0abb, 0x81c2c92e, 0x92722c85,
   0xa2bfe8a1, 0xa81a664b, 0xc24b8b70, 0xc76c51a3, 0xd192e819, 0xd6990624, 0xf40e3585, 0x106aa070,
   0x19a4c116, 0x1e376c08, 0x2748774c, 0x34b0bcb5, 0x391c0cb3, 0x4ed8aa4a, 0x5b9cca4f, 0x682e6ff3,
   0x748f82ee, 0x78a5636f, 0x84c87814, 0x8cc70208, 0x90befffa, 0xa4506ceb, 0xbef9a3f7, 0xc67178f2]

/-- `rotr`. -/
def rotr (x : UInt32) (n : UInt32) : UInt32 := (x >>> n) ||| (x <<< (32 - n))

/-- The eight words of the chaining state, and of a round. -/
structure Sha256State where
  a : UInt32
  b : UInt32
  c : UInt32
  d : UInt32
  e : UInt32
  f : UInt32
  g : UInt32
  h : UInt32
deriving DecidableEq

/-- The four bytes of a word, most significant first. -/
def wordBytes (w : UInt32) : List UInt8 :=
  [(w >>> 24).toUInt8, (w >>> 16).toUInt8, (w >>> 8).toUInt8, w.toUInt8]

/-- The big-endian words of a block. -/
def blockWords : List UInt8 → List UInt32
  | b0 :: b1 :: b2 :: b3 :: rest =>
    ((b0.toUInt32 <<< 24) ||| (b1.toUInt32 <<< 16) ||| (b2.toUInt32 <<< 8) ||| b3.toUInt32) ::
      blockWords rest
  | _ => []

/-- Extends the message schedule `w` by `n` words, each from the words before it. -/
def extendSchedule : Nat → List UInt32 → List UInt32
  | 0, w => w
  | n + 1, w =>
    let i := w.length
    let w15 := w.getD (i - 15) 0
    let w2 := w.getD (i - 2) 0
    let s0 := rotr w15 7 ^^^ rotr w15 18 ^^^ (w15 >>> 3)
    let s1 := rotr w2 17 ^^^ rotr w2 19 ^^^ (w2 >>> 10)
    extendSchedule n (w ++ [w.getD (i - 16) 0 + s0 + w.getD (i - 7) 0 + s1])

/-- One round, with its constant and its schedule word. -/
def sha256Round (s : Sha256State) (kw : UInt32 × UInt32) : Sha256State :=
  let S1 := rotr s.e 6 ^^^ rotr s.e 11 ^^^ rotr s.e 25
  let ch := (s.e &&& s.f) ^^^ (~~~s.e &&& s.g)
  let t1 := s.h + S1 + ch + kw.1 + kw.2
  let S0 := rotr s.a 2 ^^^ rotr s.a 13 ^^^ rotr s.a 22
  let maj := (s.a &&& s.b) ^^^ (s.a &&& s.c) ^^^ (s.b &&& s.c)
  let t2 := S0 + maj
  ⟨t1 + t2, s.a, s.b, s.c, s.d + t1, s.e, s.f, s.g⟩

/-- The hasher `Sha256`. The buffer is what `bufferLen_` counts of it, and never full. -/
structure Sha256 where
  state : Sha256State :=
    ⟨0x6a09e667, 0xbb67ae85, 0x3c6ef372, 0xa54ff53a, 0x510e527f, 0x9b05688c, 0x1f83d9ab, 0x5be0cd19⟩
  buffer : List UInt8 := []
  bitLen : UInt64 := 0
  room : buffer.length < 64 := by decide

namespace Sha256

/-- `Sha256::processBlock`. -/
def processBlock (s : Sha256State) (block : List UInt8) : Sha256State :=
  let w := extendSchedule 48 (blockWords block)
  let r := (sha256K.zip w).foldl sha256Round s
  ⟨s.a + r.a, s.b + r.b, s.c + r.c, s.d + r.d, s.e + r.e, s.f + r.f, s.g + r.g, s.h + r.h⟩

/-- A run of bytes behind the buffer; a full buffer is a block. -/
def fill (h : Sha256) (run : List UInt8) (hfits : h.buffer.length + run.length ≤ 64) : Sha256 :=
  if hfull : h.buffer.length + run.length = 64 then
    { h with state := processBlock h.state (h.buffer ++ run), buffer := [], room := by decide }
  else
    { h with buffer := h.buffer ++ run, room := by rw [List.length_append]; omega }

/-- The loop of `update`: as many bytes as there is room for, until none are left. -/
def copyRuns (h : Sha256) (data : List UInt8) : Sha256 :=
  if data = [] then h
  else
    let take := min (64 - h.buffer.length) data.length
    copyRuns (h.fill (data.take take) (by have := h.room; rw [List.length_take]; omega)) (data.drop take)
termination_by data.length
decreasing_by
  have hroom := h.room
  have hpos := List.length_pos_iff.mpr ‹_›
  rw [List.length_drop]
  omega

/-- `Sha256::update`. -/
def update (h : Sha256) (data : List UInt8) : Sha256 :=
  copyRuns { h with bitLen := h.bitLen + UInt64.ofNat data.length * 8 } data

theorem copyRuns_nil (h : Sha256) : h.copyRuns [] = h := by
  rw [copyRuns, if_pos rfl]

theorem update_singleton (h : Sha256) (b : UInt8) :
    h.update [b] = { h with bitLen := h.bitLen + 8 }.fill [b] h.room := by
  unfold update
  rw [copyRuns, if_neg (List.cons_ne_nil b [])]
  have hroom := h.room
  have htake : min (64 - h.buffer.length) [b].length = 1 := by
    rw [List.length_singleton]
    omega
  simp only [htake, List.take_succ_cons, List.take_zero, List.drop_succ_cons, List.drop_zero, copyRuns_nil]
  rfl

theorem length_buffer_update_singleton (h : Sha256) (b : UInt8) :
    (h.update [b]).buffer.length = (h.buffer.length + 1) % 64 := by
  have hroom := h.room
  rw [update_singleton]
  unfold fill
  split
  · next hfull => exact (show (h.buffer.length + 1) % 64 = 0 by rw [show h.buffer.length + 1 = 64 from hfull]).symm
  · next hfull =>
    have hfull : h.buffer.length + 1 ≠ 64 := hfull
    show (h.buffer ++ [b]).length = _
    rw [List.length_append, List.length_singleton]
    omega

/-- The zero bytes of the padding: until 56 bytes of the block are filled. -/
def zeroPad (h : Sha256) : Sha256 := if h.buffer.length = 56 then h else zeroPad (h.update [0])
termination_by (120 - h.buffer.length) % 64
decreasing_by
  have hroom := h.room
  rw [length_buffer_update_singleton]
  omega

/-- `Sha256::finish`. -/
def finish (h : Sha256) : List UInt8 :=
  let messageBits := h.bitLen
  let padded := (h.update [0x80]).zeroPad
  let lenBytes := (List.range 8).map fun i => (messageBits >>> UInt64.ofNat (56 - 8 * i)).toUInt8
  let s := (padded.update lenBytes).state
  [s.a, s.b, s.c, s.d, s.e, s.f, s.g, s.h].flatMap wordBytes

end Sha256

/-! ### Hex digits -/

/-- The digit of a value below sixteen. -/
def hexDigit (n : Nat) : Char := "0123456789abcdef".toList.getD n '0'

/-- `toHex`. -/
def toHex (data : List UInt8) : String :=
  String.ofList (data.flatMap fun b => [hexDigit (b.toNat / 16), hexDigit (b.toNat % 16)])

/-- A digit `isHex` admits. -/
def isHexChar (c : Char) : Bool := ('0' ≤ c && c ≤ '9') || ('a' ≤ c && c ≤ 'f')

/-- `isHex` of `service.cpp`: so many bytes, all of them lowercase hex digits. -/
def isHex (s : String) (len : Nat) : Bool := s.utf8ByteSize == len && s.toList.all isHexChar

/-- `hexVal`, which reads capital digits too; `none` is the source's `-1`. -/
def hexVal (c : UInt8) : Option UInt8 :=
  if 0x30 ≤ c ∧ c ≤ 0x39 then some (c - 0x30)
  else if 0x61 ≤ c ∧ c ≤ 0x66 then some (c - 0x61 + 10)
  else if 0x41 ≤ c ∧ c ≤ 0x46 then some (c - 0x41 + 10)
  else none

/-- `fromHex`: two digits a byte. -/
def fromHex : List UInt8 → Option (List UInt8)
  | [] => some []
  | [_] => none
  | hi :: lo :: hex => do
    let h ← hexVal hi
    let l ← hexVal lo
    let out ← fromHex hex
    return ((h <<< 4) ||| l) :: out

/-! ### The digests -/

/-- The bytes of a string. -/
def stringBytes (s : String) : List UInt8 := s.toUTF8.data.toList

/-- `sha256Hex`. -/
def sha256Hex (data : String) : String := toHex (({} : Sha256).update (stringBytes data)).finish

example : sha256Hex "abc" = "ba7816bf8f01cfea414140de5dae2223b00361a396177a9cb410ff61f20015ad" := by
  decide +kernel

/-- `hmacSha256`. -/
def hmacSha256 (key message : List UInt8) : List UInt8 :=
  let short := if key.length > 64 then (({} : Sha256).update key).finish else key
  let keyBlock := short ++ List.replicate (64 - short.length) 0
  let innerDigest := ((({} : Sha256).update (keyBlock.map (· ^^^ 0x36))).update message).finish
  ((({} : Sha256).update (keyBlock.map (· ^^^ 0x5c))).update innerDigest).finish

/-- `hmacSha256Hex`, of a raw key and a message. -/
def hmacSha256Hex (key : List UInt8) (message : String) : String :=
  toHex (hmacSha256 key (stringBytes message))

/-- `constantTimeEqual`: no byte differs, found out without stopping at the first that does. -/
def constantTimeEqual (a b : String) : Bool :=
  if (stringBytes a).length ≠ (stringBytes b).length then false
  else ((stringBytes a).zip (stringBytes b)).foldl (fun acc ab => acc ||| (ab.1 ^^^ ab.2)) (0 : UInt8) == 0

/-! ### What the checks of an HMAC amount to -/

/-- A lowercase hex digit is one byte. -/
theorem utf8Size_of_isHexChar {c : Char} (h : isHexChar c = true) : c.utf8Size = 1 := by
  rw [Char.utf8Size_eq_one_iff]
  simp only [isHexChar, Bool.or_eq_true, Bool.and_eq_true, decide_eq_true_eq] at h
  rcases h with h | h
  · have hle : c.val ≤ '9'.val := h.2
    exact UInt32.le_trans hle (by decide)
  · have hle : c.val ≤ 'f'.val := h.2
    exact UInt32.le_trans hle (by decide)

theorem utf8ByteSize_of_hex {l : List Char} (h : ∀ c ∈ l, isHexChar c = true) :
    (String.ofList l).utf8ByteSize = l.length := by
  induction l with
  | nil => rfl
  | cons c l ih =>
    have htail := ih fun d hd => h d (List.mem_cons_of_mem c hd)
    have hc := utf8Size_of_isHexChar (h c List.mem_cons_self)
    rw [String.ofList_cons, String.utf8ByteSize_append, String.utf8ByteSize_singleton, htail, hc,
      List.length_cons]
    omega

theorem stringBytes_ofList (l : List Char) : stringBytes (String.ofList l) = l.flatMap String.utf8EncodeChar := by
  unfold stringBytes String.toUTF8
  rw [String.toByteArray_ofList]
  show (l.flatMap String.utf8EncodeChar).toByteArray.data.toList = _
  rw [List.data_toByteArray]

/-- The byte of a digit. -/
def hexByte (n : Nat) : UInt8 := (hexDigit n).val.toUInt8

theorem utf8EncodeChar_hexDigit {n : Nat} (h : n < 16) : String.utf8EncodeChar (hexDigit n) = [hexByte n] := by
  interval_cases n <;> rfl

theorem hexVal_hexByte {n : Nat} (h : n < 16) : hexVal (hexByte n) = some (UInt8.ofNat n) := by
  interval_cases n <;> rfl

theorem stringBytes_toHex (data : List UInt8) :
    stringBytes (toHex data) = data.flatMap fun b => [hexByte (b.toNat / 16), hexByte (b.toNat % 16)] := by
  unfold toHex
  rw [stringBytes_ofList, List.flatMap_assoc]
  congr
  funext b
  have hb := b.toNat_lt
  rw [List.flatMap_cons, List.flatMap_cons, List.flatMap_nil, utf8EncodeChar_hexDigit (by omega),
    utf8EncodeChar_hexDigit (by omega)]
  rfl

/-- A byte is put together again from its two digits. -/
theorem join_nibbles (b : UInt8) : (UInt8.ofNat (b.toNat / 16) <<< 4) ||| UInt8.ofNat (b.toNat % 16) = b := by
  have h : ∀ n < 256, (UInt8.ofNat (n / 16) <<< 4) ||| UInt8.ofNat (n % 16) = UInt8.ofNat n := by decide +kernel
  rw [h b.toNat b.toNat_lt, UInt8.ofNat_toNat]

/-- Reading the hex digits of some bytes gives the bytes. -/
theorem fromHex_toHex (data : List UInt8) : fromHex (stringBytes (toHex data)) = some data := by
  rw [stringBytes_toHex]
  induction data with
  | nil => rfl
  | cons b data ih =>
    have hb := b.toNat_lt
    have hhi := hexVal_hexByte (show b.toNat / 16 < 16 by omega)
    have hlo := hexVal_hexByte (show b.toNat % 16 < 16 by omega)
    rw [List.flatMap_cons, List.cons_append, List.cons_append, List.nil_append, fromHex, hhi, hlo, ih]
    exact congrArg (fun c => some (c :: data)) (join_nibbles b)

theorem foldl_or_eq_zero (l : List (UInt8 × UInt8)) (acc : UInt8) :
    l.foldl (fun acc ab => acc ||| (ab.1 ^^^ ab.2)) acc = 0 ↔ acc = 0 ∧ ∀ ab ∈ l, ab.1 = ab.2 := by
  induction l generalizing acc with
  | nil => simp
  | cons ab l ih =>
    rw [List.foldl_cons, ih, UInt8.or_eq_zero_iff, UInt8.xor_eq_zero_iff, List.forall_mem_cons, and_assoc]

theorem forall_zip_eq_iff {α : Type*} {a b : List α} (h : a.length = b.length) :
    (∀ ab ∈ a.zip b, ab.1 = ab.2) ↔ a = b := by
  induction a generalizing b with
  | nil =>
    obtain rfl := List.length_eq_zero_iff.mp h.symm
    simp
  | cons x a ih =>
    rcases b with _ | ⟨y, b⟩
    · cases h
    · rw [List.zip_cons_cons, List.forall_mem_cons, ih (by simpa using h), List.cons.injEq]

/-- `constantTimeEqual` is equality of the strings. -/
theorem constantTimeEqual_iff {a b : String} : constantTimeEqual a b = true ↔ a = b := by
  have hbytes : stringBytes a = stringBytes b ↔ a = b := by
    unfold stringBytes String.toUTF8
    rw [Array.toList_inj, ← String.toByteArray_inj, ByteArray.ext_iff]
  unfold constantTimeEqual
  split
  · next hlen =>
    constructor
    · intro h
      cases h
    · intro h
      exact absurd (congrArg List.length (hbytes.mpr h)) hlen
  · next hlen =>
    rw [beq_iff_eq, foldl_or_eq_zero, forall_zip_eq_iff (not_not.mp hlen), hbytes]
    simp

end RackMcp
