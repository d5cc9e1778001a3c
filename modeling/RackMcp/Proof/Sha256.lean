import RackMcp.Core.Crypto
import RackMcp.Lib.SecureHash

/-!
# The hashes are the standard ones

The hasher of `core/crypto.cpp` against the standard: word operations, message schedule, rounds, and the padding that
is fed back through `update` byte by byte. `Sha256.Fed` is what every call of `update` keeps, however the message is
cut into calls.
-/

namespace RackMcp

open BlockStream SecureHash

/-! ### Words -/

theorem toBitVec_rotr (x : UInt32) {n : ℕ} (hpos : 0 < n) (hlt : n < 32) :
    (rotr x (UInt32.ofNat n)).toBitVec = x.toBitVec.rotateRight n := by
  have hright : (UInt32.ofNat n).toBitVec % 32 = BitVec.ofNat 32 n := by
    apply BitVec.eq_of_toNat_eq
    simp [BitVec.toNat_umod]
    omega
  have hleft : (32 - UInt32.ofNat n).toBitVec % 32 = BitVec.ofNat 32 (32 - n) := by
    apply BitVec.eq_of_toNat_eq
    simp [BitVec.toNat_umod, BitVec.toNat_sub]
    omega
  unfold rotr
  rw [UInt32.toBitVec_or, UInt32.toBitVec_shiftRight, UInt32.toBitVec_shiftLeft, hright, hleft, BitVec.rotateRight_def,
    BitVec.ushiftRight_eq', BitVec.shiftLeft_eq', BitVec.toNat_ofNat, BitVec.toNat_ofNat, Nat.mod_eq_of_lt hlt,
    Nat.mod_eq_of_lt (show n < 2 ^ 32 by omega), Nat.mod_eq_of_lt (show 32 - n < 2 ^ 32 by omega)]

/-- The state as the working variables of the standard. -/
def Sha256State.registers (s : Sha256State) : Registers :=
  ⟨s.a.toBitVec, s.b.toBitVec, s.c.toBitVec, s.d.toBitVec, s.e.toBitVec, s.f.toBitVec, s.g.toBitVec, s.h.toBitVec⟩

theorem registers_round (s : Sha256State) (k w : UInt32) :
    (sha256Round s (k, w)).registers = SecureHash.round k.toBitVec w.toBitVec s.registers := by
  have hS1 : (rotr s.e 6 ^^^ rotr s.e 11 ^^^ rotr s.e 25).toBitVec = bigSigma1 s.e.toBitVec := by
    rw [UInt32.toBitVec_xor, UInt32.toBitVec_xor]
    exact congrArg₂ _ (congrArg₂ _ (toBitVec_rotr s.e (by decide) (by decide)) (toBitVec_rotr s.e (by decide) (by decide)))
      (toBitVec_rotr s.e (by decide) (by decide))
  have hS0 : (rotr s.a 2 ^^^ rotr s.a 13 ^^^ rotr s.a 22).toBitVec = bigSigma0 s.a.toBitVec := by
    rw [UInt32.toBitVec_xor, UInt32.toBitVec_xor]
    exact congrArg₂ _ (congrArg₂ _ (toBitVec_rotr s.a (by decide) (by decide)) (toBitVec_rotr s.a (by decide) (by decide)))
      (toBitVec_rotr s.a (by decide) (by decide))
  simp only [Sha256State.registers, sha256Round, SecureHash.round, UInt32.toBitVec_add, hS1, hS0]
  rfl

theorem sha256K_eq : sha256K.map (·.toBitVec) = (List.range 64).map roundConstant := by decide +kernel

theorem registers_initial : ({} : Sha256).state.registers = initial := by decide +kernel

/-! ### Blocks -/

/-- Four bytes as one word, shifted into their places or read as a number. -/
theorem word_of_bytes (b0 b1 b2 b3 : UInt8) :
    ((b0.toUInt32 <<< 24) ||| (b1.toUInt32 <<< 16) ||| (b2.toUInt32 <<< 8) ||| b3.toUInt32).toNat =
      ((b0.toNat * 256 + b1.toNat) * 256 + b2.toNat) * 256 + b3.toNat := by
  have h0 := b0.toNat_lt
  have h1 := b1.toNat_lt
  have h2 := b2.toNat_lt
  have h3 := b3.toNat_lt
  have hlow : b2.toNat <<< 8 ||| b3.toNat = b2.toNat * 256 + b3.toNat := by
    rw [← Nat.shiftLeft_add_eq_or_of_lt h3, Nat.shiftLeft_eq]
  have hmid : b1.toNat <<< 16 ||| (b2.toNat * 256 + b3.toNat) = b1.toNat * 65536 + (b2.toNat * 256 + b3.toNat) := by
    rw [← Nat.shiftLeft_add_eq_or_of_lt (show b2.toNat * 256 + b3.toNat < 2 ^ 16 by omega), Nat.shiftLeft_eq]
  have hall : b0.toNat <<< 24 ||| (b1.toNat * 65536 + (b2.toNat * 256 + b3.toNat)) =
      b0.toNat * 16777216 + (b1.toNat * 65536 + (b2.toNat * 256 + b3.toNat)) := by
    rw [← Nat.shiftLeft_add_eq_or_of_lt (show b1.toNat * 65536 + (b2.toNat * 256 + b3.toNat) < 2 ^ 24 by omega),
      Nat.shiftLeft_eq]
  have hshift : ∀ (b : UInt8) (k : UInt32), k.toNat ≤ 24 → (b.toUInt32 <<< k).toNat = b.toNat <<< k.toNat := by
    intro b k hk
    have hb := b.toNat_lt
    have hpow : 2 ^ k.toNat ≤ 2 ^ 24 := Nat.pow_le_pow_right (by decide) hk
    have hmul : b.toNat * 2 ^ k.toNat ≤ 255 * 2 ^ 24 := Nat.mul_le_mul (by omega) hpow
    rw [UInt32.toNat_shiftLeft, Nat.mod_eq_of_lt (show k.toNat < 32 by omega), UInt8.toNat_toUInt32, Nat.shiftLeft_eq,
      Nat.mod_eq_of_lt (by omega)]
  rw [UInt32.toNat_or, UInt32.toNat_or, UInt32.toNat_or, hshift b0 24 (by decide), hshift b1 16 (by decide),
    hshift b2 8 (by decide), UInt8.toNat_toUInt32, Nat.or_assoc, Nat.or_assoc]
  show b0.toNat <<< 24 ||| (b1.toNat <<< 16 ||| (b2.toNat <<< 8 ||| b3.toNat)) = _
  rw [hlow, hmid, hall]
  omega

theorem words_of_lt {l : List UInt8} (h : l.length < 4) : words (bits l) = [] := by
  unfold words
  rw [blocks_of_lt (by rw [length_bits]; omega)]
  rfl

/-- The words of a block. -/
theorem toBitVec_blockWords (block : List UInt8) : (blockWords block).map (·.toBitVec) = words (bits block) := by
  induction block using blockWords.induct with
  | case1 b0 b1 b2 b3 rest ih =>
    rw [blockWords, List.map_cons, ih]
    have hbits : bits (b0 :: b1 :: b2 :: b3 :: rest) =
        (natBits 8 b0.toNat ++ natBits 8 b1.toNat ++ natBits 8 b2.toNat ++ natBits 8 b3.toNat) ++ bits rest := by
      simp
    unfold words
    rw [hbits, blocks_append (by decide) (by simp), List.map_cons]
    congr 1
    apply BitVec.eq_of_toNat_eq
    rw [UInt32.toNat_toBitVec, word_of_bytes]
    simp only [natOfBits_append, natOfBits_natBits, length_natBits, BitVec.toNat_ofNat]
    have h0 := b0.toNat_lt
    have h1 := b1.toNat_lt
    have h2 := b2.toNat_lt
    have h3 := b3.toNat_lt
    omega
  | case2 l hshort =>
    rcases l with _ | ⟨b0, _ | ⟨b1, _ | ⟨b2, _ | ⟨b3, rest⟩⟩⟩⟩
    · rfl
    · exact (words_of_lt (Nat.lt_of_sub_eq_succ rfl)).symm
    · exact (words_of_lt (Nat.lt_of_sub_eq_succ rfl)).symm
    · exact (words_of_lt (Nat.lt_of_sub_eq_succ rfl)).symm
    · exact absurd rfl (hshort b0 b1 b2 b3 rest)

/-- The word that `extendSchedule` puts behind the words before it. -/
def nextWord (w : List UInt32) : UInt32 :=
  let w15 := w.getD (w.length - 15) 0
  let w2 := w.getD (w.length - 2) 0
  w.getD (w.length - 16) 0 + (rotr w15 7 ^^^ rotr w15 18 ^^^ (w15 >>> 3)) + w.getD (w.length - 7) 0 +
    (rotr w2 17 ^^^ rotr w2 19 ^^^ (w2 >>> 10))

theorem toBitVec_smallSigma0 (x : UInt32) :
    (rotr x 7 ^^^ rotr x 18 ^^^ (x >>> 3)).toBitVec = smallSigma0 x.toBitVec := by
  rw [UInt32.toBitVec_xor, UInt32.toBitVec_xor]
  exact congrArg₂ _ (congrArg₂ _ (toBitVec_rotr x (by decide) (by decide)) (toBitVec_rotr x (by decide) (by decide))) rfl

theorem toBitVec_smallSigma1 (x : UInt32) :
    (rotr x 17 ^^^ rotr x 19 ^^^ (x >>> 10)).toBitVec = smallSigma1 x.toBitVec := by
  rw [UInt32.toBitVec_xor, UInt32.toBitVec_xor]
  exact congrArg₂ _ (congrArg₂ _ (toBitVec_rotr x (by decide) (by decide)) (toBitVec_rotr x (by decide) (by decide))) rfl

/-- The words the schedule starts with, and each that it is extended by, are those of the standard. -/
theorem extendSchedule_eq (m : List Word) (n : ℕ) (w : List UInt32) (hlength : 16 ≤ w.length)
    (hw : ∀ t < w.length, (w.getD t 0).toBitVec = schedule m t) :
    (extendSchedule n w).length = w.length + n ∧
      ∀ t < w.length + n, ((extendSchedule n w).getD t 0).toBitVec = schedule m t := by
  induction n generalizing w with
  | zero => exact ⟨rfl, hw⟩
  | succ n ih =>
    have hlonger : (w ++ [nextWord w]).length = w.length + 1 := by
      rw [List.length_append, List.length_singleton]
    have hnext : ∀ t < (w ++ [nextWord w]).length, ((w ++ [nextWord w]).getD t 0).toBitVec = schedule m t := by
      intro t ht
      by_cases hlt : t < w.length
      · rw [List.getD_append _ _ _ _ hlt]
        exact hw t hlt
      · obtain rfl : t = w.length := by omega
        rw [List.getD_append_right _ _ _ _ le_rfl, Nat.sub_self, List.getD_cons_zero, schedule, if_neg (by omega),
          ← hw _ (by omega), ← hw _ (by omega), ← hw _ (by omega), ← hw _ (by omega), ← toBitVec_smallSigma0,
          ← toBitVec_smallSigma1]
        unfold nextWord
        simp only [UInt32.toBitVec_add]
        ac_rfl
    have hih := ih (w ++ [nextWord w]) (by omega) hnext
    rw [hlonger, Nat.add_assoc, Nat.add_comm 1 n] at hih
    exact hih

/-- The rounds over the constants and the schedule of a block. -/
theorem zip_schedule (m : List Word) (w : List UInt32) (hlength : w.length = 64)
    (hw : ∀ t < 64, (w.getD t 0).toBitVec = schedule m t) (s : Sha256State) :
    ((sha256K.zip w).foldl sha256Round s).registers =
      (List.range 64).foldl (fun r t => SecureHash.round (roundConstant t) (schedule m t) r) s.registers := by
  have hpairs : (sha256K.zip w).map (fun kw => (kw.1.toBitVec, kw.2.toBitVec)) =
      (List.range 64).map fun t => (roundConstant t, schedule m t) := by
    have hwords : w.map (·.toBitVec) = (List.range 64).map (schedule m) := by
      apply List.ext_getElem
      · simp [hlength]
      · intro t ht _
        rw [List.length_map] at ht
        have hword := hw t (by omega)
        rw [List.getD_eq_getElem _ _ ht] at hword
        simpa using hword
    rw [show (fun kw : UInt32 × UInt32 => (kw.1.toBitVec, kw.2.toBitVec)) = Prod.map (·.toBitVec) (·.toBitVec) from rfl,
      ← List.zip_map, sha256K_eq, hwords, List.zip_map']
  have hfold : ∀ (l : List (UInt32 × UInt32)) (s : Sha256State), (l.foldl sha256Round s).registers =
      (l.map fun kw => (kw.1.toBitVec, kw.2.toBitVec)).foldl (fun r kw => SecureHash.round kw.1 kw.2 r) s.registers := by
    intro l
    induction l with
    | nil => exact fun _ => rfl
    | cons kw l ih =>
      intro s
      rw [List.foldl_cons, ih, List.map_cons, List.foldl_cons, registers_round]
  rw [hfold, hpairs, List.foldl_map]

/-- A block into the state. -/
theorem registers_processBlock (s : Sha256State) {block : List UInt8} (hblock : block.length = 64) :
    (Sha256.processBlock s block).registers = compress s.registers (bits block) := by
  have hwords := toBitVec_blockWords block
  have hlength : (blockWords block).length = 16 := by
    have hlen := congrArg List.length hwords
    rw [List.length_map] at hlen
    rw [hlen]
    unfold words blocks
    simp [hblock]
  have hw : ∀ t < (blockWords block).length, ((blockWords block).getD t 0).toBitVec = schedule (words (bits block)) t := by
    intro t ht
    rw [schedule, if_pos (by omega), ← hwords, List.getD_eq_getElem _ _ ht, List.getD_eq_getElem _ _ (by simpa using ht),
      List.getElem_map]
  obtain ⟨hlong, hschedule⟩ := extendSchedule_eq _ 48 _ hlength.ge hw
  rw [hlength] at hlong hschedule
  have hrounds := zip_schedule _ _ hlong hschedule s
  simp only [Sha256.processBlock, compress, ← hrounds]
  simp only [Sha256State.registers, UInt32.toBitVec_add]

/-! ### The stream -/

namespace Sha256

/-- What the hasher has taken in. -/
structure Fed (data : List UInt8) (h : Sha256) : Prop where
  absorbed : Absorbed 64 processBlock ({} : Sha256).state data h.state h.buffer
  bitLen : h.bitLen = UInt64.ofNat (8 * data.length)

theorem Fed.nil : Fed [] {} := ⟨.nil, rfl⟩

section Copy

variable {data : List UInt8} {h : Sha256}

theorem absorbed_fill (hfed : Absorbed 64 processBlock ({} : Sha256).state data h.state h.buffer) (run : List UInt8)
    (hfits : h.buffer.length + run.length ≤ 64) :
    Absorbed 64 processBlock ({} : Sha256).state (data ++ run) (h.fill run hfits).state (h.fill run hfits).buffer := by
  have hheld := hfed.hold run
  unfold fill
  split
  · next hfull => exact hheld.close (by rw [List.length_append, hfull])
  · exact hheld

@[simp] theorem bitLen_fill (h : Sha256) (run : List UInt8) (hfits : h.buffer.length + run.length ≤ 64) :
    (h.fill run hfits).bitLen = h.bitLen := by
  unfold fill
  split
  · rfl
  · rfl

/-- The loop of `update` takes all the bytes in, whatever run it cuts off first. -/
theorem absorbed_copyRuns (run : List UInt8)
    (hfed : Absorbed 64 processBlock ({} : Sha256).state data h.state h.buffer) :
    Absorbed 64 processBlock ({} : Sha256).state (data ++ run) (h.copyRuns run).state (h.copyRuns run).buffer := by
  induction h, run using copyRuns.induct generalizing data with
  | case1 h =>
    rw [copyRuns_nil, List.append_nil]
    exact hfed
  | case2 h run hne take =>
    rename_i ih
    rw [copyRuns, if_neg hne]
    have hrest := ih (absorbed_fill hfed (run.take take) _)
    rw [List.append_assoc, List.take_append_drop] at hrest
    exact hrest

@[simp] theorem bitLen_copyRuns (h : Sha256) (run : List UInt8) : (h.copyRuns run).bitLen = h.bitLen := by
  induction h, run using copyRuns.induct with
  | case1 h => rw [copyRuns_nil]
  | case2 h run hne take ih =>
    rw [copyRuns, if_neg hne]
    exact ih.trans (bitLen_fill _ _ _)

/-- One call of `update`. -/
theorem Fed.update (hfed : Fed data h) (run : List UInt8) : Fed (data ++ run) (h.update run) := by
  refine ⟨absorbed_copyRuns run hfed.absorbed, ?_⟩
  unfold Sha256.update
  rw [bitLen_copyRuns]
  show h.bitLen + UInt64.ofNat run.length * 8 = _
  rw [hfed.bitLen, List.length_append, Nat.mul_add, UInt64.ofNat_add, Nat.mul_comm 8 run.length, UInt64.ofNat_mul run.length]
  rfl

/-- The calls of `update` over all the pieces of a message. -/
theorem Fed.foldl (hfed : Fed data h) (chunks : List (List UInt8)) :
    Fed (data ++ chunks.flatten) (chunks.foldl Sha256.update h) := by
  induction chunks generalizing data h with
  | nil => simpa using hfed
  | cons chunk chunks ih =>
    rw [List.flatten_cons, ← List.append_assoc]
    exact ih (hfed.update chunk)

end Copy

/-- The zeros of the padding fill the buffer up to 56 bytes. -/
theorem Fed.zeroPad {data : List UInt8} {h : Sha256} (hfed : Fed data h) :
    Fed (data ++ List.replicate ((120 - h.buffer.length) % 64) 0) h.zeroPad ∧ h.zeroPad.buffer.length = 56 := by
  induction h using Sha256.zeroPad.induct generalizing data with
  | case1 h hfull =>
    have hnone : (120 - h.buffer.length) % 64 = 0 := by omega
    rw [Sha256.zeroPad, if_pos hfull, hnone, List.replicate_zero, List.append_nil]
    exact ⟨hfed, hfull⟩
  | case2 h hshort ih =>
    obtain ⟨hpadded, hlength⟩ := ih (hfed.update [0])
    rw [Sha256.zeroPad, if_neg hshort]
    refine ⟨?_, hlength⟩
    have hroom := h.room
    have hcount : (120 - h.buffer.length) % 64 = (120 - (h.buffer.length + 1) % 64) % 64 + 1 := by omega
    rw [length_buffer_update_singleton, List.append_assoc] at hpadded
    rw [hcount, List.replicate_succ]
    exact hpadded

/-! ### The padding -/

/-- A byte of the length, most significant first. -/
theorem natBits_lengthByte (n : ℕ) {k : ℕ} (hk : k ≤ 56) :
    natBits 8 (UInt64.ofNat n >>> UInt64.ofNat k).toUInt8.toNat = natBits 8 (n / 2 ^ k) := by
  have hbyte : (UInt64.ofNat n >>> UInt64.ofNat k).toUInt8.toNat = n % 2 ^ 64 / 2 ^ k % 2 ^ 8 := by
    rw [UInt64.toNat_toUInt8, UInt64.toNat_shiftRight, UInt64.toNat_ofNat', UInt64.toNat_ofNat', Nat.shiftRight_eq_div_pow,
      Nat.mod_eq_of_lt (show k < 2 ^ 64 by omega), Nat.mod_eq_of_lt (show k < 64 by omega)]
  have hupper : n % 2 ^ 64 / 2 ^ k % 2 ^ 8 = n / 2 ^ k % 2 ^ 8 := by
    have hsplit : 2 ^ 64 = 2 ^ k * 2 ^ (64 - k) := by
      rw [← Nat.pow_add]
      congr 1
      omega
    have hdvd : 2 ^ 8 ∣ 2 ^ (64 - k) := Nat.pow_dvd_pow 2 (by omega)
    rw [hsplit, Nat.mod_mul_right_div_self, Nat.mod_mod_of_dvd _ hdvd]
  rw [hbyte, hupper, natBits_mod]

/-- The padding of the standard, in bytes. -/
theorem bits_padding (data : List UInt8) :
    bits (data ++ [0x80] ++ List.replicate ((119 - data.length % 64) % 64) 0 ++
      (List.range 8).map fun i => (UInt64.ofNat (8 * data.length) >>> UInt64.ofNat (56 - 8 * i)).toUInt8) =
    pad (bits data) := by
  have hzeros : ∀ k, bits (List.replicate k 0) = List.replicate (8 * k) false := by
    intro k
    induction k with
    | zero => rfl
    | succ k ih =>
      rw [List.replicate_succ, bits_cons, ih, Nat.mul_succ, Nat.add_comm, List.replicate_add]
      rfl
  have hmarker : bits [0x80] = [true] ++ List.replicate 7 false := by decide
  have hcount : zeroCount (8 * data.length) = 7 + 8 * ((119 - data.length % 64) % 64) := by
    unfold zeroCount
    omega
  have hlength : bits ((List.range 8).map fun i =>
      (UInt64.ofNat (8 * data.length) >>> UInt64.ofNat (56 - 8 * i)).toUInt8) = natBits 64 (8 * data.length) := by
    show natBits 8 _ ++ (natBits 8 _ ++ (natBits 8 _ ++ (natBits 8 _ ++ (natBits 8 _ ++ (natBits 8 _ ++ (natBits 8 _ ++
      (natBits 8 _ ++ []))))))) = _
    rw [natBits_lengthByte _ (by decide), natBits_lengthByte _ (by decide), natBits_lengthByte _ (by decide),
      natBits_lengthByte _ (by decide), natBits_lengthByte _ (by decide), natBits_lengthByte _ (by decide),
      natBits_lengthByte _ (by decide), natBits_lengthByte _ (by decide), natBits_add 8 56, natBits_add 8 48,
      natBits_add 8 40, natBits_add 8 32, natBits_add 8 24, natBits_add 8 16, natBits_add 8 8, List.append_nil]
    simp
  rw [bits_append, bits_append, bits_append, hzeros, hmarker, hlength, pad, length_bits, hcount, List.replicate_add]
  simp only [List.append_assoc]

/-! ### The digest -/

/-- The bytes of a word have its bits. -/
theorem bits_wordBytes (w : UInt32) : bits (wordBytes w) = natBits 32 w.toBitVec.toNat := by
  have hbyte : ∀ k : UInt32, (w >>> k).toUInt8.toNat = w.toNat / 2 ^ (k.toNat % 32) % 2 ^ 8 := by
    intro k
    rw [UInt32.toNat_toUInt8, UInt32.toNat_shiftRight, Nat.shiftRight_eq_div_pow]
  have hlast : w.toUInt8.toNat = w.toNat % 2 ^ 8 := UInt32.toNat_toUInt8 w
  rw [UInt32.toNat_toBitVec, natBits_add 8 24, natBits_add 8 16, natBits_add 8 8]
  unfold wordBytes
  rw [bits_cons, bits_cons, bits_cons, bits_cons, bits_nil, List.append_nil, hbyte, hbyte, hbyte, hlast, natBits_mod,
    natBits_mod, natBits_mod, natBits_mod]
  rfl

theorem bits_flatMap_wordBytes (l : List UInt32) :
    bits (l.flatMap wordBytes) = (l.map (·.toBitVec)).flatMap fun w => natBits 32 w.toNat := by
  induction l with
  | nil => rfl
  | cons w l ih => rw [List.flatMap_cons, bits_append, bits_wordBytes, ih, List.map_cons, List.flatMap_cons]

/-- The blocks of some bytes, folded here and as bit strings. -/
theorem registers_foldl {bs : List (List UInt8)} (hbs : ∀ b ∈ bs, b.length = 64) (s : Sha256State) :
    (bs.foldl processBlock s).registers = (bs.map bits).foldl compress s.registers := by
  induction bs generalizing s with
  | nil => rfl
  | cons b bs ih =>
    rw [List.foldl_cons, ih (fun b' hb' => hbs b' (List.mem_cons_of_mem b hb')), List.map_cons, List.foldl_cons,
      registers_processBlock s (hbs b List.mem_cons_self)]

/-- The state once the padded message is in. -/
theorem registers_of_absorbed {input : List UInt8} {s : Sha256State}
    (h : Absorbed 64 processBlock ({} : Sha256).state input s []) :
    s.registers = (blocks 512 (bits input)).foldl compress initial := by
  obtain ⟨bs, hbs, hinput, hs⟩ := h
  have hblocks : blocks 512 (bits input) = bs.map bits := by
    rw [hinput, List.append_nil, bits_flatten]
    apply blocks_flatten (by decide)
    intro b hb
    obtain ⟨block, hblock, rfl⟩ := List.mem_map.mp hb
    rw [length_bits, hbs block hblock]
  rw [hs, registers_foldl hbs, registers_initial, hblocks]

/-- What `finish` gives for the bytes that were taken in. -/
theorem Fed.finish {data : List UInt8} {h : Sha256} (hfed : Fed data h) : h.finish = sha256Octets data := by
  have hroom := h.room
  have hheld := hfed.absorbed.length_mod hroom
  have hmarked := hfed.update [0x80]
  obtain ⟨hpadded, hlength⟩ := hmarked.zeroPad
  rw [length_buffer_update_singleton] at hpadded
  have hzeros : (120 - (h.buffer.length + 1) % 64) % 64 = (119 - data.length % 64) % 64 := by omega
  rw [hzeros] at hpadded
  have hlast := hpadded.update ((List.range 8).map fun i => (h.bitLen >>> UInt64.ofNat (56 - 8 * i)).toUInt8)
  have hempty : ((h.update [0x80]).zeroPad.update
      ((List.range 8).map fun i => (h.bitLen >>> UInt64.ofNat (56 - 8 * i)).toUInt8)).buffer = [] := by
    have hmod := hlast.absorbed.length_mod (Sha256.room _)
    apply List.length_eq_zero_iff.mp
    rw [← hmod]
    simp only [List.length_append, List.length_replicate, List.length_map, List.length_range, List.length_singleton]
    omega
  have habsorbed := hlast.absorbed
  rw [hempty, hfed.bitLen] at habsorbed
  have hregisters := registers_of_absorbed habsorbed
  rw [bits_padding] at hregisters
  have hbits : bits h.finish = sha256 (bits data) := by
    unfold sha256 Sha256.finish
    simp only [hfed.bitLen, ← hregisters, bits_flatMap_wordBytes]
    rfl
  rw [← octets_bits h.finish, hbits]
  rfl

/-- A message in one call. -/
theorem finish_update (data : List UInt8) : (({} : Sha256).update data).finish = sha256Octets data :=
  (Fed.nil.update data).finish

end Sha256

/-- The hasher gives the digest of the message, however it was cut into calls of `update`; and an HMAC is that of the
standard, for keys of any length. -/
theorem hashes_standard :
    (∀ chunks : List (List UInt8), (chunks.foldl Sha256.update {}).finish = sha256Octets chunks.flatten) ∧
      ∀ key message : List UInt8, hmacSha256 key message = hmac sha256Octets 64 key message := by
  refine ⟨fun chunks => (Sha256.Fed.nil.foldl chunks).finish, fun key message => ?_⟩
  have hinner : ∀ block : List UInt8, ((({} : Sha256).update block).update message).finish =
      sha256Octets (block ++ message) := fun block => ((Sha256.Fed.nil.update block).update message).finish
  have houter : ∀ block digest : List UInt8, ((({} : Sha256).update block).update digest).finish =
      sha256Octets (block ++ digest) := fun block digest => ((Sha256.Fed.nil.update block).update digest).finish
  simp only [hmacSha256, hmac, hinner, houter, Sha256.finish_update, gt_iff_lt]

end RackMcp
