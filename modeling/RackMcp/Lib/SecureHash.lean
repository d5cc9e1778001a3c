import RackMcp.Lib.BlockStream
import Mathlib.Data.Nat.NthRoot.Defs
import Mathlib.Data.Nat.Prime.Defs

/-!
# SHA-256 and HMAC

SHA-256 of a bit string as FIPS 180-4 defines it, with its constants from the roots of the primes they come from, and
HMAC of octets as RFC 2104 defines it over any hash. The length of a message is given in 64 bits; the standard admits no
message whose length needs more.
-/

namespace SecureHash

open BlockStream

/-! ### SHA-256 -/

abbrev Word := BitVec 32

def ch (x y z : Word) : Word := (x &&& y) ^^^ (~~~x &&& z)
def maj (x y z : Word) : Word := (x &&& y) ^^^ (x &&& z) ^^^ (y &&& z)
def bigSigma0 (x : Word) : Word := x.rotateRight 2 ^^^ x.rotateRight 13 ^^^ x.rotateRight 22
def bigSigma1 (x : Word) : Word := x.rotateRight 6 ^^^ x.rotateRight 11 ^^^ x.rotateRight 25
def smallSigma0 (x : Word) : Word := x.rotateRight 7 ^^^ x.rotateRight 18 ^^^ x >>> 3
def smallSigma1 (x : Word) : Word := x.rotateRight 17 ^^^ x.rotateRight 19 ^^^ x >>> 10

/-- The first 64 primes. -/
def primes : List ℕ := (List.range 312).filter Nat.Prime

/-- `K_t`, 32 bits of the fractional part of the cube root of a prime. -/
def roundConstant (t : ℕ) : Word := BitVec.ofNat 32 (Nat.nthRoot 3 (primes.getD t 0 * 2 ^ 96))

/-- `H_j` of the empty input, 32 bits of the fractional part of the square root of a prime. -/
def initialWord (j : ℕ) : Word := BitVec.ofNat 32 (Nat.nthRoot 2 (primes.getD j 0 * 2 ^ 64))

/-- The eight working variables. -/
structure Registers where
  a : Word
  b : Word
  c : Word
  d : Word
  e : Word
  f : Word
  g : Word
  h : Word
deriving DecidableEq

def initial : Registers :=
  ⟨initialWord 0, initialWord 1, initialWord 2, initialWord 3, initialWord 4, initialWord 5, initialWord 6, initialWord 7⟩

/-- The words of a block. -/
def words (block : List Bool) : List Word := (blocks 32 block).map fun b => BitVec.ofNat 32 (natOfBits b)

/-- `W_t`. -/
def schedule (m : List Word) (t : ℕ) : Word :=
  if t < 16 then m.getD t 0
  else smallSigma1 (schedule m (t - 2)) + schedule m (t - 7) + smallSigma0 (schedule m (t - 15)) + schedule m (t - 16)
termination_by t

/-- One step of the working variables. -/
def round (k w : Word) (r : Registers) : Registers :=
  let t1 := r.h + bigSigma1 r.e + ch r.e r.f r.g + k + w
  let t2 := bigSigma0 r.a + maj r.a r.b r.c
  ⟨t1 + t2, r.a, r.b, r.c, r.d + t1, r.e, r.f, r.g⟩

/-- The hash value after one more block. -/
def compress (hash : Registers) (block : List Bool) : Registers :=
  let r := (List.range 64).foldl (fun r t => round (roundConstant t) (schedule (words block) t) r) hash
  ⟨hash.a + r.a, hash.b + r.b, hash.c + r.c, hash.d + r.d, hash.e + r.e, hash.f + r.f, hash.g + r.g, hash.h + r.h⟩

/-- The least number of zeros that leaves room for the length alone in the last block. -/
def zeroCount (length : ℕ) : ℕ := (447 + 512 - length % 512) % 512

/-- The padded message: a one, the zeros, and the length. -/
def pad (message : List Bool) : List Bool :=
  message ++ [true] ++ List.replicate (zeroCount message.length) false ++ natBits 64 message.length

/-- The digest of a bit string. -/
def sha256 (message : List Bool) : List Bool :=
  let r := (blocks 512 (pad message)).foldl compress initial
  [r.a, r.b, r.c, r.d, r.e, r.f, r.g, r.h].flatMap fun w => natBits 32 w.toNat

/-! ### Octets -/

/-- The bit string of some octets. -/
def bits (octets : List UInt8) : List Bool := octets.flatMap fun b => natBits 8 b.toNat

/-- The octets of a bit string. -/
def octets (bits : List Bool) : List UInt8 := (blocks 8 bits).map fun b => UInt8.ofNat (natOfBits b)

/-- The digest of some octets, in octets. -/
def sha256Octets (message : List UInt8) : List UInt8 := octets (sha256 (bits message))

@[simp] theorem bits_nil : bits [] = [] := rfl

@[simp] theorem bits_cons (b : UInt8) (l : List UInt8) : bits (b :: l) = natBits 8 b.toNat ++ bits l := rfl

@[simp] theorem bits_append (l l' : List UInt8) : bits (l ++ l') = bits l ++ bits l' := List.flatMap_append

@[simp] theorem length_bits (l : List UInt8) : (bits l).length = 8 * l.length := by
  induction l with
  | nil => rfl
  | cons b l ih =>
    rw [bits_cons, List.length_append, ih, length_natBits, List.length_cons]
    omega

theorem bits_flatten (ls : List (List UInt8)) : bits ls.flatten = (ls.map bits).flatten := by
  induction ls with
  | nil => rfl
  | cons l ls ih => rw [List.flatten_cons, bits_append, ih, List.map_cons, List.flatten_cons]

/-- The bits of octets are read back as the octets. -/
theorem octets_bits (l : List UInt8) : octets (bits l) = l := by
  induction l with
  | nil => rfl
  | cons b l ih =>
    unfold octets at ih ⊢
    rw [bits_cons, blocks_append (by decide) (length_natBits 8 _), List.map_cons, ih, natOfBits_natBits,
      Nat.mod_eq_of_lt b.toNat_lt, UInt8.ofNat_toNat]

/-! ### HMAC -/

/-- `H(K XOR opad, H(K XOR ipad, text))`, with a key of more than a block replaced by its digest. -/
def hmac (hash : List UInt8 → List UInt8) (blockSize : ℕ) (key text : List UInt8) : List UInt8 :=
  let short := if blockSize < key.length then hash key else key
  let padded := short ++ List.replicate (blockSize - short.length) 0
  hash (padded.map (· ^^^ 0x5c) ++ hash (padded.map (· ^^^ 0x36) ++ text))

end SecureHash
