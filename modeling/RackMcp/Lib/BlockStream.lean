import Mathlib.Algebra.Group.Nat.Defs
import Mathlib.Data.List.Basic
import Mathlib.Data.Nat.Bitwise

/-!
# Blocks of a stream

A stream is cut into blocks of one length, and each full block is folded into a state. `Absorbed` is what is true of
the state and of the elements that are held back, after any input, whatever the pieces it came in were. Then bit
strings, most significant bit first, which are the stream of the hash standards.
-/

namespace BlockStream

variable {α σ : Type*}

/-! ### Blocks -/

/-- The full blocks of `n` elements. -/
def blocks (n : ℕ) (l : List α) : List (List α) := (List.range (l.length / n)).map fun i => (l.drop (n * i)).take n

theorem blocks_append {n : ℕ} (hn : 0 < n) {block : List α} (hblock : block.length = n) (l : List α) :
    blocks n (block ++ l) = block :: blocks n l := by
  have hlength : (block ++ l).length / n = l.length / n + 1 := by
    rw [List.length_append, hblock, Nat.add_div_left _ hn]
  unfold blocks
  rw [hlength, List.range_succ_eq_map, List.map_cons, List.map_map]
  congr 1
  · simp [← hblock]
  · apply List.map_congr_left
    intro i _
    show ((block ++ l).drop (n * (i + 1))).take n = (l.drop (n * i)).take n
    rw [Nat.mul_succ, Nat.add_comm, ← List.drop_drop, ← hblock, List.drop_left]

theorem blocks_of_lt {n : ℕ} {l : List α} (h : l.length < n) : blocks n l = [] := by
  unfold blocks
  rw [Nat.div_eq_of_lt h]
  rfl

/-- Cutting up a sequence of blocks. -/
theorem blocks_flatten {n : ℕ} (hn : 0 < n) {bs : List (List α)} (hbs : ∀ b ∈ bs, b.length = n) :
    blocks n bs.flatten = bs := by
  induction bs with
  | nil => exact blocks_of_lt hn
  | cons b bs ih =>
    rw [List.flatten_cons, blocks_append hn (hbs b List.mem_cons_self),
      ih fun b' hb' => hbs b' (List.mem_cons_of_mem b hb')]

/-! ### What has been absorbed -/

/-- The full blocks of the input are in the state, and the elements behind them are held back. -/
structure Absorbed (n : ℕ) (f : σ → List α → σ) (init : σ) (input : List α) (s : σ) (held : List α) : Prop where
  exists_blocks : ∃ bs : List (List α), (∀ b ∈ bs, b.length = n) ∧ input = bs.flatten ++ held ∧ s = bs.foldl f init

namespace Absorbed

variable {n : ℕ} {f : σ → List α → σ} {init s : σ} {input held : List α}

theorem nil : Absorbed n f init [] init [] := ⟨[], by simp, rfl, rfl⟩

/-- Some more elements are held back. -/
theorem hold (h : Absorbed n f init input s held) (run : List α) : Absorbed n f init (input ++ run) s (held ++ run) := by
  obtain ⟨bs, hbs, hinput, hs⟩ := h
  exact ⟨bs, hbs, by rw [hinput, List.append_assoc], hs⟩

/-- What is held back has become a block. -/
theorem close (h : Absorbed n f init input s held) (hheld : held.length = n) : Absorbed n f init input (f s held) [] := by
  obtain ⟨bs, hbs, hinput, hs⟩ := h
  refine ⟨bs ++ [held], ?_, ?_, ?_⟩
  · intro b hb
    rcases List.mem_append.mp hb with hb | hb
    · exact hbs b hb
    · rw [List.mem_singleton.mp hb, hheld]
  · rw [hinput]
    simp
  · rw [List.foldl_append, hs]
    rfl

/-- The elements held back are as many as the input has more than its full blocks. -/
theorem length_mod (h : Absorbed n f init input s held) (hheld : held.length < n) : input.length % n = held.length := by
  obtain ⟨bs, hbs, hinput, -⟩ := h
  have hsum : bs.flatten.length = bs.length * n := by
    rw [List.length_flatten, List.eq_replicate_of_mem (a := n) (l := bs.map List.length)]
    · simp
    · simpa using hbs
  rw [hinput, List.length_append, hsum, Nat.mul_add_mod_self_right, Nat.mod_eq_of_lt hheld]

end Absorbed

/-! ### Bit strings -/

/-- The `k` low bits of a number, most significant first. -/
def natBits (k n : ℕ) : List Bool := (List.range k).map fun i => n.testBit (k - 1 - i)

/-- The number a bit string stands for. -/
def natOfBits (l : List Bool) : ℕ := l.foldl (fun n b => 2 * n + b.toNat) 0

@[simp] theorem length_natBits (k n : ℕ) : (natBits k n).length = k := by simp [natBits]

theorem natBits_succ (k n : ℕ) : natBits (k + 1) n = natBits k (n / 2) ++ [n.testBit 0] := by
  unfold natBits
  rw [List.range_succ, List.map_append]
  congr 1
  · apply List.map_congr_left
    intro i hi
    have hi := List.mem_range.mp hi
    rw [← Nat.testBit_succ]
    congr 1
    omega
  · simp

/-- The bits of a number from its upper and its lower ones. -/
theorem natBits_add (j k n : ℕ) : natBits (j + k) n = natBits j (n / 2 ^ k) ++ natBits k n := by
  induction k generalizing n with
  | zero => simp [natBits]
  | succ k ih =>
    rw [← Nat.add_assoc, natBits_succ, ih, natBits_succ, List.append_assoc, Nat.div_div_eq_div_mul, Nat.pow_succ']

/-- The lower bits do not depend on the upper ones. -/
theorem natBits_mod (k n : ℕ) : natBits k (n % 2 ^ k) = natBits k n := by
  apply List.map_congr_left
  intro i hi
  have hi := List.mem_range.mp hi
  rw [Nat.testBit_mod_two_pow, decide_eq_true (by omega), Bool.true_and]

theorem natOfBits_append (l l' : List Bool) : natOfBits (l ++ l') = natOfBits l * 2 ^ l'.length + natOfBits l' := by
  have hfrom : ∀ (l : List Bool) (n : ℕ), l.foldl (fun n b => 2 * n + b.toNat) n = n * 2 ^ l.length + natOfBits l := by
    intro l
    induction l with
    | nil => simp [natOfBits]
    | cons b l ih =>
      intro n
      rw [natOfBits, List.foldl_cons, List.foldl_cons, ih, ih (2 * 0 + b.toNat), List.length_cons, Nat.pow_succ',
        Nat.mul_zero, Nat.zero_add]
      have hmul : (2 * n + b.toNat) * 2 ^ l.length = n * (2 * 2 ^ l.length) + b.toNat * 2 ^ l.length := by
        rw [Nat.add_mul, Nat.mul_comm 2 n, Nat.mul_assoc]
      omega
  rw [natOfBits, List.foldl_append, hfrom]
  rfl

@[simp] theorem natOfBits_singleton (b : Bool) : natOfBits [b] = b.toNat := by simp [natOfBits]

/-- Reading the bits of a number gives the number back. -/
theorem natOfBits_natBits (k n : ℕ) : natOfBits (natBits k n) = n % 2 ^ k := by
  induction k generalizing n with
  | zero => simp [natBits, natOfBits, Nat.mod_one]
  | succ k ih =>
    rw [natBits_succ, natOfBits_append, ih, natOfBits_singleton, Nat.testBit_zero, List.length_singleton, Nat.pow_one]
    have hmod : n % 2 ^ (k + 1) = n / 2 % 2 ^ k * 2 + n % 2 := by
      rw [Nat.pow_succ', Nat.mod_mul]
      omega
    rw [hmod]
    rcases Nat.mod_two_eq_zero_or_one n with h | h <;> simp [h]

end BlockStream
