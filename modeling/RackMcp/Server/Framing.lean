import RackMcp.Lib.Reassembly
import Mathlib

/-!
# The frame decoder of the protocol package

`FrameDecoder` of `packages/protocol/src/framing.ts`, up to the UTF-8 decoding of the popped frame. A `Buffer`
is the list of its bytes. The limit of a decoder is a parameter of its type, and it carries that it counts the
bytes of its chunks.
-/

namespace RackMcp.Server

/-- `Buffer.readUInt32BE` at offset 0. -/
def readUInt32BE (bytes : List UInt8) : ℕ :=
  (bytes.getD 0 0).toNat * 2 ^ 24 + (bytes.getD 1 0).toNat * 2 ^ 16 + (bytes.getD 2 0).toNat * 2 ^ 8 +
    (bytes.getD 3 0).toNat

/-- `FrameDecoder`. -/
structure FrameDecoder (maxFrameBytes : ℕ) where
  chunks : List (List UInt8)
  buffered : ℕ
  failed : Bool
  buffered_eq : buffered = chunks.flatten.length

namespace FrameDecoder
variable {maxFrameBytes : ℕ}

/-- The constructor. -/
def new (maxFrameBytes : ℕ) : FrameDecoder maxFrameBytes := ⟨[], 0, false, rfl⟩

/-- The failed state, which nothing leaves. -/
def fail (d : FrameDecoder maxFrameBytes) : FrameDecoder maxFrameBytes := { d with failed := true }

/-- `chunks.push`. -/
def append (d : FrameDecoder maxFrameBytes) (chunk : List UInt8) : FrameDecoder maxFrameBytes :=
  { d with
    chunks := d.chunks ++ [chunk]
    buffered := d.buffered + chunk.length
    buffered_eq := by
      rw [d.buffered_eq, List.flatten_append, List.length_append, List.flatten_singleton] }

def push (chunk : List UInt8) (d : FrameDecoder maxFrameBytes) : Bool × FrameDecoder maxFrameBytes :=
  if d.failed then (false, d)
  else if d.buffered + chunk.length > 2 * (maxFrameBytes + 4) then (false, d.fail)
  else (true, d.append chunk)

/-- The buffered bytes, in one buffer. -/
def all (d : FrameDecoder maxFrameBytes) : List UInt8 :=
  match d.chunks with
  | [chunk] => chunk
  | chunks => chunks.flatten

theorem all_eq (d : FrameDecoder maxFrameBytes) : d.all = d.chunks.flatten := by
  unfold all
  split
  · next h => rw [h, List.flatten_singleton]
  · rfl

/-- `this.chunks = [all]`. -/
def join (d : FrameDecoder maxFrameBytes) : FrameDecoder maxFrameBytes :=
  { d with
    chunks := [d.all]
    buffered_eq := by rw [List.flatten_singleton, all_eq, d.buffered_eq] }

/-- Leaves the rest of the buffer. -/
def keep (d : FrameDecoder maxFrameBytes) (rest : List UInt8) : FrameDecoder maxFrameBytes :=
  { d with
    chunks := if rest.length > 0 then [rest] else []
    buffered := rest.length
    buffered_eq := by
      split
      · rw [List.flatten_singleton]
      · next h => exact Nat.eq_zero_of_not_pos h }

def next (d : FrameDecoder maxFrameBytes) : Option (List UInt8) × FrameDecoder maxFrameBytes :=
  if d.failed || d.buffered < 4 then (none, d)
  else if readUInt32BE d.all > maxFrameBytes then (none, d.join.fail)
  else if d.all.length < 4 + readUInt32BE d.all then (none, d.join)
  else (some ((d.all.drop 4).take (readUInt32BE d.all)), d.keep (d.all.drop (4 + readUInt32BE d.all)))

/-- A popped frame takes its header off the buffer at least. -/
theorem next_shrinks {d d' : FrameDecoder maxFrameBytes} {f : List UInt8} (h : d.next = (some f, d')) :
    d'.buffered < d.buffered := by
  have hlength : d.all.length = d.buffered := by rw [all_eq, d.buffered_eq]
  unfold next at h
  split at h
  · exact absurd h (by simp)
  · split at h
    · exact absurd h (by simp)
    · split at h
      · exact absurd h (by simp)
      · next hlong =>
        obtain ⟨-, rfl⟩ := Prod.mk.inj h
        show (d.all.drop (4 + readUInt32BE d.all)).length < d.buffered
        rw [List.length_drop]
        omega

end FrameDecoder

end RackMcp.Server
