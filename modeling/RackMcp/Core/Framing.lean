import RackMcp.Lib.Reassembly
import Mathlib.Data.List.Basic

/-!
# The length-prefixed frame codec

`encodeFrame` and `FrameDecoder` of `core/framing.cpp`. A `std::string` is the list of its bytes. The limit a
decoder is constructed with is a parameter of its type, and it carries that what it has consumed is part of its
buffer.
-/

namespace RackMcp

/-- The four header bytes of a length, most significant first. -/
def frameHeader (n : UInt32) : List UInt8 :=
  [((n >>> 24) &&& 0xff).toUInt8, ((n >>> 16) &&& 0xff).toUInt8, ((n >>> 8) &&& 0xff).toUInt8,
    (n &&& 0xff).toUInt8]

/-- `encodeFrame`, nothing for a payload that is too long. -/
def encodeFrame (payload : List UInt8) (maxFrameBytes : ℕ) : Option (List UInt8) :=
  if payload.length > maxFrameBytes then none
  else some (frameHeader (UInt32.ofNat payload.length) ++ payload)

/-- `FrameDecoder`. -/
structure FrameDecoder (maxFrameBytes : ℕ) where
  buffer : List UInt8
  consumed : ℕ
  error : Bool
  consumed_le : consumed ≤ buffer.length

namespace FrameDecoder
variable {maxFrameBytes : ℕ}

/-- The constructor. -/
def new (maxFrameBytes : ℕ) : FrameDecoder maxFrameBytes := ⟨[], 0, false, Nat.le_refl 0⟩

def buffered (d : FrameDecoder maxFrameBytes) : ℕ := d.buffer.length - d.consumed

/-- The error state, which nothing leaves. -/
def fail (d : FrameDecoder maxFrameBytes) : FrameDecoder maxFrameBytes := { d with error := true }

/-- `buffer_.append`. -/
def append (d : FrameDecoder maxFrameBytes) (data : List UInt8) : FrameDecoder maxFrameBytes :=
  { d with
    buffer := d.buffer ++ data
    consumed_le := by rw [List.length_append]; exact Nat.le_add_right_of_le d.consumed_le }

def push (data : List UInt8) (d : FrameDecoder maxFrameBytes) : Bool × FrameDecoder maxFrameBytes :=
  if d.error then (false, d)
  -- the memory bound: an incomplete frame and one more chunk
  else if d.buffered + data.length > 2 * (maxFrameBytes + 4) then (false, d.fail)
  else (true, d.append data)

/-- Drops the consumed front of the buffer when it is all, or at least half, of it. -/
def compact (d : FrameDecoder maxFrameBytes) : FrameDecoder maxFrameBytes :=
  if d.consumed = 0 then d
  else if d.consumed = d.buffer.length then { d with buffer := [], consumed := 0, consumed_le := Nat.zero_le _ }
  else if d.consumed ≥ d.buffer.length / 2 then
    { d with buffer := d.buffer.drop d.consumed, consumed := 0, consumed_le := Nat.zero_le _ }
  else d

/-- `consumed_ += bytes`. -/
def consume (d : FrameDecoder maxFrameBytes) (bytes : ℕ) (h : bytes ≤ d.buffered) : FrameDecoder maxFrameBytes :=
  { d with
    consumed := d.consumed + bytes
    consumed_le := by
      have hle := d.consumed_le
      unfold buffered at h
      omega }

/-- The byte at an offset from the consumed front. -/
def byteAt (d : FrameDecoder maxFrameBytes) (i : ℕ) : UInt8 := d.buffer.getD (d.consumed + i) 0

/-- The length the header at the front declares. -/
def declared (d : FrameDecoder maxFrameBytes) : UInt32 :=
  ((d.byteAt 0).toUInt32 <<< 24) ||| ((d.byteAt 1).toUInt32 <<< 16) ||| ((d.byteAt 2).toUInt32 <<< 8) |||
    (d.byteAt 3).toUInt32

def next (d : FrameDecoder maxFrameBytes) : Option (List UInt8) × FrameDecoder maxFrameBytes :=
  if d.error then (none, d)
  else if d.buffered < 4 then (none, d)
  else if d.declared.toNat > maxFrameBytes then (none, d.fail)
  else if h : d.buffered < 4 + d.declared.toNat then (none, d)
  else (some ((d.buffer.drop (d.consumed + 4)).take d.declared.toNat),
    (d.consume (4 + d.declared.toNat) (Nat.le_of_not_lt h)).compact)

end FrameDecoder

end RackMcp
