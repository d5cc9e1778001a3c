import Mathlib.Data.List.Basic
import Mathlib.Logic.Function.Basic
import Mathlib.Algebra.Group.Nat.Defs

/-!
# The snapshot buffer of the probes

`TelemetrySnapshotBuffer` of `core/queues.hpp`: one thread publishes, others read, and neither waits for the other. A
snapshot is copied word by word, in any order. Every access to `seq_` and every copied word is a step of its own, and
the fences keep the steps of a thread in the order of its code, so a run is an interleaving of the threads' steps. An
event that is not the next step of its thread changes nothing.
-/

namespace RackMcp

/-- `seq_` and `slots_`. -/
structure TelemetrySnapshotBuffer (α : Type) where
  seq : UInt32
  slots : ℕ → ℕ → α

/-- Where the writer is in `publish`. -/
inductive Publishing (α : Type) where
  | idle
  /-- `seq_` is loaded. -/
  | loaded (value : ℕ → α) (s : UInt32)
  /-- The odd mark is stored; the words that are left to copy. -/
  | copying (value : ℕ → α) (s : UInt32) (left : List ℕ)

/-- Where a reader is in `read`, and what it has of `out`. -/
inductive Reading (α : Type) where
  | idle
  /-- At the head of the loop. -/
  | attempting (attempt : ℕ) (out : ℕ → α)
  /-- `before` is loaded; the words that are left to copy. -/
  | copying (attempt : ℕ) (before : UInt32) (left : List ℕ) (out : ℕ → α)
  | returned (found : Bool) (out : ℕ → α)

/-- The buffer and its threads. `published` is what the calls of `publish` that have returned were given, newest first;
no thread reads it. -/
structure SnapshotState (α : Type) where
  buffer : TelemetrySnapshotBuffer α
  writer : Publishing α := .idle
  readers : ℕ → Reading α := fun _ => .idle
  published : List (ℕ → α) := []

/-- The steps of the writer, and those of the readers by number. -/
inductive SnapshotEvent (α : Type) where
  | publish (value : ℕ → α)
  | storeOdd
  | copyIn (word : ℕ)
  | storeEven
  | call (reader : ℕ) (out : ℕ → α)
  | load (reader : ℕ)
  | copyOut (reader word : ℕ)
  | compare (reader : ℕ)

namespace SnapshotState

variable {α : Type}

/-- The constructor. -/
def initial (zero : α) : SnapshotState α := { buffer := ⟨0, fun _ _ => zero⟩ }

def setReader (s : SnapshotState α) (reader : ℕ) (r : Reading α) : SnapshotState α :=
  { s with readers := Function.update s.readers reader r }

/-- One step, for snapshots of `size` words. -/
def step (size : ℕ) (s : SnapshotState α) : SnapshotEvent α → SnapshotState α
  | .publish value =>
    match s.writer with
    | .idle => { s with writer := .loaded value s.buffer.seq }
    | _ => s
  | .storeOdd =>
    match s.writer with
    | .loaded value seq =>
      { s with buffer := { s.buffer with seq := seq + 1 }, writer := .copying value seq (List.range size) }
    | _ => s
  | .copyIn word =>
    match s.writer with
    | .copying value seq left =>
      if word ∈ left then
        let slot := ((seq / 2 + 1) % 2).toNat
        { s with
          buffer := { s.buffer with
            slots := Function.update s.buffer.slots slot (Function.update (s.buffer.slots slot) word (value word)) }
          writer := .copying value seq (left.filter (· ≠ word)) }
      else s
    | _ => s
  | .storeEven =>
    match s.writer with
    | .copying value seq [] =>
      { s with
        buffer := { s.buffer with seq := seq + 2 }
        writer := .idle
        published := value :: s.published }
    | _ => s
  | .call reader out =>
    match s.readers reader with
    | .idle | .returned _ _ => s.setReader reader (.attempting 0 out)
    | _ => s
  | .load reader =>
    match s.readers reader with
    | .attempting attempt out =>
      if attempt ≥ 1000 then s.setReader reader (.returned false out)
      else
        let before := s.buffer.seq
        if before = 0 then s.setReader reader (.returned false out)
        else if before % 2 ≠ 0 then s.setReader reader (.attempting (attempt + 1) out)
        else s.setReader reader (.copying attempt before (List.range size) out)
    | _ => s
  | .copyOut reader word =>
    match s.readers reader with
    | .copying attempt before left out =>
      if word ∈ left then
        s.setReader reader (.copying attempt before (left.filter (· ≠ word))
          (Function.update out word (s.buffer.slots ((before / 2) % 2).toNat word)))
      else s
    | _ => s
  | .compare reader =>
    match s.readers reader with
    | .copying attempt before [] out =>
      if before = s.buffer.seq then s.setReader reader (.returned true out)
      else s.setReader reader (.attempting (attempt + 1) out)
    | _ => s

end SnapshotState

end RackMcp
