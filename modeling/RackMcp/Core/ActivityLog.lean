import RackMcp.Core.Frames

/-!
# The rings behind the chat panel

`core/activitylog.hpp` and `core/activitylog.cpp`: the ring that evicts its oldest entry, a note in it, and the payload of
`chat.poll`. A lock is held for the whole of each call, so a call is one step. A text is the bytes of a `std::string`.
-/

namespace RackMcp

/-! ### The ring -/

/-- What `BoundedRing` asks of its entries: a number it assigns and a mark it sets. -/
class Deliverable (T : Type) where
  seq : T → ℕ
  withSeq : ℕ → T → T
  delivered : T → Bool
  deliver : T → T
  seq_withSeq (n : ℕ) (t : T) : seq (withSeq n t) = n
  seq_deliver (t : T) : seq (deliver t) = seq t
  delivered_deliver (t : T) : delivered (deliver t) = true

attribute [simp] Deliverable.seq_withSeq Deliverable.seq_deliver Deliverable.delivered_deliver

/-- `BoundedRing`. -/
structure BoundedRing (T : Type) where
  capacity : ℕ
  items : List T := []
  lastSeq : ℕ := 0
  evicted : ℕ := 0

namespace BoundedRing

open Deliverable

variable {T : Type}

/-- The constructor. -/
def new (capacity : ℕ) : BoundedRing T := { capacity := if capacity = 0 then 1 else capacity }

/-- The loop of `push` that erases the first item while there are too many. -/
def evictOldest (capacity : ℕ) : List T → ℕ → List T × ℕ
  | [], evicted => ([], evicted)
  | item :: rest, evicted =>
    if (item :: rest).length > capacity then evictOldest capacity rest (evicted + 1) else (item :: rest, evicted)

variable [Deliverable T]

/-- `push`. -/
def push (ring : BoundedRing T) (entry : T) : BoundedRing T :=
  let lastSeq := ring.lastSeq + 1
  let (items, evicted) := evictOldest ring.capacity (ring.items ++ [withSeq lastSeq entry]) ring.evicted
  { ring with items, lastSeq, evicted }

/-- `since`. -/
def since (ring : BoundedRing T) (since : ℕ) : List T := ring.items.filter fun item => seq item > since

/-- An item that `markDelivered` changes. -/
def pending (through : ℕ) (item : T) : Bool := seq item ≤ through && !delivered item

/-- `markDelivered`: the ring, and how many items changed. -/
def markDelivered (ring : BoundedRing T) (through : ℕ) : BoundedRing T × ℕ :=
  ({ ring with items := ring.items.map fun item => if pending through item then deliver item else item },
   ring.items.countP (pending through))

end BoundedRing

/-! ### Notes -/

/-- `ChatEntry`. -/
structure ChatEntry where
  seq : ℕ := 0
  fromUser : Bool := true
  text : List UInt8
  clock : String
  delivered : Bool := false
deriving DecidableEq

instance : Deliverable ChatEntry where
  seq := ChatEntry.seq
  withSeq n note := { note with seq := n }
  delivered := ChatEntry.delivered
  deliver note := { note with delivered := true }
  seq_withSeq _ _ := rfl
  seq_deliver _ := rfl
  delivered_deliver _ := rfl

/-- `c_str` as C reads it. -/
def cString (text : List UInt8) : List UInt8 := text.takeWhile (· ≠ 0)

/-- A note in the payload. -/
structure PolledNote where
  seq : ℕ
  text : List UInt8
  clock : String
deriving DecidableEq

/-- `json_pack` of a note, which fails for a text that is not UTF-8. -/
def packNote (note : ChatEntry) : Option PolledNote :=
  if (cString note.text).toByteArray.validateUTF8 then some ⟨note.seq, cString note.text, note.clock⟩ else none

/-- The payload of `chat.poll`. -/
structure ChatPollPayload where
  notes : List PolledNote
  lastSeq : ℕ
  dropped : ℕ

/-- `buildChatPollPayload`, which leaves out a note that cannot be packed. -/
def buildChatPollPayload (notes : List ChatEntry) (lastSeq dropped : ℕ) : ChatPollPayload :=
  { notes := notes.filterMap packNote, lastSeq, dropped }

end RackMcp
