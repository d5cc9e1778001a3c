import RackMcp.Core.ActivityLog
import RackMcp.Core.Plan

/-!
# The chat handlers

`postUserNote` and `postAssistantMessage` of `rackside/RackBridge.cpp`, `handleChatPoll` and `handleChatPost` of
`rackside/Handlers.cpp`, and a client that polls with the `lastSeq` of the reply before. The three reads of a poll are
apart, so that notes may be marked between them.
-/

namespace RackMcp

/-- The two rings of the bridge. -/
structure ChatBridge where
  userNotes : BoundedRing ChatEntry
  assistantMessages : BoundedRing ChatEntry

namespace ChatBridge

/-- `postUserNote`. -/
def postUserNote (bridge : ChatBridge) (text : List UInt8) (clock : String) : ChatBridge :=
  { bridge with userNotes := bridge.userNotes.push { text := clampChatText text, clock } }

/-- `postAssistantMessage`, which is delivered by definition. -/
def postAssistantMessage (bridge : ChatBridge) (text : List UInt8) (clock : String) : ChatBridge :=
  { bridge with
    assistantMessages :=
      bridge.assistantMessages.push { fromUser := false, text := clampChatText text, clock, delivered := true } }

/-- `ackUserNotes`. -/
def ackUserNotes (bridge : ChatBridge) (throughSeq : ℕ) : ChatBridge × ℕ :=
  let (userNotes, changed) := bridge.userNotes.markDelivered throughSeq
  ({ bridge with userNotes }, changed)

end ChatBridge

/-- A positive integer of the payload, or 0. -/
def positiveOr0 (v : Option Json) : ℕ :=
  match v with
  | some (.integer n) => if n > 0 then n.toNat else 0
  | _ => 0

/-- `handleChatPoll`, of the payload and what the ring is at each of the three reads. -/
def handleChatPoll (payload : Option Json) (ring ring' ring'' : BoundedRing ChatEntry) : ChatPollPayload :=
  buildChatPollPayload (ring.since (positiveOr0 (Json.get payload "sinceSeq"))) ring'.lastSeq ring''.evicted

/-- The reply of `chat.post`. -/
structure ChatPostPayload where
  seq : ℕ
  acknowledged : ℕ

/-- `handleChatPost`; a text that is missing or empty is refused. -/
def handleChatPost (payload : Option Json) (clock : String) (bridge : ChatBridge) :
    Except String ChatPostPayload × ChatBridge :=
  match Json.get payload "text" with
  | some (.string text) =>
    if cString (utf8 text) = [] then (.error "text must be a non-empty string", bridge)
    else
      let posted := bridge.postAssistantMessage (cString (utf8 text)) clock
      let (acked, acknowledged) := posted.ackUserNotes (positiveOr0 (Json.get payload "ackThroughSeq"))
      (.ok ⟨posted.assistantMessages.lastSeq, acknowledged⟩, acked)
  | _ => (.error "text must be a non-empty string", bridge)

/-! ### A client that polls -/

/-- What happens on the bridge. -/
inductive ChatEvent where
  /-- the user types a note -/
  | note (text : List UInt8) (clock : String)
  /-- a `chat.post` -/
  | post (payload : Option Json) (clock : String)
  /-- the client polls; so far notes are marked through between the reads of it -/
  | poll (marks marks' : List ℕ)

/-- The bridge and the client. -/
structure ChatRun where
  bridge : ChatBridge
  /-- `lastSeq` of the reply before -/
  cursor : ℕ := 0
  /-- the notes of all replies, in their order -/
  received : List PolledNote := []

namespace ChatRun

def marked (ring : BoundedRing ChatEntry) (marks : List ℕ) : BoundedRing ChatEntry :=
  marks.foldl (fun ring through => (ring.markDelivered through).1) ring

/-- The reply to the poll of a client with this cursor. -/
def reply (s : ChatRun) (marks marks' : List ℕ) : ChatPollPayload :=
  let ring := s.bridge.userNotes
  let ring' := marked ring marks
  handleChatPoll (some (.object [("sinceSeq", .integer s.cursor)])) ring ring' (marked ring' marks')

def step (s : ChatRun) : ChatEvent → ChatRun
  | .note text clock => { s with bridge := s.bridge.postUserNote text clock }
  | .post payload clock => { s with bridge := (handleChatPost payload clock s.bridge).2 }
  | .poll marks marks' =>
    let reply := s.reply marks marks'
    let ring := marked (marked s.bridge.userNotes marks) marks'
    { bridge := { s.bridge with userNotes := ring }
      cursor := reply.lastSeq
      received := s.received ++ reply.notes }

/-- Empty rings, and a client that has not polled. -/
def start (capacity capacity' : ℕ) : ChatRun := { bridge := ⟨.new capacity, .new capacity'⟩ }

def run (s : ChatRun) (events : List ChatEvent) : ChatRun := events.foldl step s

end ChatRun

end RackMcp
