import RackMcp.Lib.Trace
import Mathlib.Data.List.Range

/-!
# The user-note hint

What a `read_user_notes` call and the doorbell of the plugin do on the connections to a plugin: the ring of notes
(`core/activitylog.hpp`) with `chat.poll` and `postUserNote` of the plugin, `onData` and `dispatch` of
`packages/protocol/src/client.ts`, the `userNotesPending` flag of `apps/mcp-server/src/connection.ts`, and
`readUserNotes` of `apps/mcp-server/src/chat.ts`. Of a note only its number and its text are kept, and of the
other requests and events nothing.
-/

namespace RackMcp.Server

/-! ### The ring of the plugin -/

/-- `ChatEntry` of a user note. -/
structure ChatEntry where
  seq : ℕ
  text : String
deriving DecidableEq

/-- `BoundedRing<ChatEntry>`: it holds the latest notes, numbered without gaps. -/
structure BoundedRing where
  capacity : ℕ
  items : List ChatEntry
  lastSeq : ℕ
  evicted : ℕ
  seqs : items.map ChatEntry.seq = List.range' (evicted + 1) items.length
  count : evicted + items.length = lastSeq

namespace BoundedRing

/-- The ring of the bridge, `userNotes_{32}`. -/
def userNotes : BoundedRing := ⟨32, [], 0, 0, rfl, rfl⟩

/-- Appends under the next number, and evicts the oldest while there are too many. -/
def push (ring : BoundedRing) (text : String) : BoundedRing :=
  let items := ring.items ++ [⟨ring.lastSeq + 1, text⟩]
  let excess := items.length - ring.capacity
  { ring with
    items := items.drop excess
    lastSeq := ring.lastSeq + 1
    evicted := ring.evicted + excess
    seqs := by
      have hitems : items.map ChatEntry.seq = List.range' (ring.evicted + 1) (ring.items.length + 1) := by
        have hnext : ring.lastSeq + 1 = ring.evicted + 1 + ring.items.length := by rw [← ring.count]; omega
        show (ring.items ++ [_]).map ChatEntry.seq = _
        rw [List.map_append, ring.seqs, List.range'_concat, Nat.one_mul, hnext]
        rfl
      rw [List.map_drop, hitems, List.drop_range', List.length_drop]
      show List.range' _ _ = List.range' _ ((ring.items ++ [_]).length - excess)
      rw [List.length_append, List.length_singleton]
      congr 1
      omega
    count := by
      have hcount := ring.count
      have hlength : items.length = ring.items.length + 1 := by
        show (ring.items ++ [_]).length = _
        rw [List.length_append, List.length_singleton]
      rw [List.length_drop]
      omega }

/-- Everything after a number, oldest first. -/
def since (ring : BoundedRing) (seq : ℕ) : List ChatEntry := ring.items.filter fun item => item.seq > seq

end BoundedRing

/-! ### The connections -/

/-- `ChatPollResult`. -/
structure ChatPollResult where
  notes : List ChatEntry
  lastSeq : ℕ
  dropped : ℕ
deriving DecidableEq

/-- A frame from the plugin: the doorbell, tagged here with the note it was rung for, or the response to a poll,
with its result unless it is an error. -/
inductive NoteFrame where
  | userNotePending (seq : ℕ)
  | res (id : ℕ) (reply : Option ChatPollResult)
deriving DecidableEq

/-- The manager's connection with the plugin behind it. `requests` are the polls the plugin has not answered, `wire` the
frames that have not arrived, `pending` the calls that wait for a response. `received` are the notes whose event has
been dispatched, and `results` those of the completed calls, on this connection and on those before it. -/
structure NoteLink where
  ring : BoundedRing
  userNotesPending : Bool
  requests : List (ℕ × ℕ) := []
  wire : List NoteFrame := []
  nextId : ℕ := 0
  pending : List ℕ := []
  isOpen : Bool := true
  received : List ℕ := []
  results : List ChatPollResult := []

/-- What happens on the connections. -/
inductive NoteEvent where
  /-- `postUserNote`; the event frame may find the outbound queue full. -/
  | post (text : String) (queued : Bool)
  /-- `read_user_notes` sends its poll. -/
  | call (sinceSeq : ℕ)
  /-- The plugin answers one of the polls, with an error unless it handles it. -/
  | answer (index : ℕ) (handled : Bool)
  /-- So many more frames are complete with the next chunk of the socket. -/
  | chunk (frames : ℕ)
  /-- The deadline of a call passes. -/
  | timeout (id : ℕ)
  | close
  /-- The manager connects to the plugin again. -/
  | connect
deriving DecidableEq

/-- What dispatching the frames of a chunk has done so far. `resolved` are the results whose calls are continued
when the chunk is done; `late` says that an event has come after the last of them. -/
structure Dispatched where
  pending : List ℕ
  userNotesPending : Bool
  received : List ℕ
  resolved : List ChatPollResult := []
  late : Bool := false

/-- `dispatch`, with the `onEvent` of the manager. -/
def Dispatched.dispatch (d : Dispatched) : NoteFrame → Dispatched
  | .userNotePending seq =>
    { d with userNotesPending := true, received := d.received ++ [seq], late := !d.resolved.isEmpty }
  | .res id reply =>
    if id ∈ d.pending then
      match reply with
      | some result =>
        { d with pending := d.pending.erase id, resolved := d.resolved ++ [result], late := false }
      | none => { d with pending := d.pending.erase id }
    else d

namespace NoteLink

/-- The first connection to a plugin. -/
def start (ring : BoundedRing) (userNotesPending : Bool) : NoteLink := { ring, userNotesPending }

/-- `onData`: the complete frames are dispatched one after the other. -/
def dispatched (s : NoteLink) (frames : ℕ) : Dispatched :=
  (s.wire.take frames).foldl Dispatched.dispatch
    { pending := s.pending, userNotesPending := s.userNotesPending, received := s.received }

/-- A chunk, and then the continuations of the calls it resolved: each clears the flag and returns. -/
def onData (s : NoteLink) (frames : ℕ) : NoteLink :=
  let d := s.dispatched frames
  { s with
    wire := s.wire.drop frames
    pending := d.pending
    userNotesPending := d.resolved.isEmpty && d.userNotesPending
    received := d.received
    results := s.results ++ d.resolved }

/-- `handleChatPoll`. -/
def poll (s : NoteLink) (sinceSeq : ℕ) : ChatPollResult :=
  { notes := s.ring.since sinceSeq, lastSeq := s.ring.lastSeq, dropped := s.ring.evicted }

/-- The highest number a completed call has returned. -/
def returned (s : NoteLink) : ℕ := (s.results.map ChatPollResult.lastSeq).foldr max 0

/-- The state after an event; there are no actions to record. -/
def step (s : NoteLink) : NoteEvent → NoteLink × List Unit
  | .post text queued =>
    let ring := s.ring.push text
    let doorbell := if queued ∧ s.isOpen then [.userNotePending ring.lastSeq] else []
    ({ s with ring, wire := s.wire ++ doorbell }, [])
  | .call sinceSeq =>
    if s.isOpen then
      ({ s with requests := s.requests ++ [(s.nextId, sinceSeq)], pending := s.pending ++ [s.nextId],
                nextId := s.nextId + 1 }, [])
    else (s, [])
  | .answer index handled =>
    match s.requests[index]? with
    | some (id, sinceSeq) =>
      ({ s with requests := s.requests.eraseIdx index
                wire := s.wire ++ [.res id (if handled then some (s.poll sinceSeq) else none)] }, [])
    | none => (s, [])
  | .chunk frames => (if s.isOpen then s.onData frames else s, [])
  | .timeout id => ({ s with pending := s.pending.erase id }, [])
  | .close => ({ s with isOpen := false, pending := [] }, [])
  -- a new client, while the flag is the manager's
  | .connect => ({ s with requests := [], wire := [], nextId := 0, pending := [], isOpen := true }, [])

/-- The connection before the event at index `k`. -/
def stateAt (ring : BoundedRing) (userNotesPending : Bool) (es : List NoteEvent) (k : ℕ) : NoteLink :=
  Trace.stateAt step (start ring userNotesPending) es k

end NoteLink

end RackMcp.Server
