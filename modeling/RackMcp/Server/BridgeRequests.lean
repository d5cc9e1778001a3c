import RackMcp.Json
import RackMcp.Server.Framing

/-!
# The requests of a bridge client

`request`, `onData`, `dispatch` and `teardown` of `BridgeClient` (`packages/protocol/src/client.ts`), once its socket
may be there: handshake waiters and the heartbeat have no part in a request. A request is known by its number, which
is also the number of its timer. `onEvent` is what the handler of the owner does with an event frame; the calls it
makes there are made before the next frame is popped. `Node` ends the process on an exception that leaves `onData`; the
model lets the run go on.

`settled` is what the promises were settled with, in the order in which that happened.
-/

namespace RackMcp.Server

/-- What a rejected promise is given: a `BridgeRequestError` with its `rpcError`, or another error. -/
inductive ClientError where
  | rpc (rpcError : Json)
  | error (message : String)
deriving DecidableEq

/-- How a promise is settled. -/
inductive Settlement where
  | resolved (payload : Option Json)
  | rejected (e : ClientError)
deriving DecidableEq

/-- An `RackMcpError`. -/
def rpcErrorOf (code message : String) (mutationMayHaveOccurred : Bool) : Json :=
  .object [("code", .string code), ("message", .string message), ("retrySafe", .bool false),
    ("mutationMayHaveOccurred", .bool mutationMayHaveOccurred)]

/-- The rejection of a request whose deadline passes. -/
def timeoutError (method : String) (deadlineMs : Nat) : ClientError :=
  .rpc (rpcErrorOf "TIMEOUT" ("bridge request " ++ method ++ " timed out after " ++ toString deadlineMs ++ "ms") true)

/-- `pendingReason` of `teardown`. -/
def disconnectedError (reason : String) : ClientError := .rpc (rpcErrorOf "RACK_DISCONNECTED" reason true)

/-- The error of a response that is not ok; a missing one is replaced. -/
def responseError (frame : Json) : ClientError :=
  match Json.get frame "error" with
  | none | some .null => .rpc (rpcErrorOf "INTERNAL" "malformed error response" true)
  | some error => .rpc error

/-- What a response settles its request with. -/
def responseSettles (frame : Json) : Settlement :=
  if Json.get frame "ok" = some (.bool true) then .resolved (Json.get frame "payload")
  else .rejected (responseError frame)

/-- A timer of a request, with what its callback captured. -/
structure RequestTimer where
  call : ℕ
  id : String
  method : String
  deadlineMs : Nat
deriving DecidableEq

/-- An entry of the pending map; `call` stands for its `resolve`, its `reject` and its `timer`. -/
structure PendingRequest where
  id : String
  call : ℕ
deriving DecidableEq

/-- What the owner of a client calls. `sendError` is what `send` throws, if it does: the payload does not stringify or
the body is over the frame limit. -/
inductive ClientCall where
  | request (method : String) (deadlineMs : Nat) (sendError : Option String)
  | close

/-- What surrounds a client. -/
structure ClientSite where
  /-- `randomBytes(8).toString("hex")` of each request. -/
  randomId : ℕ → String
  /-- The UTF-8 decoding of a frame and `JSON.parse`. -/
  parse : List UInt8 → Option Json
  /-- What the handler calls on each event frame. -/
  onEvent : ℕ → Json → List ClientCall

/-- `BridgeClient`. -/
structure BridgeClient where
  socket : Bool := false
  closed : Bool := false
  pending : List PendingRequest := []
  timers : List RequestTimer := []
  requests : ℕ := 0
  events : ℕ := 0
  settled : List (ℕ × Settlement) := []

namespace BridgeClient

variable (E : ClientSite)

/-- The promise of a call is settled. -/
def settle (s : BridgeClient) (call : ℕ) (v : Settlement) : BridgeClient := { s with settled := s.settled ++ [(call, v)] }

/-- `pending.delete`. -/
def drop (s : BridgeClient) (id : String) : BridgeClient := { s with pending := s.pending.filter (·.id ≠ id) }

/-- `clearTimeout`. -/
def clearTimer (s : BridgeClient) (call : ℕ) : BridgeClient := { s with timers := s.timers.filter (·.call ≠ call) }

/-- `pending.get`. -/
def entry (s : BridgeClient) (id : String) : Option PendingRequest := s.pending.find? (·.id == id)

/-- `teardown`. -/
def teardown (s : BridgeClient) (reason : String) : BridgeClient :=
  if s.closed then s
  else
    { s with
      socket := false
      closed := true
      timers := s.timers.filter fun t => t.call ∉ s.pending.map (·.call)
      settled := s.settled ++ s.pending.map fun entry => (entry.call, .rejected (disconnectedError reason))
      pending := [] }

/-- The pending entry of a request, and its timer. -/
def enqueue (s : BridgeClient) (timer : RequestTimer) : BridgeClient :=
  { s with
    timers := s.timers ++ [timer]
    pending := s.pending.filter (·.id ≠ timer.id) ++ [⟨timer.id, timer.call⟩] }

/-- `request`. -/
def request (s : BridgeClient) (method : String) (deadlineMs : Nat) (sendError : Option String) : BridgeClient :=
  let call := s.requests
  let s := { s with requests := s.requests + 1 }
  if ¬ s.socket ∨ s.closed then s.settle call (.rejected (.error "not connected"))
  else
    let id := E.randomId call
    let s := s.enqueue ⟨call, id, method, deadlineMs⟩
    match sendError with
    | none => s
    | some e =>
      let s := match s.entry id with
        | some entry => (s.drop id).clearTimer entry.call
        | none => s
      s.settle call (.rejected (.error e))

/-- What the owner calls. -/
def call (s : BridgeClient) : ClientCall → BridgeClient
  | .request method deadlineMs sendError => s.request E method deadlineMs sendError
  | .close => s.teardown "client closed"

/-- The timer of a request fires, if it was not cleared. -/
def fire (s : BridgeClient) (call : ℕ) : BridgeClient :=
  match s.timers.find? (·.call == call) with
  | none => s
  | some t =>
    ((s.clearTimer call).drop t.id).settle t.call (.rejected (timeoutError t.method t.deadlineMs))

/-- `dispatch` of a res frame. -/
def respond (s : BridgeClient) (frame : Json) : BridgeClient :=
  match Json.get frame "id" with
  | some (.string id) =>
    match s.entry id with
    | none => s
    | some entry => ((s.drop id).clearTimer entry.call).settle entry.call (responseSettles frame)
  | _ => s

/-- `dispatch`; the property of null cannot be read, and the exception leaves `onData`. -/
def dispatch (s : BridgeClient) (frame : Json) : Option BridgeClient :=
  if frame = .null then none
  else if Json.get frame "kind" = some (.string "res") then some (s.respond frame)
  else if Json.get frame "kind" = some (.string "evt") then
    some ((E.onEvent s.events frame).foldl (call E) { s with events := s.events + 1 })
  else some s

variable {maxFrameBytes : ℕ}

/-- The loop of `onData`, with the decoder. -/
def popFrames (d : FrameDecoder maxFrameBytes) (s : BridgeClient) : FrameDecoder maxFrameBytes × BridgeClient :=
  match _h : d.next with
  | (none, d) => (d, if d.failed then s.teardown "bridge frame decode error" else s)
  | (some bytes, d) =>
    match E.parse bytes with
    | none => (d, s.teardown "bridge sent invalid JSON")
    | some frame =>
      match s.dispatch E frame with
      | none => (d, s)
      | some s => popFrames d s
termination_by d.buffered
decreasing_by exact FrameDecoder.next_shrinks _h

/-- `onData`. -/
def onData (d : FrameDecoder maxFrameBytes) (chunk : List UInt8) (s : BridgeClient) :
    FrameDecoder maxFrameBytes × BridgeClient :=
  if (d.push chunk).1 then popFrames E (d.push chunk).2 s
  else ((d.push chunk).2, s.teardown "bridge frame decode error")

end BridgeClient

/-- What happens to a client: it is connected, it is called, bytes arrive, a timer fires, or its socket closes. -/
inductive ClientEvent where
  | connected
  | call (c : ClientCall)
  | data (chunk : List UInt8)
  | fire (call : ℕ)
  | socketClosed
  | socketError

/-- A client with its decoder, after an event; there are no actions to record. -/
def BridgeClient.step (E : ClientSite) {maxFrameBytes : ℕ} (s : FrameDecoder maxFrameBytes × BridgeClient)
    (e : ClientEvent) : (FrameDecoder maxFrameBytes × BridgeClient) × List Unit :=
  match e with
  | .connected => ((s.1, { s.2 with socket := true }), [])
  | .call c => ((s.1, s.2.call E c), [])
  | .data chunk => (onData E s.1 chunk s.2, [])
  | .fire call => ((s.1, s.2.fire call), [])
  | .socketClosed => ((s.1, s.2.teardown "bridge connection closed"), [])
  | .socketError => ((s.1, s.2.teardown "bridge connection error"), [])

end RackMcp.Server
