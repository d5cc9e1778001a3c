import RackMcp.Lib.Trace

/-!
# Who owns a socket

The life of a `BridgeClient` (`packages/protocol/src/client.ts`) from `connect` to its close, and how the
`ConnectionManager` (`apps/mcp-server/src/connection.ts`) takes it over: `runExclusive`, `connectTo`, `disconnect`
and the `onClose` and `onEvent` of a client. A wait of `exchangeHandshake` ends when its frame is dispatched, when its
timer fires or when its client is torn down; the code after the wait runs as an event of its own, and other events may
come between. Requests, leases and heartbeats close no socket and are left out.
-/

namespace RackMcp.Server

/-- A frame as a client without requests dispatches it. -/
inductive ClientFrame where
  | welcome (instanceId : String) (supported : Bool)
  | authResult (ok : Bool)
  | shuttingDown
  /-- What does not decode or parse. -/
  | malformed
  | other
deriving DecidableEq

inductive Socket where
  | connecting
  | opened
  | closed
deriving DecidableEq

/-- Where the connection attempt of a client stands: what it waits for, or the frame that ended the wait. -/
inductive Stage where
  | dialing
  | hello
  | greeted (frame : ClientFrame)
  | auth
  | answered (frame : ClientFrame)
  | ready
  | failed
deriving DecidableEq

/-- `BridgeClient`, with the instance that its welcome names. -/
structure Client where
  socket : Socket := .connecting
  stage : Stage := .dialing
  instanceId : String := ""
deriving DecidableEq

/-- A handshake waiter is queued. -/
def Client.waits (cl : Client) : Bool := cl.stage = .hello ∨ cl.stage = .auth

/-- `ConnectionManager`, with all clients it has made. `attempt` is the client of the connection attempt that holds
the connect lock. -/
structure Manager where
  clients : List Client := []
  client : Option ℕ := none
  selected : Option String := none
  attempt : Option ℕ := none
deriving DecidableEq

/-- What `connectTo` finds before it makes a client. -/
inductive Outlook where
  /-- No such instance, or a stale one. -/
  | notFound
  /-- `loadPairingSecret` throws. -/
  | noSecret
  | dials
deriving DecidableEq

inductive ConnectEvent where
  /-- An attempt gets the lock. -/
  | connectTo (instanceId : String) (outlook : Outlook)
  | dialed (c : ℕ)
  /-- The socket reports an error, or the dial timer destroys it. -/
  | dialFailed (c : ℕ)
  | frame (c : ℕ) (f : ClientFrame)
  /-- The code after a handshake wait runs on. -/
  | resume (c : ℕ)
  | handshakeTimeout (c : ℕ)
  | socketClosed (c : ℕ)
  /-- `disconnect`, when the process shuts down. -/
  | disconnect
deriving DecidableEq

namespace Manager

/-- Client `c` becomes `cl`. -/
def setClient (s : Manager) (c : ℕ) (cl : Client) : Manager := { s with clients := s.clients.set c cl }

/-- The attempt ends with an error. -/
def fail (s : Manager) (c : ℕ) (cl : Client) : Manager :=
  { s.setClient c { cl with stage := .failed } with attempt := none }

/-- `teardown`: the socket is destroyed, a queued waiter is rejected, and `onClose` is called. -/
def teardown (s : Manager) (c : ℕ) : Manager :=
  match s.clients[c]? with
  | none => s
  | some cl =>
    if cl.socket = .closed then s
    else
      let cl := { cl with socket := .closed }
      let s := if cl.waits then s.fail c cl else s.setClient c cl
      if s.client = some c then { s with client := none } else s

/-- `disconnect`. -/
def disconnect (s : Manager) : Manager :=
  match s.client with
  | none => s
  | some c => { s.teardown c with client := none }

/-- `isConnected` of the client in use. -/
def connected (s : Manager) : Bool :=
  match s.client.bind (s.clients[·]?) with
  | some cl => cl.socket = .opened
  | none => false

/-- `connectTo` up to its first wait. -/
def connectTo (s : Manager) (instanceId : String) (outlook : Outlook) : Manager :=
  if s.connected ∧ s.selected = some instanceId then s
  else
    match outlook with
    | .notFound => s
    | .noSecret => { s.disconnect with selected := none }
    | .dials =>
      let s := { s.disconnect with selected := none }
      { s with clients := s.clients ++ [({} : Client)], attempt := some s.clients.length }

/-- `dispatch`. -/
def dispatch (s : Manager) (c : ℕ) (cl : Client) : ClientFrame → Manager
  | .shuttingDown => s.disconnect
  | .malformed => s.teardown c
  | .other => s
  | f =>
    -- the oldest handshake waiter takes the frame
    match cl.stage with
    | .hello => s.setClient c { cl with stage := .greeted f }
    | .auth => s.setClient c { cl with stage := .answered f }
    | _ => s

/-- The handshake is refused: the client closes itself, and the attempt fails. -/
def refuse (s : Manager) (c : ℕ) (cl : Client) : Manager := (s.fail c cl).teardown c

/-- The code of `connect`, `authenticate` and `connectTo` after a wait. -/
def resume (s : Manager) (c : ℕ) (cl : Client) : Manager :=
  match cl.stage with
  | .greeted (.welcome instanceId true) =>
    -- `send` throws when the socket is gone
    if cl.socket = .closed then s.fail c cl else s.setClient c { cl with stage := .auth, instanceId }
  | .greeted _ => s.refuse c cl
  | .answered (.authResult true) =>
    { s.setClient c { cl with stage := .ready } with
      client := some c, selected := some cl.instanceId, attempt := none }
  | .answered _ => s.refuse c cl
  | _ => s

/-- The state after an event; there are no actions to record. -/
def step (s : Manager) (e : ConnectEvent) : Manager × List Unit :=
  match e with
  | .connectTo instanceId outlook => (if s.attempt.isSome then s else s.connectTo instanceId outlook, [])
  | .disconnect => (s.disconnect, [])
  | .dialed c | .dialFailed c | .frame c _ | .resume c | .handshakeTimeout c | .socketClosed c =>
    match s.clients[c]? with
    | none => (s, [])
    | some cl =>
      match e with
      | .dialed _ =>
        (if cl.stage = .dialing then s.setClient c { cl with socket := .opened, stage := .hello } else s, [])
      | .dialFailed _ => (if cl.stage = .dialing then s.fail c { cl with socket := .closed } else s, [])
      | .frame _ f => (if cl.socket = .opened then s.dispatch c cl f else s, [])
      | .resume _ => (s.resume c cl, [])
      | .handshakeTimeout _ => (if cl.waits then s.fail c cl else s, [])
      | _ => (s.teardown c, [])

/-- The manager before the event at index `k`. -/
def stateAt (es : List ConnectEvent) (k : ℕ) : Manager := Trace.stateAt step {} es k

end Manager

end RackMcp.Server
