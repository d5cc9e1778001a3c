import RackMcp.Server.Runtime

/-!
# The connection manager

`ConnectionManager` of `apps/mcp-server/src/connection.ts`, with what it uses of `BridgeClient`
(`packages/protocol/src/client.ts`). `select` polls with requests, and a request reconnects first, so the two
call each other; `ensureConnected` follows that to a depth, past which it does not return. The user-note hint
and the log lines are left out.
-/

namespace RackMcp.Server

open Gen Cooperative

/-! ### The bridge client -/

/-- Why a client went away, as its waiting requests and handshakes are told. -/
def lostReply (reason : String) : Call → Reply
  | .request _ => .failed (.bridge ⟨"RACK_DISCONNECTED", reason, false, true, none, none⟩)
  | .connect _ | .authenticate _ => .failed (.error reason)

/-- The exchange when its client goes away. -/
def Exchange.lose (c : Nat) (reason : String) (e : Exchange) : Exchange :=
  if e.call.conn = c ∧ e.reply.isNone then { e with reply := some (lostReply reason e.call) } else e

/-- `teardown` of client `c`, with the `onClose` of the manager. -/
def Shared.teardown (c : Nat) (reason : String) (s : Shared) : Shared :=
  if s.isOpen c then
    { s with
      conns := s.conns.modify c fun conn => { conn with isOpen := false }
      exchanges := s.exchanges.map (Exchange.lose c reason)
      client := if s.client = some c then none else s.client
      leaseId := if s.client = some c then none else s.leaseId }
  else s

/-- The server without a lease. -/
def Shared.unleased (s : Shared) : Shared := { s with leaseId := none }

/-- `disconnect`. -/
def Shared.disconnect (s : Shared) : Shared :=
  match s.client with
  | none => s.unleased
  | some c => { s.unleased.teardown c "client closed" with client := none }

/-- `SUPPORTED_PROTOCOL_VERSIONS`. -/
def supportedProtocolVersions : List Int := [1]

/-- What `connect` and `authenticate` do with a reply they do not want: a frame that refuses closes the client, a
rejection does not. -/
def handshakeFailed (c : Nat) {α : Type} : Reply → Async α
  | .refused e => do
    Task.modify (Shared.teardown c "client closed")
    Task.fail (.bridge e)
  | .failed e => Task.fail e
  | _ => Task.fail (.error "unexpected handshake frame")

/-- `BridgeClient.connect`. -/
def bridgeConnect (c : Nat) : Async Welcome := do
  let reply ← Task.ask (.connect c)
  match reply with
  | .connected w =>
    if w.version ∈ supportedProtocolVersions then pure w
    else
      Task.modify (Shared.teardown c "client closed")
      Task.fail (.bridge ⟨"PROTOCOL_VERSION_MISMATCH", "bridge selected protocol version " ++ toString w.version ++
        ", which this client did not offer", false, false, none, none⟩)
  | reply => handshakeFailed c reply

/-- `BridgeClient.authenticate`. -/
def bridgeAuthenticate (c : Nat) : Async Unit := do
  let reply ← Task.ask (.authenticate c)
  match reply with
  | .authenticated => pure ()
  | reply => handshakeFailed c reply

variable (N : Node)

/-- The frame of a request. -/
def requestFrame (r : Request) : Json :=
  .object ([("kind", .string "req"), ("id", .string r.id), ("method", .string r.method),
    ("deadlineMs", .integer r.deadlineMs), ("payload", r.payload)] ++
    (r.operationId.map fun operationId => ("operationId", Json.string operationId)).toList)

/-- `BridgeClient.request`. -/
def clientRequest (c : Nat) (method : String) (payload : Json) (operationId : Option String)
    (deadlineMs : Int) : Async Json := do
  let s ← Task.read
  if ¬ s.isOpen c then Task.fail (.error "not connected")
  else
    let id ← draw N.requestId
    let r : Request := ⟨c, id, method, payload, operationId, deadlineMs⟩
    if N.byteLength (requestFrame r) > limitBridgeFrameBytes then
      Task.fail (.error ("frame exceeds " ++ toString limitBridgeFrameBytes ++ " bytes"))
    else
      let reply ← Task.ask (.request r)
      Task.ofExcept reply.value

/-! ### Connecting -/

/-- The instance the client in use is connected to, if it is this one. -/
def Shared.connectedTo (instanceId : String) (s : Shared) : Option SelectedInstance :=
  if s.connected then s.selected.filter (·.instanceId == instanceId) else none

/-- `new BridgeClient`. -/
def newClient (port : Int) : Async Nat :=
  Task.update fun s => (s.conns.length, { s with conns := s.conns ++ [{ port }] })

/-- The session a welcome and an authentication gave becomes the one in use. -/
def install (c : Nat) (found : Discovered) (w : Welcome) : Async SelectedInstance := do
  let selected : SelectedInstance :=
    ⟨w.instanceId, w.sessionId, w.rackVersion, w.rackEdition, found.port, found.pid⟩
  Task.modify fun s => { s with client := some c, selected := some selected }
  pure selected

/-- `connectTo`. -/
def connectTo (instanceId : String) : Async SelectedInstance := do
  let s ← Task.read
  match s.connectedTo instanceId with
  | some selected => pure selected
  | none =>
    let instances ← draw N.instances
    match instances.find? (·.instanceId == instanceId) with
    | none => throwTool .rackNotFound ("no discoverable Rack instance " ++ instanceId) true
    | some found =>
      if found.stale then
        throwTool .rackDisconnected ("instance " ++ instanceId ++ " is stale (no heartbeat)") true
      else
        -- A failed connect must not leave the previous instance selected.
        Task.modify fun s => { s.disconnect with selected := none }
        let unreadable ← draw N.pairingSecret
        match unreadable with
        | some e => throwTool .authenticationFailed ("cannot read pairing secret: " ++ e)
        | none =>
          let c ← newClient found.port
          let w ← (bridgeConnect c).await
          (bridgeAuthenticate c).await
          install c found w

/-- `runExclusive`. The source queues the waiting callers; here any of them may be next. -/
def runExclusive {α : Type} (fn : Async α) : Async α := do
  Task.waitFor fun s => !s.connecting
  Task.modify fun s => { s with connecting := true }
  let result ← fn.attempt
  Task.modify fun s => { s with connecting := false }
  Task.ofExcept result

/-! ### Requests -/

/-- A `BridgeRequestError` with the code BRIDGE_NOT_READY. -/
def Thrown.notReady : Thrown → Bool
  | .bridge e => e.code == "BRIDGE_NOT_READY"
  | _ => false

/-- `waitForReady`, polling with `statusGet`. -/
def waitForReady (statusGet : Async Json) (deadline : Int) : Nat → Async Unit
  | 0 => Task.stuck (.error "poll")
  | polls + 1 => do
    let polled ← statusGet.await.attempt
    match polled with
    | .ok _ => pure ()
    | .error e =>
      let now ← dateNow N
      if ¬ e.notReady ∨ now ≥ deadline then Task.fail e
      else
        Task.pause
        waitForReady statusGet deadline polls

/-- `ConnectionManager.request`, connecting with `ensure`. -/
def requestVia (ensure : Async SelectedInstance) (method : String) (payload : Json)
    (operationId : Option String) (deadlineMs : Int) : Async Json := do
  let _ ← ensure.await
  let s ← Task.read
  match s.client with
  | none => throwTool .rackDisconnected "bridge session lost" true
  | some c => clientRequest N c method payload operationId deadlineMs

/-- `select`, polling with requests that connect with `ensure`. -/
def selectVia (ensure : Async SelectedInstance) (instanceId : String) : Async SelectedInstance := do
  let selected ← (runExclusive (connectTo N instanceId)).await
  let now ← dateNow N
  let statusGet := requestVia N ensure "status.get" (.object []) none N.config.requestDeadlineMs
  let _ ← (waitForReady N statusGet (now + 15000) N.patience).await.attempt
  pure selected

/-- `ensureConnected`, reconnecting with `ensure`. -/
def ensureConnectedVia (ensure : Async SelectedInstance) : Async SelectedInstance := do
  let s ← Task.read
  match s.selected with
  | some selected => if s.connected then pure selected else selectVia N ensure selected.instanceId
  | none =>
    let instances ← draw N.instances
    match instances.filter fun i => !i.stale with
    | [] => throwTool .rackNotFound "no running Rack instance with the RackMCP bridge" true
    | [only] => selectVia N ensure only.instanceId
    | live =>
      Task.fail (.tool .instanceNotSelected
        (toString live.length ++ " instances available; call select_rack_instance first") false false
        (some (.object [("instanceIds", .array (live.map fun i => .string i.instanceId))])))

/-- `ensureConnected`, with so many reconnects nested in its polls. -/
def ensureConnectedTo : Nat → Async SelectedInstance
  | 0 => Task.stuck (.error "reconnect")
  | depth + 1 => ensureConnectedVia N (ensureConnectedTo depth)

/-- `ensureConnected`. -/
def ensureConnected : Async SelectedInstance := ensureConnectedTo N N.patience

/-- `request`. -/
def request (method : String) (payload : Json) (operationId : Option String := none)
    (deadlineMs : Int := N.config.requestDeadlineMs) : Async Json :=
  requestVia N (ensureConnected N) method payload operationId deadlineMs

/-- `select`. -/
def select (instanceId : String) : Async SelectedInstance := selectVia N (ensureConnected N) instanceId

/-! ### The writer lease -/

/-- `acquireLease`. -/
def acquireLease : Async Json := do
  let res ← (request N "lease.acquire" (.object [("clientName", .string "rack-mcp-server")])).await
  Task.modify fun s => { s with leaseId := some (jstr res "leaseId") }
  pure res

/-- `releaseLease`. -/
def releaseLease : Async Bool := do
  let s ← Task.read
  match s.leaseId with
  | none => pure false
  | some leaseId =>
    let _ ← (request N "lease.release" (.object [("leaseId", .string leaseId)])).await
    Task.modify fun s => { s with leaseId := none }
    pure true

/-- `ensureLease`. -/
def ensureLease : Async Unit := do
  let s ← Task.read
  match s.leaseId with
  | none => do
    let _ ← (acquireLease N).await
    pure ()
  | some leaseId =>
    let renewed ← (request N "lease.renew" (.object [("leaseId", .string leaseId)])).await.attempt
    match renewed with
    | .ok _ => pure ()
    | .error _ =>
      Task.modify fun s => { s with leaseId := none }
      let _ ← (acquireLease N).await
      pure ()

end RackMcp.Server
