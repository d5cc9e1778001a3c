import RackMcp.Core.Crypto
import RackMcp.Core.Frames
import RackMcp.Core.Lease
import RackMcp.Core.Plan

/-!
# The sessions of the bridge server

The frame handling of `core/service.cpp`: hello, the challenge, and the requests of an authenticated
session. A session is what its reader thread keeps between two frames. Randomness is drawn from
`Entropy`, the clock readings and the patch epoch of a call are in `FrameReadings`, and every call
that leaves the session (a frame handed to the outbound queue, an HMAC compared, a lease method
handled, a command enqueued or executed) is an `Effect`. The counters, and the bounds of the outbound
queue, decide nothing here and are left out.

`handleRequest` ends where it calls the sink: the command that passed the gate is the session's
`pending` one, and pushing it is a step of its own, so other threads may run in between.
-/

namespace RackMcp

open Gen

/-! ### Configuration and randomness -/

/-- `ServiceConfig`; `start` refuses a secret that is not 32 bytes. -/
structure ServiceConfig where
  secret : List UInt8
  instanceId : String
  sessionId : String
  bridgeVersion : String
  rackVersion : String
  rackEdition : String := "unknown"
  maxFrameBytes : Nat := limitBridgeFrameBytes
  maxConnections : Nat := 8
  maxUnauthConnections : Nat := 4
  leaseTtlMs : Int := 30 * 1000
  secret_size : secret.length = 32

/-- What the system's random source yields: the results of the successive calls of `randomHex(32)` and
of `uuid4`. Each is empty when the source fails. -/
structure Entropy where
  randomHex : Nat → String
  uuid4 : Nat → String

/-! ### Commands, sessions and effects -/

/-- `BridgeCommand`. -/
structure BridgeCommand where
  connectionId : Nat
  requestId : String
  method : String
  operationId : String
  payload : Json
  deadlineAtMs : Int
  mutating : Bool
  leaseId : String

/-- `Session::State`. -/
inductive SessionState where
  | expectHello
  | expectAuth
  | ready
deriving DecidableEq

/-- `Session`. `alive` is the flag of the reader loop; `pending` is the command the reader is about to
push. -/
structure Session where
  id : Nat
  state : SessionState := .expectHello
  authed : Bool := false
  nonce : String := ""
  alive : Bool := true
  defunct : Bool := false
  pending : Option BridgeCommand := none

/-- What the bridge does on an event. -/
inductive Effect where
  /-- `enqueueOutbound`, which may drop the frame. -/
  | outbound (connectionId : Nat) (frame : String)
  /-- An HMAC was compared with the one expected for this nonce. -/
  | authEvaluated (connectionId : Nat) (nonce provided : String) (accepted : Bool)
  /-- `handleLeaseRequest`. -/
  | leaseHandled (connectionId : Nat) (method : String)
  /-- The command is on the queue of the pump. -/
  | enqueued (connectionId : Nat) (cmd : BridgeCommand)
  /-- The pump called `executeCommand`. -/
  | executed (cmd : BridgeCommand)

/-- What the sessions share: the lease, and how much randomness was drawn. -/
structure Shared where
  leases : LeaseHolder := {}
  nonceDraws : Nat := 0
  uuidDraws : Nat := 0

/-- What a session's thread reads while it handles a frame, in this order. -/
structure FrameReadings where
  patchEpoch : Int
  nowMs : Int
  gateMs : Int

/-- The result of a frame; the connection is closed unless `keep`. -/
structure Handled where
  session : Session
  shared : Shared
  effects : List Effect
  keep : Bool

/-- The connection is closed, and nothing else changes. -/
def Handled.closed (sh : Shared) (s : Session) (frames : List String) : Handled :=
  ⟨s, sh, frames.map (.outbound s.id), false⟩

/-- The request is answered, and nothing else changes. -/
def Handled.answered (sh : Shared) (s : Session) (frames : List String) : Handled :=
  ⟨s, sh, frames.map (.outbound s.id), true⟩

variable (cfg : ServiceConfig) (J : Jansson) (rng : Entropy)

/-! ### The handshake -/

/-- The hello branch of `handleFrame`. -/
def handleHello (patchEpoch : Int) (sh : Shared) (s : Session) (root : Json) : Handled :=
  let selected := selectProtocolVersion (Json.get root "versions") bridgeProtocolMinSupported
    bridgeProtocolVersion
  if selected = 0 then
    .closed sh s [buildAuthError J .protocolVersionMismatch "no mutually supported bridge protocol version"]
  else
    let nonce := rng.randomHex sh.nonceDraws
    let sh := { sh with nonceDraws := sh.nonceDraws + 1 }
    if nonce = "" then
      .closed sh { s with nonce } [buildAuthError J .internal "secure random source unavailable"]
    else
      let info : WelcomeInfo :=
        { version := selected, instanceId := cfg.instanceId, sessionId := cfg.sessionId,
          bridgeVersion := cfg.bridgeVersion, rackVersion := cfg.rackVersion,
          rackEdition := cfg.rackEdition, patchEpoch, nonce }
      .answered sh { s with nonce, state := .expectAuth } [buildWelcome J info]

/-- The HMAC the server expects for a nonce. -/
def expectedHmac (nonce : String) : String :=
  hmacSha256Hex cfg.secret (authMessage nonce cfg.instanceId cfg.sessionId)

/-- The auth branch of `handleFrame`; the nonce is cleared whatever the comparison says. -/
def handleAuth (sh : Shared) (s : Session) (root : Json) : Handled :=
  let provided := jstr root "hmac"
  let accepted := isHex provided 64 && constantTimeEqual (expectedHmac cfg s.nonce) provided
  let evaluated := Effect.authEvaluated s.id s.nonce provided accepted
  let s := { s with nonce := "" }
  if accepted then
    ⟨{ s with authed := true, state := .ready }, sh, [evaluated, .outbound s.id (buildAuthOk J)], true⟩
  else
    ⟨s, sh, [evaluated,
      .outbound s.id (buildAuthError J .authenticationFailed "pairing secret mismatch")], false⟩

/-! ### Requests -/

/-- `handleLeaseRequest`: the shared state after it, and the answer. -/
def handleLeaseRequest (sh : Shared) (connectionId : Nat) (id method : String) (payload : Option Json)
    (nowMs : Int) : Shared × String :=
  if method = "lease.acquire" then
    let name := truncateUtf8 (jstr payload "clientName" "unknown") 128
    let issued := if sh.leases.issuesLease nowMs then 1 else 0
    match sh.leases.acquire connectionId nowMs cfg.leaseTtlMs name (rng.uuid4 sh.uuidDraws) with
    | (.ok leaseId, leases) =>
      ({ sh with leases, uuidDraws := sh.uuidDraws + issued },
        buildResOk J id (some (.object [("leaseId", .string leaseId),
          ("expiresInMs", .integer cfg.leaseTtlMs)])))
    | (.heldByOther, leases) =>
      ({ sh with leases }, buildResError J id .leaseHeld
        ("writer lease held by " ++ (sh.leases.holder nowMs).clientName) true false)
  else if method = "lease.renew" then
    match sh.leases.renew connectionId (jstr payload "leaseId") nowMs cfg.leaseTtlMs with
    | (true, leases) =>
      ({ sh with leases }, buildResOk J id (some (.object [("expiresInMs", .integer cfg.leaseTtlMs)])))
    | (false, leases) =>
      ({ sh with leases },
        buildResError J id .writerLeaseRequired "lease invalid or expired" true false)
  else if method = "lease.release" then
    ({ sh with leases := (sh.leases.release connectionId (jstr payload "leaseId")).2 },
      buildResOk J id none)
  else (sh, buildResError J id .unsupportedOperation "unknown lease method" false false)

/-- The lease that authorizes a request, or its refusal: code, message and whether a retry is safe. -/
def writerGate (spec : MethodSpec) (leases : LeaseHolder) (connectionId : Nat) (operationId : String)
    (gateMs : Int) : Except (ErrorCode × String × Bool) String :=
  if ¬ spec.mutating then .ok ""
  else if operationId.utf8ByteSize ≠ 36 then
    .error (.badRequest, "mutating requests require a UUID operationId", false)
  else
    let h := leases.holder gateMs
    if ¬ h.held ∨ h.connectionId ≠ connectionId then
      .error (.writerLeaseRequired, "acquire the writer lease before mutating", true)
    else .ok h.leaseId

/-- `handleRequest` once the method and the deadline are known. -/
def admitRequest (r : FrameReadings) (sh : Shared) (s : Session) (root : Json) (id : String)
    (spec : MethodSpec) (deadlineAtMs : Int) : Handled :=
  let operationId := jstr root "operationId"
  let payload := Json.get root "payload"
  match writerGate spec sh.leases s.id operationId r.gateMs with
  | .error (code, message, retrySafe) =>
    .answered sh s [buildResError J id code message retrySafe false]
  | .ok leaseId =>
    match checkDeclaredFields spec.method spec.fields payload with
    | some shape => .answered sh s [buildResError J id .badRequest shape false false]
    | none =>
      if "lease.".toList.isPrefixOf spec.method.toList then
        let handled := handleLeaseRequest cfg J rng sh s.id id spec.method payload r.gateMs
        ⟨s, handled.1, [.leaseHandled s.id spec.method, .outbound s.id handled.2], true⟩
      else
        let cmd : BridgeCommand :=
          { connectionId := s.id, requestId := id, method := spec.method, operationId,
            payload := payload.getD (.object []), deadlineAtMs, mutating := spec.mutating, leaseId }
        ⟨{ s with pending := some cmd }, sh, [], true⟩

/-- `handleRequest`. -/
def handleRequest (r : FrameReadings) (sh : Shared) (s : Session) (root : Json) : Handled :=
  let id := jstr root "id"
  let method := jstr root "method"
  if ¬ isHex id 16 then .closed sh s []
  else
    match methodSpecs.find? (·.method == method) with
    | none =>
      .answered sh s
        [buildResError J id .unsupportedOperation ("unknown method: " ++ method) false false]
    | some spec =>
      match Json.get root "deadlineMs" with
      | some (.integer deadline) =>
        if deadline < 1 ∨ deadline > 600000 then
          .answered sh s [buildResError J id .badRequest "invalid deadlineMs" false false]
        else admitRequest cfg J rng r sh s root id spec (r.nowMs + deadline)
      | _ => .answered sh s [buildResError J id .badRequest "invalid deadlineMs" false false]

/-! ### Frames -/

/-- The decoded frame, when it parses and keeps the limits. -/
def decodeFrame (bytes : List UInt8) : Option Json :=
  (J.loadb bytes).filter fun root =>
    checkJsonLimits limitJsonMaxDepth limitJsonMaxTotalNodes limitJsonMaxStringBytes (some root)

/-- `handleFrame`. -/
def handleFrame (r : FrameReadings) (sh : Shared) (s : Session) (bytes : List UInt8) : Handled :=
  match decodeFrame J bytes with
  | none => .closed sh s []
  | some root =>
    let kind := jstr root "kind"
    match s.state with
    | .expectHello =>
      if kind ≠ "hello" then .closed sh s [] else handleHello cfg J rng r.patchEpoch sh s root
    | .expectAuth => if kind ≠ "auth" then .closed sh s [] else handleAuth cfg J sh s root
    | .ready =>
      if kind = "ping" then
        match Json.get root "id" with
        | some (.string id) => .answered sh s [buildPong J id]
        | _ => .answered sh s []
      else if kind = "req" then handleRequest cfg J rng r sh s root
      else .closed sh s []

end RackMcp
