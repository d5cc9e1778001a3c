import RackMcp.Core.Service
import RackMcp.Rackside.Transaction

/-!
# Executing a command once

`lookupOperation` and `recordOperation` of `rackside/RackBridge.cpp`, and `executeCommand` of
`rackside/Handlers.cpp` around them. What the handlers find in Rack is not part of the repository, so
what they come back with, a frame, an outcome or a C++ exception, is given by `RackAnswers`; how an
outcome becomes a frame, and which results are cached, is the code's.
-/

namespace RackMcp

open Gen

/-! ### The cache -/

/-- `OpEntry`. -/
structure OpEntry where
  operationId : String
  requestFingerprint : String
  frame : String
  storedAtMs : Int
deriving DecidableEq

/-- The idempotency cache, oldest entry first. -/
abbrev OpCache := List OpEntry

/-- `OpLookup`, with the frame of a replay. -/
inductive OpLookup where
  | miss
  | replay (frame : String)
  | mismatch
deriving DecidableEq

/-- An entry is past its lifetime. -/
def OpEntry.stale (e : OpEntry) (nowMs : Int) : Bool := nowMs - e.storedAtMs ≥ limitIdempotencyCacheMs

/-- `lookupOperation`: the first live entry under the id decides. -/
def lookupOperation (cache : OpCache) (operationId requestFingerprint : String) (nowMs : Int) : OpLookup :=
  match cache with
  | [] => .miss
  | e :: rest =>
    if e.operationId ≠ operationId ∨ e.stale nowMs then
      lookupOperation rest operationId requestFingerprint nowMs
    else if e.requestFingerprint ≠ requestFingerprint then .mismatch
    else .replay e.frame

/-- The number of entries the cache is bounded to. -/
def opCacheBound : Nat := 512

/-- `recordOperation`: expired entries go, then the oldest when there is no room. -/
def recordOperation (cache : OpCache) (operationId requestFingerprint frame : String) (nowMs : Int) :
    OpCache :=
  let kept := cache.filter fun e => !e.stale nowMs
  let kept := if kept.length ≥ opCacheBound then kept.tail else kept
  kept ++ [⟨operationId, requestFingerprint, frame, nowMs⟩]

/-! ### The request fingerprint -/

/-- `kNonIdentityKeys`. -/
def nonIdentityKeys : List String := ["scope", "expectedFingerprint", "expectedPatchEpoch"]

variable (J : Jansson)

/-- `canonicalDumps`. -/
def canonicalDumps (value : Json) : String := (J.dumpsSorted value).getD ""

/-- What of a command is request identity: the method, and the payload without the concurrency guards. -/
def requestIdentity (cmd : BridgeCommand) : Json :=
  let payload := match cmd.payload with
    | .object members => .object (members.filter fun m => m.1 ∉ nonIdentityKeys)
    | _ => .null
  .object [("method", .string cmd.method), ("payload", payload)]

/-- `requestFingerprint`. -/
def requestFingerprint (cmd : BridgeCommand) : String := sha256Hex (canonicalDumps J (requestIdentity cmd))

/-! ### Handler results -/

/-- `PatchFileOutcome`. -/
structure PatchFileOutcome where
  payload : Option Json := none
  errorCode : Option ErrorCode := none
  errorMessage : String := ""

/-- `HandlerResult`. -/
structure HandlerResult where
  frame : String
  cacheable : Bool := false

/-- What a handler throws, by what the barrier catches. -/
inductive HandlerThrow where
  | standard (what : String)
  | nonStandard

/-- What the handlers come back with when they run now: a frame, an outcome of a transaction or of a
patch file operation, by the method that calls them. -/
structure RackAnswers where
  frame : String → Except HandlerThrow String
  txn : String → Except HandlerThrow TxnOutcome
  patchFile : String → Except HandlerThrow PatchFileOutcome

/-- `json_object_set`: the members with one value set. -/
def setMember (key : String) (value : Json) (members : List (String × Json)) : List (String × Json) :=
  if members.any (·.1 == key) then members.map fun m => if m.1 = key then (key, value) else m
  else members ++ [(key, value)]

/-- The members of the error object with the extras `attachErrorExtras` copies. -/
def withExtras (extras : Option Json) (members : List (String × Json)) : List (String × Json) :=
  ["rollback", "details"].foldl (fun members key =>
    match Json.get extras key with
    | some v => setMember key v members
    | none => members) members

/-- The frame with the extras on its error object, none where nothing changes. -/
def errorWithExtras (extras : Option Json) (root : List (String × Json)) : Option (List (String × Json)) :=
  match root.lookup "error" with
  | some (.object members) =>
    if jhasKey extras "rollback" ∨ jhasKey extras "details" then
      some (setMember "error" (.object (withExtras extras members)) root)
    else none
  | _ => none

/-- `attachErrorExtras`: the frame untouched on any failure. -/
def attachErrorExtras (frame : String) (extras : Option Json) : String :=
  if ¬ Json.isObject extras then frame
  else
    match J.loads frame with
    | some (.object root) =>
      match errorWithExtras extras root with
      | some root => (J.dumps (.object root)).getD frame
      | none => frame
    | _ => frame

/-- `txnOutcomeToFrame`. -/
def txnOutcomeToFrame (cmd : BridgeCommand) (outcome : TxnOutcome) : String :=
  match outcome.errorCode with
  | some code =>
    let frame := buildResError J cmd.requestId code outcome.errorMessage outcome.retrySafe
      outcome.mutationMayHaveOccurred
    if outcome.payload.isSome then attachErrorExtras J frame outcome.payload else frame
  | none => buildResOk J cmd.requestId outcome.payload

/-- `patchFileOutcomeToFrame`. -/
def patchFileOutcomeToFrame (cmd : BridgeCommand) (outcome : PatchFileOutcome) : String :=
  match outcome.errorCode with
  | some code =>
    buildResError J cmd.requestId code outcome.errorMessage false (code == .internal)
  | none => buildResOk J cmd.requestId outcome.payload

/-- The methods whose handlers answer with a frame of their own. -/
def frameMethods : List String :=
  ["status.get", "metrics.get", "patch.snapshot", "module.inspect", "catalog.listModels",
   "catalog.inspectModel", "patch.fingerprint", "probe.list", "probe.read", "chat.poll", "chat.post"]

/-- The methods of the patch file handlers. -/
def patchFileMethods : List String :=
  ["patchfile.save", "patchfile.saveCopy", "patchfile.load", "patchfile.clear"]

/-- The dispatch of `executeCommand`. Only a mutation, or what may have been one, is cacheable. -/
def dispatch (answers : RackAnswers) (cmd : BridgeCommand) : Except HandlerThrow HandlerResult :=
  if cmd.method ∈ frameMethods then (answers.frame cmd.method).map fun frame => { frame }
  else if cmd.method = "txn.preview" then
    (answers.txn cmd.method).map fun outcome => { frame := txnOutcomeToFrame J cmd outcome }
  else if cmd.method = "txn.commit" then
    (answers.txn cmd.method).map fun outcome =>
      { frame := txnOutcomeToFrame J cmd outcome
        cacheable := outcome.errorCode.isNone || outcome.mutationMayHaveOccurred }
  else if cmd.method = "txn.undoLast" then
    (answers.txn cmd.method).map fun outcome =>
      { frame := txnOutcomeToFrame J cmd outcome, cacheable := outcome.errorCode.isNone }
  else if cmd.method ∈ patchFileMethods then
    (answers.patchFile cmd.method).map fun outcome =>
      { frame := patchFileOutcomeToFrame J cmd outcome, cacheable := outcome.errorCode.isNone }
  else
    .ok { frame := buildResError J cmd.requestId .unsupportedOperation
            ("method not implemented in this bridge phase: " ++ cmd.method) false false }

/-! ### Executing -/

/-- A recorded frame as the answer to another request: under its id, its payload flagged. -/
def asReplay (requestId : String) (root : Json) : Json :=
  match root with
  | .object members =>
    let members := setMember "id" (.string requestId) members
    match members.lookup "payload" with
    | some (.object payload) =>
      .object (setMember "payload" (.object (setMember "replayed" (.bool true) payload)) members)
    | _ => .object members
  | root => root

/-- The answer of a replay; the recorded frame itself where it cannot be rewritten. -/
def replayFrame (requestId cached : String) : String :=
  match J.loads cached with
  | some root => (J.dumps (asReplay requestId root)).getD cached
  | none => cached

/-- What `executeCommand` did with a command. -/
inductive Execution where
  /-- The id was used for a different request. -/
  | mismatched (frame : String)
  /-- The recorded frame was replayed. -/
  | replayed (frame : String)
  /-- The handler ran; its result is recorded under the id when `recorded`. -/
  | ran (result : HandlerResult) (recorded : Bool)
  /-- The handler threw. -/
  | threw (e : HandlerThrow)

/-- The clock readings of an execution, of the lookup and of the record. -/
structure ExecutionReadings where
  lookupMs : Int
  recordMs : Int

/-- `executeCommand` past the lookup. -/
def runHandler (answers : RackAnswers) (recordMs : Int) (cmd : BridgeCommand) (fingerprint : String)
    (cache : OpCache) : Execution × OpCache :=
  match dispatch J answers cmd with
  | .error e => (.threw e, cache)
  | .ok result =>
    if cmd.operationId ≠ "" ∧ result.cacheable then
      (.ran result true, recordOperation cache cmd.operationId fingerprint result.frame recordMs)
    else (.ran result false, cache)

/-- `executeCommand`. -/
def executeCommand (answers : RackAnswers) (t : ExecutionReadings) (cmd : BridgeCommand)
    (cache : OpCache) : Execution × OpCache :=
  if cmd.operationId = "" then runHandler J answers t.recordMs cmd "" cache
  else
    let fingerprint := requestFingerprint J cmd
    match lookupOperation cache cmd.operationId fingerprint t.lookupMs with
    | .mismatch =>
      (.mismatched (buildResError J cmd.requestId .badRequest
        ("operationId was already used for a different request; " ++
          "retry the original request or use a fresh operationId") false false), cache)
    | .replay cached => (.replayed (replayFrame J cmd.requestId cached), cache)
    | .miss => runHandler J answers t.recordMs cmd fingerprint cache

/-- The frame the pump sends: a throw is answered with INTERNAL by the barrier around the call. -/
def Execution.answer (cmd : BridgeCommand) : Execution → String
  | .mismatched frame => frame
  | .replayed frame => frame
  | .ran result _ => result.frame
  | .threw (.standard what) =>
    buildResError J cmd.requestId .internal ("handler threw: " ++ what) false cmd.mutating
  | .threw .nonStandard =>
    buildResError J cmd.requestId .internal "handler threw a non-standard exception" false cmd.mutating

end RackMcp
