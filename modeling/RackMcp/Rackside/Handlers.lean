import RackMcp.Rackside.PatchFiles

/-!
# The handlers on the running Rack

`rackside/Handlers.cpp` over a `Host`: what the handlers of a method come back with, the host they leave, and
`executeCommand` around them. The handlers that only read leave the host as it is; of these the fingerprint is
modelled and the frames of the others are given by `RackReadings`.
-/

namespace RackMcp

open Gen

variable (rack : Rack) (J : Jansson)

/-! ### The handlers -/

/-- `epochGuardOk`: the refusal of a guard that is present and not met. -/
def epochGuard (cmd : BridgeCommand) (patchEpoch : Int) : Option String :=
  match Json.get cmd.payload "expectedPatchEpoch" with
  | none => none
  | some (.integer expected) =>
    if expected = patchEpoch then none
    else
      some (buildResError J cmd.requestId .stalePatchEpoch "patch epoch changed; re-read the snapshot" true false)
  | some _ =>
    some (buildResError J cmd.requestId .badRequest "expectedPatchEpoch must be an integer" false false)

/-- `handlePatchFingerprint`. -/
def handlePatchFingerprint (r : RackReadings) (cmd : BridgeCommand) (h : Host) : Except HandlerThrow String :=
  match epochGuard J cmd h.rack.patchEpoch with
  | some refusal => .ok refusal
  | none =>
    match rack.computePatchFingerprint h.rack.patch with
    | none => .error r.fingerprintFailure.escaping
    | some fingerprint =>
      .ok (buildResOk J cmd.requestId (some (.object [("fingerprint", .string fingerprint),
        ("patchEpoch", .integer h.rack.patchEpoch)])))

namespace Host

/-- `txnCommit` on the host; pushing an action drops what could be redone. -/
def commit (r : RackReadings) (request : Json) (h : Host) : TxnOutcome × Host :=
  let committed := txnCommit rack request r.durationMs h.rack
  let pushed := committed.2.history.length > h.rack.history.length
  (committed.1, { h with rack := committed.2, undone := if pushed then 0 else h.undone })

/-- `txnUndoLast` on the host. -/
def undoLast (request : Json) (h : Host) : Except HandlerThrow TxnOutcome × Host :=
  let undone := txnUndoLast rack request h.rack
  let popped := undone.2.history.length < h.rack.history.length
  (undone.1.mapError .standard, { h with rack := undone.2, undone := if popped then h.undone + 1 else h.undone })

/-- The handlers of the transaction methods. -/
def txn (r : RackReadings) (method : String) (request : Json) (h : Host) : Except HandlerThrow TxnOutcome × Host :=
  if method = "txn.preview" then (.ok (txnPreview rack request h.rack), h)
  else if method = "txn.commit" then
    let committed := h.commit rack r request
    (.ok committed.1, committed.2)
  else h.undoLast rack request

/-- The handlers of the patch file methods. -/
def patchFile (r : RackReadings) (method : String) (request : Json) (h : Host) :
    Except HandlerThrow PatchFileOutcome × Host :=
  if method = "patchfile.save" then patchSave rack r request h
  else if method = "patchfile.saveCopy" then patchSaveCopy rack r request h
  else if method = "patchfile.load" then patchLoad rack r request h
  else patchClear rack r h

/-- What the handlers come back with when the command runs on this host. -/
def answers (r : RackReadings) (cmd : BridgeCommand) (h : Host) : RackAnswers where
  frame method := if method = "patch.fingerprint" then handlePatchFingerprint rack J r cmd h else r.frame method
  txn method := (h.txn rack r method cmd.payload).1
  patchFile method := (h.patchFile rack r method cmd.payload).1

/-- The methods of the transaction handlers. -/
def txnMethods : List String := ["txn.preview", "txn.commit", "txn.undoLast"]

/-- The host the handler of the command leaves. -/
def after (r : RackReadings) (cmd : BridgeCommand) (h : Host) : Host :=
  if cmd.method ∈ txnMethods then (h.txn rack r cmd.method cmd.payload).2
  else if cmd.method ∈ patchFileMethods then (h.patchFile rack r cmd.method cmd.payload).2
  else h

end Host

/-! ### Executing on the host -/

/-- The methods that mutate. -/
def mutatingMethods : List String := (methodSpecs.filter (·.mutating)).map (·.method)

/-- The handler ran, to its end or not. -/
def Execution.handlerRan : Execution → Bool
  | .ran _ _ | .threw _ => true
  | .mismatched _ | .replayed _ => false

/-- `executeCommand` on the host. -/
def Host.execute (t : ExecutionReadings) (r : RackReadings) (cmd : BridgeCommand) (h : Host) : Execution × Host :=
  let executed := executeCommand J (h.answers rack J r cmd) t cmd h.opCache
  let left := if executed.1.handlerRan then h.after rack r cmd else h
  (executed.1, { left with opCache := executed.2 })

/-- The frame the pump sends for an execution. -/
def sentFrame (maxFrameBytes : Nat) (cmd : BridgeCommand) (e : Execution) : String :=
  capResponseFrame J (e.answer J cmd) cmd.requestId cmd.method maxFrameBytes cmd.mutating

/-! ### What happens to the host -/

/-- What happens to the running Rack: the pump executes a command, the user edits the patch, the user opens, saves
or starts a file of their own, or the pump polls. -/
inductive HostEvent where
  | execute (t : ExecutionReadings) (r : RackReadings) (cmd : BridgeCommand)
  | edit (patch : Patch) (history : List HistoryEntry) (undone : Nat)
  | userFile (patch : Patch) (history : List HistoryEntry) (undone : Nat) (path : String)
  | poll

/-- What a command does outside the host: it writes the patch to a file. -/
structure SaveWrite where
  /-- The request named no path. -/
  pathless : Bool
  target : String
deriving DecidableEq

/-- The file that the execution of a save hands to the patch manager. -/
def Host.writes (cmd : BridgeCommand) (e : Execution) (h : Host) : List SaveWrite :=
  if e.handlerRan ∧ cmd.method = "patchfile.save" ∧ saveTarget cmd.payload h ≠ "" then
    [⟨jstr cmd.payload "path" == "", saveTarget cmd.payload h⟩]
  else []

/-- The host after an event, and the files saves write. -/
def Host.step (h : Host) : HostEvent → Host × List SaveWrite
  | .execute t r cmd =>
    let executed := h.execute rack J t r cmd
    (executed.2, h.writes cmd executed.1)
  | .edit patch history undone => ({ h with rack := { h.rack with patch, history }, undone }, [])
  | .userFile patch history undone path => ({ h with rack := { h.rack with patch, history }, undone, path }, [])
  | .poll => (h.pollPatchReplacement, [])

end RackMcp
