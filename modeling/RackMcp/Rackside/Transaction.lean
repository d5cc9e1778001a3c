import RackMcp.Core.Crypto
import RackMcp.Core.Validate
import RackMcp.Rackside.Applier

/-!
# Two-phase patch transactions

`txnPreview`, `txnCommit` and `txnUndoLast` of `rackside/Transaction.cpp` and `runInverses` of
`core/rollback.hpp`: the gates, the application of the plan, and the rollback when an operation throws. The
name of a history entry is its bytes, as the cut of the operation id may fall inside a character. No
validation branch records a warning, so the list of warnings is empty.
-/

namespace RackMcp

open Gen Outcomes

/-! ### Rollback -/

/-- What running a failed transaction's inverses did. -/
structure InverseRun where
  executed : Nat
  threw : Bool
  detail : String
deriving DecidableEq

/-- `runInverses`: newest first, stopping at the first inverse that throws. -/
def runInverses {σ α : Type} (undo : α → σ → Outcome String σ) (actions : List α) (s : σ) :
    InverseRun × σ :=
  match runFrom undo 0 actions.reverse s with
  | .done s' => (⟨actions.length, false, ""⟩, s')
  | .thrown (executed, detail) s' => (⟨executed, true, detail⟩, s')

/-! ### The outcome of a phase -/

/-- `TxnOutcome`. -/
structure TxnOutcome where
  payload : Option Json := none
  errorCode : Option ErrorCode := none
  errorMessage : String := ""
  retrySafe : Bool := false
  mutationMayHaveOccurred : Bool := false

/-- A refusal before any mutation. -/
def TxnOutcome.refused (code : ErrorCode) (message : String) : TxnOutcome :=
  { errorCode := some code, errorMessage := message }

/-- An entry of the history: its name and its actions. -/
abbrev HistoryEntry := List UInt8 × List Action

/-- The running Rack as a commit sees it. -/
structure RackState where
  patch : Patch
  history : List HistoryEntry := []
  lastMcpTransaction : Option (String × String) := none
  patchEpoch : Int := 0
  rollbacks : Nat := 0

/-! ### Preview -/

/-- `idArray`: synthetic ids are left out. -/
def idArray (ids : List Int) : Json :=
  .array ((ids.filter (0 ≤ ·)).map fun id => .string (toString id))

/-- The ports of a diff. -/
def portArray (ports : List (Int × Int)) : Json :=
  .array (ports.map fun p => .object [("moduleId", .string (toString p.1)), ("portId", .integer p.2)])

/-- The diff of a preview. -/
def previewDiff (st : PreviewState) : Json :=
  .object [
    ("addedModules", .array (st.addedModules.map fun a =>
      .object [("alias", .string a.1), ("pluginSlug", .string a.2.1), ("modelSlug", .string a.2.2)])),
    ("removedModuleIds", idArray st.removedModules),
    ("movedModuleIds", idArray st.movedModules),
    ("modifiedModuleIds", idArray st.modifiedModules),
    ("addedCableCount", .integer st.addedCables),
    ("removedCableIds", idArray st.removedCables),
    ("replacedInputPorts", portArray st.replacedInputs),
    ("stackedInputPorts", portArray st.stackedInputs)]

/-- The risk object of a preview. -/
def riskObject (risk : PlanRisk) : Json :=
  .object [
    ("level", .string risk.level),
    ("flags", .array (risk.entries.map fun e => .string (riskFlagToString e.1))),
    ("reasons", .array (risk.entries.map fun e => .string e.2)),
    ("confirmationRequired", .bool risk.confirmationRequired)]

/-- The normalized plan. -/
def normalizedPlan (request : Json) (ops : List Json) : Json :=
  .object [("label", .string (jstr request "label" "transaction")), ("operations", .array ops)]

/-- The payload of an accepted preview. -/
def previewPayload (rack : Rack) (request : Json) (ops : List Json) (baseFingerprint : String)
    (patchEpoch : Int) (st : PreviewState) : Json :=
  .object [
    ("plan", normalizedPlan request ops),
    ("planHash", .string (rack.canonicalFingerprint (normalizedPlan request ops))),
    ("baseFingerprint", .string baseFingerprint),
    ("patchEpoch", .integer patchEpoch),
    ("diff", previewDiff st),
    ("risk", riskObject (computeRisk (planEffects ops st) limitTxnMaxOperations)),
    ("undoable", .bool true),
    ("warnings", .array [])]

/-- `txnPreview`. -/
def txnPreview (rack : Rack) (request : Json) (rs : RackState) : TxnOutcome :=
  match Json.get request "operations" with
  | some (.array (op :: rest)) =>
    let ops := op :: rest
    match validateAll (snapshotWorld rack rs.patch ops) ops with
    | .thrown (i, err) _ => .refused err.code ("operation " ++ toString i ++ ": " ++ err.message)
    | .done st =>
      match rack.computePatchFingerprint rs.patch with
      | none => .refused .internal "the patch fingerprint could not be computed"
      | some baseFingerprint =>
        { payload := some (previewPayload rack request ops baseFingerprint rs.patchEpoch st) }
  | _ => .refused .badRequest "operations must be a non-empty array"

/-! ### The gates of a commit -/

/-- The operations of a plan. -/
def planOperations (plan : Option Json) : List Json :=
  match Json.get plan "operations" with
  | some (.array items) => items
  | _ => []

/-- The first operation that is not of its declared shape, with its index. -/
def badShape (ops : List Json) : Option (Nat × String) :=
  ops.zipIdx.findSome? fun entry => (checkOperationFields entry.1).map (entry.2, ·)

/-- The checks `txnCommit` makes before it applies anything. -/
def commitGate (rack : Rack) (request : Json) (rs : RackState) : Option TxnOutcome :=
  let plan := Json.get request "plan"
  let ops := planOperations plan
  if ¬ Json.isObject plan then some (.refused .badRequest "commit requires a plan")
  else if ops = [] then some (.refused .badRequest "plan has no operations")
  else
    match badShape ops with
    | some (i, shape) => some (.refused .badRequest ("operation " ++ toString i ++ ": " ++ shape))
    | none =>
      if rack.canonicalFingerprint (plan.getD .null) ≠ jstr request "planHash" then
        some (.refused .validationFailed "plan hash mismatch (plan altered since preview)")
      else
        match rack.computePatchFingerprint rs.patch with
        | none => some (.refused .internal "the patch fingerprint could not be computed")
        | some current =>
          if jstr request "expectedFingerprint" ≠ current then
            some (.refused .patchConflict "patch changed since preview; re-preview required")
          else none

theorem commitGate_refused {rack : Rack} {request : Json} {rs : RackState} {refusal : TxnOutcome}
    (h : commitGate rack request rs = some refusal) : ∃ code message, refusal = .refused code message := by
  unfold commitGate at h
  dsimp only at h
  split at h
  · exact ⟨_, _, (Option.some.inj h).symm⟩
  split at h
  · exact ⟨_, _, (Option.some.inj h).symm⟩
  split at h
  · exact ⟨_, _, (Option.some.inj h).symm⟩
  split at h
  · exact ⟨_, _, (Option.some.inj h).symm⟩
  split at h
  · exact ⟨_, _, (Option.some.inj h).symm⟩
  split at h
  · exact ⟨_, _, (Option.some.inj h).symm⟩
  · cases h

/-- Every refusal of the gate has a code. -/
theorem errorCode_of_commitGate {rack : Rack} {request : Json} {rs : RackState} {refusal : TxnOutcome}
    (h : commitGate rack request rs = some refusal) : refusal.errorCode ≠ none := by
  obtain ⟨code, message, rfl⟩ := commitGate_refused h
  exact Option.some_ne_none _

/-! ### Commit -/

/-- The report after a failed apply whose inverses were run. -/
def rollbackOutcome (failedIndex : Nat) (failMessage : String) (rollback : InverseRun)
    (restored : Bool) (detail : String) : TxnOutcome :=
  let detail := "operation " ++ toString failedIndex ++ " failed: " ++ failMessage ++
    (if restored then "" else "; rollback indeterminate: " ++
      (if detail = "" then "the patch no longer matches its pre-transaction fingerprint" else detail))
  { payload := some (.object [("rollback", .object [
      ("rolledBack", .string (if restored then "complete" else "indeterminate")),
      ("failedOperationIndex", .integer failedIndex),
      ("inversesExecuted", .integer rollback.executed),
      ("detail", .string detail)])])
    errorCode := some (if restored then .validationFailed else .rollbackFailed)
    errorMessage :=
      if restored then "transaction failed and was rolled back: " ++ failMessage
      else "transaction failed and complete rollback could not be proven: " ++ detail
    mutationMayHaveOccurred := !restored }

/-- The payload of a successful commit. -/
def commitPayload (operationId oldFingerprint newFingerprint : String) (patchEpoch : Int)
    (s : Applier) (durationMs : Double) : Json :=
  .object [
    ("operationId", .string operationId),
    ("oldFingerprint", .string oldFingerprint),
    ("newFingerprint", .string newFingerprint),
    ("patchEpoch", .integer patchEpoch),
    ("applied", .array (s.applied.map fun a =>
      .object [("op", .string a.op), ("summary", .string a.summary)])),
    ("aliasToModuleId", .object (s.aliasMap.entries.map fun entry =>
      (entry.1, .string (toString entry.2)))),
    ("warnings", .array []),
    ("undoEligible", .bool true),
    ("durationMs", .real durationMs),
    ("replayed", .bool false)]

/-- `txnCommit` after an apply that threw: run the inverses and report whether the fingerprint proves
the patch restored. -/
def rollBack (rack : Rack) (failedIndex : Nat) (failMessage : String) (s : Applier) (rs : RackState) :
    TxnOutcome × RackState :=
  let run := runInverses rack.undo s.actions s.patch
  let post := if run.1.threw then none else rack.computePatchFingerprint run.2
  let restored := post.isSome && post == rack.computePatchFingerprint rs.patch
  let detail :=
    if run.1.threw then run.1.detail
    else if post = none then "the post-rollback fingerprint could not be computed" else ""
  (rollbackOutcome failedIndex failMessage run.1 restored detail,
    { rs with patch := run.2, rollbacks := rs.rollbacks + 1 })

/-- `shortOp`: the first eight bytes of an operation id. -/
def shortOp (operationId : String) : List UInt8 := (stringBytes operationId).take 8

/-- `"[" + shortOp + "]"`. -/
def opMark (operationId : String) : List UInt8 := stringBytes "[" ++ shortOp operationId ++ stringBytes "]"

/-- `txnCommit` after an apply that finished: one history action and the report. -/
def finishCommit (rack : Rack) (request : Json) (durationMs : Double) (s : Applier) (rs : RackState) :
    TxnOutcome × RackState :=
  let operationId := jstr request "operationId"
  let label := jstr (Json.get request "plan") "label" "transaction"
  let name := stringBytes ("Rack MCP: " ++ label ++ " ") ++ opMark operationId
  let rs' := { rs with patch := s.patch, history := rs.history ++ [(name, s.actions)] }
  match rack.computePatchFingerprint s.patch with
  | none =>
    ({ errorCode := some .internal
       errorMessage := "transaction applied but the patch fingerprint could not be computed"
       mutationMayHaveOccurred := true }, rs')
  | some newFingerprint =>
    ({ payload := some (commitPayload operationId
         ((rack.computePatchFingerprint rs.patch).getD "") newFingerprint rs.patchEpoch s durationMs) },
      { rs' with lastMcpTransaction := some (operationId, newFingerprint) })

/-- `txnCommit`. -/
def txnCommit (rack : Rack) (request : Json) (durationMs : Double) (rs : RackState) :
    TxnOutcome × RackState :=
  match commitGate rack request rs with
  | some refusal => (refusal, rs)
  | none =>
    match Applier.apply rack (planOperations (Json.get request "plan")) rs.patch with
    | .done s => finishCommit rack request durationMs s rs
    | .thrown (failedIndex, failMessage) s => rollBack rack failedIndex failMessage s rs

/-! ### Undo -/

/-- `std::string::find` finds the text. -/
def containsText (text part : List UInt8) : Bool := decide (part <:+: text)

/-- The checks `txnUndoLast` makes before it undoes anything. -/
def undoGate (rack : Rack) (request : Json) (rs : RackState) : Option TxnOutcome :=
  let expectedOp := jstr request "expectedOperationId"
  match rs.lastMcpTransaction with
  | none => some (.refused .validationFailed "the identified MCP transaction is not the last recorded one")
  | some (lastOp, postFingerprint) =>
    if lastOp ≠ expectedOp then
      some (.refused .validationFailed "the identified MCP transaction is not the last recorded one")
    else
      match rs.history.getLast? with
      | none => some (.refused .validationFailed "nothing to undo")
      | some (undoName, _) =>
        if ¬ containsText undoName (opMark expectedOp) then
          some (.refused .validationFailed
            "a manual action occurred after the MCP transaction; refusing to undo")
        else
          match rack.computePatchFingerprint rs.patch with
          | none => some (.refused .internal "the patch fingerprint could not be computed")
          | some liveFingerprint =>
            if liveFingerprint ≠ postFingerprint then
              some (.refused .patchConflict "patch changed since the transaction; refusing to undo")
            else none

/-- `History::undo`: the actions of the newest entry, newest first. -/
def undoHistory (rack : Rack) (rs : RackState) : Outcome String RackState :=
  match rs.history.getLast? with
  | none => .done rs
  | some (_, actions) =>
    match runFrom rack.undo 0 actions.reverse rs.patch with
    | .done patch => .done { rs with patch, history := rs.history.dropLast }
    | .thrown (_, what) patch => .thrown what { rs with patch, history := rs.history.dropLast }

/-- The report of an undo that was applied. -/
def undoOutcome (rack : Rack) (rs : RackState) : TxnOutcome :=
  match rack.computePatchFingerprint rs.patch with
  | none =>
    { errorCode := some .internal
      errorMessage := "the undo was applied but the patch fingerprint could not be computed"
      mutationMayHaveOccurred := true }
  | some undoneFingerprint =>
    { payload := some (.object [("undone", .bool true), ("newFingerprint", .string undoneFingerprint),
        ("patchEpoch", .integer rs.patchEpoch)]) }

/-- `txnUndoLast`; what an action's undo throws is not caught. -/
def txnUndoLast (rack : Rack) (request : Json) (rs : RackState) : Except String TxnOutcome × RackState :=
  match undoGate rack request rs with
  | some refusal => (.ok refusal, rs)
  | none =>
    match undoHistory rack rs with
    | .thrown what rs => (.error what, rs)
    | .done rs =>
      let rs := { rs with lastMcpTransaction := none }
      (.ok (undoOutcome rack rs), rs)

end RackMcp
