import RackMcp.Server.PatchFiles

/-!
# The tools

The handlers of `apps/mcp-server/src/tools.ts` and `telemetry.ts`, and the wrapper of `server.ts` around them.
The tools that only read are one definition: they make their requests in turn, and what they make of the
answers is left out.
-/

namespace RackMcp.Server

open Gen Cooperative

variable (N : Node)

/-! ### Transactions -/

/-- The confirmation of a preview. -/
def confirmationInfo (p : Previewed) : Json :=
  .object [("confirmationToken", .string p.confirmationToken),
    ("confirmationExpiresAt", .string (N.toISOString p.expiresAt)),
    ("confirmationRequired", .bool p.confirmationRequired)]

/-- The result of a preview. -/
def previewResult (p : Previewed) : List (String × Json) :=
  [("preview", p.answer), ("confirmation", confirmationInfo N p)]

/-- `previewPatchTransaction`. -/
def previewPatchTransaction (label : String) (operations : List Json) (expectedFingerprint : Option String)
    (expectedPatchEpoch : Option Int) : Async Json := do
  let i ← (ensureConnected N).await
  let p ← (preview N label operations i expectedFingerprint expectedPatchEpoch).await
  pure (.object (previewResult N p))

/-- `commitPatchTransaction`. -/
def commitPatchTransaction (args : CommitArgs) : Async Json := do
  let i ← (ensureConnected N).await
  (commit N args i).await

/-- The commit of a plan that was just previewed. -/
def commitPreviewed (p : Previewed) (operationId : String) (confirmationToken : Option String) : CommitArgs :=
  ⟨operationId, jstr p.answer "planHash", jstr p.answer "baseFingerprint", confirmationToken⟩

/-- `previewAndMaybeCommit`. -/
def previewAndMaybeCommit (i : SelectedInstance) (label : String) (operations : List Json) (autoCommit : Bool)
    (operationId : String) (expectedPatchEpoch : Option Int) : Async (List (String × Json)) := do
  let p ← (preview N label operations i none expectedPatchEpoch).await
  -- A risky plan stops at the preview, with a token.
  if ¬ autoCommit ∨ p.confirmationRequired then
    pure (("phase", .string "previewed") :: previewResult N p)
  else
    let committed ← (commit N (commitPreviewed p operationId none) i).await
    pure (("phase", .string "committed") :: previewResult N p ++ [("commit", committed)])

/-- `buildPatch`. -/
def buildPatch (label : String) (operations : List Json) (autoCommit : Bool) (operationId : String)
    (expectedPatchEpoch : Option Int) : Async Json := do
  let i ← (ensureConnected N).await
  let members ← (previewAndMaybeCommit N i label operations autoCommit operationId expectedPatchEpoch).await
  pure (.object members)

/-! ### Recipes -/

/-- `MAX_CATALOG_PAGES` and `MODELS_PAGE`. -/
def maxCatalogPages : Nat := 4
def modelsPage : Int := 300

/-- The models of a catalog page. -/
def pageModels (res : Json) : List (String × String) :=
  match Json.get res "models" with
  | some (.array items) => items.map fun m : Json => (jstr m "pluginSlug", jstr m "modelSlug")
  | _ => []

/-- `scanInstalledModels`, with so many pages left: the models, and whether they are all. -/
def scanInstalledModels (cursor : Option String) : Nat → Async (List (String × String) × Bool)
  | 0 => pure ([], false)
  | pages + 1 => do
    let res ← (request N "catalog.listModels" (.object ([("limit", .integer modelsPage)] ++
      member "cursor" (cursor.map .string)))).await
    match jstr res "nextCursor" with
    | "" => pure (pageModels res, true)
    | next => do
      let rest ← scanInstalledModels (some next) pages
      pure (pageModels res ++ rest.1, rest.2)

/-- The roles of a recipe without their preferred model. -/
def unresolvedRoles (recipe : Recipe) (installed : List (String × String)) : List (String × String × String) :=
  recipe.roles.filter fun role => !installed.contains role.2

/-- An operation with its role replaced by the model of the role. -/
def substituteRole (recipe : Recipe) (op : Json) : Json :=
  match op with
  | .object members =>
    if jstr op "op" = "add_module" ∧ jstr op "pluginSlug" = "$role" then
      match recipe.roles.lookup (jstr op "modelSlug") with
      | some (pluginSlug, modelSlug) =>
        .object (members.map fun m =>
          if m.1 = "pluginSlug" then (m.1, .string pluginSlug)
          else if m.1 = "modelSlug" then (m.1, .string modelSlug) else m)
      | none => op
    else op
  | op => op

/-- `resolution`. -/
def resolutionJson (recipeId : String) (recipe : Recipe) (installed : List (String × String)) : Json :=
  let unresolved := unresolvedRoles recipe installed
  .object [("recipeId", .string recipeId), ("resolved", .bool (unresolved = [])),
    ("unresolvedRoles", .array (unresolved.map fun role => .object [("role", .string role.1)]))]

/-- `buildRecipe`. -/
def buildRecipe (recipeId : String) (label : Option String) (autoCommit : Bool) (operationId : String)
    (expectedPatchEpoch : Option Int) : Async Json :=
  match N.getRecipe recipeId with
  | none =>
    throwTool .badRequest ("no recipe with id \"" ++ recipeId ++ "\"; see rack://recipes for the available ids") true
  | some recipe => do
    let i ← (ensureConnected N).await
    let (installed, complete) ← (scanInstalledModels N none maxCatalogPages).await
    let about : List (String × Json) := [("recipeId", .string recipeId),
      ("resolution", resolutionJson recipeId recipe installed), ("catalogComplete", .bool complete)]
    if unresolvedRoles recipe installed ≠ [] then
      pure (.object (("phase", .string "unresolved") :: about))
    else
      let members ← (previewAndMaybeCommit N i (label.getD recipe.name)
        (recipe.operations.map (substituteRole recipe)) autoCommit operationId expectedPatchEpoch).await
      pure (.object (members ++ about))

/-! ### Undo -/

/-- The payload of `txn.undoLast`. -/
def undoRequest (i : SelectedInstance) (expectedOperationId operationId : String) : Json :=
  .object [("scope", scopeFor i), ("expectedOperationId", .string expectedOperationId),
    ("operationId", .string operationId)]

/-- `undoLastMcpTransaction`. -/
def undoLastMcpTransaction (operationId : String) : Async Json := do
  let i ← (ensureConnected N).await
  (ensureLease N).await
  let undoOperationId ← draw N.randomUUID
  let res ← (request N "txn.undoLast" (undoRequest i operationId undoOperationId) (some undoOperationId)).await
  pure (.object ([("undone", .bool true), ("undoneOperationId", .string operationId)] ++
    copied res ["newFingerprint", "patchEpoch"]))

/-! ### Probes -/

/-- `snapshot`. -/
def snapshot : Async Json := (request N "patch.snapshot" (.object [("includeOpaqueState", .bool false)])).await

/-- The items under a key. -/
def items (o : Option Json) (key : String) : List Json :=
  match Json.get o key with
  | some (.array items) => items
  | _ => []

/-- The input of a probe is free. -/
def freeInput (probe : Json) (inputId : Nat) : Bool :=
  ((items probe "inputs").find? fun p => holdsInt p "portId" inputId).any fun p => !jbool p "connected" false

/-- `chooseSlot`. -/
def chooseSlot (snap : Json) (explicit : Option (String × Int)) : AttachMeta :=
  match explicit with
  | some (probeModuleId, probeInputId) => ⟨probeModuleId, none, probeInputId, false⟩
  | none =>
    let probes : List Json := (items snap "modules").filter fun m : Json => jbool m "isProbe" false
    let slots := probes.flatMap fun probe =>
      ((List.range 8).filter (freeInput probe)).map fun inputId => (jstr probe "moduleId", inputId)
    match slots with
    | (probeModuleId, inputId) :: _ => ⟨probeModuleId, none, inputId, false⟩
    | [] => ⟨none, "rackmcp_probe", 0, true⟩

/-- The port of a module. -/
def portRef (module : Json) (portType : String) (portId : Int) : Json :=
  .object [("module", module), ("portType", .string portType), ("portId", .integer portId)]

/-- The operations that attach a probe. -/
def attachOperations (slot : AttachMeta) (sourceModuleId : String) (sourcePortId : Int) : List Json :=
  let probe : Json := if slot.addsProbeModule then .object [("alias", .string (slot.probeAlias.getD ""))]
    else .object [("moduleId", .string (slot.probeModuleId.getD ""))]
  (if slot.addsProbeModule then
    [.object [("op", .string "add_module"), ("pluginSlug", .string "RackMCP"), ("modelSlug", .string "Probe"),
      ("alias", .string (slot.probeAlias.getD "")), ("placement", .string "auto")]]
    else []) ++
  [.object [("op", .string "connect"),
    ("output", portRef (.object [("moduleId", .string sourceModuleId)]) "output" sourcePortId),
    ("input", portRef probe "input" slot.probeInputId),
    ("inputPolicy", .string "replace_all"), ("color", .string "#2a7fc8")]]

/-- `previewAttachProbe`. -/
def previewAttachProbe (sourceModuleId : String) (sourcePortId : Int) (explicit : Option (String × Int))
    (expectedPatchEpoch : Option Int) : Async Json := do
  let i ← (ensureConnected N).await
  let snap ← (snapshot N).await
  let slot := chooseSlot snap explicit
  let probesActive := (items snap "modules").countP fun m => jbool m "isProbe" false
  if slot.addsProbeModule ∧ probesActive ≥ maxActiveProbes then
    throwTool .telemetryUnavailable ("probe limit (" ++ toString maxActiveProbes ++ ") reached")
  else
    let p ← (preview N "Attach probe" (attachOperations slot sourceModuleId sourcePortId) i none
      expectedPatchEpoch).await
    Task.modify fun s => { s with
      attachMeta := Function.update s.attachMeta (jstr p.answer "planHash") (some slot) }
    pure (.object (previewResult N p ++ [("slot", .object [
      ("probeModuleId", nullable slot.probeModuleId), ("probeInputId", .integer slot.probeInputId),
      ("addsProbeModule", .bool slot.addsProbeModule)])]))

/-- The module of an attached probe, by the metadata and the commit. -/
def attachedModule (slot : Option AttachMeta) (committed : Json) : Except Thrown (Option String) :=
  match slot with
  | none => .ok none
  | some slot =>
    match slot.probeModuleId, slot.probeAlias with
    | some id, _ => .ok (some id)
    | none, none => .ok none
    | none, some name =>
      match Json.get committed "aliasToModuleId" with
      | none | some .null => .error (.error "Cannot read properties of undefined")
      | some ids =>
        match Json.get ids name with
        | some (.string id) => .ok (some id)
        | _ => .ok none

/-- The cable into an input. -/
def feeds (probeModuleId : String) (probeInputId : Int) (cable : Json) : Bool :=
  holdsString cable "inputModuleId" probeModuleId && holdsInt cable "inputId" probeInputId

/-- `commitAttachProbe`. -/
def commitAttachProbe (args : CommitArgs) : Async Json := do
  let i ← (ensureConnected N).await
  let s ← Task.read
  let slot := s.attachMeta args.planHash
  let committed ← (commit N args i).await
  let probeModuleId ← Task.ofExcept (attachedModule slot committed)
  let probeInputId := (slot.map (·.probeInputId)).getD 0
  Task.modify fun s => { s with attachMeta := Function.update s.attachMeta args.planHash none }
  let cableId ← match probeModuleId with
    | none => pure ""
    | some moduleId => do
      let snap ← (snapshot N).await
      pure (((items snap "cables").find? (feeds moduleId probeInputId)).elim "" fun cable => jstr cable "cableId")
  pure (.object [("commit", committed), ("probeModuleId", .string (probeModuleId.getD "")),
    ("probeInputId", .integer probeInputId), ("cableId", .string cableId)])

/-- `detachProbe`. -/
def detachProbe (probeModuleId : String) (probeInputId : Int) (operationId : String) (expectedPatchEpoch : Int) :
    Async Json := do
  let i ← (ensureConnected N).await
  let before ← (snapshot N).await
  let removed := (items before "cables").filter (feeds probeModuleId probeInputId)
  let operations : List Json := [.object [("op", .string "disconnect_port"),
    ("port", portRef (.object [("moduleId", .string probeModuleId)]) "input" probeInputId),
    ("policy", .string "all")]]
  let p ← (preview N "Detach probe" operations i none (some expectedPatchEpoch)).await
  let committed ← (commit N (commitPreviewed p operationId (some p.confirmationToken)) i).await
  pure (.object ([("detached", .bool true),
    ("removedCableIds", .array (removed.map fun cable => (Json.get cable "cableId").getD .null))] ++
    copied committed ["newFingerprint", "replayed"]))

/-! ### Selecting and reading -/

/-- `selectRackInstance`. -/
def selectRackInstance (instanceId : String) : Async Json := do
  let _ ← (select N instanceId).await
  let status ← (request N "status.get" (.object [])).await
  pure (.object [("status", status), ("connected", .bool true)])

/-- The methods that read: all that do not mutate, but for the preview of a transaction. -/
def readingMethods : List String :=
  ((methodSpecs.filter fun m => !m.mutating).map (·.method)).filter (· ≠ "txn.preview")

/-- A tool that only reads. -/
def readAll : List (String × Json) → Async Json
  | [] => pure (.object [])
  | (method, payload) :: rest =>
    if method ∈ readingMethods then do
      let res ← (request N method payload).await
      let _ ← readAll rest
      pure res
    else readAll rest

/-- `acquireWriterLease`. -/
def acquireWriterLease : Async Json := do
  let res ← (acquireLease N).await
  pure (.object (copied res ["leaseId", "expiresInMs"]))

/-- `releaseWriterLease`. -/
def releaseWriterLease : Async Json := do
  let released ← (releaseLease N).await
  pure (.object [("released", .bool released)])

/-! ### Calling a tool -/

/-- `HANDLERS`. -/
def handler : ToolCall → Async Json
  | .reads requests => readAll N requests
  | .selectRackInstance instanceId => selectRackInstance N instanceId
  | .acquireWriterLease => acquireWriterLease N
  | .releaseWriterLease => releaseWriterLease N
  | .previewPatchTransaction label operations fingerprint patchEpoch =>
    previewPatchTransaction N label operations fingerprint patchEpoch
  | .commitPatchTransaction args => commitPatchTransaction N args
  | .undoLastMcpTransaction operationId => undoLastMcpTransaction N operationId
  | .buildPatch label operations autoCommit operationId patchEpoch =>
    buildPatch N label operations autoCommit operationId patchEpoch
  | .buildRecipe recipeId label autoCommit operationId patchEpoch =>
    buildRecipe N recipeId label autoCommit operationId patchEpoch
  | .createCheckpoint label operationId => createCheckpoint N label operationId
  | .savePatch path operationId => savePatch N path operationId
  | .previewLoadPatch path => previewLoadPatch N path
  | .commitLoadPatch token operationId => commitLoadPatch N token operationId
  | .previewClearPatch => previewClearPatch N
  | .commitClearPatch token operationId => commitClearPatch N token operationId
  | .restoreCheckpoint path token operationId => restoreCheckpoint N path token operationId
  | .previewAttachProbe moduleId portId probe patchEpoch => previewAttachProbe N moduleId portId probe patchEpoch
  | .commitAttachProbe args => commitAttachProbe N args
  | .detachProbe moduleId inputId operationId patchEpoch => detachProbe N moduleId inputId operationId patchEpoch

/-- The wrapper around a handler: the result limit, the error payload and the audit entry. -/
def callTool (tool : ToolCall) : Async (Except ErrorPayload Json) := do
  let result ← (handler N tool).await.attempt
  let outcome : Except ErrorPayload Json := match result with
    | .error e => .error (toErrorPayload e)
    | .ok result =>
      if N.byteLength result > mcpResultBytes then
        .error (toErrorPayload (.error ("result exceeds " ++ toString mcpResultBytes ++ " bytes")))
      else .ok result
  Task.record fun caller s => { s with audit := s.audit ++ [(caller, match outcome with
    | .error payload => some payload
    | .ok _ => none)] }
  pure outcome

end RackMcp.Server
