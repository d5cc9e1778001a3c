import RackMcp.Server.Transactions

/-!
# The patch-file tools

`apps/mcp-server/src/patchfiles.ts`. `list_patch_files` makes no request and changes nothing, and the release of
a checkpoint reservation changes only the file system, so both are left out.
-/

namespace RackMcp.Server

open Gen Cooperative

variable (N : Node)

/-- A member of an object, where it is not undefined. -/
def member (key : String) (value : Option Json) : List (String × Json) := (value.map fun v => (key, v)).toList

/-- Members of a response, under the same keys. -/
def copied (res : Json) (keys : List String) : List (String × Json) :=
  keys.flatMap fun key => member key (Json.get res key)

/-- A string or null. -/
def nullable (s : Option String) : Json := (s.map Json.string).getD .null

/-- `resolvePatchPath`, with the file system as it is now. -/
def resolveNow (requested : String) (mustExist : Bool) : Async ResolvedPath := do
  let fs ← draw N.files
  Task.ofExcept (resolvePatchPath N.config N.cwd fs requested mustExist)

/-- `reserveCheckpointPath`, with the clock and the file system as they are now. -/
def reserveNow (label : Option String) : Async (Int × String) := do
  let stampMs ← dateNow N
  let fs ← draw N.files
  let path ← Task.ofExcept (reserveCheckpointPath N.config fs label (N.toISOString stampMs))
  pure (stampMs, path)

/-! ### Checkpoints and saves -/

/-- The payload of `patchfile.saveCopy` and of `patchfile.save`. -/
def saveRequest (i : SelectedInstance) (path operationId : String) : Json :=
  .object [("scope", scopeFor i), ("path", .string path), ("operationId", .string operationId)]

/-- `createCheckpoint`. -/
def createCheckpoint (label : Option String) (operationId : String) : Async Json := do
  let i ← (ensureConnected N).await
  (ensureLease N).await
  let (stampMs, path) ← reserveNow N label
  let res ← (request N "patchfile.saveCopy" (saveRequest i path operationId) (some operationId)
    N.config.patchIoTimeoutMs).await
  pure (.object ([("checkpointPath", .string path)] ++ copied res ["fingerprint"] ++
    [("createdAt", .string (N.toISOString stampMs))] ++ copied res ["replayed"]))

/-- The path `save_patch` asks for, none for the place where the patch lives. -/
def saveTargetPath (path : Option String) : Async (Option String) :=
  match path with
  | none | some "" => pure none
  | some requested => do
    let resolved ← resolveNow N requested false
    Task.ofExcept (requireRoot resolved .patches "the save target")
    pure (some resolved.absolute)

/-- Where the plugin says it saved, else where it was asked to. -/
def savedAt (res : Json) (path : Option String) : String :=
  let reported := jstr res "path"
  if reported ≠ "" then reported else path.getD ""

/-- `savePatch`. -/
def savePatch (path : Option String) (operationId : String) : Async Json := do
  let i ← (ensureConnected N).await
  (ensureLease N).await
  let target ← saveTargetPath N path
  let res ← (request N "patchfile.save" (saveRequest i (target.getD "") operationId) (some operationId)
    N.config.patchIoTimeoutMs).await
  pure (.object ([("path", .string (savedAt res target))] ++ copied res ["fingerprint"] ++
    [("saved", .bool true)] ++ copied res ["bridgeModulePresent", "warnings", "replayed"]))

/-! ### Load previews -/

/-- `BRIDGE_INSERTION_NOTICE`. -/
def bridgeInsertionNotice : String :=
  "a RackMCP-Bridge module will be inserted into the resulting patch if it does not already contain one, which " ++
    "changes the layout of the loaded file"

def unsavedChanges : String := "the current patch has unsaved changes"

/-- The preview of a load, a clear or a restore. -/
def loadPreviewInfo (path : Option String) (present : Bool) (sizeBytes : Option Nat) (saved : Bool)
    (flag : String) (reasons : List String) : Json :=
  .object [
    ("path", nullable path),
    ("exists", .bool present),
    ("sizeBytes", (sizeBytes.map fun n => Json.integer n).getD .null),
    ("currentPatchSaved", .bool saved),
    ("willCreateRecoveryCheckpoint", .bool true),
    ("recoveryCheckpointImpossibleReason", .null),
    ("willInsertBridgeModule", .bool true),
    ("risk", .object [("level", .string "high"), ("flags", .array [.string flag]),
      ("reasons", .array (reasons.map .string)), ("confirmationRequired", .bool true)]),
    ("warnings", .array (((if saved then [] else [unsavedChanges]) ++ [bridgeInsertionNotice]).map .string))]

/-- The confirmation of a load preview. -/
def loadConfirmation (token : String) (now : Int) : Json :=
  .object [("confirmationToken", .string token),
    ("confirmationExpiresAt", .string (N.toISOString (now + confirmationLifetimeMs))),
    ("confirmationRequired", .bool true)]

/-- The status and the fingerprint that a preview of a load, a clear or a restore describes. -/
def liveState : Async (Bool × Json) := do
  let status ← (request N "status.get" (.object [])).await
  let live ← (request N "patch.fingerprint" (.object [])).await
  pure (jbool status "saved" false, live)

/-- `buildLoadPreview`. -/
def buildLoadPreview (kind : LoadKind) (targetPath : Option String) : Async Json := do
  let i ← (ensureConnected N).await
  let (saved, live) ← liveState N
  let target ← match targetPath with
    | none => pure (true, none)
    | some path => do
      let resolved ← resolveNow N path true
      let fs ← draw N.files
      pure (resolved.present, some (fs.size resolved.absolute))
  let token ← mintLoadToken N i kind targetPath (jint live "patchEpoch") (jstr live "fingerprint")
  let now ← dateNow N
  let cleared : Bool := kind = .clear
  pure (.object [
    ("preview", loadPreviewInfo targetPath target.1 target.2 saved
      (if cleared then "clears_patch" else "replaces_patch")
      ((if cleared then "clears the entire current patch"
        else "replaces the entire current patch with a loaded file") :: if saved then [] else [unsavedChanges])),
    ("confirmation", loadConfirmation N token now)])

/-- `previewLoadPatch`. -/
def previewLoadPatch (path : String) : Async Json := do
  let resolved ← resolveNow N path true
  Task.ofExcept (requireRoot resolved .patches "the load source")
  (buildLoadPreview N .load (some path)).await

/-- `previewClearPatch`. -/
def previewClearPatch : Async Json := (buildLoadPreview N .clear none).await

/-! ### Loading and clearing -/

/-- What `commitLoadOrClear` refuses by the binding of its token. -/
def bindingRefusal (binding : LoadBinding) (kind : LoadKind) (i : SelectedInstance) (expectedPath : Option String) :
    Option Thrown :=
  if binding.kind ≠ kind ∨ binding.instanceId ≠ i.instanceId ∨ binding.sessionId ≠ i.sessionId then
    some (toolError .confirmationRequired "confirmation token does not match this operation")
  else if expectedPath.any fun path => binding.path ≠ some path then
    some (toolError .confirmationRequired "confirmation token was issued for a different patch file")
  else none

/-- What `commitLoadOrClear` refuses because the live patch is not the confirmed one. -/
def liveRefusal (binding : LoadBinding) (live : Json) : Option Thrown :=
  if ¬ holdsInt live "patchEpoch" binding.patchEpoch then
    some (toolError .stalePatchEpoch
      "the patch was replaced since the preview; re-run the preview and confirm again")
  else if ¬ holdsString live "fingerprint" binding.fingerprint then
    some (toolError .patchConflict "the patch changed since the preview; re-run the preview and confirm again")
  else none

/-- The error of a recovery checkpoint that could not be created. -/
def recoveryFailed (kind : LoadKind) (e : Thrown) : Thrown :=
  let cause := toErrorPayload e
  toolError cause.code ("the recovery checkpoint could not be created (" ++ errorCodeToString cause.code ++ ": " ++
    cause.message ++ "), so the " ++ kind.name ++ " was not performed; make the checkpoints directory writable " ++
    "with free space, then retry") true

/-- The recovery checkpoint: the path it was saved to. -/
def recoveryCheckpoint (i : SelectedInstance) : Async String := do
  let (_, path) ← reserveNow N (some "recovery")
  let payloadId ← draw N.randomUUID
  let operationId ← draw N.randomUUID
  let _ ← (request N "patchfile.saveCopy" (saveRequest i path payloadId) (some operationId)
    N.config.patchIoTimeoutMs).await
  pure path

/-- The payload of `patchfile.load`. A checkpoint is contents, not an identity: only a load takes its path over. -/
def loadRequest (i : SelectedInstance) (kind : LoadKind) (path operationId : String) : Json :=
  .object [("scope", scopeFor i), ("path", .string path), ("setPath", .bool (kind = .load)),
    ("operationId", .string operationId)]

/-- The payload of `patchfile.clear`. -/
def clearRequest (i : SelectedInstance) (operationId : String) : Json :=
  .object [("scope", scopeFor i), ("operationId", .string operationId)]

/-- The irreversible step of `commitLoadOrClear`. -/
def replacePatch (i : SelectedInstance) (kind : LoadKind) (binding : LoadBinding) (operationId : String) :
    Async Json :=
  match kind with
  | .clear =>
    (request N "patchfile.clear" (clearRequest i operationId) (some operationId) N.config.patchIoTimeoutMs).await
  | kind => do
    let resolved ← resolveNow N (binding.path.getD "") true
    Task.ofExcept (requireRoot resolved (if kind = .restore then .checkpoints else .patches) "the load source")
    (request N "patchfile.load" (loadRequest i kind resolved.absolute operationId) (some operationId)
      N.config.patchIoTimeoutMs).await

/-- `commitLoadOrClear`. -/
def commitLoadOrClear (kind : LoadKind) (confirmationToken operationId : String)
    (expectedPath : Option String := none) : Async Json := do
  let i ← (ensureConnected N).await
  let binding ← verifyLoadToken N confirmationToken
  match bindingRefusal binding kind i expectedPath with
  | some e => Task.fail e
  | none =>
    -- The patch the user confirmed against must still be the live one.
    let live ← (request N "patch.fingerprint" (.object [])).await
    match liveRefusal binding live with
    | some e => Task.fail e
    | none =>
      (ensureLease N).await
      let recovery ← (recoveryCheckpoint N i).attempt
      match recovery with
      | .error e => Task.fail (recoveryFailed kind e)
      | .ok recoveryPath =>
        -- Single use: the confirmation is burned before the irreversible step.
        let _ ← consumeLoadToken N confirmationToken
        let res ← replacePatch N i kind binding operationId
        pure (.object (copied res ["fingerprint", "patchEpoch", "patchName", "saved", "bridgeModulePresent"] ++
          [("recoveryCheckpointPath", .string recoveryPath)] ++ copied res ["warnings", "replayed"]))

/-- `commitLoadPatch`. -/
def commitLoadPatch (confirmationToken operationId : String) : Async Json :=
  (commitLoadOrClear N .load confirmationToken operationId).await

/-- `commitClearPatch`. -/
def commitClearPatch (confirmationToken operationId : String) : Async Json :=
  (commitLoadOrClear N .clear confirmationToken operationId).await

/-- `restoreCheckpoint`. -/
def restoreCheckpoint (checkpointPath : String) (confirmationToken : Option String) (operationId : String) :
    Async Json := do
  let checkpoint ← resolveNow N checkpointPath true
  if checkpoint.root ≠ .checkpoints then throwTool .pathNotAllowed "restore source must be a checkpoint file"
  else
    let i ← (ensureConnected N).await
    match confirmationToken with
    | none | some "" => do
      let (saved, live) ← liveState N
      let token ← mintLoadToken N i .restore (some checkpoint.absolute) (jint live "patchEpoch")
        (jstr live "fingerprint")
      let fs ← draw N.files
      let now ← dateNow N
      pure (.object [("phase", .string "preview"),
        ("preview", loadPreviewInfo (some checkpoint.absolute) true (some (fs.size checkpoint.absolute)) saved
          "replaces_patch" ["restoring a checkpoint replaces the entire current patch"]),
        ("confirmation", loadConfirmation N token now)])
    | some token => do
      let result ← (commitLoadOrClear N .restore token operationId (some checkpoint.absolute)).await
      pure (.object [("phase", .string "restored"), ("result", result)])

end RackMcp.Server
