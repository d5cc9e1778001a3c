import RackMcp.Rackside.OpCache

/-!
# Patch files and patch replacement

`rackside/PatchFiles.cpp`: saving, loading and clearing the patch, and the poll that notices a patch the user
replaced. The patch manager is Rack's: what its `save`, `load` and `clear` leave and throw is in
`RackReadings`. The epoch notification, the saved mark of the history and the log lines decide nothing here
and are left out.
-/

namespace RackMcp

open Gen

/-! ### The host -/

/-- `ReplacementWatermark`, once it is armed. -/
structure Watermark where
  path : String
  historyCount : Nat
  moduleIds : List Int
deriving DecidableEq

/-- The running Rack with the plugin in it: `path` is the member of Rack's patch manager, and `undone` counts
the history actions that were undone and can be redone. -/
structure Host where
  rack : RackState
  undone : Nat := 0
  path : String := ""
  watermark : Option Watermark := none
  pollCountdown : Int := 0
  opCache : OpCache := []

/-- What Rack or a plugin throws. -/
inductive RackThrow where
  | exception (what : String)
  | text (what : String)
  | other

/-- What it is to the barrier when no handler catches it. -/
def RackThrow.escaping : RackThrow → HandlerThrow
  | .exception what | .text what => .standard what
  | .other => .nonStandard

/-- What the patch manager leaves behind: a load or a clear empties the rack and the history before it can
fail, and a load takes over a path it reads out of the archive. -/
structure Replacement where
  patch : Patch
  history : List HistoryEntry := []
  undone : Nat := 0
  adoptedPath : Option String := none
  threw : Option RackThrow := none

/-- What Rack and the Bridge model make of `insertBridgeModule`. -/
inductive BridgeInsertion where
  | noModel
  | noModule
  | noWidget
  | inserted (module : Module) (panels : List Layout.Occupant)
  | threw (e : RackThrow) (patch : Patch)

/-- What Rack answers during one command: the duration of a commit, the frames of the handlers that only read,
what `Manager::save` of the temporary file throws, whether that file could be flushed and moved over its target,
what a load or a clear leaves, how a Bridge module is inserted, what an unfingerprintable patch throws, and the
stem of a path. -/
structure RackReadings where
  durationMs : Double := .finite 0
  frame : String → Except HandlerThrow String
  saveThrew : Option RackThrow := none
  moved : Bool := true
  replacement : Replacement
  insertion : BridgeInsertion := .noModel
  fingerprintFailure : RackThrow := .other
  getStem : String → String

namespace Host

/-- `currentHistoryCount`. -/
def historyCount (h : Host) : Nat := h.rack.history.length + h.undone

/-- `sortedModuleIds`. -/
def sortedModuleIds (h : Host) : List Int := (h.rack.patch.modules.map (·.id)).mergeSort

/-- `armReplacementWatermark`. -/
def armReplacementWatermark (h : Host) : Host :=
  { h with watermark := some ⟨h.path, h.historyCount, h.sortedModuleIds⟩ }

/-- `bumpEpochAndNotify`. -/
def bumpEpoch (h : Host) : Host := { h with rack := { h.rack with patchEpoch := h.rack.patchEpoch + 1 } }

/-- The patch manager has replaced the patch. -/
def replacePatch (h : Host) (m : Replacement) : Host :=
  { h with
    rack := { h.rack with patch := m.patch, history := m.history }
    undone := m.undone
    path := m.adoptedPath.getD h.path }

/-- `patchHasBridge`. -/
def hasBridge (h : Host) : Bool := h.rack.patch.modules.any fun m => isBridgeModule (toWorldModule m)

/-! ### The poll -/

/-- The decision of `pollPatchReplacement`. -/
def replacedSince (h : Host) (mark : Watermark) : Bool :=
  if h.historyCount = 0 ∧ mark.historyCount > 0 then true
  else if h.historyCount > mark.historyCount then false
  else
    (h.path ≠ mark.path && h.sortedModuleIds ≠ mark.moduleIds) ||
      (mark.moduleIds ≠ [] && h.sortedModuleIds.all fun id => !mark.moduleIds.contains id)

/-- `pollPatchReplacement`. -/
def pollPatchReplacement (h : Host) : Host :=
  let h := { h with pollCountdown := h.pollCountdown - 1 }
  if h.pollCountdown > 0 then h
  else
    let h := { h with pollCountdown := 30 }
    match h.watermark with
    | none => h.armReplacementWatermark
    | some mark =>
      let polled := h.armReplacementWatermark
      if h.replacedSince mark then polled.bumpEpoch else polled

end Host

/-! ### Results -/

/-- The warning about a fingerprint that could not be computed. -/
def fingerprintWarning : RackThrow → String
  | .exception what => "the patch fingerprint could not be computed (" ++ what ++
      "); the operation itself succeeded"
  | .text _ | .other => "the patch fingerprint could not be computed; the operation itself succeeded"

variable (rack : Rack)

/-- `buildResult`. -/
def buildResult (r : RackReadings) (saved : Bool) (warnings : List String) (h : Host) : Json :=
  let fingerprint := rack.computePatchFingerprint h.rack.patch
  let warnings := warnings ++ (if fingerprint = none then [fingerprintWarning r.fingerprintFailure] else [])
  let name := if h.path = "" then "" else r.getStem h.path
  .object [
    ("fingerprint", .string (fingerprint.getD "")),
    ("patchEpoch", .integer h.rack.patchEpoch),
    ("patchName", if name = "" then .null else .string name),
    ("saved", .bool saved),
    ("path", .string h.path),
    ("bridgeModulePresent", .bool h.hasBridge),
    ("warnings", .array (warnings.map .string)),
    ("replayed", .bool false)]

/-- A refusal or a failure of a patch file operation. -/
def PatchFileOutcome.failed (code : ErrorCode) (message : String) : PatchFileOutcome :=
  { errorCode := some code, errorMessage := message }

/-! ### Saving -/

/-- `savePatchAtomic`: what it throws, none when the patch is at `path`. -/
def savePatchAtomic (r : RackReadings) (path : String) : Option RackThrow :=
  match r.saveThrew with
  | some e => some e
  | none => if r.moved then none else some (.exception ("could not move the saved patch onto " ++ path))

/-- The warning of a save without a Bridge module. -/
def saveWarnings (h : Host) : List String :=
  if h.hasBridge then []
  else ["saved patch has no RackMCP-Bridge module; it will not reconnect after restart"]

/-- `patchSaveCopy`. -/
def patchSaveCopy (r : RackReadings) (request : Json) (h : Host) : Except HandlerThrow PatchFileOutcome × Host :=
  let path := jstr request "path"
  if path = "" then (.ok (.failed .pathNotAllowed "save copy requires a path"), h)
  else
    match savePatchAtomic r path with
    | some (.exception what) => (.ok (.failed .internal ("save failed: " ++ what)), h)
    | some e => (.error e.escaping, h)
    | none => (.ok { payload := some (buildResult rack r false (saveWarnings h) h) }, h)

/-- The file a save writes: the one it names, else where the patch lives. -/
def saveTarget (request : Json) (h : Host) : String :=
  if jstr request "path" = "" then h.path else jstr request "path"

/-- `patchSave`. -/
def patchSave (r : RackReadings) (request : Json) (h : Host) : Except HandlerThrow PatchFileOutcome × Host :=
  let path := saveTarget request h
  if path = "" then (.ok (.failed .pathNotAllowed "current patch has no path; provide one"), h)
  else
    match savePatchAtomic r path with
    | some (.exception what) => (.ok (.failed .internal ("save failed: " ++ what)), h)
    | some e => (.error e.escaping, h)
    | none =>
      let saved := { h with path }.armReplacementWatermark
      (.ok { payload := some (buildResult rack r true (saveWarnings h) saved) }, saved)

/-! ### Loading and clearing -/

/-- `insertBridgeModule`: whether a module was inserted, with the warning. -/
def insertBridgeModule (insertion : BridgeInsertion) (h : Host) : Except HandlerThrow (Bool × String) × Host :=
  match insertion with
  | .noModel => (.ok (false, "RackMCP-Bridge model unavailable; patch will not reconnect after restart"), h)
  | .noModule | .noWidget => (.ok (false, ""), h)
  | .inserted m panels =>
    (.ok (true, "inserted a RackMCP-Bridge module so the patch can reconnect after restart"),
      { h with rack := { h.rack with
          patch := { h.rack.patch with modules := h.rack.patch.modules ++ [m], panels } } })
  | .threw e patch => (.error e.escaping, { h with rack := { h.rack with patch } })

/-- The Bridge module a replaced patch is given when it has none, with the warnings. -/
def ensureBridge (r : RackReadings) (h : Host) : Except HandlerThrow (List String) × Host :=
  if h.hasBridge then (.ok [], h)
  else
    match insertBridgeModule r.insertion h with
    | (.ok (inserted, warning), h) => (.ok (if inserted ∧ warning ≠ "" then [warning] else []), h)
    | (.error e, h) => (.error e, h)

/-- The end of a load or a clear that succeeded: the epoch, the Bridge module, the watermark, the result. -/
def finishReplacement (r : RackReadings) (saved : Bool) (h : Host) :
    Except HandlerThrow PatchFileOutcome × Host :=
  match ensureBridge r h.bumpEpoch with
  | (.error e, h) => (.error e, h)
  | (.ok warnings, h) =>
    let armed := h.armReplacementWatermark
    (.ok { payload := some (buildResult rack r saved warnings armed) }, armed)

/-- The message of a load that threw. -/
def loadFailedMessage (what : String) (patchEpoch : Int) : String :=
  "load failed: " ++ what ++ "; Rack cleared the patch before reading the file, so the rack is now empty at " ++
    "patch epoch " ++ toString patchEpoch ++ " -- restore the recovery checkpoint to get the previous patch back"

/-- The catch block of `patchLoad`. -/
def loadFailed (r : RackReadings) (what : String) (h : Host) : Except HandlerThrow PatchFileOutcome × Host :=
  match ensureBridge r h.bumpEpoch with
  | (.error e, h) => (.error e, h)
  | (.ok _, h) =>
    (.ok (.failed .internal (loadFailedMessage what h.rack.patchEpoch)), h.armReplacementWatermark)

/-- `patchLoad`. The catch block leaves the path the patch manager may have taken over. -/
def patchLoad (r : RackReadings) (request : Json) (h : Host) : Except HandlerThrow PatchFileOutcome × Host :=
  let path := jstr request "path"
  let setPath := jbool request "setPath" true
  if path = "" then (.ok (.failed .pathNotAllowed "load requires a path"), h)
  else
    let loaded := h.replacePatch r.replacement
    match r.replacement.threw with
    | some (.exception what) => loadFailed r what loaded
    | some e => (.error e.escaping, loaded)
    | none => finishReplacement rack r true { loaded with path := if setPath then path else "" }

/-- The message of a clear that threw. -/
def clearFailedMessage (what : String) (patchEpoch : Int) : String :=
  "clear failed: " ++ what ++ " (the patch may be partly cleared; epoch is now " ++ toString patchEpoch ++ ")"

/-- `patchClear`. `Manager::clear` reads no archive, so it leaves the path. -/
def patchClear (r : RackReadings) (h : Host) : Except HandlerThrow PatchFileOutcome × Host :=
  let cleared := h.replacePatch { r.replacement with adoptedPath := none }
  match r.replacement.threw with
  | some (.exception what) =>
    let failed := cleared.bumpEpoch
    (.ok (.failed .internal (clearFailedMessage what failed.rack.patchEpoch)), failed.armReplacementWatermark)
  | some e => (.error e.escaping, cleared)
  | none => finishReplacement rack r false { cleared with path := "" }

end RackMcp
