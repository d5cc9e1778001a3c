import RackMcp.Rackside.Catalog
import RackMcp.Rackside.Patch
import Mathlib.Data.List.Sort

/-!
# The patch snapshot

`buildPatchSnapshot` of `rackside/Snapshot.cpp`: the payload of `patch.snapshot`, from the patch and what Rack tells
about its modules (`SnapshotReadings`). A text that is not UTF-8 makes `json_string` NULL, and its member is not set.
-/

namespace RackMcp

open Layout (Occupant)

/-! ### What Rack tells -/

structure ParamReadings where
  name : List UInt8
  displayValue : List UInt8
  unit : List UInt8
  defaultValue : Double
  snapped : Bool

structure PortReadings where
  name : List UInt8
  channels : ℕ
  connected : Bool

structure ModuleReadings where
  pluginVersion : List UInt8
  modelName : List UInt8
  /-- The modules beside it, negative for none. -/
  leftExpander : Int
  rightExpander : Int
  params : ℕ → ParamReadings
  inputs : ℕ → PortReadings
  outputs : ℕ → PortReadings
  /-- `Engine::moduleToJson`. -/
  data : Json

/-- What Rack and the bridge tell while a snapshot is built. -/
structure SnapshotReadings where
  rackVersion : List UInt8
  rackEdition : List UInt8
  instanceId : List UInt8
  sessionId : List UInt8
  patchEpoch : Int
  patchName : List UInt8
  saved : Bool
  sampleRate : Double
  module : Module → ModuleReadings
  /-- The value between the bounds, in floats. -/
  normalize : ParamQuantity → Double → Double
  /-- `getGridPosition` and the width of `getGridSize`, rounded. -/
  gridPosition : Occupant → Int × Int
  gridWidth : Occupant → Int
  /-- `color::toHexString`. -/
  toHexString : Color → List UInt8

/-! ### Building -/

/-- `json_object_set_new` with a `json_string`. -/
def textMember (key : String) (text : List UInt8) : List (String × Json) :=
  ((jsonString text).map fun s => (key, Json.string s)).toList

/-- `realOrNull`. -/
def realOrNull : Double → Json
  | .finite v => .real (.finite v)
  | _ => .null

/-- `idStr`. -/
def idStr (id : Int) : Json := .string (toString id)

/-- The value that a parameter reads. -/
def Module.valueAt (m : Module) (paramId : ℕ) : Double := (m.state.values[paramId]?).getD (.finite 0)

section Build
variable (R : SnapshotReadings)

/-- `buildParam`. -/
def buildParam (m : Module) (paramId : ℕ) : Json :=
  let read := (R.module m).params paramId
  .object ([("paramId", .integer paramId)] ++
    match (m.quantities[paramId]?).join with
    | some pq =>
      textMember "name" read.name ++
      [("value", realOrNull (m.valueAt paramId)), ("minValue", realOrNull pq.minValue),
        ("maxValue", realOrNull pq.maxValue), ("defaultValue", realOrNull read.defaultValue),
        ("normalizedValue", realOrNull (R.normalize pq (m.valueAt paramId)))] ++
      textMember "displayValue" read.displayValue ++ textMember "unit" read.unit ++ [("snapped", .bool read.snapped)]
    | none =>
      [("name", .string ""), ("value", realOrNull (m.valueAt paramId)), ("minValue", .null), ("maxValue", .null),
        ("defaultValue", .null), ("normalizedValue", .null), ("displayValue", .null), ("unit", .string ""),
        ("snapped", .bool false)])

/-- `buildPort`. -/
def buildPort (m : Module) (portId : ℕ) (isInput : Bool) : Json :=
  let read := if isInput then (R.module m).inputs portId else (R.module m).outputs portId
  .object ([("portId", .integer portId), ("type", .string (if isInput then "input" else "output"))] ++
    textMember "name" read.name ++ [("channels", .integer read.channels), ("connected", .bool read.connected)])

/-- The expander member: null for a negative id. -/
def expanderId (id : Int) : Json := if id ≥ 0 then idStr id else .null

/-- `buildOneModule`; the panel is the widget of the module. -/
def buildOneModule (p : Patch) (m : Module) (includeOpaqueState : Bool) : Json :=
  let read := R.module m
  .object ([("moduleId", idStr m.id)] ++ textMember "pluginSlug" (utf8 m.pluginSlug) ++
    textMember "pluginVersion" read.pluginVersion ++ textMember "modelSlug" (utf8 m.modelSlug) ++
    textMember "modelName" read.modelName ++
    [("bypassed", .bool m.state.bypassed), ("isBridge", .bool (isBridgeModule (toWorldModule m))),
      ("isProbe", .bool (m.pluginSlug == "RackMCP" && m.modelSlug == "Probe"))] ++
    (match p.widget m.id with
    | some (_, panel) =>
      [("gridPosition", .object [("x", .integer (R.gridPosition panel).1), ("y", .integer (R.gridPosition panel).2)]),
        ("gridWidth", .integer (R.gridWidth panel))]
    | none => [("gridPosition", .null), ("gridWidth", .null)]) ++
    [("params", .array ((List.range m.quantities.length).map (buildParam R m))),
      ("inputs", .array ((List.range m.inputs).map fun i => buildPort R m i true)),
      ("outputs", .array ((List.range m.outputs).map fun i => buildPort R m i false)),
      ("expanders", .object [("left", expanderId read.leftExpander), ("right", expanderId read.rightExpander)])] ++
    if includeOpaqueState then [("opaqueState", read.data), ("opaqueStateDisclosed", .bool true)] else [])

/-- `std::sort` of ids. -/
def sortIds (ids : List Int) : List Int := ids.mergeSort (· ≤ ·)

/-- The modules in the order of their ids. -/
def snapshotModules (p : Patch) : List Module := (sortIds (p.modules.map (·.id))).filterMap p.module

/-- The cables with both ends, in the order of their ids. -/
def snapshotCables (p : Patch) : List Cable :=
  ((sortIds (p.cables.map (·.id))).filterMap p.cable).filter fun c => c.plan.hasOutput && c.plan.hasInput

/-- One round of the loop over the cables. -/
def buildCable (c : Cable) : Json :=
  .object ([("cableId", idStr c.id), ("outputModuleId", idStr c.plan.outputModuleId),
      ("outputId", .integer c.plan.outputId), ("inputModuleId", idStr c.plan.inputModuleId),
      ("inputId", .integer c.plan.inputId)] ++
    textMember "color" (c.widget.elim [] R.toHexString))

def bridgeCount (p : Patch) : ℕ :=
  ((snapshotModules p).filter fun m => isBridgeModule (toWorldModule m)).length

def probeCount (p : Patch) : ℕ :=
  ((snapshotModules p).filter fun m => m.pluginSlug == "RackMCP" && m.modelSlug == "Probe").length

/-- `buildPatchSnapshot`; none when the fingerprint throws. -/
def buildPatchSnapshot (rack : Rack) (p : Patch) (includeOpaqueState : Bool) : Option Json :=
  (rack.computePatchFingerprint p).map fun fingerprint =>
    .object (textMember "rackVersion" R.rackVersion ++ textMember "rackEdition" R.rackEdition ++
      textMember "instanceId" R.instanceId ++ textMember "sessionId" R.sessionId ++
      [("patchEpoch", .integer R.patchEpoch)] ++
      (if R.patchName = [] then [("patchName", .null)] else textMember "patchName" R.patchName) ++
      [("saved", .bool R.saved), ("sampleRate", .real R.sampleRate),
        ("modules", .array ((snapshotModules p).map fun m => buildOneModule R p m includeOpaqueState)),
        ("cables", .array ((snapshotCables p).map (buildCable R))),
        ("bridgeModuleCount", .integer (bridgeCount p)), ("probeModuleCount", .integer (probeCount p)),
        ("fingerprint", .string fingerprint), ("warnings", .array [])])

end Build

end RackMcp
