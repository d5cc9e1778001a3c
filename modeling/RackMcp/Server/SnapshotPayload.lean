import RackMcp.Server.Validation

/-!
# The snapshot as the server reads it

`patch.snapshot` is cast to the interface `Snapshot` of `apps/mcp-server/src/analysis.ts` and not checked: a member that
is not set reads `undefined`, which a text shows by that name.
-/

namespace RackMcp.Validation

/-- A member in a text. -/
def textOf : Option Json → String
  | some (.string s) => s
  | _ => "undefined"

/-- A number, or null. -/
def numberOf : Option Json → Option Double
  | some (.real v) => some v
  | some (.integer n) => some (.finite n)
  | _ => none

def integerOf : Option Json → ℤ
  | some (.integer n) => n
  | _ => 0

def boolOf : Option Json → Bool
  | some (.bool b) => b
  | _ => false

def itemsOf : Option Json → List Json
  | some (.array items) => items
  | _ => []

def paramOf (o : Json) : ParamS where
  paramId := integerOf (Json.get o "paramId")
  value := numberOf (Json.get o "value")
  minValue := numberOf (Json.get o "minValue")
  maxValue := numberOf (Json.get o "maxValue")
  name := textOf (Json.get o "name")

def portOf (o : Json) : PortS where
  portId := integerOf (Json.get o "portId")
  connected := boolOf (Json.get o "connected")
  channels := (integerOf (Json.get o "channels")).toNat

/-- A grid position, or null. -/
def gridPositionOf : Option Json → Option GridPosition
  | some (.object members) =>
    some ⟨integerOf (members.lookup "x"), integerOf (members.lookup "y")⟩
  | _ => none

/-- A width, or null. -/
def gridWidthOf : Option Json → Option ℕ
  | some (.integer n) => some n.toNat
  | _ => none

/-- An id, or null. -/
def idOrNull : Option Json → Option String
  | some (.string s) => some s
  | _ => none

def moduleOf (o : Json) : ModuleS where
  moduleId := textOf (Json.get o "moduleId")
  modelName := textOf (Json.get o "modelName")
  modelSlug := textOf (Json.get o "modelSlug")
  pluginSlug := textOf (Json.get o "pluginSlug")
  bypassed := boolOf (Json.get o "bypassed")
  params := (itemsOf (Json.get o "params")).map paramOf
  inputs := (itemsOf (Json.get o "inputs")).map portOf
  outputs := (itemsOf (Json.get o "outputs")).map portOf
  gridPosition := gridPositionOf (Json.get o "gridPosition")
  gridWidth := gridWidthOf (Json.get o "gridWidth")
  left := idOrNull (Json.get (Json.get o "expanders") "left")

def cableOf (o : Json) : CableS where
  cableId := textOf (Json.get o "cableId")
  outputModuleId := textOf (Json.get o "outputModuleId")
  outputId := integerOf (Json.get o "outputId")
  inputModuleId := textOf (Json.get o "inputModuleId")
  inputId := integerOf (Json.get o "inputId")

/-- The payload of `patch.snapshot` as a `Snapshot`. -/
def snapshotOf (payload : Json) : Snapshot where
  modules := (itemsOf (Json.get payload "modules")).map moduleOf
  cables := (itemsOf (Json.get payload "cables")).map cableOf
  bridgeModuleCount := (integerOf (Json.get payload "bridgeModuleCount")).toNat

end RackMcp.Validation
