import RackMcp.Server.Adapters
import RackMcp.Server.Analysis

/-!
# The patch validation

`validatePatch` of `apps/mcp-server/src/analysis.ts`, with the rules and the report of
`packages/schemas/src/validation.ts`. Of the snapshot the members stay that the rules read. How JavaScript writes a
number is the parameter `numberText`; the two searches take fuel, as in the analysis.
-/

namespace RackMcp.Validation

open Reachability
open Analysis (Confidence)

/-! ### The snapshot -/

structure ParamS where
  paramId : ℤ
  value : Option Double
  minValue : Option Double
  maxValue : Option Double
  name : String

structure PortS where
  portId : ℤ
  connected : Bool
  channels : ℕ

structure GridPosition where
  x : ℤ
  y : ℤ
deriving DecidableEq

structure ModuleS extends Analysis.ModuleS where
  bypassed : Bool
  params : List ParamS
  inputs : List PortS
  outputs : List PortS
  gridPosition : Option GridPosition
  gridWidth : Option ℕ
  /-- `expanders?.left ?? null`. -/
  left : Option String

structure CableS extends Analysis.CableS where
  cableId : String
  outputId : ℤ
  inputId : ℤ

structure Snapshot where
  modules : List ModuleS
  cables : List CableS
  bridgeModuleCount : ℕ

namespace Snapshot

variable (snap : Snapshot)

/-- What the two searches read of the snapshot. -/
def graph : Analysis.Snapshot where
  modules := snap.modules.map (·.toModuleS)
  cables := snap.cables.map (·.toCableS)
  bridgeModuleCount := snap.bridgeModuleCount

/-- `byId`: of several modules with an id, the last one is in the map. -/
def byId (id : String) : Option ModuleS := snap.modules.reverse.find? (·.moduleId == id)

def destinations : List ModuleS := snap.modules.filter fun m => Analysis.isAudioDestination m.toModuleS

end Snapshot

/-- `modulesFeedingDestinations`. -/
def modulesFeedingDestinations (snap : Snapshot) (fuel : ℕ) : Option (List String) :=
  reaching snap.graph.incoming (snap.destinations.map (·.moduleId)) fuel

/-! ### The report -/

inductive Severity where
  | error
  | warning
  | info
deriving DecidableEq

inductive PortType where
  | input
  | output
deriving DecidableEq

inductive EntityRef where
  | module (moduleId : String)
  | cable (cableId : String)
  | port (moduleId : String) (portType : PortType) (portId : ℤ)
  | param (moduleId : String) (paramId : ℤ)
  | patch
deriving DecidableEq

inductive ValidationRuleId where
  | cableDangling
  | portOutOfBounds
  | cableDuplicate
  | inputsStacked
  | moduleCollision
  | expanderAdjacency
  | paramNonFinite
  | paramOutOfRange
  | paramOutsideSafeRange
  | bridgeMissing
  | bypassInterruptsPath
  | cycleFeedback
  | signalRoleCross
  | pitchGateConfusion
  | polyIntoMono
  | unverifiedModules
  | audioNoInput
  | audioNoDestination
deriving DecidableEq

/-- `VALIDATION_RULES`. -/
def validationRules : List ValidationRuleId :=
  [.cableDangling, .portOutOfBounds, .cableDuplicate, .inputsStacked, .moduleCollision, .expanderAdjacency,
   .paramNonFinite, .paramOutOfRange, .paramOutsideSafeRange, .bridgeMissing, .bypassInterruptsPath, .cycleFeedback,
   .signalRoleCross, .pitchGateConfusion, .polyIntoMono, .unverifiedModules, .audioNoInput, .audioNoDestination]

structure ValidationFinding where
  ruleId : ValidationRuleId
  severity : Severity
  confidence : Confidence
  explanation : String
  entities : List EntityRef
  evidence : List (String × Json)
  suggestedRepair : Option String := none

structure ValidationReport where
  findings : List ValidationFinding
  rulesRun : List ValidationRuleId
  errorCount : ℕ
  warningCount : ℕ
  infoCount : ℕ

/-! ### Cables -/

def dangling (c : CableS) (missingEndpoint : String) : ValidationFinding where
  ruleId := .cableDangling
  severity := .error
  confidence := .certain
  explanation := "Cable " ++ c.cableId ++ " references a missing module."
  entities := [.cable c.cableId]
  evidence := [("cableId", .string c.cableId), ("outputModuleId", .string c.outputModuleId),
    ("inputModuleId", .string c.inputModuleId), ("missingEndpoint", .string missingEndpoint)]

def portTypeText : PortType → String
  | .input => "input"
  | .output => "output"

def outOfBounds (c : CableS) (m : ModuleS) (moduleId : String) (portType : PortType) (portId : ℤ) (portCount : ℕ) :
    ValidationFinding where
  ruleId := .portOutOfBounds
  severity := .error
  confidence := .certain
  explanation := "Cable " ++ c.cableId ++ " " ++ portTypeText portType ++ " port " ++ toString portId ++
    " is out of bounds for " ++ m.modelName ++ "."
  entities := [.port moduleId portType portId]
  evidence := [("cableId", .string c.cableId), ("portType", .string (portTypeText portType)),
    ("portId", .integer portId), ("portCount", .integer portCount)]

/-- The key of a cable's ends in `seenCablePairs`. -/
def endsKey (c : CableS) : String :=
  c.outputModuleId ++ ":" ++ toString c.outputId ++ "->" ++ c.inputModuleId ++ ":" ++ toString c.inputId

def duplicate (c : CableS) : ValidationFinding where
  ruleId := .cableDuplicate
  severity := .warning
  confidence := .certain
  explanation := "Duplicate identical cable between the same ports (" ++ endsKey c ++ ")."
  entities := [.cable c.cableId]
  evidence := [("cableId", .string c.cableId), ("endpoints", .string (endsKey c))]
  suggestedRepair := some "Remove the redundant cable."

/-- Both ends are modules of the snapshot. -/
def Snapshot.joined (snap : Snapshot) (c : CableS) : Bool :=
  (snap.byId c.outputModuleId).isSome && (snap.byId c.inputModuleId).isSome

/-- One round of the loop over the cables. -/
def checkCable (snap : Snapshot) (seenCablePairs : List String) (c : CableS) : List ValidationFinding :=
  match snap.byId c.outputModuleId with
  | none => [dangling c "output"]
  | some out =>
    match snap.byId c.inputModuleId with
    | none => [dangling c "input"]
    | some inp =>
      (if c.outputId < 0 ∨ c.outputId ≥ out.outputs.length then
        [outOfBounds c out c.outputModuleId .output c.outputId out.outputs.length] else []) ++
      (if c.inputId < 0 ∨ c.inputId ≥ inp.inputs.length then
        [outOfBounds c inp c.inputModuleId .input c.inputId inp.inputs.length] else []) ++
      if endsKey c ∈ seenCablePairs then [duplicate c] else []

/-- The loop over the cables. -/
def checkCables (snap : Snapshot) : List CableS → List String → List ValidationFinding
  | [], _ => []
  | c :: cables, seenCablePairs =>
    checkCable snap seenCablePairs c ++
      checkCables snap cables (if snap.joined c then setAdd seenCablePairs (endsKey c) else seenCablePairs)

/-- `inKey`. -/
def inKey (c : CableS) : String := c.inputModuleId ++ ":" ++ toString c.inputId

/-- The keys of `cablesByInputPort`, in the order in which they are set. -/
def inKeys (snap : Snapshot) : List String := ((snap.cables.filter (snap.joined ·)).map inKey).foldl setAdd []

/-- The list under a key of `cablesByInputPort`. -/
def cablesInto (snap : Snapshot) (key : String) : List CableS :=
  snap.cables.filter fun c => snap.joined c && inKey c == key

def stacked (snap : Snapshot) (modId portId : String) (list : List CableS) : ValidationFinding where
  ruleId := .inputsStacked
  severity := .info
  confidence := .certain
  explanation := "Input port " ++ portId ++ " of " ++ ((snap.byId modId).map (·.modelName)).getD modId ++ " has " ++
    toString list.length ++
    " cables; unless a summing/merge is in place, only one connection is effective."
  entities := list.map (.cable ·.cableId)
  evidence := [("moduleId", .string modId), ("portType", .string "input"),
    ("portId", (portId.toInt?.map Json.integer).getD .null), ("cableCount", .integer list.length),
    ("cableIds", .array (list.map (.string ·.cableId)))]
  suggestedRepair := some "Use a mixer or Merge module to combine multiple sources into one input."

/-- One round of the loop over `cablesByInputPort`. -/
def checkInput (snap : Snapshot) (key : String) : List ValidationFinding :=
  let list := cablesInto snap key
  if list.length > 1 then
    let parts := (key.toList.splitOn ':').map String.ofList
    [stacked snap (parts.getD 0 "") (parts.getD 1 "") list]
  else []

/-! ### Modules -/

def positionKey (pos : GridPosition) : String := toString pos.x ++ "," ++ toString pos.y

def positionJson (pos : GridPosition) : Json := .object [("x", .integer pos.x), ("y", .integer pos.y)]

def collision (m : ModuleS) (pos : GridPosition) (other : String) : ValidationFinding where
  ruleId := .moduleCollision
  severity := .warning
  confidence := .certain
  explanation := "Modules " ++ other ++ " and " ++ m.moduleId ++ " share grid position " ++ positionKey pos ++ "."
  entities := [.module m.moduleId]
  evidence := [("gridPosition", positionJson pos), ("otherModuleId", .string other)]

/-- The loop over the positions; `posSeen` has the last entry of a key first. -/
def checkPositions : List ModuleS → List (String × String) → List ValidationFinding
  | [], _ => []
  | m :: modules, posSeen =>
    match m.gridPosition with
    | none => checkPositions modules posSeen
    | some pos =>
      ((posSeen.lookup (positionKey pos)).map (collision m pos)).toList ++
        checkPositions modules ((positionKey pos, m.moduleId) :: posSeen)

/-- `ok`: the neighbour ends where the module begins, on its row. -/
def adjacent (neighbour : Option ModuleS) (pos : GridPosition) : Bool :=
  match neighbour with
  | none => false
  | some l =>
    match l.gridPosition, l.gridWidth with
    | some left, some width => width != 0 && left.y == pos.y && left.x + width == pos.x
    | _, _ => false

def expanderAdjacency (m : ModuleS) (pos : GridPosition) (leftId : String) (l : Option ModuleS) :
    ValidationFinding where
  ruleId := .expanderAdjacency
  severity := .info
  confidence := .certain
  explanation := m.modelName ++ " reports a left expander (" ++ leftId ++
    ") that is not immediately adjacent on the same row."
  entities := [.module m.moduleId]
  evidence := [("expanderSide", .string "left"), ("declaredNeighborId", .string leftId),
    ("neighborPresent", .bool l.isSome), ("hostPosition", positionJson pos),
    ("neighborPosition", ((l.bind (·.gridPosition)).map positionJson).getD .null)]
  suggestedRepair :=
    some "Place expander modules directly next to their host, on the same row, with no gap."

/-- One round of the loop over the expanders. -/
def checkExpander (snap : Snapshot) (m : ModuleS) : List ValidationFinding :=
  match m.left, m.gridPosition with
  | some leftId, some pos =>
    if leftId ≠ "" ∧ adjacent (snap.byId leftId) pos = false then
      [expanderAdjacency m pos leftId (snap.byId leftId)] else []
  | _, _ => []

/-! ### Parameters -/

/-- `x - y` of doubles, where it does not overflow. -/
def doubleSub : Double → Double → Double
  | .finite x, .finite y => .ofDecimal (x - y)
  | .infinite a, .infinite b => if a = b then .nan else .infinite a
  | .infinite a, .finite _ => .infinite a
  | .finite _, .infinite b => .infinite !b
  | .nan, _ | _, .nan => .nan

/-- `x + y` of doubles, where it does not overflow. -/
def doubleAdd : Double → Double → Double
  | .finite x, .finite y => .ofDecimal (x + y)
  | .infinite a, .infinite b => if a = b then .infinite a else .nan
  | .infinite a, .finite _ => .infinite a
  | .finite _, .infinite b => .infinite b
  | .nan, _ | _, .nan => .nan

/-- `x < y` of doubles. -/
def doubleLt : Double → Double → Bool
  | .finite x, .finite y => decide (x < y)
  | .infinite a, .infinite b => a && !b
  | .infinite a, .finite _ => a
  | .finite _, .infinite b => !b
  | .nan, _ | _, .nan => false

/-- `value < low - 1e-4 || value > high + 1e-4`. -/
def outside (value low high : Double) : Bool :=
  let tolerance := Double.ofDecimal (1 / 10000)
  doubleLt value (doubleSub low tolerance) || doubleLt (doubleAdd high tolerance) value

/-- `Number.isFinite` of the value, that is not null. -/
def finiteValue : Option Double → Option Double
  | some (.finite v) => some (.finite v)
  | _ => none

/-- A number, or null. -/
def numberOrNull : Option Double → Json
  | some v => .real v
  | none => .null

section Numbers
variable (numberText : Double → String)

/-- What `String` makes of a number or null. -/
def valueText : Option Double → String
  | some v => numberText v
  | none => "null"

def nonFinite (m : ModuleS) (p : ParamS) : ValidationFinding where
  ruleId := .paramNonFinite
  severity := .error
  confidence := .certain
  explanation := m.modelName ++ " param \"" ++ p.name ++ "\" has a non-finite value."
  entities := [.param m.moduleId p.paramId]
  evidence := [("paramId", .integer p.paramId), ("value", .string (valueText numberText p.value))]

def outOfRange (m : ModuleS) (p : ParamS) (value low high : Double) : ValidationFinding where
  ruleId := .paramOutOfRange
  severity := .warning
  confidence := .certain
  explanation := m.modelName ++ " param \"" ++ p.name ++ "\" value " ++ numberText value ++ " is outside [" ++
    numberText low ++ ", " ++ numberText high ++ "]."
  entities := [.param m.moduleId p.paramId]
  evidence := [("paramId", .integer p.paramId), ("value", .real value), ("minValue", .real low),
    ("maxValue", .real high)]

def outsideSafeRange (m : ModuleS) (p : ParamS) (value low high : Double) : ValidationFinding where
  ruleId := .paramOutsideSafeRange
  severity := .info
  confidence := .adapter
  explanation := m.modelName ++ " param \"" ++ p.name ++ "\" value " ++ numberText value ++
    " is outside the adapter's safe range [" ++ numberText low ++ ", " ++ numberText high ++
    "]. This is legal for the module but may produce excessive levels."
  entities := [.param m.moduleId p.paramId]
  evidence := [("paramId", .integer p.paramId), ("value", .real value),
    ("safeRange", .array [.real low, .real high]),
    ("hardRange", .array [numberOrNull p.minValue, numberOrNull p.maxValue])]
  suggestedRepair := some ("Bring the parameter back within [" ++ numberText low ++ ", " ++ numberText high ++
    "] unless the extreme value is deliberate.")

/-- The declared range of a parameter, if neither bound is null. -/
def hardRange (p : ParamS) : Option (Double × Double) :=
  match p.minValue, p.maxValue with
  | some low, some high => some (low, high)
  | _, _ => none

/-- The safe range that the adapter declares. -/
def safeRange (m : ModuleS) (p : ParamS) : Option (Double × Double) :=
  ((paramSemantics m.pluginSlug m.modelSlug p.paramId).bind (·.safeRange)).map fun range =>
    (.ofDecimal range.1, .ofDecimal range.2)

/-- The value is outside the range, if there is one. -/
def outsideOf (value : Double) (range : Option (Double × Double)) : Bool :=
  range.any fun (low, high) => outside value low high

/-- One round of the loop over the parameters. -/
def checkParam (m : ModuleS) (p : ParamS) : List ValidationFinding :=
  match finiteValue p.value with
  | none => [nonFinite numberText m p]
  | some value =>
    if outsideOf value (hardRange p) then
      (hardRange p).toList.map fun range => outOfRange numberText m p value range.1 range.2
    else if outsideOf value (safeRange m p) then
      (safeRange m p).toList.map fun range => outsideSafeRange numberText m p value range.1 range.2
    else []

end Numbers

/-! ### The rest of the patch -/

def bridgeMissing (bridgeModuleCount : ℕ) : ValidationFinding where
  ruleId := .bridgeMissing
  severity := .warning
  confidence := .certain
  explanation := "The patch has no RackMCP-Bridge module and will not reconnect after a Rack restart."
  entities := [.patch]
  evidence := [("bridgeModuleCount", .integer bridgeModuleCount)]
  suggestedRepair := some "Add a RackMCP-Bridge module before saving a patch you intend to reconnect to."

def interruptsPath (m : ModuleS) : ValidationFinding where
  ruleId := .bypassInterruptsPath
  severity := .warning
  confidence := .heuristic
  explanation := m.modelName ++
    " is bypassed while on a signal path to an audio output; unless it defines a bypass pass-through, " ++
    "downstream signal is interrupted."
  entities := [.module m.moduleId]
  evidence := [("bypassed", .bool true), ("hasIncoming", .bool true), ("hasOutgoing", .bool true),
    ("feedsAudioDestination", .bool true)]
  suggestedRepair := some "Un-bypass the module, or route around it, to restore the signal path."

/-- One round of the loop over the bypassed modules. -/
def checkBypass (feeds : List String) (m : ModuleS) : List ValidationFinding :=
  if m.bypassed ∧ m.moduleId ∈ feeds ∧ m.inputs.any (·.connected) ∧ m.outputs.any (·.connected) then
    [interruptsPath m] else []

def feedback (cycles : List String) : ValidationFinding where
  ruleId := .cycleFeedback
  severity := .info
  confidence := .certain
  explanation := "The patch contains a feedback loop involving " ++ toString cycles.length ++
    " module(s). This is often intentional; verify levels to avoid runaway feedback."
  entities := (cycles.take 64).map .module
  evidence := [("moduleCount", .integer cycles.length), ("moduleIds", .array ((cycles.take 64).map .string))]

/-! ### What the adapters know -/

inductive Family where
  | audio
  | control
deriving DecidableEq

def familyOf : Option SignalRole → Option Family
  | some .audio => some .audio
  | some .cvUnipolar | some .cvBipolar | some .pitchVoct | some .gate | some .trigger | some .clock => some .control
  | _ => none

inductive ControlKind where
  | pitch
  | event
deriving DecidableEq

def controlKindOf : Option SignalRole → Option ControlKind
  | some .pitchVoct => some .pitch
  | some .gate | some .trigger | some .clock => some .event
  | _ => none

def inputSemantics (m : ModuleS) (portId : ℤ) : Option AdapterPortSemantics :=
  (getAdapter m.pluginSlug m.modelSlug).bind fun a => a.inputs.find? (·.portId == portId)

def outputRoleOf (m : ModuleS) (portId : ℤ) : Option SignalRole :=
  ((getAdapter m.pluginSlug m.modelSlug).bind fun a => a.outputs.find? (·.portId == portId)).map (·.role)

def inputRoleOf (m : ModuleS) (portId : ℤ) : Option SignalRole := (inputSemantics m portId).map (·.role)

def inputPolyphonyOf (m : ModuleS) (portId : ℤ) : Option PolyphonyBehavior :=
  (inputSemantics m portId).map (·.polyphony)

def roleText : Option SignalRole → String
  | some .audio => "audio"
  | some .cvUnipolar => "cv_unipolar"
  | some .cvBipolar => "cv_bipolar"
  | some .pitchVoct => "pitch_voct"
  | some .gate => "gate"
  | some .trigger => "trigger"
  | some .clock => "clock"
  | some .unknown => "unknown"
  | none => "undefined"

def familyText : Family → String
  | .audio => "audio"
  | .control => "control"

def kindText : ControlKind → String
  | .pitch => "pitch"
  | .event => "event"

def roleCross (c : CableS) (out inp : ModuleS) (oFam iFam : Family) : ValidationFinding where
  ruleId := .signalRoleCross
  severity := .info
  confidence := .adapter
  explanation := out.modelName ++ " " ++ roleText (outputRoleOf out c.outputId) ++ " output feeds " ++ inp.modelName ++
    " " ++ roleText (inputRoleOf inp c.inputId) ++
    " input (audio↔control). This may be intentional (e.g. audio-rate modulation), but check it is deliberate."
  entities := [.cable c.cableId]
  evidence := [("cableId", .string c.cableId), ("outputRole", .string (roleText (outputRoleOf out c.outputId))),
    ("inputRole", .string (roleText (inputRoleOf inp c.inputId))), ("outputFamily", .string (familyText oFam)),
    ("inputFamily", .string (familyText iFam))]

def pitchGate (c : CableS) (out inp : ModuleS) (oKind iKind : ControlKind) : ValidationFinding where
  ruleId := .pitchGateConfusion
  severity := .info
  confidence := .adapter
  explanation := out.modelName ++ "'s " ++ roleText (outputRoleOf out c.outputId) ++ " output feeds " ++
    inp.modelName ++ "'s " ++ roleText (inputRoleOf inp c.inputId) ++
    " input. Pitch (1V/oct) and gate/trigger/clock signals are rarely interchangeable; check this is deliberate."
  entities := [.cable c.cableId]
  evidence := [("cableId", .string c.cableId), ("outputRole", .string (roleText (outputRoleOf out c.outputId))),
    ("inputRole", .string (roleText (inputRoleOf inp c.inputId))), ("outputKind", .string (kindText oKind)),
    ("inputKind", .string (kindText iKind))]
  suggestedRepair := some (if oKind = .event then
      "Route a 1V/oct pitch source into the pitch input, or use the gate to drive an envelope instead."
    else "Route a gate/trigger source into this input, or use a comparator to derive a gate from the pitch signal.")

def polyIntoMono (c : CableS) (out inp : ModuleS) (outChannels : ℕ) : ValidationFinding where
  ruleId := .polyIntoMono
  severity := .info
  confidence := .adapter
  explanation := "A " ++ toString outChannels ++ "-channel polyphonic signal from " ++ out.modelName ++ " enters " ++
    inp.modelName ++ "'s monophonic input; channels beyond the first are summed or dropped."
  entities := [.cable c.cableId]
  evidence := [("cableId", .string c.cableId), ("outputChannels", .integer outChannels),
    ("declaredInputPolyphony", .string "monophonic")]
  suggestedRepair :=
    some "Insert a Merge/Sum or mix the voices before this monophonic input if summing is intended."

/-- Both are known, and they differ. -/
def cross {α : Type} [DecidableEq α] (a b : Option α) : Option (α × α) :=
  match a, b with
  | some a, some b => if a = b then none else some (a, b)
  | _, _ => none

/-- `out.outputs[portId]?.channels ?? 0`. -/
def channelsOf (m : ModuleS) (portId : ℤ) : ℕ :=
  if 0 ≤ portId then ((m.outputs[portId.toNat]?).map (·.channels)).getD 0 else 0

/-- One round of the second loop over the cables. -/
def checkRoles (snap : Snapshot) (c : CableS) : List ValidationFinding :=
  match snap.byId c.outputModuleId with
  | none => []
  | some out =>
    match snap.byId c.inputModuleId with
    | none => []
    | some inp =>
      if c.outputId ≥ out.outputs.length ∨ c.inputId ≥ inp.inputs.length then []
      else
        let oRole := outputRoleOf out c.outputId
        let iRole := inputRoleOf inp c.inputId
        (cross (familyOf oRole) (familyOf iRole)).toList.map (fun fams => roleCross c out inp fams.1 fams.2) ++
        (cross (controlKindOf oRole) (controlKindOf iRole)).toList.map (fun kinds =>
          pitchGate c out inp kinds.1 kinds.2) ++
        if channelsOf out c.outputId > 1 ∧ inputPolyphonyOf inp c.inputId = some .monophonic then
          [polyIntoMono c out inp (channelsOf out c.outputId)] else []

def unadaptered (snap : Snapshot) : List ModuleS := snap.modules.filter fun m => !hasAdapter m.pluginSlug m.modelSlug

def unverifiedModules (list : List ModuleS) : ValidationFinding where
  ruleId := .unverifiedModules
  severity := .info
  confidence := .heuristic
  explanation := toString list.length ++ " module(s) have no verified adapter; their semantics are inferred and " ++
    "any role-based findings about them are heuristic."
  entities := (list.take 64).map (.module ·.moduleId)
  evidence := [("unadapteredCount", .integer list.length),
    ("models", .array ((list.take 64).map fun m => .string (m.pluginSlug ++ "/" ++ m.modelSlug)))]

def noInput (audioDest : List ModuleS) : ValidationFinding where
  ruleId := .audioNoInput
  severity := .warning
  confidence := .heuristic
  explanation := "An audio destination exists but has no connected inputs; the patch is likely silent."
  entities := audioDest.map (.module ·.moduleId)
  evidence := [("audioDestinationCount", .integer audioDest.length), ("connectedInputCount", .integer 0)]
  suggestedRepair := some "Connect a signal source to the audio module's inputs."

def noDestination (moduleCount : ℕ) : ValidationFinding where
  ruleId := .audioNoDestination
  severity := .info
  confidence := .heuristic
  explanation := "No Core Audio destination module found; the patch produces no audible output."
  entities := [.patch]
  evidence := [("audioDestinationCount", .integer 0), ("moduleCount", .integer moduleCount)]

/-- The silence heuristics. -/
def checkSilence (snap : Snapshot) : List ValidationFinding :=
  if snap.destinations.length > 0 then
    if snap.destinations.any fun m => m.inputs.any (·.connected) then [] else [noInput snap.destinations]
  else [noDestination snap.modules.length]

/-! ### The whole report -/

/-- The findings in report order, from the modules that feed a destination and those on a cycle. -/
def findingsFrom (numberText : Double → String) (snap : Snapshot) (feeds cycles : List String) :
    List ValidationFinding :=
  checkCables snap snap.cables [] ++
  (inKeys snap).flatMap (checkInput snap) ++
  checkPositions snap.modules [] ++
  snap.modules.flatMap (checkExpander snap) ++
  (snap.modules.flatMap fun m => m.params.flatMap (checkParam numberText m)) ++
  (if snap.bridgeModuleCount = 0 then [bridgeMissing snap.bridgeModuleCount] else []) ++
  snap.modules.flatMap (checkBypass feeds) ++
  (if cycles.length > 0 then [feedback cycles] else []) ++
  snap.cables.flatMap (checkRoles snap) ++
  (if (unadaptered snap).length > 0 then [unverifiedModules (unadaptered snap)] else []) ++
  checkSilence snap

/-- The report that counts the findings. -/
def reportOf (findings : List ValidationFinding) : ValidationReport :=
  let errorCount := (findings.filter (·.severity == .error)).length
  let warningCount := (findings.filter (·.severity == .warning)).length
  { findings := findings
    rulesRun := validationRules
    errorCount := errorCount
    warningCount := warningCount
    infoCount := findings.length - errorCount - warningCount }

/-- `validatePatch`, on a snapshot that was read. -/
def validatePatch (numberText : Double → String) (snap : Snapshot) (fuel : ℕ) : Option ValidationReport := do
  let feeds ← modulesFeedingDestinations snap fuel
  let cycles ← Analysis.modulesInCycles snap.graph fuel
  some (reportOf (findingsFrom numberText snap feeds cycles))

end RackMcp.Validation
