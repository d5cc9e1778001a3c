import RackMcp.Lib.Outcome
import RackMcp.Core.Plan

/-!
# Transaction validation over a snapshot

`core/validate.cpp`. `validateOne` checks one operation against the snapshot and records in the
`PreviewState` what it would do; a refusal keeps the state reached so far, and the caller stops there.
-/

namespace RackMcp

open Gen Outcomes

/-- The `op` names the plugin knows; any other name is kept for the message. -/
inductive OpType where
  | addModule | removeModule | setParameter | setBypass | resetModule | randomizeModule | moveModule
  | connect | disconnect | disconnectPort | duplicateModule
  | other (name : String)
deriving DecidableEq

def OpType.name : OpType → String
  | .addModule => "add_module"
  | .removeModule => "remove_module"
  | .setParameter => "set_parameter"
  | .setBypass => "set_bypass"
  | .resetModule => "reset_module"
  | .randomizeModule => "randomize_module"
  | .moveModule => "move_module"
  | .connect => "connect"
  | .disconnect => "disconnect"
  | .disconnectPort => "disconnect_port"
  | .duplicateModule => "duplicate_module"
  | .other name => name

/-- The types with a branch of their own. -/
def OpType.known : List OpType :=
  [.addModule, .removeModule, .setParameter, .setBypass, .resetModule, .randomizeModule, .moveModule,
   .connect, .disconnect, .disconnectPort, .duplicateModule]

def OpType.ofName (name : String) : OpType :=
  (known.find? (·.name == name)).getD (.other name)

theorem OpType.name_ofName (name : String) : (OpType.ofName name).name = name := by
  unfold OpType.ofName
  cases h : known.find? (·.name == name) with
  | none => rfl
  | some t => simpa using List.find?_some h

/-- The operation's type, `jstr(op, "op")`. -/
def opType (op : Json) : OpType := .ofName (jstr op "op")

theorem name_opType (op : Json) : (opType op).name = jstr op "op" := OpType.name_ofName _

/-- Why an operation was refused: the wire error code and its message. -/
structure ValidationError where
  code : ErrorCode
  message : String
deriving DecidableEq

/-- What the plan has been found to do so far. -/
structure PreviewState where
  aliases : AliasMap := ∅
  nextSyntheticId : Int := -1000
  addedModules : List (String × String × String) := []
  removedModules : List Int := []
  movedModules : List Int := []
  modifiedModules : List Int := []
  addedCables : Nat := 0
  removedCables : List Int := []
  replacedInputs : List (Int × Int) := []
  stackedInputs : List (Int × Int) := []
  claimedInputs : List (Int × Int) := []
  plannedBoxes : AList (fun _ : Int => Layout.Box) := ∅
  layoutUncertain : Bool := false
  removesBridge : Bool := false
  touchesAudio : Bool := false
  missingModule : Bool := false
  adapterUncertainty : Bool := false
  possibleFeedback : Bool := false

namespace PreviewState

/-- Records a cable the plan removes. -/
def removeCable (st : PreviewState) (cableId : Int) : PreviewState :=
  if cableId ∈ st.removedCables then st
  else { st with removedCables := st.removedCables ++ [cableId] }

/-- `removeCable` for each id of a list, in order. -/
def removeCables (st : PreviewState) (cableIds : List Int) : PreviewState :=
  cableIds.foldl removeCable st

def inputClaimed (st : PreviewState) (moduleId portId : Int) : Bool :=
  st.claimedInputs.contains (moduleId, portId)

end PreviewState

/-- A module of the snapshot the plan has not already removed. -/
def liveModule (world : PlanWorld) (st : PreviewState) (moduleId : Int) : Option WorldModule :=
  if moduleId ∈ st.removedModules then none else world.module moduleId

/-- `positionFree` given what earlier operations of the plan did to the layout. -/
def positionFree (world : PlanWorld) (st : PreviewState) (selfIndex : Option Nat) (box : Layout.Box) :
    Bool :=
  Layout.positionFree world.occupants selfIndex box
    { removedModules := st.removedModules, plannedBoxes := st.plannedBoxes }

/-- The result of validating one operation. -/
abbrev Verdict := Outcome ValidationError PreviewState

/-- Refuses with a code and a message. -/
def refuse (code : ErrorCode) (message : String) (st : PreviewState) : Verdict :=
  .thrown ⟨code, message⟩ st

/-- The `add_module` branch. -/
def validateAdd (op : Json) (world : PlanWorld) (st : PreviewState) : Verdict :=
  let pslug := jstr op "pluginSlug"
  let mslug := jstr op "modelSlug"
  let name := jstr op "alias"
  if ¬ world.modelInstalled pslug mslug then
    refuse .modelNotInstalled ("model " ++ pslug ++ "/" ++ mslug ++ " is not installed")
      { st with missingModule := true }
  else if name = "" ∨ name ∈ st.aliases then
    refuse .badRequest ("duplicate or empty transaction alias '" ++ name ++ "'") st
  else
    .done { st with
      aliases := st.aliases.insert name st.nextSyntheticId
      nextSyntheticId := st.nextSyntheticId - 1
      addedModules := st.addedModules ++ [(name, pslug, mslug)]
      layoutUncertain := true
      touchesAudio := st.touchesAudio || (pslug == "Core" && isAudioSlug mslug)
      adapterUncertainty :=
        st.adapterUncertainty || (pslug != "Core" && pslug != "Fundamental" && pslug != "RackMCP") }

/-- The last-Bridge refusal. -/
def lastBridgeRefusal : ValidationError :=
  ⟨.unsupportedOperation,
    "refusing to remove the last RackMCP-Bridge module (set allowLastBridge)"⟩

/-- The `remove_module` branch. -/
def validateRemove (op : Json) (world : PlanWorld) (st : PreviewState) : Verdict :=
  let r := resolveModuleRef (Json.get op "module") st.aliases
  if ¬ r.ok then refuse .moduleNotFound "remove_module: unresolved module reference" st
  else if r.moduleId < 0 then .done st
  else
    match liveModule world st r.moduleId with
    | none => refuse .moduleNotFound ("no module with id " ++ toString r.moduleId) st
    | some m =>
      -- counted against the plan, not against the live patch
      let bridgesLeft := remainingBridgeCount world.modules st.removedModules
      if isBridgeModule m ∧ ¬ jbool op "allowLastBridge" false ∧ bridgesLeft ≤ 1 then
        .thrown lastBridgeRefusal { st with removesBridge := true }
      else
        let st := { st with
          removesBridge := st.removesBridge || isBridgeModule m
          touchesAudio := st.touchesAudio || isAudioModule m }
        let cablePolicy := jstr op "cablePolicy" "remove_attached"
        let attached := cablesOnModule world.cables st.removedCables r.moduleId
        if attached ≠ [] ∧ cablePolicy = "fail_if_connected" then
          refuse .validationFailed ("remove_module: module " ++ toString r.moduleId ++
            " has attached cables (policy fail_if_connected)") st
        else
          let st := st.removeCables attached
          .done { st with removedModules := st.removedModules ++ [r.moduleId] }

/-- The `set_parameter` / `set_bypass` / `reset_module` / `randomize_module` branch. -/
def validateModify (type : OpType) (op : Json) (world : PlanWorld) (st : PreviewState) : Verdict :=
  let r := resolveModuleRef (Json.get op "module") st.aliases
  if ¬ r.ok then refuse .moduleNotFound (type.name ++ ": unresolved module reference") st
  else if r.moduleId < 0 then
    .done { st with modifiedModules := st.modifiedModules ++ [r.moduleId] }
  else
    match liveModule world st r.moduleId with
    | none => refuse .moduleNotFound ("no module with id " ++ toString r.moduleId) st
    | some m =>
      let modified := { st with modifiedModules := st.modifiedModules ++ [r.moduleId] }
      if type = .setParameter then
        match readIntField op "paramId" with
        | .error ierr => refuse .badRequest ("set_parameter: " ++ ierr) st
        | .ok paramId =>
          if paramId < 0 ∨ paramId ≥ m.paramCount then
            refuse .parameterNotFound ("param " ++ toString paramId ++ " out of range") st
          else .done modified
      else .done modified

/-- The `move_module` branch. -/
def validateMove (op : Json) (world : PlanWorld) (st : PreviewState) : Verdict :=
  let r := resolveModuleRef (Json.get op "module") st.aliases
  if ¬ r.ok then refuse .moduleNotFound "move_module: unresolved module reference" st
  else
    let policy := jstr op "collision" "nearest"
    let moved (st : PreviewState) : Verdict :=
      .done { st with movedModules := st.movedModules ++ [r.moduleId] }
    if r.moduleId < 0 then moved st
    else if (liveModule world st r.moduleId).isNone then
      refuse .moduleNotFound ("no module with id " ++ toString r.moduleId) st
    else
      match world.widgetIndex r.moduleId with
      | none => moved st
      | some selfIndex =>
        match readGridPosition (Json.get op "position") with
        | .error ierr => refuse .badRequest ("move_module: position " ++ ierr) st
        | .ok (gx, gy) =>
          let size := ((world.occupants[selfIndex]?).map (·.box.size)).getD ⟨0, 0⟩
          let target : Layout.Box := ⟨Layout.gridToPixel gx gy world.grid, size⟩
          -- refuse only when the resulting layout is known exactly
          if policy = "fail" ∧ ¬ st.layoutUncertain ∧ ¬ positionFree world st selfIndex target then
            refuse .validationFailed "move_module: target position is occupied (collision fail)" st
          else if policy = "fail" ∨ policy = "force" then
            moved { st with plannedBoxes := st.plannedBoxes.insert r.moduleId target }
          else moved { st with layoutUncertain := true }

/-- The refusal of a connect into an input that is taken, policy `fail_if_connected`. -/
def inputConnectedRefusal : ValidationError :=
  ⟨.validationFailed, "connect: input already connected (policy fail_if_connected)"⟩

/-- The refusal of a connect into an input that is taken, policy `stack`. -/
def singleCableRefusal : ValidationError :=
  ⟨.unsupportedOperation,
    "VCV Rack inputs accept a single cable; use replace_all or a different input"⟩

/-- The connect's decision about the input, once the references and the port ids are read: `existing`
are the snapshot cables on it and `connected` adds what the plan claimed. -/
def claimInput (op : Json) (inModule inPort : Int) (existing : List Int) (st : PreviewState) : Verdict :=
  let policy := jstr op "inputPolicy" "fail_if_connected"
  let claim (st : PreviewState) : Verdict :=
    .done { st with
      claimedInputs := st.claimedInputs ++ [(inModule, inPort)]
      addedCables := st.addedCables + 1 }
  if st.inputClaimed inModule inPort ∨ existing ≠ [] then
    if policy = "fail_if_connected" then .thrown inputConnectedRefusal st
    else if policy = "stack" then .thrown singleCableRefusal st
    else
      -- replace_all: the existing cables go away
      let st := if existing ≠ [] then
        { st with replacedInputs := st.replacedInputs ++ [(inModule, inPort)] } else st
      claim (st.removeCables existing)
  else claim st

/-- The `connect` branch. -/
def validateConnect (op : Json) (world : PlanWorld) (st : PreviewState) : Verdict :=
  let outRef := Json.get op "output"
  let inRef := Json.get op "input"
  let out := resolveModuleRef (Json.get outRef "module") st.aliases
  let inp := resolveModuleRef (Json.get inRef "module") st.aliases
  if ¬ out.ok ∨ ¬ inp.ok then
    refuse .moduleNotFound "connect: unresolved output/input reference" st
  else
    match readIntField outRef "portId" with
    | .error ierr => refuse .badRequest ("connect: output " ++ ierr) st
    | .ok outId =>
    match readIntField inRef "portId" with
    | .error ierr => refuse .badRequest ("connect: input " ++ ierr) st
    | .ok inId =>
    -- synthetic modules are validated at apply
    let outModule := liveModule world st out.moduleId
    if out.moduleId ≥ 0 ∧ ¬ (∃ m ∈ outModule, 0 ≤ outId ∧ outId < m.outputCount) then
      refuse .portNotFound "connect: output port out of range" st
    else
      let st := { st with
        touchesAudio := st.touchesAudio || (decide (out.moduleId ≥ 0) && outModule.any isAudioModule) }
      if inp.moduleId < 0 then claimInput op inp.moduleId inId [] st
      else
        let inModule := liveModule world st inp.moduleId
        if ¬ (∃ m ∈ inModule, 0 ≤ inId ∧ inId < m.inputCount) then
          refuse .portNotFound "connect: input port out of range" st
        else
          let st := { st with touchesAudio := st.touchesAudio || inModule.any isAudioModule }
          claimInput op inp.moduleId inId
            (cablesOnPort world.cables st.removedCables inp.moduleId "input" inId) st

/-- The `disconnect` branch. -/
def validateDisconnect (op : Json) (world : PlanWorld) (st : PreviewState) : Verdict :=
  let cidStr := jstr (Json.get op "cable") "cableId"
  match parseDecimalId cidStr with
  | none => refuse .cableNotFound ("disconnect: no cable " ++ cidStr) st
  | some cid =>
    if ¬ world.hasCable cid then refuse .cableNotFound ("disconnect: no cable " ++ cidStr) st
    else if cid ∈ st.removedCables then
      refuse .cableNotFound ("disconnect: cable " ++ cidStr ++
        " is already removed by an earlier operation in this plan") st
    else .done (st.removeCable cid)

/-- The cables a port disconnect takes: all matches, or only the last one for policy `top`. -/
def selectMatches (policy : String) (found : List Int) : List Int :=
  if policy = "top" then found.getLast?.toList else found

/-- The `disconnect_port` branch. -/
def validateDisconnectPort (op : Json) (world : PlanWorld) (st : PreviewState) : Verdict :=
  let portRef := Json.get op "port"
  let r := resolveModuleRef (Json.get portRef "module") st.aliases
  if ¬ r.ok ∧ r.moduleId < 0 then refuse .moduleNotFound "disconnect_port: unresolved module" st
  else if r.moduleId < 0 then .done st
  else
    match liveModule world st r.moduleId with
    | none => refuse .moduleNotFound ("no module with id " ++ toString r.moduleId) st
    | some m =>
      let st := { st with touchesAudio := st.touchesAudio || isAudioModule m }
      match readIntField portRef "portId" with
      | .error ierr => refuse .badRequest ("disconnect_port: " ++ ierr) st
      | .ok portId =>
        let ptype := jstr portRef "portType"
        if ptype ≠ "input" ∧ ptype ≠ "output" then
          refuse .badRequest ("disconnect_port: portType must be \"input\" or \"output\", not \"" ++
            ptype ++ "\"") st
        else
          let found := cablesOnPort world.cables st.removedCables r.moduleId ptype portId
          .done (st.removeCables (selectMatches (jstr op "policy" "all") found))

/-- The branches of `validateOne` after the shape check. -/
def validateBranch (op : Json) (world : PlanWorld) (st : PreviewState) : Verdict :=
  match opType op with
  | .addModule => validateAdd op world st
  | .removeModule => validateRemove op world st
  | .setParameter => validateModify .setParameter op world st
  | .setBypass => validateModify .setBypass op world st
  | .resetModule => validateModify .resetModule op world st
  | .randomizeModule => validateModify .randomizeModule op world st
  | .moveModule => validateMove op world st
  | .connect => validateConnect op world st
  | .disconnect => validateDisconnect op world st
  | .disconnectPort => validateDisconnectPort op world st
  | .duplicateModule =>
    refuse .unsupportedOperation ("duplicate_module is not implemented; use add_module with " ++
      "explicit set_parameter and connect operations") st
  | .other name => refuse .unsupportedOperation ("unknown operation '" ++ name ++ "'") st

/-- `validateOne`: the shape check, before any accessor can substitute a default, then the branch of
the operation's type. -/
def validateOne (world : PlanWorld) (op : Json) (st : PreviewState) : Verdict :=
  match checkOperationFields op with
  | some shape => refuse .badRequest shape st
  | none => validateBranch op world st

/-- The validation loop of `txnPreview`, with the index of the refused operation. -/
def validateAll (world : PlanWorld) (ops : List Json) : Outcome (Nat × ValidationError) PreviewState :=
  runFrom (validateOne world) 0 ops {}

/-- The effects `txnPreview` hands to `computeRisk`. -/
def planEffects (ops : List Json) (st : PreviewState) : PlanEffects where
  removesBridge := st.removesBridge
  touchesAudio := st.touchesAudio
  missingModule := st.missingModule
  adapterUncertainty := st.adapterUncertainty
  possibleFeedback := st.possibleFeedback
  randomizes := ops.any fun op : Json => jstr op "op" == "randomize_module"
  removedModules := st.removedModules.length
  removedCables := st.removedCables.length
  replacedInputs := st.replacedInputs.length
  stackedInputs := st.stackedInputs.length
  operationCount := ops.length

end RackMcp
