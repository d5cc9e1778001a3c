import RackMcp.Rackside.Patch

/-!
# Applying a plan

`Applier` of `rackside/Transaction.cpp`: the second interpreter of the operations, on the live patch.
Each mutation pushes a history action; a throw leaves the patch as it is, for `runInverses` to undo.
-/

namespace RackMcp

open Gen Outcomes
open Layout (Occupant Point)

/-- An entry of the commit's `applied` list. -/
structure AppliedOp where
  op : String
  summary : String
deriving DecidableEq

/-- The applier with the patch it works on. `modulesMade` and `cablesMade` count the ids the engine
has handed out, and `randomized` the modules `Engine::randomizeModule` was called on. -/
structure Applier where
  patch : Patch
  modulesMade : Nat := 0
  cablesMade : Nat := 0
  aliasMap : AliasMap := ∅
  actions : List Action := []
  applied : List AppliedOp := []
  randomized : List Int := []
deriving DecidableEq

/-- The result of applying one operation. -/
abbrev Applied := Outcome String Applier

namespace Applier

variable (rack : Rack)

/-- Pushes a history action. -/
def push (s : Applier) (a : Action) : Applier := { s with actions := s.actions ++ [a] }

/-- Records a finished operation. -/
def record (s : Applier) (op summary : String) : Applier :=
  { s with applied := s.applied ++ [⟨op, summary⟩] }

/-- `resolve`: the module id a reference names. -/
def resolve (s : Applier) (ref : Option Json) : Option Int :=
  let r := resolveModuleRef ref s.aliasMap
  if r.ok then some r.moduleId else none

/-- `resolve`, throwing when the reference does not resolve. -/
def resolving (s : Applier) (ref : Option Json) (next : Int → Applied) : Applied :=
  match s.resolve ref with
  | none => .thrown "unresolved module reference" s
  | some id => next id

/-- The moves `getModuleDragAction` finds after a placement. -/
def dragMoves (before : List Occupant) (place : Int → Point → Point) : List ModuleMove :=
  before.filterMap fun o => o.moduleId.bind fun id =>
    if place id o.box.pos = o.box.pos then none else some ⟨id, o.box.pos, place id o.box.pos⟩

/-- A placement call followed by `pushModuleDragAction`; `extra` are the actions pushed in between. -/
def placePanels (s : Applier) (place : Int → Point → Point) (extra : List Action) : Applier :=
  let moves := dragMoves s.patch.panels place
  { s with
    patch := s.patch.movePanels place
    actions := s.actions ++ extra ++ (if moves = [] then [] else [.drag moves]) }

/-- `setParamValue`. -/
def setParamValue (moduleId : Int) (paramId : Nat) (spec : Json) (s : Applier) : Applied :=
  match s.patch.module moduleId with
  | none => .thrown "module gone during set_parameter" s
  | some m =>
    let pq := (m.quantities[paramId]?).join
    let oldValue := (m.state.values[paramId]?).getD (.finite 0)
    let write (newValue : Double) : Applied :=
      let read := rack.setValue m paramId newValue
      .done <| { s with
        patch := s.patch.setState moduleId fun st => { st with values := st.values.set paramId read } }.push
          (.paramChange moduleId paramId oldValue read)
    match readParamTarget spec with
    | .error err => .thrown ("set_parameter: " ++ err) s
    | .ok (.value number) => write (rack.toFloat number)
    | .ok target =>
      match pq, target with
      | none, _ =>
        .thrown ("set_parameter: param " ++ toString paramId ++ " on module " ++ toString moduleId ++
          " has no quantity, so \"normalized\" and \"display\" cannot be interpreted; use \"value\"") s
      | some quantity, .normalized number => write (rack.scale quantity number)
      | some _, .display text => write (rack.setDisplayValueString m paramId text)
      | some _, .value number => write (rack.toFloat number)

/-- `setBypassValue`. -/
def setBypassValue (moduleId : Int) (bypassed : Bool) (s : Applier) : Applied :=
  match s.patch.module moduleId with
  | none => .thrown "module gone during set_bypass" s
  | some m =>
    if m.state.bypassed = bypassed then .done s
    else
      .done <| { s with
        patch := s.patch.setState moduleId fun st => { st with bypassed := bypassed } }.push
          (.moduleBypass moduleId bypassed)

/-- One entry of `initialParams`. -/
def setInitialParam (moduleId : Int) (paramCount : Nat) (mslug : String) (entry : Json × Nat)
    (s : Applier) : Applied :=
  let place := "add_module: initialParams[" ++ toString entry.2 ++ "] "
  match readIntField entry.1 "paramId" with
  | .error ierr => .thrown (place ++ ierr) s
  | .ok paramId =>
    if paramId < 0 ∨ paramId ≥ paramCount then
      .thrown (place ++ "param " ++ toString paramId ++ " out of range (" ++ mslug ++ " has " ++
        toString paramCount ++ ")") s
    else setParamValue rack moduleId paramId.toNat entry.1 s

/-- The placement of a new panel: its position, or the message of a bad `position`. -/
def addPosition (op : Json) (panels : List Occupant) : Except String Point :=
  if jstr op "placement" "auto" = "at" ∧ jhasKey op "position" then
    match readGridPosition (Json.get op "position") with
    | .error ierr => .error ("add_module: position " ++ ierr)
    | .ok (gx, gy) => .ok (Layout.gridToPixel gx gy rack.grid)
  else .ok ⟨Layout.rightmostEdge panels rack.grid, (Layout.gridToPixel 0 0 rack.grid).y⟩

/-- The entries of `initialParams`, none when the field is no array. -/
def initialParams (op : Json) : List Json :=
  match Json.get op "initialParams" with
  | some (.array items) => items
  | _ => []

/-- `applyAdd` once the widget is on the rack: placement, history, initial parameters, bypass. -/
def finishAdd (op : Json) (m : Module) (s : Applier) : Applied :=
  match addPosition rack op s.patch.panels with
  | .error err => .thrown err s
  | .ok pos =>
    let s := s.placePanels (rack.setModulePosForce s.patch.panels m.id pos) [.moduleAdd m.id]
    let s := { s with aliasMap := s.aliasMap.insert (jstr op "alias") m.id }
    (forEach (setInitialParam rack m.id m.quantities.length m.modelSlug) (initialParams op).zipIdx s).bind
      fun s =>
    (if jbool op "bypassed" false then setBypassValue m.id true s else .done s).bind fun s =>
    .done (s.record "add_module" (m.pluginSlug ++ "/" ++ m.modelSlug ++ " -> id " ++ toString m.id))

/-- `applyAdd`. -/
def applyAdd (op : Json) (s : Applier) : Applied :=
  let pslug := jstr op "pluginSlug"
  let mslug := jstr op "modelSlug"
  match rack.getModel pslug mslug with
  | none => .thrown ("model not installed: " ++ pslug ++ "/" ++ mslug) s
  | some model =>
    match model.module with
    | none => .thrown ("failed to create module " ++ mslug) s
    | some (quantities, inputs, outputs, state) =>
      let m : Module := ⟨rack.moduleIds s.modulesMade, pslug, mslug, quantities, inputs, outputs, state⟩
      -- the engine owns the module from here on
      let s := { s with
        modulesMade := s.modulesMade + 1
        patch := { s.patch with modules := s.patch.modules ++ [m] } }
      match model.widget with
      | .error widgetError =>
        .thrown ("failed to create widget for " ++ mslug ++ widgetError)
          { s with patch := s.patch.dropModule m.id }
      | .ok size =>
        match model.addError with
        | some what =>
          .thrown ("failed to add " ++ mslug ++ " to the rack: " ++ what)
            { s with patch := s.patch.dropModule m.id }
        | none =>
          finishAdd rack op m { s with
            patch := { s.patch with panels := s.patch.panels ++ [⟨some m.id, ⟨⟨0, 0⟩, size⟩⟩] } }

/-- `applySetParam`. -/
def applySetParam (op : Json) (s : Applier) : Applied :=
  s.resolving (Json.get op "module") fun id =>
  match readIntField op "paramId" with
  | .error ierr => .thrown ("set_parameter: " ++ ierr) s
  | .ok paramId =>
    if ¬ (∃ m ∈ s.patch.module id, 0 ≤ paramId ∧ paramId < m.quantities.length) then
      .thrown "set_parameter: bad module/param" s
    else
      (setParamValue rack id paramId.toNat op s).bind fun s =>
      .done (s.record "set_parameter" ("module " ++ toString id ++ " param " ++ toString paramId))

/-- `applyBypass`. -/
def applyBypass (op : Json) (s : Applier) : Applied :=
  s.resolving (Json.get op "module") fun id =>
  let bypassed := jbool op "bypassed" true
  (setBypassValue id bypassed s).bind fun s =>
  .done (s.record "set_bypass" ("module " ++ toString id ++ " -> " ++
    (if bypassed then "bypassed" else "active")))

/-- `applyReset`. -/
def applyReset (op : Json) (s : Applier) : Applied :=
  s.resolving (Json.get op "module") fun id =>
  match s.patch.widget id with
  | none => .thrown ("module widget missing for id " ++ toString id) s
  | some (m, _) =>
    let s := { s with patch := s.patch.setState id fun _ => rack.resetModule m }
    .done ((s.push (.moduleChange id m.state (rack.resetModule m))).record "reset_module"
      ("module " ++ toString id))

/-- `applyRandomize`. -/
def applyRandomize (op : Json) (s : Applier) : Applied :=
  s.resolving (Json.get op "module") fun id =>
  match s.patch.module id with
  | none => .thrown "randomize_module: module gone" s
  | some m =>
    let s := { s with
      patch := s.patch.setState id fun _ => rack.randomizeModule m
      randomized := s.randomized ++ [id] }
    .done ((s.push (.moduleChange id m.state (rack.randomizeModule m))).record "randomize_module"
      ("module " ++ toString id))

/-- Where the panels are after a move with this collision policy; none when Rack refuses it. -/
def movePlacement (policy : String) (panels : List Occupant) (id : Int) (target : Point) :
    Option (Int → Point → Point) :=
  if policy = "fail" then
    if rack.requestModulePos panels id target then
      some fun other pos => if other = id then target else pos
    else none
  else if policy = "force" then some (rack.setModulePosForce panels id target)
  else if policy = "squeeze" then some (rack.setModulePosSqueeze panels id target)
  else some (rack.setModulePosNearest panels id target)

/-- `applyMove`. -/
def applyMove (op : Json) (s : Applier) : Applied :=
  s.resolving (Json.get op "module") fun id =>
  match s.patch.widget id with
  | none => .thrown ("module widget missing for id " ++ toString id) s
  | some _ =>
    match readGridPosition (Json.get op "position") with
    | .error ierr => .thrown ("move_module: position " ++ ierr) s
    | .ok (gx, gy) =>
      let target := Layout.gridToPixel gx gy rack.grid
      match movePlacement rack (jstr op "collision" "nearest") s.patch.panels id target with
      | none => .thrown "move_module: position occupied (collision fail)" s
      | some place =>
        .done ((s.placePanels place []).record "move_module" ("module " ++ toString id))

/-- `removeCableById`: a cable without a widget stays. -/
def removeCableById (s : Applier) (cableId : Int) : Applier :=
  match s.patch.cable cableId with
  | some c =>
    if c.widget.isSome then
      { s with patch := s.patch.dropCable cableId }.push (.cableRemove c)
    else s
  | none => s

/-- `removeCableById` for each id of a list, in order. -/
def removeCables (s : Applier) (cableIds : List Int) : Applier := cableIds.foldl removeCableById s

/-- The value of a hexadecimal digit; 0 for anything else. -/
def hexDigit (c : UInt8) : Nat :=
  if 48 ≤ c ∧ c ≤ 57 then c.toNat - 48
  else if 97 ≤ c ∧ c ≤ 102 then c.toNat - 97 + 10
  else if 65 ≤ c ∧ c ≤ 70 then c.toNat - 65 + 10
  else 0

/-- `parseColor`: "#rrggbb" or "#rrggbbaa", else a default. -/
def parseColor (hex : String) : Color :=
  let bytes := utf8 hex
  let hx (i : Nat) := hexDigit (bytes.getD i 0) * 16 + hexDigit (bytes.getD (i + 1) 0)
  if bytes.length ≥ 7 ∧ bytes.head? = some 35 then
    ⟨hx 1, hx 3, hx 5, if bytes.length ≥ 9 then hx 7 else 255⟩
  else ⟨0xc8, 0x54, 0x2a, 255⟩

/-- The live cables on an input port. -/
def inputCables (p : Patch) (moduleId portId : Int) : List Int :=
  (p.cables.filter (·.plan.entersPort moduleId portId)).map (·.id)

/-- Adds a cable to the engine and the rack, and pushes its `CableAdd`. -/
def addCable (color : Color) (outId outPort inId inPort : Int) (s : Applier) : Applier :=
  let c : Cable := ⟨.connected (rack.cableIds s.cablesMade) outId outPort inId inPort, some color⟩
  { s with
    cablesMade := s.cablesMade + 1
    patch := { s.patch with cables := rack.relist s.patch.cables c } }.push (.cableAdd c)

/-- `applyConnect`. -/
def applyConnect (op : Json) (s : Applier) : Applied :=
  let outRef := Json.get op "output"
  let inRef := Json.get op "input"
  s.resolving (Json.get outRef "module") fun outId =>
  s.resolving (Json.get inRef "module") fun inId =>
  match readIntField outRef "portId" with
  | .error ierr => .thrown ("connect: output " ++ ierr) s
  | .ok outPort =>
  match readIntField inRef "portId" with
  | .error ierr => .thrown ("connect: input " ++ ierr) s
  | .ok inPort =>
  match s.patch.module outId, s.patch.module inId with
  | some outMod, some inMod =>
    if outPort < 0 ∨ outPort ≥ outMod.outputs ∨ inPort < 0 ∨ inPort ≥ inMod.inputs then
      .thrown "connect: port out of range" s
    else
      let policy := jstr op "inputPolicy" "fail_if_connected"
      let existing := inputCables s.patch inId inPort
      if existing ≠ [] ∧ policy = "fail_if_connected" then
        .thrown "connect: input already connected" s
      else if existing ≠ [] ∧ policy = "stack" then
        .thrown "connect: Rack inputs take one cable; use replace_all" s
      else
        let s := (s.removeCables existing).addCable rack (parseColor (jstr op "color"))
          outId outPort inId inPort
        .done (s.record "connect" (toString outId ++ ":" ++ toString outPort ++ " -> " ++
          toString inId ++ ":" ++ toString inPort))
  | _, _ => .thrown "connect: module missing" s

/-- `applyDisconnect`. -/
def applyDisconnect (op : Json) (s : Applier) : Applied :=
  let cidStr := jstr (Json.get op "cable") "cableId"
  match (parseDecimalId cidStr).bind s.patch.cable with
  | none => .thrown ("disconnect: no cable " ++ cidStr) s
  | some c => .done ((s.removeCableById c.id).record "disconnect" ("cable " ++ cidStr))

/-- The live cables on a port. -/
def portCables (p : Patch) (moduleId : Int) (portType : String) (portId : Int) : List Int :=
  (p.cables.filter (·.plan.onPort moduleId portType portId)).map (·.id)

/-- `applyDisconnectPort`. -/
def applyDisconnectPort (op : Json) (s : Applier) : Applied :=
  let portRef := Json.get op "port"
  s.resolving (Json.get portRef "module") fun id =>
  match readIntField portRef "portId" with
  | .error ierr => .thrown ("disconnect_port: " ++ ierr) s
  | .ok portId =>
    let ptype := jstr portRef "portType" "input"
    let found := portCables s.patch id ptype portId
    .done ((s.removeCables (selectMatches (jstr op "policy" "all") found)).record "disconnect_port"
      ("module " ++ toString id ++ " " ++ ptype ++ " " ++ toString portId))

/-- The live cables attached to a module. -/
def moduleCables (p : Patch) (moduleId : Int) : List Int :=
  (p.cables.filter (·.plan.touches moduleId)).map (·.id)

/-- `applyRemove`. -/
def applyRemove (op : Json) (s : Applier) : Applied :=
  s.resolving (Json.get op "module") fun id =>
  match s.patch.widget id with
  | none => .thrown ("module widget missing for id " ++ toString id) s
  | some (m, panel) =>
    let attached := moduleCables s.patch id
    if attached ≠ [] ∧ jstr op "cablePolicy" "remove_attached" = "fail_if_connected" then
      .thrown "remove_module: module has attached cables (policy fail_if_connected)" s
    else
      -- attached cables first, each recorded for undo
      let s := s.removeCables attached
      let s := { s with patch := s.patch.dropModule id }.push (.moduleRemove m panel)
      .done (s.record "remove_module" ("module " ++ toString id))

/-- One turn of the loop of `Applier::apply`. -/
def applyOne (op : Json) (s : Applier) : Applied :=
  match opType op with
  | .addModule => applyAdd rack op s
  | .removeModule => applyRemove op s
  | .setParameter => applySetParam rack op s
  | .setBypass => applyBypass op s
  | .resetModule => applyReset rack op s
  | .randomizeModule => applyRandomize rack op s
  | .moveModule => applyMove rack op s
  | .connect => applyConnect rack op s
  | .disconnect => applyDisconnect op s
  | .disconnectPort => applyDisconnectPort op s
  | type => .thrown ("operation not implemented in commit: " ++ type.name) s

/-- `Applier::apply`, with the index of the failing operation (`currentIndex`). -/
def apply (ops : List Json) (p : Patch) : Outcome (Nat × String) Applier :=
  runFrom (applyOne rack) 0 ops { patch := p }

end Applier

end RackMcp
