import RackMcp.Core.Validate
import RackMcp.Lib.Keyed

/-!
# The live patch and the parts of Rack the applier calls

`Patch` is what the engine and the rack hold: modules, panels and cables. `Rack` collects what Rack
and the installed plugins decide: which models exist and what their constructors do, the ids the
engine hands out, where it lists a new cable, where panels land, what a parameter reads after it is
set, what a history action's undo does, and the patch fingerprint. `Action` is a history action with
the change it recorded, and `Action.invert` the exact inverse of that change.
-/

namespace RackMcp

open Outcomes
open Layout (Occupant Point)

/-- An RGBA cable color. -/
structure Color where
  r : Nat
  g : Nat
  b : Nat
  a : Nat
deriving DecidableEq

/-- `ParamQuantity`: the declared range of a parameter. -/
structure ParamQuantity where
  minValue : Double
  maxValue : Double
deriving DecidableEq

/-- What a module's JSON carries: parameter values, bypass flag and opaque data. -/
structure ModuleState where
  values : List Double
  bypassed : Bool
  data : String
deriving DecidableEq

/-- An engine module; one quantity slot per parameter. -/
structure Module where
  id : Int
  pluginSlug : String
  modelSlug : String
  quantities : List (Option ParamQuantity)
  inputs : Nat
  outputs : Nat
  state : ModuleState
deriving DecidableEq

/-- An engine cable and the color of its CableWidget, if it has one. -/
structure Cable where
  plan : PlanCable
  widget : Option Color
deriving DecidableEq

def Cable.id (c : Cable) : Int := c.plan.id

/-- The live patch. -/
structure Patch where
  modules : List Module
  panels : List Occupant
  cables : List Cable
deriving DecidableEq

namespace Patch

/-- `Engine::getModule`. -/
def module (p : Patch) (id : Int) : Option Module := p.modules.find? (·.id == id)

/-- `RackWidget::getModule`: the panel of a module, with the module it owns. -/
def widget (p : Patch) (id : Int) : Option (Module × Occupant) :=
  match p.panels.find? (·.moduleId == some id), p.module id with
  | some panel, some m => some (m, panel)
  | _, _ => none

/-- `Engine::getCable`. -/
def cable (p : Patch) (id : Int) : Option Cable := p.cables.find? (·.id == id)

/-- Changes the state of one module. -/
def setState (p : Patch) (id : Int) (f : ModuleState → ModuleState) : Patch :=
  { p with modules := Keyed.update Module.id id (fun m => { m with state := f m.state }) p.modules }

/-- Takes a module and its panel away. -/
def dropModule (p : Patch) (id : Int) : Patch :=
  { p with
    modules := p.modules.filter (·.id ≠ id)
    panels := p.panels.filter (·.moduleId ≠ some id) }

/-- Takes a cable away. -/
def dropCable (p : Patch) (id : Int) : Patch := { p with cables := p.cables.filter (·.id ≠ id) }

/-- Puts panels at new positions; a panel without a module is never moved. -/
def movePanels (p : Patch) (place : Int → Point → Point) : Patch :=
  { p with panels := p.panels.map fun o =>
      match o.moduleId with
      | none => o
      | some id => { o with box := { o.box with pos := place id o.box.pos } } }

/-- The same patch: the same modules, panels and cables, in whatever order they are listed. -/
def Same (p q : Patch) : Prop :=
  p.modules.Perm q.modules ∧ p.panels.Perm q.panels ∧ p.cables.Perm q.cables

end Patch

/-! ### History actions -/

/-- One `ModuleMove` of a drag action. -/
structure ModuleMove where
  moduleId : Int
  oldPos : Point
  newPos : Point
deriving DecidableEq

/-- A history action, with the change it recorded. -/
inductive Action where
  | moduleAdd (moduleId : Int)
  | moduleRemove (module : Module) (panel : Occupant)
  | drag (moves : List ModuleMove)
  | moduleBypass (moduleId : Int) (bypassed : Bool)
  | moduleChange (moduleId : Int) (oldState newState : ModuleState)
  | paramChange (moduleId : Int) (paramId : Nat) (oldValue newValue : Double)
  | cableAdd (cable : Cable)
  | cableRemove (cable : Cable)
deriving DecidableEq

/-- Where a drag action puts a panel back. -/
def oldPosition (moves : List ModuleMove) (id : Int) (pos : Point) : Point :=
  match moves.find? (·.moduleId == id) with
  | some move => move.oldPos
  | none => pos

/-- The exact inverse of the recorded change; `relist` is where the engine lists a cable it is given. -/
def Action.invert (relist : List Cable → Cable → List Cable) (a : Action) (p : Patch) : Patch :=
  match a with
  | .moduleAdd id => p.dropModule id
  | .moduleRemove m panel => { p with modules := p.modules ++ [m], panels := p.panels ++ [panel] }
  | .drag moves => p.movePanels (oldPosition moves)
  | .moduleBypass id bypassed => p.setState id fun st => { st with bypassed := !bypassed }
  | .moduleChange id oldState _ => p.setState id fun _ => oldState
  | .paramChange id paramId oldValue _ =>
    p.setState id fun st => { st with values := st.values.set paramId oldValue }
  | .cableAdd c => p.dropCable c.id
  | .cableRemove c => { p with cables := relist p.cables c }

/-! ### Rack -/

/-- What a model's constructors give: the module (`createModule`, none for NULL), the size of its
panel or the error of its widget, and the error of `RackWidget::addModule`, which refuses a bad panel
size. -/
structure Model where
  module : Option (List (Option ParamQuantity) × Nat × Nat × ModuleState)
  widget : Except String Point
  addError : Option String

/-- What Rack and the installed plugins decide. -/
structure Rack where
  grid : Layout.Grid
  getModel : String → String → Option Model
  /-- The ids the engine gives to the modules and cables it is handed, in order. -/
  moduleIds : Nat → Int
  cableIds : Nat → Int
  /-- The engine's cable list after it was given a cable. -/
  relist : List Cable → Cable → List Cable
  /-- `requestModulePos` accepts the position. -/
  requestModulePos : List Occupant → Int → Point → Bool
  /-- Where each panel is after `setModulePosForce`, `setModulePosSqueeze`, `setModulePosNearest`. -/
  setModulePosForce : List Occupant → Int → Point → Int → Point → Point
  setModulePosSqueeze : List Occupant → Int → Point → Int → Point → Point
  setModulePosNearest : List Occupant → Int → Point → Int → Point → Point
  /-- The cast of a double to a float, and `minValue + n * (maxValue - minValue)` in floats. -/
  toFloat : Double → Double
  scale : ParamQuantity → Double → Double
  /-- The value a parameter reads after it was set, and after it was given a display string. -/
  setValue : Module → Nat → Double → Double
  setDisplayValueString : Module → Nat → String → Double
  /-- The module's state after `resetModule` and `randomizeModule`. -/
  resetModule : Module → ModuleState
  randomizeModule : Module → ModuleState
  /-- `Action::undo`. -/
  undo : Action → Patch → Outcome String Patch
  /-- `canonicalFingerprint` of a plan, and the patch fingerprint (none when a module throws). -/
  canonicalFingerprint : Json → String
  computePatchFingerprint : Patch → Option String

/-- A patch and the Rack it runs in: ids are unique, what the plan adds gets fresh ids, and the engine lists
exactly the cables it was given. -/
structure RackPatch where
  rack : Rack
  patch : Patch
  moduleIds_nodup : (patch.modules.map (·.id)).Nodup
  cableIds_nodup : (patch.cables.map (·.id)).Nodup
  moduleIds_injective : rack.moduleIds.Injective
  cableIds_injective : rack.cableIds.Injective
  module_fresh : ∀ n, rack.moduleIds n ∉ patch.modules.map (·.id)
  cable_fresh : ∀ n, rack.cableIds n ∉ patch.cables.map (·.id)
  relist_perm : ∀ cs c, (rack.relist cs c).Perm (c :: cs)

/-! ### The snapshot -/

/-- `toWorldModule`. -/
def toWorldModule (m : Module) : WorldModule :=
  ⟨m.id, m.pluginSlug, m.modelSlug, m.quantities.length, m.inputs, m.outputs⟩

/-- The models the plan names that `getModel` resolves. -/
def installedModels (rack : Rack) (ops : List Json) : List (String × String) :=
  (ops.filter fun op : Json => jstr op "op" == "add_module").filterMap fun op : Json =>
    let slugs := (jstr op "pluginSlug", jstr op "modelSlug")
    (rack.getModel slugs.1 slugs.2).map fun _ => slugs

/-- `snapshotWorld`. -/
def snapshotWorld (rack : Rack) (p : Patch) (ops : List Json) : PlanWorld where
  installedModels := installedModels rack ops
  modules := p.modules.map toWorldModule
  occupants := p.panels
  cables := p.cables.map (·.plan)
  grid := rack.grid

end RackMcp
