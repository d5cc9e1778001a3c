import RackMcp.Rackside.Applier

/-!
# What one applied operation does

`CommitStep` says, for each operation kind, what a finished `applyOne` found in the state before it
and what it left: the modules as validation sees them (`Patch.shapes`), the module ids of the panels,
the cables, the aliases and the id counters. `applyOne_step` derives it once; the invariants of the
applier and its simulation by the preview are case analyses over it.
-/

namespace RackMcp

open Outcomes

namespace Patch

/-- The modules as validation sees them. -/
def shapes (p : Patch) : List WorldModule := p.modules.map toWorldModule

/-- The module ids of the panels. -/
def panelIds (p : Patch) : List (Option Int) := p.panels.map (·.moduleId)

variable (p : Patch) (id : Int)

@[simp] theorem shapes_setState (f : ModuleState → ModuleState) :
    (p.setState id f).shapes = p.shapes :=
  Keyed.map_update _ toWorldModule fun _ _ _ => rfl

@[simp] theorem panelIds_movePanels (place : Int → Layout.Point → Layout.Point) :
    (p.movePanels place).panelIds = p.panelIds := by
  simp only [panelIds, movePanels, List.map_map]
  refine List.map_congr_left fun o _ => ?_
  rcases o with ⟨_ | _, _⟩ <;> rfl

@[simp] theorem shapes_dropModule :
    (p.dropModule id).shapes = p.shapes.filter (·.id ≠ id) := by
  rw [shapes, shapes, List.filter_map]
  rfl

@[simp] theorem panelIds_dropModule :
    (p.dropModule id).panelIds = p.panelIds.filter (· ≠ some id) := by
  rw [panelIds, panelIds, List.filter_map]
  rfl

theorem shape_of_module {m : Module} (h : p.module id = some m) :
    toWorldModule m ∈ p.shapes ∧ m.id = id := by
  obtain ⟨hm, hid⟩ := Keyed.mem_of_find? h
  exact ⟨List.mem_map_of_mem hm, hid⟩

theorem mem_shapes_ids : id ∈ p.shapes.map (·.id) ↔ id ∈ p.modules.map (·.id) := by
  simp only [shapes, List.map_map]
  rfl

theorem module_isSome : (p.module id).isSome ↔ id ∈ p.shapes.map (·.id) := by
  rw [mem_shapes_ids]
  exact Keyed.find?_isSome

theorem widget_isSome : (p.widget id).isSome ↔ some id ∈ p.panelIds ∧ id ∈ p.shapes.map (·.id) := by
  have hpanel : (p.panels.find? (·.moduleId == some id)).isSome ↔ some id ∈ p.panelIds :=
    Keyed.find?_isSome
  rw [← hpanel, ← module_isSome, widget]
  cases p.panels.find? (·.moduleId == some id) <;> cases p.module id <;> simp

end Patch

namespace Applier

/-- The two states agree on everything but module states, panel positions, the history actions and
the list of applied operations. -/
structure SameOutline (s s' : Applier) : Prop where
  shapes : s'.patch.shapes = s.patch.shapes
  panelIds : s'.patch.panelIds = s.patch.panelIds
  cables : s'.patch.cables = s.patch.cables
  aliasMap : s'.aliasMap = s.aliasMap
  modulesMade : s'.modulesMade = s.modulesMade
  cablesMade : s'.cablesMade = s.cablesMade
  randomized : s'.randomized = s.randomized

variable {rack : Rack} {s s' : Applier} {op : Json}

theorem SameOutline.refl (s : Applier) : SameOutline s s := ⟨rfl, rfl, rfl, rfl, rfl, rfl, rfl⟩

theorem SameOutline.trans {t : Applier} (h : SameOutline s t) (h' : SameOutline t s') :
    SameOutline s s' :=
  ⟨h'.1.trans h.1, h'.2.trans h.2, h'.3.trans h.3, h'.4.trans h.4, h'.5.trans h.5, h'.6.trans h.6,
    h'.7.trans h.7⟩

theorem resolving_eq_done {ref : Option Json} {next : Int → Applied} :
    s.resolving ref next = .done s' ↔ ∃ id, s.resolve ref = some id ∧ next id = .done s' := by
  rw [resolving]
  split <;> simp_all

/-! ### The parts of an operation -/

theorem setParamValue_outline {moduleId : Int} {paramId : Nat} {spec : Json}
    (h : setParamValue rack moduleId paramId spec s = .done s') : SameOutline s s' := by
  unfold setParamValue at h
  split at h
  · cases h
  · dsimp only at h
    split at h
    · cases h
    · cases h
      exact ⟨by simp [push], rfl, rfl, rfl, rfl, rfl, rfl⟩
    · split at h
      · cases h
      all_goals
        cases h
        exact ⟨by simp [push], rfl, rfl, rfl, rfl, rfl, rfl⟩

theorem setBypassValue_outline {moduleId : Int} {bypassed : Bool}
    (h : setBypassValue moduleId bypassed s = .done s') : SameOutline s s' := by
  unfold setBypassValue at h
  split at h
  · cases h
  · split at h
    · cases h
      exact .refl _
    · cases h
      exact ⟨by simp [push], rfl, rfl, rfl, rfl, rfl, rfl⟩

theorem setInitialParam_outline {moduleId : Int} {paramCount : Nat} {mslug : String} {entry : Json × Nat}
    (h : setInitialParam rack moduleId paramCount mslug entry s = .done s') : SameOutline s s' := by
  unfold setInitialParam at h
  dsimp only at h
  split at h
  · cases h
  · split at h
    · cases h
    · exact setParamValue_outline h

theorem setInitialParams_outline {moduleId : Int} {paramCount : Nat} {mslug : String}
    {entries : List (Json × Nat)}
    (h : Runs (setInitialParam rack moduleId paramCount mslug) entries s s') : SameOutline s s' :=
  h.relation SameOutline.refl (fun _ _ _ => SameOutline.trans) fun _ _ _ _ => setInitialParam_outline

@[simp] theorem removeCableById_modules (cableId : Int) :
    (s.removeCableById cableId).patch.modules = s.patch.modules := by
  unfold removeCableById
  split
  · split <;> rfl
  · rfl

/-- Everything but the cables, the actions and the applied operations is the same. -/
structure SameModules (s s' : Applier) : Prop where
  modules : s'.patch.modules = s.patch.modules
  panels : s'.patch.panels = s.patch.panels
  aliasMap : s'.aliasMap = s.aliasMap
  modulesMade : s'.modulesMade = s.modulesMade
  cablesMade : s'.cablesMade = s.cablesMade
  applied : s'.applied = s.applied
  randomized : s'.randomized = s.randomized

theorem removeCableById_sameModules (cableId : Int) : SameModules s (s.removeCableById cableId) := by
  unfold removeCableById
  split
  · split <;> exact ⟨rfl, rfl, rfl, rfl, rfl, rfl, rfl⟩
  · exact ⟨rfl, rfl, rfl, rfl, rfl, rfl, rfl⟩

theorem removeCables_sameModules (ids : List Int) : SameModules s (s.removeCables ids) := by
  induction ids generalizing s with
  | nil => exact ⟨rfl, rfl, rfl, rfl, rfl, rfl, rfl⟩
  | cons id ids ih =>
    have h := removeCableById_sameModules (s := s) id
    have h' := ih (s := s.removeCableById id)
    exact ⟨h'.1.trans h.1, h'.2.trans h.2, h'.3.trans h.3, h'.4.trans h.4, h'.5.trans h.5,
      h'.6.trans h.6, h'.7.trans h.7⟩

/-- Every cable of the patch has a widget. -/
def AllWidgets (s : Applier) : Prop := ∀ c ∈ s.patch.cables, c.widget.isSome

theorem removeCableById_cables (hw : s.AllWidgets) (id : Int) :
    (s.removeCableById id).patch.cables = s.patch.cables.filter (·.id ≠ id) := by
  unfold removeCableById
  split
  · rename_i c hc
    rw [if_pos (hw c (List.mem_of_find?_eq_some hc))]
    rfl
  · rename_i hnone
    exact (Keyed.filter_ne_eq_self (Keyed.find?_eq_none.mp hnone)).symm

/-- Removing cables by id takes exactly the cables with these ids, when every cable has a widget. -/
theorem removeCables_cables (hw : s.AllWidgets) (ids : List Int) :
    (s.removeCables ids).patch.cables = s.patch.cables.filter (·.id ∉ ids) := by
  induction ids generalizing s with
  | nil => simp [removeCables]
  | cons id ids ih =>
    have hfirst := removeCableById_cables hw id
    have hw' : (s.removeCableById id).AllWidgets := by
      intro c hc
      rw [hfirst] at hc
      exact hw c (List.mem_of_mem_filter hc)
    calc (s.removeCables (id :: ids)).patch.cables
        = ((s.removeCableById id).removeCables ids).patch.cables := rfl
      _ = (s.patch.cables.filter (·.id ≠ id)).filter (·.id ∉ ids) := by rw [ih hw', hfirst]
      _ = s.patch.cables.filter (·.id ∉ id :: ids) := by
        rw [List.filter_filter]
        refine List.filter_congr fun c _ => ?_
        simp [Bool.and_comm]

/-! ### The step -/

/-- The cable an `applyConnect` adds. -/
def newCable (rack : Rack) (s : Applier) (op : Json) (outId outPort inId inPort : Int) : Cable :=
  ⟨.connected (rack.cableIds s.cablesMade) outId outPort inId inPort, some (parseColor (jstr op "color"))⟩

/-- The cables of `s` whose ids are not in `ids`. -/
def survivors (s : Applier) (ids : List Int) : List Cable := s.patch.cables.filter (·.id ∉ ids)

/-- Everything but the cables is the same. -/
structure SameButCables (s s' : Applier) : Prop where
  shapes : s'.patch.shapes = s.patch.shapes
  panelIds : s'.patch.panelIds = s.patch.panelIds
  aliasMap : s'.aliasMap = s.aliasMap
  modulesMade : s'.modulesMade = s.modulesMade
  randomized : s'.randomized = s.randomized

/-- What a finished operation found and what it left. -/
inductive CommitStep (rack : Rack) (op : Json) (s s' : Applier) : Prop where
  | add (kind : opType op = .addModule) (model : Model) (shape : WorldModule)
      (found : rack.getModel (jstr op "pluginSlug") (jstr op "modelSlug") = some model)
      (shape_id : shape.id = rack.moduleIds s.modulesMade)
      (shapes : s'.patch.shapes = s.patch.shapes ++ [shape])
      (panelIds : s'.patch.panelIds = s.patch.panelIds ++ [some shape.id])
      (cables : s'.patch.cables = s.patch.cables)
      (aliasMap : s'.aliasMap = s.aliasMap.insert (jstr op "alias") shape.id)
      (modulesMade : s'.modulesMade = s.modulesMade + 1)
      (cablesMade : s'.cablesMade = s.cablesMade)
      (randomized : s'.randomized = s.randomized)
      (built : ∃ quantities state, shape.paramCount = quantities.length ∧
        model.module = some (quantities, shape.inputCount, shape.outputCount, state))
  | remove (kind : opType op = .removeModule) (id : Int)
      (resolved : s.resolve (Json.get op "module") = some id)
      (widget : (s.patch.widget id).isSome)
      (policy : moduleCables s.patch id = [] ∨
        jstr op "cablePolicy" "remove_attached" ≠ "fail_if_connected")
      (shapes : s'.patch.shapes = s.patch.shapes.filter (·.id ≠ id))
      (panelIds : s'.patch.panelIds = s.patch.panelIds.filter (· ≠ some id))
      (cables : s'.patch.cables = s.survivors (moduleCables s.patch id))
      (aliasMap : s'.aliasMap = s.aliasMap)
      (modulesMade : s'.modulesMade = s.modulesMade)
      (cablesMade : s'.cablesMade = s.cablesMade)
      (randomized : s'.randomized = s.randomized)
  | modify (kind : opType op = .setParameter ∨ opType op = .setBypass ∨ opType op = .resetModule)
      (id : Int) (resolved : s.resolve (Json.get op "module") = some id)
      (m : Module) (found : s.patch.module id = some m)
      (param : opType op = .setParameter →
        ∃ paramId, readIntField op "paramId" = .ok paramId ∧ 0 ≤ paramId ∧
          paramId < m.quantities.length)
      (same : SameOutline s s')
  | randomize (kind : opType op = .randomizeModule) (id : Int)
      (resolved : s.resolve (Json.get op "module") = some id)
      (m : Module) (found : s.patch.module id = some m)
      (same : SameOutline { s with randomized := s.randomized ++ [id] } s')
  | move (kind : opType op = .moveModule) (id : Int)
      (resolved : s.resolve (Json.get op "module") = some id)
      (widget : (s.patch.widget id).isSome)
      (position : ∃ g, readGridPosition (Json.get op "position") = .ok g)
      (same : SameOutline s s')
  | connect (kind : opType op = .connect) (outId inId outPort inPort : Int)
      (output : s.resolve (Json.get (Json.get op "output") "module") = some outId)
      (input : s.resolve (Json.get (Json.get op "input") "module") = some inId)
      (outputPort : readIntField (Json.get op "output") "portId" = .ok outPort)
      (inputPort : readIntField (Json.get op "input") "portId" = .ok inPort)
      (outMod inMod : Module) (outFound : s.patch.module outId = some outMod)
      (inFound : s.patch.module inId = some inMod)
      (outBound : 0 ≤ outPort ∧ outPort < outMod.outputs)
      (inBound : 0 ≤ inPort ∧ inPort < inMod.inputs)
      (policy : inputCables s.patch inId inPort = [] ∨
        (jstr op "inputPolicy" "fail_if_connected" ≠ "fail_if_connected" ∧
          jstr op "inputPolicy" "fail_if_connected" ≠ "stack"))
      (cables : s'.patch.cables = rack.relist (s.survivors (inputCables s.patch inId inPort))
        (newCable rack s op outId outPort inId inPort))
      (cablesMade : s'.cablesMade = s.cablesMade + 1)
      (same : SameButCables s s')
  | disconnect (kind : opType op = .disconnect) (c : Cable)
      (named : (parseDecimalId (jstr (Json.get op "cable") "cableId")).bind s.patch.cable = some c)
      (cables : s'.patch.cables = s.survivors [c.id])
      (cablesMade : s'.cablesMade = s.cablesMade)
      (same : SameButCables s s')
  | disconnectPort (kind : opType op = .disconnectPort) (id portId : Int)
      (resolved : s.resolve (Json.get (Json.get op "port") "module") = some id)
      (port : readIntField (Json.get op "port") "portId" = .ok portId)
      (cables : s'.patch.cables = s.survivors (selectMatches (jstr op "policy" "all")
        (portCables s.patch id (jstr (Json.get op "port") "portType" "input") portId)))
      (cablesMade : s'.cablesMade = s.cablesMade)
      (same : SameButCables s s')

/-! ### Every finished operation is such a step -/

/-- The module that `applyAdd` makes. -/
def newModule (rack : Rack) (s : Applier) (op : Json) (quantities : List (Option ParamQuantity)) (inputs outputs : Nat)
    (state : ModuleState) : Module :=
  ⟨rack.moduleIds s.modulesMade, jstr op "pluginSlug", jstr op "modelSlug", quantities, inputs, outputs, state⟩

/-- An added module joins the others, and its panel theirs. -/
structure AddsModule (op : Json) (m : Module) (s s' : Applier) : Prop where
  shapes : s'.patch.shapes = s.patch.shapes ++ [toWorldModule m]
  panelIds : s'.patch.panelIds = s.patch.panelIds ++ [some m.id]
  cables : s'.patch.cables = s.patch.cables
  aliasMap : s'.aliasMap = s.aliasMap.insert (jstr op "alias") m.id
  modulesMade : s'.modulesMade = s.modulesMade + 1
  cablesMade : s'.cablesMade = s.cablesMade
  randomized : s'.randomized = s.randomized

theorem applyAdd_adds (h : applyAdd rack op s = .done s') :
    ∃ model quantities inputs outputs state, rack.getModel (jstr op "pluginSlug") (jstr op "modelSlug") = some model ∧
      model.module = some (quantities, inputs, outputs, state) ∧
      AddsModule op (newModule rack s op quantities inputs outputs state) s s' := by
  unfold applyAdd at h
  dsimp only at h
  split at h
  · cases h
  rename_i model hmodel
  split at h
  · cases h
  rename_i quantities inputs outputs state hmodule
  split at h
  · cases h
  rename_i size hwidget
  split at h
  · cases h
  unfold finishAdd at h
  split at h
  · cases h
  rename_i pos hpos
  -- initial parameters and bypass keep the outline of the placed module
  obtain ⟨placed, hparams, h⟩ := Outcome.bind_eq_done.mp h
  obtain ⟨bypassed, hbypass, h⟩ := Outcome.bind_eq_done.mp h
  rw [forEach_done_iff] at hparams
  have hsame := setInitialParams_outline hparams
  have hsame' : SameOutline placed bypassed := by
    split at hbypass
    · exact setBypassValue_outline hbypass
    · cases hbypass
      exact .refl _
  cases h
  have hall := hsame.trans hsame'
  refine ⟨model, quantities, inputs, outputs, state, hmodel, hmodule, ?_, ?_, hall.cables, hall.aliasMap,
    hall.modulesMade, hall.cablesMade, hall.randomized⟩
  · refine hall.shapes.trans ?_
    simp [placePanels, Patch.shapes, Patch.movePanels, newModule]
  · refine hall.panelIds.trans ?_
    simp [placePanels, Patch.panelIds_movePanels]
    simp [Patch.panelIds, newModule]

theorem applyAdd_step (kind : opType op = .addModule) (h : applyAdd rack op s = .done s') :
    CommitStep rack op s s' := by
  obtain ⟨model, quantities, inputs, outputs, state, hmodel, hmodule, hadds⟩ := applyAdd_adds h
  exact .add kind model (toWorldModule (newModule rack s op quantities inputs outputs state)) hmodel rfl hadds.shapes
    hadds.panelIds hadds.cables hadds.aliasMap hadds.modulesMade hadds.cablesMade hadds.randomized
    ⟨quantities, state, rfl, hmodule⟩

theorem applyRemove_step (hw : s.AllWidgets) (kind : opType op = .removeModule)
    (h : applyRemove op s = .done s') : CommitStep rack op s s' := by
  obtain ⟨id, hresolved, h⟩ := resolving_eq_done.mp h
  split at h
  · cases h
  rename_i m panel hwidget
  dsimp only at h
  split at h
  · cases h
  rename_i hpolicy
  cases h
  have hsame := removeCables_sameModules (s := s) (moduleCables s.patch id)
  refine .remove kind id hresolved (by simp [hwidget]) ?_ ?_ ?_ ?_ hsame.aliasMap hsame.modulesMade
    hsame.cablesMade hsame.randomized
  · by_cases hnil : moduleCables s.patch id = []
    · exact .inl hnil
    · exact .inr fun hfail => hpolicy ⟨hnil, hfail⟩
  · simp [push, record, Patch.shapes_dropModule]
    simp [Patch.shapes, hsame.modules]
  · simp [push, record, Patch.panelIds_dropModule]
    simp [Patch.panelIds, hsame.panels]
  · exact removeCables_cables hw _

theorem applyConnect_step (hw : s.AllWidgets) (kind : opType op = .connect)
    (h : applyConnect rack op s = .done s') : CommitStep rack op s s' := by
  obtain ⟨outId, houtput, h⟩ := resolving_eq_done.mp h
  obtain ⟨inId, hinput, h⟩ := resolving_eq_done.mp h
  split at h
  · cases h
  rename_i outPort houtPort
  split at h
  · cases h
  rename_i inPort hinPort
  split at h
  · rename_i outMod inMod houtMod hinMod
    split at h
    · cases h
    rename_i hbound
    dsimp only at h
    split at h
    · cases h
    rename_i hfail
    split at h
    · cases h
    rename_i hstack
    cases h
    have hsame := removeCables_sameModules (s := s) (inputCables s.patch inId inPort)
    refine .connect kind outId inId outPort inPort houtput hinput houtPort hinPort outMod inMod houtMod
      hinMod (by omega) (by omega) ?_ ?_ ?_ ⟨?_, ?_, hsame.aliasMap, hsame.modulesMade, hsame.randomized⟩
    · by_cases hnil : inputCables s.patch inId inPort = []
      · exact .inl hnil
      · exact .inr ⟨fun hp => hfail ⟨hnil, hp⟩, fun hp => hstack ⟨hnil, hp⟩⟩
    · simp only [record, addCable, push, newCable, survivors, removeCables_cables hw, hsame.cablesMade]
    · simp only [record, addCable, push, hsame.cablesMade]
    · simp [record, addCable, push, Patch.shapes, hsame.modules]
    · simp [record, addCable, push, Patch.panelIds, hsame.panels]
  · cases h

theorem applyDisconnect_step (hw : s.AllWidgets) (kind : opType op = .disconnect)
    (h : applyDisconnect op s = .done s') : CommitStep rack op s s' := by
  unfold applyDisconnect at h
  dsimp only at h
  split at h
  · cases h
  rename_i c hnamed
  cases h
  have hsame := removeCableById_sameModules (s := s) c.id
  refine .disconnect kind c hnamed ?_ hsame.cablesMade
    ⟨by simp [record, Patch.shapes], by simp [record, Patch.panelIds, hsame.panels],
      hsame.aliasMap, hsame.modulesMade, hsame.randomized⟩
  exact removeCables_cables hw [c.id]

theorem applyDisconnectPort_step (hw : s.AllWidgets) (kind : opType op = .disconnectPort)
    (h : applyDisconnectPort op s = .done s') : CommitStep rack op s s' := by
  obtain ⟨id, hresolved, h⟩ := resolving_eq_done.mp h
  split at h
  · cases h
  rename_i portId hport
  cases h
  have hsame := removeCables_sameModules (s := s) (selectMatches (jstr op "policy" "all")
    (portCables s.patch id (jstr (Json.get op "port") "portType" "input") portId))
  exact .disconnectPort kind id portId hresolved hport (removeCables_cables hw _) hsame.cablesMade
    ⟨by simp [record, Patch.shapes, hsame.modules], by simp [record, Patch.panelIds, hsame.panels],
      hsame.aliasMap, hsame.modulesMade, hsame.randomized⟩

theorem applySetParam_step (kind : opType op = .setParameter)
    (h : applySetParam rack op s = .done s') : CommitStep rack op s s' := by
  obtain ⟨id, hresolved, h⟩ := resolving_eq_done.mp h
  split at h
  · cases h
  rename_i paramId hparam
  split at h
  · cases h
  rename_i hbound
  obtain ⟨m, hm, hrange⟩ := not_not.mp hbound
  obtain ⟨t, hset, h⟩ := Outcome.bind_eq_done.mp h
  cases h
  have hsame := setParamValue_outline hset
  exact .modify (.inl kind) id hresolved m hm (fun _ => ⟨paramId, hparam, hrange⟩)
    ⟨hsame.1, hsame.2, hsame.3, hsame.4, hsame.5, hsame.6, hsame.7⟩

theorem applyBypass_step (kind : opType op = .setBypass) (h : applyBypass op s = .done s') :
    CommitStep rack op s s' := by
  obtain ⟨id, hresolved, h⟩ := resolving_eq_done.mp h
  dsimp only at h
  obtain ⟨t, hset, h⟩ := Outcome.bind_eq_done.mp h
  cases h
  have hsame := setBypassValue_outline hset
  have hfound : ∃ m, s.patch.module id = some m := by
    unfold setBypassValue at hset
    split at hset
    · cases hset
    · exact ⟨_, ‹_›⟩
  obtain ⟨m, hm⟩ := hfound
  exact .modify (.inr (.inl kind)) id hresolved m hm (by simp [kind])
    ⟨hsame.1, hsame.2, hsame.3, hsame.4, hsame.5, hsame.6, hsame.7⟩

theorem module_of_widget {id : Int} {m : Module} {panel : Layout.Occupant}
    (h : s.patch.widget id = some (m, panel)) : s.patch.module id = some m := by
  unfold Patch.widget at h
  split at h
  · cases h
    assumption
  · cases h

theorem applyReset_step (kind : opType op = .resetModule) (h : applyReset rack op s = .done s') :
    CommitStep rack op s s' := by
  obtain ⟨id, hresolved, h⟩ := resolving_eq_done.mp h
  split at h
  · cases h
  rename_i m panel hwidget
  cases h
  exact .modify (.inr (.inr kind)) id hresolved m (module_of_widget hwidget) (by simp [kind])
    ⟨by simp [push, record], rfl, rfl, rfl, rfl, rfl, rfl⟩

theorem applyRandomize_step (kind : opType op = .randomizeModule)
    (h : applyRandomize rack op s = .done s') : CommitStep rack op s s' := by
  obtain ⟨id, hresolved, h⟩ := resolving_eq_done.mp h
  split at h
  · cases h
  rename_i m hm
  cases h
  exact .randomize kind id hresolved m hm ⟨by simp [push, record], rfl, rfl, rfl, rfl, rfl, rfl⟩

theorem applyMove_step (kind : opType op = .moveModule) (h : applyMove rack op s = .done s') :
    CommitStep rack op s s' := by
  obtain ⟨id, hresolved, h⟩ := resolving_eq_done.mp h
  split at h
  · cases h
  rename_i widget hwidget
  split at h
  · cases h
  rename_i gx gy hposition
  dsimp only at h
  split at h
  · cases h
  cases h
  exact .move kind id hresolved (by simp [hwidget]) ⟨_, hposition⟩
    ⟨rfl, by simp [placePanels, record], rfl, rfl, rfl, rfl, rfl⟩

/-- Every finished operation is a `CommitStep`. -/
theorem applyOne_step (hw : s.AllWidgets) (h : applyOne rack op s = .done s') :
    CommitStep rack op s s' := by
  unfold applyOne at h
  split at h
  · exact applyAdd_step ‹_› h
  · exact applyRemove_step hw ‹_› h
  · exact applySetParam_step ‹_› h
  · exact applyBypass_step ‹_› h
  · exact applyReset_step ‹_› h
  · exact applyRandomize_step ‹_› h
  · exact applyMove_step ‹_› h
  · exact applyConnect_step hw ‹_› h
  · exact applyDisconnect_step hw ‹_› h
  · exact applyDisconnectPort_step hw ‹_› h
  · cases h

/-! ### The cables an operation takes -/

/-- The ids of the cables the operation takes off the patch, as the applier selects them. -/
def takes (op : Json) (s : Applier) : List Int :=
  match opType op with
  | .removeModule =>
    match s.resolve (Json.get op "module") with
    | some id => moduleCables s.patch id
    | none => []
  | .connect =>
    let inRef := Json.get op "input"
    match s.resolve (Json.get inRef "module"), readIntField inRef "portId" with
    | some id, .ok portId => inputCables s.patch id portId
    | _, _ => []
  | .disconnect =>
    ((parseDecimalId (jstr (Json.get op "cable") "cableId")).bind s.patch.cable).toList.map (·.id)
  | .disconnectPort =>
    let portRef := Json.get op "port"
    match s.resolve (Json.get portRef "module"), readIntField portRef "portId" with
    | some id, .ok portId => selectMatches (jstr op "policy" "all")
        (portCables s.patch id (jstr portRef "portType" "input") portId)
    | _, _ => []
  | _ => []

theorem mem_selectMatches {policy : String} {found : List Int} {id : Int}
    (h : id ∈ selectMatches policy found) : id ∈ found := by
  unfold selectMatches at h
  split at h
  · exact List.mem_of_getLast? (Option.mem_toList.mp h)
  · exact h

/-- The cables a finished operation leaves, and the one a connect adds. -/
inductive CablesAfter (rack : Rack) (op : Json) (s s' : Applier) : Prop where
  | kept (kind : opType op ≠ .connect) (cables : s'.patch.cables = s.survivors (takes op s))
      (cablesMade : s'.cablesMade = s.cablesMade)
  | added (kind : opType op = .connect) (outId inId outPort inPort : Int)
      (input : s.resolve (Json.get (Json.get op "input") "module") = some inId)
      (inputPort : readIntField (Json.get op "input") "portId" = .ok inPort)
      (cables : s'.patch.cables = rack.relist (s.survivors (takes op s))
        (newCable rack s op outId outPort inId inPort))
      (cablesMade : s'.cablesMade = s.cablesMade + 1)

theorem CommitStep.cablesAfter (h : CommitStep rack op s s') : CablesAfter rack op s s' := by
  have hnone : s.survivors [] = s.patch.cables := by simp [survivors]
  cases h with
  | add kind _ _ _ _ _ _ cables _ _ cablesMade =>
    exact .kept (by simp [kind]) (by simp [takes, kind, hnone, cables]) cablesMade
  | remove kind id resolved _ _ _ _ cables _ _ cablesMade =>
    exact .kept (by simp [kind]) (by simp [takes, kind, resolved, cables]) cablesMade
  | modify kind _ _ _ _ _ same =>
    rcases kind with kind | kind | kind
    all_goals exact .kept (by simp [kind]) (by simp [takes, kind, hnone, same.cables]) same.cablesMade
  | randomize kind _ _ _ _ same =>
    exact .kept (by simp [kind]) (by simp [takes, kind, hnone, same.cables]) same.cablesMade
  | move kind _ _ _ _ same =>
    exact .kept (by simp [kind]) (by simp [takes, kind, hnone, same.cables]) same.cablesMade
  | connect kind outId inId outPort inPort _ input _ inputPort _ _ _ _ _ _ _ cables cablesMade =>
    exact .added kind outId inId outPort inPort input inputPort
      (by simp [takes, kind, input, inputPort, cables]) cablesMade
  | disconnect kind c named cables cablesMade =>
    exact .kept (by simp [kind]) (by simp [takes, kind, named, cables]) cablesMade
  | disconnectPort kind id portId resolved port cables cablesMade =>
    exact .kept (by simp [kind]) (by simp [takes, kind, resolved, port, cables]) cablesMade

end Applier

end RackMcp
