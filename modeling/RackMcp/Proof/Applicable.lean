import RackMcp.Proof.Lockstep

/-!
# When commit can apply what the preview accepted

The preview checks less than the applier needs: it reads no parameter target, it does not know that a
module the plan added is gone again, and it counts no cable the plan adds. `Applicable` is what is left
to require of the state before an operation, and `apply_completes_iff` says that nothing else is.
-/

namespace RackMcp

open Gen Outcomes

variable {rack : Rack} {w : PatchWorld} {st st' : PreviewState} {s s' : Applier} {ops : List Json} {op : Json}

/-! ### When a part of an operation finishes -/

/-- The target of a parameter can be written: it is readable, and it is a raw value unless the parameter
has a quantity. -/
def TargetOk (quantity : Option ParamQuantity) (spec : Json) : Prop :=
  ∃ target, readParamTarget spec = .ok target ∧ ((∃ number, target = .value number) ∨ quantity.isSome)

/-- An entry of `initialParams` can be applied to a module with these parameters. -/
def EntryOk (quantities : List (Option ParamQuantity)) (entry : Json) : Prop :=
  ∃ paramId, readIntField entry "paramId" = .ok paramId ∧ 0 ≤ paramId ∧ paramId < quantities.length ∧
    TargetOk (quantities[paramId.toNat]?).join entry

namespace Applier

theorem resolving_isDone {ref : Option Json} {next : Int → Applied} :
    (s.resolving ref next).isDone ↔ ∃ id, s.resolve ref = some id ∧ (next id).isDone := by
  unfold resolving
  cases s.resolve ref <;> simp

theorem setParamValue_isDone {moduleId : Int} {paramId : Nat} {spec : Json} :
    (setParamValue rack moduleId paramId spec s).isDone ↔
      ∃ m, s.patch.module moduleId = some m ∧ TargetOk (m.quantities[paramId]?).join spec := by
  unfold setParamValue TargetOk
  cases s.patch.module moduleId with
  | none => simp
  | some m =>
    simp only [Option.some.injEq, exists_eq_left']
    cases readParamTarget spec with
    | error err => simp
    | ok target =>
      cases target <;> cases (m.quantities[paramId]?).join <;> simp

theorem setBypassValue_isDone {moduleId : Int} {bypassed : Bool} :
    (setBypassValue moduleId bypassed s).isDone ↔ (s.patch.module moduleId).isSome := by
  unfold setBypassValue
  cases s.patch.module moduleId with
  | none => simp
  | some m =>
    dsimp only
    split <;> simp

end Applier

theorem Patch.module_setState (p : Patch) (id other : Int) (f : ModuleState → ModuleState) :
    (p.setState id f).module other =
      (p.module other).map fun m => if m.id = id then { m with state := f m.state } else m := by
  unfold Patch.module Patch.setState Keyed.update
  rw [List.find?_map]
  congr 2
  funext m
  by_cases hm : m.id = id <;> simp [hm]

/-- The parameters of a live module. -/
def Patch.quantities (p : Patch) (id : Int) : Option (List (Option ParamQuantity)) :=
  (p.module id).map (·.quantities)

@[simp] theorem Patch.quantities_setState (p : Patch) (id other : Int) (f : ModuleState → ModuleState) :
    (p.setState id f).quantities other = p.quantities other := by
  rw [quantities, module_setState, Option.map_map, quantities]
  congr 1
  funext m
  by_cases hm : m.id = id <;> simp [hm]

namespace Applier

theorem setParamValue_quantities {moduleId : Int} {paramId : Nat} {spec : Json}
    (h : setParamValue rack moduleId paramId spec s = .done s') (id : Int) :
    s'.patch.quantities id = s.patch.quantities id := by
  unfold setParamValue at h
  split at h
  · cases h
  · dsimp only at h
    split at h
    · cases h
    · cases h
      simp [push]
    · split at h
      · cases h
      all_goals
        cases h
        simp [push]

/-- An initial parameter is applied exactly when its entry fits the module's parameters. -/
theorem setInitialParam_isDone {moduleId : Int} {quantities : List (Option ParamQuantity)} {mslug : String}
    {entry : Json × Nat} (h : s.patch.quantities moduleId = some quantities) :
    (setInitialParam rack moduleId quantities.length mslug entry s).isDone ↔
      EntryOk quantities entry.1 := by
  unfold setInitialParam EntryOk
  obtain ⟨m, hm, rfl⟩ := Option.map_eq_some_iff.mp h
  dsimp only
  cases readIntField entry.1 "paramId" with
  | error ierr => simp
  | ok paramId =>
    simp only [Except.ok.injEq, exists_eq_left']
    split
    · simp only [Outcome.isDone_thrown, Bool.false_eq_true, false_iff]
      omega
    · rw [setParamValue_isDone]
      simp only [hm, Option.some.injEq, exists_eq_left']
      have hrange : 0 ≤ paramId ∧ paramId < m.quantities.length := by omega
      simp [hrange]

theorem setInitialParam_quantities {moduleId : Int} {paramCount : Nat} {mslug : String}
    {entry : Json × Nat} (h : setInitialParam rack moduleId paramCount mslug entry s = .done s') (id : Int) :
    s'.patch.quantities id = s.patch.quantities id := by
  unfold setInitialParam at h
  dsimp only at h
  split at h
  · cases h
  split at h
  · cases h
  exact setParamValue_quantities h id

/-- The list of initial parameters is applied exactly when every entry fits. -/
theorem setInitialParams_isDone {moduleId : Int} {quantities : List (Option ParamQuantity)} {mslug : String}
    {entries : List (Json × Nat)} (h : s.patch.quantities moduleId = some quantities) :
    (forEach (setInitialParam rack moduleId quantities.length mslug) entries s).isDone ↔
      ∀ entry ∈ entries, EntryOk quantities entry.1 := by
  rw [Outcome.isDone_iff]
  simp only [forEach_done_iff]
  induction entries generalizing s with
  | nil => simp
  | cons entry entries ih =>
    simp only [Runs.cons_iff, List.forall_mem_cons]
    constructor
    · rintro ⟨t, u, hhead, htail⟩
      have hentry := (setInitialParam_isDone h).mp (Outcome.isDone_iff.mpr ⟨u, hhead⟩)
      have hu := (setInitialParam_quantities hhead moduleId).trans h
      exact ⟨hentry, (ih hu).mp ⟨t, htail⟩⟩
    · rintro ⟨hentry, hentries⟩
      have hdone : (setInitialParam rack moduleId quantities.length mslug entry s).isDone :=
        (setInitialParam_isDone h).mpr hentry
      obtain ⟨u, hhead⟩ := Outcome.isDone_iff.mp hdone
      have hu := (setInitialParam_quantities hhead moduleId).trans h
      obtain ⟨t, htail⟩ := (ih hu).mpr hentries
      exact ⟨t, u, hhead, htail⟩

/-! ### When an operation finishes -/

theorem setInitialParams_quantities {moduleId : Int} {paramCount : Nat} {mslug : String}
    {entries : List (Json × Nat)}
    (h : forEach (setInitialParam rack moduleId paramCount mslug) entries s = .done s') (id : Int) :
    s'.patch.quantities id = s.patch.quantities id := by
  refine (forEach_done_iff.mp h).relation (R := fun s s' => s'.patch.quantities id = s.patch.quantities id)
    (fun _ => rfl) ?_ fun _ _ _ _ hstep => setInitialParam_quantities hstep id
  exact fun _ _ _ hfirst hnext => hnext.trans hfirst

theorem forall_zipIdx {entries : List Json} {P : Json → Prop} :
    (∀ entry ∈ entries.zipIdx, P entry.1) ↔ ∀ entry ∈ entries, P entry := by
  conv_rhs => rw [← List.zipIdx_map_fst 0 entries]
  simp only [List.forall_mem_map]

theorem isSome_of_quantities {p : Patch} {id : Int} {quantities : List (Option ParamQuantity)}
    (h : p.quantities id = some quantities) : (p.module id).isSome := by
  obtain ⟨m, hm, -⟩ := Option.map_eq_some_iff.mp h
  rw [hm]
  rfl

/-- A placed module is finished exactly when the entries of `initialParams` fit it. -/
theorem finishAdd_isDone {m : Module} {pos : Layout.Point}
    (hpos : addPosition rack op s.patch.panels = .ok pos)
    (hm : s.patch.quantities m.id = some m.quantities) :
    (finishAdd rack op m s).isDone ↔ ∀ entry ∈ initialParams op, EntryOk m.quantities entry := by
  unfold finishAdd
  rw [hpos]
  dsimp only
  generalize hplaced : ({ s.placePanels (rack.setModulePosForce s.patch.panels m.id pos)
    [.moduleAdd m.id] with aliasMap := _ } : Applier) = placed
  have hquantities : placed.patch.quantities m.id = some m.quantities := by
    rw [← hplaced]
    exact hm
  have hparams : (forEach (setInitialParam rack m.id m.quantities.length m.modelSlug)
      (initialParams op).zipIdx placed).isDone ↔ ∀ entry ∈ initialParams op, EntryOk m.quantities entry :=
    (setInitialParams_isDone hquantities).trans forall_zipIdx
  rw [← hparams, Outcome.isDone_bind, Outcome.isDone_iff]
  refine exists_congr fun t => ⟨fun h => h.1, fun hdone => ⟨hdone, ?_⟩⟩
  have hlive := isSome_of_quantities ((setInitialParams_quantities hdone m.id).trans hquantities)
  rw [Outcome.isDone_bind]
  split
  · have hbypass : (setBypassValue m.id true t).isDone := setBypassValue_isDone.mpr hlive
    obtain ⟨u, hu⟩ := Outcome.isDone_iff.mp hbypass
    exact ⟨u, hu, rfl⟩
  · exact ⟨t, rfl, rfl⟩

theorem addPosition_of_no_position (rack : Rack) (panels : List Layout.Occupant)
    (h : ¬ jhasKey op "position") : ∃ pos, addPosition rack op panels = .ok pos := by
  unfold addPosition
  rw [if_neg fun hat => h hat.2]
  exact ⟨_, rfl⟩

/-- An `add_module` without a position finishes when its model constructs and its entries fit. -/
theorem applyAdd_isDone {model : Model} {quantities : List (Option ParamQuantity)} {inputs outputs : Nat}
    {state : ModuleState} {size : Layout.Point}
    (hmodel : rack.getModel (jstr op "pluginSlug") (jstr op "modelSlug") = some model)
    (hmodule : model.module = some (quantities, inputs, outputs, state)) (hsize : model.widget = .ok size)
    (hadd : model.addError = none) (hposition : ¬ jhasKey op "position")
    (hfresh : rack.moduleIds s.modulesMade ∉ s.patch.modules.map (·.id)) :
    (applyAdd rack op s).isDone ↔ ∀ entry ∈ initialParams op, EntryOk quantities entry := by
  unfold applyAdd
  simp only [hmodel, hmodule, hsize, hadd]
  obtain ⟨pos, hpos⟩ := addPosition_of_no_position rack
    (s.patch.panels ++ [⟨some (rack.moduleIds s.modulesMade), ⟨⟨0, 0⟩, size⟩⟩]) hposition
  refine finishAdd_isDone hpos ?_
  have hnone := Keyed.find?_eq_none.mpr hfresh
  simp only [Patch.quantities, Patch.module, List.find?_append, hnone]
  simp

theorem applySetParam_isDone :
    (applySetParam rack op s).isDone ↔ ∃ id, s.resolve (Json.get op "module") = some id ∧
      ∃ paramId, readIntField op "paramId" = .ok paramId ∧ ∃ m, s.patch.module id = some m ∧
        (0 ≤ paramId ∧ paramId < m.quantities.length) ∧
        TargetOk (m.quantities[paramId.toNat]?).join op := by
  unfold applySetParam
  rw [resolving_isDone]
  refine exists_congr fun id => and_congr_right fun _ => ?_
  cases readIntField op "paramId" with
  | error ierr => simp
  | ok paramId =>
    simp only [Except.ok.injEq, exists_eq_left']
    split
    · rename_i hbad
      simp only [Outcome.isDone_thrown, Bool.false_eq_true, false_iff]
      rintro ⟨m, hm, hrange, -⟩
      exact hbad ⟨m, hm, hrange⟩
    · rename_i hgood
      obtain ⟨m, hm, hrange⟩ := not_not.mp hgood
      rw [Outcome.isDone_bind]
      have hm : s.patch.module id = some m := hm
      have hdone : (∃ t, setParamValue rack id paramId.toNat op s = .done t) ↔ _ :=
        Outcome.isDone_iff.symm.trans setParamValue_isDone
      simp only [Outcome.isDone_done, and_true]
      rw [hdone]
      refine exists_congr fun m' => and_congr_right fun hm' => ?_
      rw [hm, Option.some.injEq] at hm'
      subst hm'
      simp [hrange]

theorem applyBypass_isDone :
    (applyBypass op s).isDone ↔
      ∃ id, s.resolve (Json.get op "module") = some id ∧ (s.patch.module id).isSome := by
  unfold applyBypass
  rw [resolving_isDone]
  refine exists_congr fun id => and_congr_right fun _ => ?_
  dsimp only
  rw [Outcome.isDone_bind]
  simp only [Outcome.isDone_done, and_true]
  exact Outcome.isDone_iff.symm.trans setBypassValue_isDone

theorem applyReset_isDone :
    (applyReset rack op s).isDone ↔
      ∃ id, s.resolve (Json.get op "module") = some id ∧ (s.patch.widget id).isSome := by
  unfold applyReset
  rw [resolving_isDone]
  refine exists_congr fun id => and_congr_right fun _ => ?_
  cases s.patch.widget id <;> simp

theorem applyRandomize_isDone :
    (applyRandomize rack op s).isDone ↔
      ∃ id, s.resolve (Json.get op "module") = some id ∧ (s.patch.module id).isSome := by
  unfold applyRandomize
  rw [resolving_isDone]
  refine exists_congr fun id => and_congr_right fun _ => ?_
  cases s.patch.module id <;> simp

theorem applyRemove_isDone :
    (applyRemove op s).isDone ↔
      ∃ id, s.resolve (Json.get op "module") = some id ∧ (s.patch.widget id).isSome ∧
        (moduleCables s.patch id = [] ∨
          jstr op "cablePolicy" "remove_attached" ≠ "fail_if_connected") := by
  unfold applyRemove
  rw [resolving_isDone]
  refine exists_congr fun id => and_congr_right fun _ => ?_
  cases s.patch.widget id with
  | none => simp
  | some widget =>
    dsimp only
    split
    · rename_i hfail
      simp [hfail.1, hfail.2]
    · rename_i hpolicy
      simp only [Outcome.isDone_done, Option.isSome_some, true_and, true_iff]
      by_cases hnil : moduleCables s.patch id = []
      · exact .inl hnil
      · exact .inr fun hfail => hpolicy ⟨hnil, hfail⟩

theorem applyConnect_isDone :
    (applyConnect rack op s).isDone ↔
      ∃ outId, s.resolve (Json.get (Json.get op "output") "module") = some outId ∧
      ∃ inId, s.resolve (Json.get (Json.get op "input") "module") = some inId ∧
      ∃ outPort, readIntField (Json.get op "output") "portId" = .ok outPort ∧
      ∃ inPort, readIntField (Json.get op "input") "portId" = .ok inPort ∧
      ∃ outMod, s.patch.module outId = some outMod ∧ ∃ inMod, s.patch.module inId = some inMod ∧
        (0 ≤ outPort ∧ outPort < outMod.outputs) ∧ (0 ≤ inPort ∧ inPort < inMod.inputs) ∧
        (inputCables s.patch inId inPort = [] ∨
          (jstr op "inputPolicy" "fail_if_connected" ≠ "fail_if_connected" ∧
            jstr op "inputPolicy" "fail_if_connected" ≠ "stack")) := by
  unfold applyConnect
  dsimp only
  rw [resolving_isDone]
  refine exists_congr fun outId => and_congr_right fun _ => ?_
  rw [resolving_isDone]
  refine exists_congr fun inId => and_congr_right fun _ => ?_
  cases readIntField (Json.get op "output") "portId" with
  | error ierr => simp
  | ok outPort =>
    cases readIntField (Json.get op "input") "portId" with
    | error ierr => simp
    | ok inPort =>
      cases s.patch.module outId with
      | none => simp
      | some outMod =>
        cases s.patch.module inId with
        | none => simp
        | some inMod =>
          simp only [Except.ok.injEq, exists_eq_left', Option.some.injEq]
          split
          · simp only [Outcome.isDone_thrown, Bool.false_eq_true, false_iff]
            omega
          · have hrange : (0 ≤ outPort ∧ outPort < outMod.outputs) ∧
                (0 ≤ inPort ∧ inPort < inMod.inputs) := by omega
            split
            · rename_i hfail
              simp [hfail.1, hfail.2]
            split
            · rename_i hstack
              simp [hstack.1, hstack.2]
            · rename_i hfail hstack
              simp only [Outcome.isDone_done, true_iff]
              refine ⟨hrange.1, hrange.2, ?_⟩
              by_cases hnil : inputCables s.patch inId inPort = []
              · exact .inl hnil
              · exact .inr ⟨fun h => hfail ⟨hnil, h⟩, fun h => hstack ⟨hnil, h⟩⟩

theorem applyDisconnect_isDone :
    (applyDisconnect op s).isDone ↔
      ((parseDecimalId (jstr (Json.get op "cable") "cableId")).bind s.patch.cable).isSome := by
  unfold applyDisconnect
  dsimp only
  cases (parseDecimalId (jstr (Json.get op "cable") "cableId")).bind s.patch.cable <;> simp

theorem applyDisconnectPort_isDone :
    (applyDisconnectPort op s).isDone ↔
      ∃ id, s.resolve (Json.get (Json.get op "port") "module") = some id ∧
        ∃ portId, readIntField (Json.get op "port") "portId" = .ok portId := by
  unfold applyDisconnectPort
  dsimp only
  rw [resolving_isDone]
  refine exists_congr fun id => and_congr_right fun _ => ?_
  cases readIntField (Json.get op "port") "portId" <;> simp

end Applier

/-! ### The modules a plan adds -/

/-- The reference names the alias. -/
def RefersTo (ref : Option Json) (name : String) : Prop :=
  resolveModuleRef ref ∅ = { isAlias := true, aliasName := name }

/-- Every model of the plan constructs its module and panel, and the new modules have the parameters and
ports that the plan names. -/
structure PlanFits (w : PatchWorld) (ops : List Json) : Prop where
  constructs : ∀ a ∈ ops, opType a = .addModule → ∀ model,
    w.rack.getModel (jstr a "pluginSlug") (jstr a "modelSlug") = some model →
    model.module.isSome ∧ (∃ size, model.widget = .ok size) ∧ model.addError = none
  initial : ∀ a ∈ ops, opType a = .addModule → ∀ model quantities inputs outputs state,
    w.rack.getModel (jstr a "pluginSlug") (jstr a "modelSlug") = some model →
    model.module = some (quantities, inputs, outputs, state) →
    ∀ entry ∈ Applier.initialParams a, ∀ paramId, readIntField entry "paramId" = .ok paramId →
      0 ≤ paramId ∧ paramId < quantities.length
  named : ∀ a ∈ ops, opType a = .addModule → ∀ model quantities inputs outputs state,
    w.rack.getModel (jstr a "pluginSlug") (jstr a "modelSlug") = some model →
    model.module = some (quantities, inputs, outputs, state) →
    ∀ op ∈ ops,
      (opType op = .setParameter → RefersTo (Json.get op "module") (jstr a "alias") →
        ∀ paramId, readIntField op "paramId" = .ok paramId → 0 ≤ paramId ∧ paramId < quantities.length) ∧
      (opType op = .connect → RefersTo (Json.get (Json.get op "output") "module") (jstr a "alias") →
        ∀ portId, readIntField (Json.get op "output") "portId" = .ok portId →
          0 ≤ portId ∧ portId < outputs) ∧
      (opType op = .connect → RefersTo (Json.get (Json.get op "input") "module") (jstr a "alias") →
        ∀ portId, readIntField (Json.get op "input") "portId" = .ok portId → 0 ≤ portId ∧ portId < inputs)

/-- A module that an alias names was built from the model of the operation that declares the alias. -/
def BuiltFromPlan (w : PatchWorld) (ops : List Json) (s : Applier) : Prop :=
  ∀ name id, s.aliasMap.lookup name = some id →
    ∃ a ∈ ops, opType a = .addModule ∧ jstr a "alias" = name ∧
      ∃ model, w.rack.getModel (jstr a "pluginSlug") (jstr a "modelSlug") = some model ∧
        ∀ m ∈ s.patch.shapes, m.id = id → ∃ quantities state, m.paramCount = quantities.length ∧
          model.module = some (quantities, m.inputCount, m.outputCount, state)

theorem ModuleSim.fresh (h : ModuleSim w st s) {m : WorldModule} (hm : m ∈ s.patch.shapes) :
    m.id ≠ w.rack.moduleIds s.modulesMade := by
  obtain ⟨planned, hshapes, hfresh⟩ := h.shapes
  rw [hshapes, List.mem_append] at hm
  intro heq
  rcases hm with hm | hm
  · obtain ⟨module, hmodule, rfl⟩ := List.mem_map.mp (List.mem_of_mem_filter hm)
    exact w.module_fresh _ (List.mem_map.mpr ⟨module, hmodule, heq⟩)
  · obtain ⟨n, hn, hid⟩ := hfresh m hm
    have := w.moduleIds_injective (hid.symm.trans heq)
    omega

theorem BuiltFromPlan.of_subset (h : BuiltFromPlan w ops s) (aliasMap : s'.aliasMap = s.aliasMap)
    (shapes : ∀ m ∈ s'.patch.shapes, m ∈ s.patch.shapes) : BuiltFromPlan w ops s' := by
  intro name id hname
  obtain ⟨a, ha, hkind, halias, model, hmodel, hbuilt⟩ := h name id (aliasMap ▸ hname)
  exact ⟨a, ha, hkind, halias, model, hmodel, fun m hm => hbuilt m (shapes m hm)⟩

theorem BuiltFromPlan.step (h : BuiltFromPlan w ops s) (sim : ModuleSim w st s) (hop : op ∈ ops)
    (hstep : Applier.CommitStep w.rack op s s') : BuiltFromPlan w ops s' := by
  cases hstep with
  | add kind model shape found shape_id shapes panelIds cables aliasMap _ _ _ built =>
    intro name id hname
    rw [aliasMap] at hname
    by_cases hnew : name = jstr op "alias"
    · subst hnew
      rw [AList.lookup_insert, Option.some.injEq] at hname
      subst hname
      refine ⟨op, hop, kind, rfl, model, found, fun m hm hid => ?_⟩
      rw [shapes, List.mem_append, List.mem_singleton] at hm
      rcases hm with hm | rfl
      · exact absurd (hid.trans shape_id) (sim.fresh hm)
      · exact built
    · rw [AList.lookup_insert_ne hnew] at hname
      obtain ⟨a, ha, hkind, halias, model', hmodel, hbuilt⟩ := h name id hname
      refine ⟨a, ha, hkind, halias, model', hmodel, fun m hm hid => ?_⟩
      rw [shapes, List.mem_append, List.mem_singleton] at hm
      rcases hm with hm | rfl
      · exact hbuilt m hm hid
      · rcases sim.aliases name with ⟨-, hs⟩ | ⟨n, hn, -, hs⟩
        · rw [hs] at hname
          cases hname
        · rw [hs, Option.some.injEq] at hname
          have := w.moduleIds_injective (hname.trans (hid.symm.trans shape_id))
          omega
  | remove _ _ _ _ _ shapes _ _ aliasMap =>
    exact h.of_subset aliasMap fun _ hm => List.mem_of_mem_filter (shapes ▸ hm)
  | modify _ _ _ _ _ _ same => exact h.of_subset same.aliasMap fun _ hm => same.shapes ▸ hm
  | randomize _ _ _ _ _ same => exact h.of_subset same.aliasMap fun _ hm => same.shapes ▸ hm
  | move _ _ _ _ _ same => exact h.of_subset same.aliasMap fun _ hm => same.shapes ▸ hm
  | connect _ _ _ _ _ _ _ _ _ _ _ _ _ _ _ _ _ _ same =>
    exact h.of_subset same.aliasMap fun _ hm => same.shapes ▸ hm
  | disconnect _ _ _ _ _ same => exact h.of_subset same.aliasMap fun _ hm => same.shapes ▸ hm
  | disconnectPort _ _ _ _ _ _ _ same => exact h.of_subset same.aliasMap fun _ hm => same.shapes ▸ hm

/-! ### What is left to require -/

/-- What the applier requires of the state before an operation and the preview does not establish. -/
def Applicable (rack : Rack) (op : Json) (s : Applier) : Prop :=
  match opType op with
  | .addModule =>
    -- the entries of `initialParams` name a parameter and a target it can take
    ∀ model quantities inputs outputs state,
      rack.getModel (jstr op "pluginSlug") (jstr op "modelSlug") = some model →
      model.module = some (quantities, inputs, outputs, state) →
      ∀ entry ∈ Applier.initialParams op, ∃ paramId, readIntField entry "paramId" = .ok paramId ∧
        TargetOk (quantities[paramId.toNat]?).join entry
  | .setParameter =>
    ∀ id, s.resolve (Json.get op "module") = some id → ∃ m, s.patch.module id = some m ∧
      ∃ paramId, readIntField op "paramId" = .ok paramId ∧ TargetOk (m.quantities[paramId.toNat]?).join op
  | .setBypass | .randomizeModule =>
    ∀ id, s.resolve (Json.get op "module") = some id → (s.patch.module id).isSome
  | .resetModule =>
    ∀ id, s.resolve (Json.get op "module") = some id → (s.patch.widget id).isSome
  | .removeModule =>
    ∀ id, s.resolve (Json.get op "module") = some id → (s.patch.widget id).isSome ∧
      (Applier.moduleCables s.patch id = [] ∨
        jstr op "cablePolicy" "remove_attached" ≠ "fail_if_connected")
  | .connect =>
    (∀ id, s.resolve (Json.get (Json.get op "output") "module") = some id → (s.patch.module id).isSome) ∧
    ∀ id portId, s.resolve (Json.get (Json.get op "input") "module") = some id →
      readIntField (Json.get op "input") "portId" = .ok portId →
      (s.patch.module id).isSome ∧
        (Applier.inputCables s.patch id portId = [] ∨
          (jstr op "inputPolicy" "fail_if_connected" ≠ "fail_if_connected" ∧
            jstr op "inputPolicy" "fail_if_connected" ≠ "stack"))
  | .disconnectPort => ∃ portId, readIntField (Json.get op "port") "portId" = .ok portId
  | _ => True

/-- A reference to a planned module names the alias commit knows it by. -/
theorem ModuleSim.alias_of_neg (h : ModuleSim w st s) {ref : Option Json}
    (hok : (resolveModuleRef ref st.aliases).ok) (hneg : (resolveModuleRef ref st.aliases).moduleId < 0) :
    ∃ name, RefersTo ref name ∧
      s.aliasMap.lookup name = some (w.liveId (resolveModuleRef ref st.aliases).moduleId) := by
  rcases refShape ref with ⟨id, hid, hr⟩ | ⟨name, hr⟩ | hr
  · rw [hr] at hneg
    exact absurd hid (not_le.mpr hneg)
  · refine ⟨name, hr ∅, ?_⟩
    rcases h.aliases name with ⟨hst, -⟩ | ⟨n, -, hst, hs⟩
    · rw [hr, hst] at hok
      cases hok
    · rw [hr, hst, hs]
      exact congrArg some (ModuleSim.liveId_planned w n).symm
  · rw [hr] at hok
    cases hok

/-- The module a planned reference names has the parameters and ports of its declaration's model. -/
theorem BuiltFromPlan.declared (built : BuiltFromPlan w ops s) {name : String} {id : Int} {m : Module}
    (hname : s.aliasMap.lookup name = some id) (hm : s.patch.module id = some m) :
    ∃ a ∈ ops, opType a = .addModule ∧ jstr a "alias" = name ∧
      ∃ model, w.rack.getModel (jstr a "pluginSlug") (jstr a "modelSlug") = some model ∧
        ∃ quantities state, m.quantities.length = quantities.length ∧
          model.module = some (quantities, m.inputs, m.outputs, state) := by
  obtain ⟨a, ha, hkind, halias, model, hmodel, hbuilt⟩ := built name id hname
  obtain ⟨hshape, hid⟩ := s.patch.shape_of_module id hm
  exact ⟨a, ha, hkind, halias, model, hmodel, hbuilt _ hshape hid⟩

namespace Sim

/-- The parameter of an accepted `set_parameter` is one the module has. -/
theorem param_range (sim : Sim w st s) (built : BuiltFromPlan w ops s) (fits : PlanFits w ops)
    (hop : op ∈ ops) (h : PreviewStep (w.world ops) op st st') (kind : opType op = .setParameter)
    {id paramId : Int} {m : Module} (hid : s.resolve (Json.get op "module") = some id)
    (hparam : readIntField op "paramId" = .ok paramId) (hm : s.patch.module id = some m) :
    0 ≤ paramId ∧ paramId < m.quantities.length := by
  cases h with
  | modifyAlias _ ok synthetic =>
    rw [sim.modules.resolve_of_ok ok, Option.some.injEq] at hid
    subst hid
    obtain ⟨name, hrefers, hname⟩ := sim.modules.alias_of_neg ok synthetic
    obtain ⟨a, ha, hkind, rfl, model, hmodel, quantities, state, hlength, hmodule⟩ :=
      built.declared hname hm
    rw [hlength]
    exact (fits.named a ha hkind model _ _ _ _ hmodel hmodule op hop).1 kind hrefers paramId hparam
  | modifyLive _ mid ok named live shape found param =>
    rw [sim.modules.resolve_of_ok ok, Option.some.injEq] at hid
    change w.liveId (previewRef op st).moduleId = id at hid
    rw [named, w.liveId_of_nonneg live] at hid
    subst hid
    obtain ⟨m', hm', rfl⟩ := sim.modules.module_eq found
    rw [hm, Option.some.injEq] at hm'
    subst hm'
    obtain ⟨paramId', hparam', hrange⟩ := param kind
    rw [hparam, Except.ok.injEq] at hparam'
    subst hparam'
    exact hrange
  | _ => simp_all

/-- The ports of an accepted `connect` are ports the modules have. -/
theorem port_range (sim : Sim w st s) (built : BuiltFromPlan w ops s) {ref : Option Json}
    (count : WorldModule → Nat) (ok : (resolveModuleRef ref st.aliases).ok) {portId : Int}
    (bound : 0 ≤ (resolveModuleRef ref st.aliases).moduleId → ∃ m,
      liveModule (w.world ops) st (resolveModuleRef ref st.aliases).moduleId = some m ∧
        0 ≤ portId ∧ portId < count m)
    (named : ∀ a ∈ ops, opType a = .addModule → RefersTo ref (jstr a "alias") →
      ∀ model quantities m state, w.rack.getModel (jstr a "pluginSlug") (jstr a "modelSlug") = some model →
        model.module = some (quantities, m.inputs, m.outputs, state) →
        0 ≤ portId ∧ portId < count (toWorldModule m))
    {m : Module} (hm : s.patch.module (w.liveId (resolveModuleRef ref st.aliases).moduleId) = some m) :
    0 ≤ portId ∧ portId < count (toWorldModule m) := by
  by_cases hlive : 0 ≤ (resolveModuleRef ref st.aliases).moduleId
  · obtain ⟨shape, found, hrange⟩ := bound hlive
    obtain ⟨m', hm', rfl⟩ := sim.modules.module_eq found
    rw [w.liveId_of_nonneg hlive, hm', Option.some.injEq] at hm
    exact hm ▸ hrange
  · obtain ⟨name, hrefers, hname⟩ := sim.modules.alias_of_neg ok (not_le.mp hlive)
    obtain ⟨a, ha, hkind, rfl, model, hmodel, quantities, state, -, hmodule⟩ := built.declared hname hm
    exact named a ha hkind hrefers model quantities m state hmodel hmodule

theorem model_of_installed {pluginSlug modelSlug : String}
    (h : (w.world ops).modelInstalled pluginSlug modelSlug) :
    ∃ model, w.rack.getModel pluginSlug modelSlug = some model := by
  obtain ⟨a, -, ha⟩ := List.mem_filterMap.mp h
  obtain ⟨model, hmodel, hslugs⟩ := Option.map_eq_some_iff.mp ha
  rw [Prod.mk.injEq] at hslugs
  exact ⟨model, by rw [← hslugs.1, ← hslugs.2]; exact hmodel⟩

theorem add_isDone (sim : Sim w st s) (fits : PlanFits w ops) (hop : op ∈ ops)
    (hposition : ¬ jhasKey op "position") (kind : opType op = .addModule)
    (installed : (w.world ops).modelInstalled (jstr op "pluginSlug") (jstr op "modelSlug")) :
    (Applier.applyAdd w.rack op s).isDone ↔ Applicable w.rack op s := by
  obtain ⟨model, hmodel⟩ := model_of_installed installed
  obtain ⟨hmodule, ⟨size, hsize⟩, hadd⟩ := fits.constructs op hop kind model hmodel
  obtain ⟨⟨quantities, inputs, outputs, state⟩, hmodule⟩ := Option.isSome_iff_exists.mp hmodule
  have hfresh : w.rack.moduleIds s.modulesMade ∉ s.patch.modules.map (·.id) := by
    rw [← Patch.mem_shapes_ids]
    rintro hin
    obtain ⟨m, hm, hid⟩ := List.mem_map.mp hin
    exact sim.modules.fresh hm hid
  rw [Applier.applyAdd_isDone hmodel hmodule hsize hadd hposition hfresh]
  have hinitial := fits.initial op hop kind model quantities inputs outputs state hmodel hmodule
  simp only [Applicable, kind]
  constructor
  · rintro hall model' quantities' inputs' outputs' state' hmodel' hmodule' entry hentry
    rw [hmodel, Option.some.injEq] at hmodel'
    subst hmodel'
    rw [hmodule, Option.some.injEq, Prod.mk.injEq] at hmodule'
    obtain ⟨paramId, hparam, -, -, htarget⟩ := hall entry hentry
    exact ⟨paramId, hparam, hmodule'.1 ▸ htarget⟩
  · intro hall entry hentry
    obtain ⟨paramId, hparam, htarget⟩ := hall model _ _ _ _ hmodel hmodule entry hentry
    obtain ⟨hlow, hhigh⟩ := hinitial entry hentry paramId hparam
    exact ⟨paramId, hparam, hlow, hhigh, htarget⟩

theorem modify_isDone (sim : Sim w st s) (built : BuiltFromPlan w ops s) (fits : PlanFits w ops)
    (hop : op ∈ ops) (h : PreviewStep (w.world ops) op st st')
    (kind : opType op = .setParameter ∨ opType op = .setBypass ∨ opType op = .resetModule ∨
      opType op = .randomizeModule) (ok : (previewRef op st).ok) :
    (Applier.applyOne w.rack op s).isDone ↔ Applicable w.rack op s := by
  have hresolve := sim.modules.resolve_of_ok ok
  rcases kind with kind | kind | kind | kind
  · simp only [Applier.applyOne, Applicable, kind, Applier.applySetParam_isDone, hresolve,
      Option.some.injEq, exists_eq_left', forall_eq']
    constructor
    · rintro ⟨paramId, hparam, m, hm, -, htarget⟩
      exact ⟨m, hm, paramId, hparam, htarget⟩
    · rintro ⟨m, hm, paramId, hparam, htarget⟩
      exact ⟨paramId, hparam, m, hm, sim.param_range built fits hop h kind hresolve hparam hm, htarget⟩
  · simp only [Applier.applyOne, Applicable, kind, Applier.applyBypass_isDone, hresolve,
      Option.some.injEq, exists_eq_left', forall_eq']
  · simp only [Applier.applyOne, Applicable, kind, Applier.applyReset_isDone, hresolve,
      Option.some.injEq, exists_eq_left', forall_eq']
  · simp only [Applier.applyOne, Applicable, kind, Applier.applyRandomize_isDone, hresolve,
      Option.some.injEq, exists_eq_left', forall_eq']

theorem connect_isDone (sim : Sim w st s) (built : BuiltFromPlan w ops s) (fits : PlanFits w ops)
    (hop : op ∈ ops) (h : PreviewStep (w.world ops) op st st') (kind : opType op = .connect) :
    (Applier.applyOne w.rack op s).isDone ↔ Applicable w.rack op s := by
  cases h with
  | connect _ out inp output input outOk inOk outPort inPort outputPort inputPort outBound inBound =>
    subst output input
    simp only [Applier.applyOne, Applicable, kind, Applier.applyConnect_isDone,
      sim.modules.resolve_of_ok outOk, sim.modules.resolve_of_ok inOk, outputPort, inputPort,
      Option.some.injEq, Except.ok.injEq, exists_eq_left', forall_eq', Option.isSome_iff_exists]
    constructor
    · rintro ⟨outMod, hout, inMod, hin, -, -, hfree⟩
      refine ⟨⟨outMod, hout⟩, fun id portId hid hport => ?_⟩
      subst hid hport
      exact ⟨⟨inMod, hin⟩, hfree⟩
    · rintro ⟨⟨outMod, hout⟩, hinput⟩
      obtain ⟨⟨inMod, hin⟩, hfree⟩ := hinput _ _ rfl rfl
      refine ⟨outMod, hout, inMod, hin, ?_, ?_, hfree⟩
      · exact sim.port_range built (·.outputCount) outOk outBound
          (fun a ha hadd hrefers model quantities m state hmodel hmodule =>
            (fits.named a ha hadd model _ _ _ _ hmodel hmodule op hop).2.1 kind hrefers outPort outputPort)
          hout
      · exact sim.port_range built (·.inputCount) inOk inBound
          (fun a ha hadd hrefers model quantities m state hmodel hmodule =>
            (fits.named a ha hadd model _ _ _ _ hmodel hmodule op hop).2.2 kind hrefers inPort inputPort)
          hin
  | _ => simp_all

/-- An accepted operation is applied exactly when the state is one it is `Applicable` in. -/
theorem applyOne_isDone (sim : Sim w st s) (built : BuiltFromPlan w ops s) (fits : PlanFits w ops)
    (hop : op ∈ ops) (hmove : opType op ≠ .moveModule) (hposition : ¬ jhasKey op "position")
    (h : PreviewStep (w.world ops) op st st') :
    (Applier.applyOne w.rack op s).isDone ↔ Applicable w.rack op s := by
  have hstep := h
  cases h with
  | add kind installed =>
    rw [Applier.applyOne, kind]
    exact sim.add_isDone fits hop hposition kind installed
  | removeAlias kind ok =>
    simp only [Applier.applyOne, Applicable, kind, Applier.applyRemove_isDone,
      sim.modules.resolve_of_ok ok, Option.some.injEq, exists_eq_left', forall_eq']
  | removeLive kind id ok =>
    simp only [Applier.applyOne, Applicable, kind, Applier.applyRemove_isDone,
      sim.modules.resolve_of_ok ok, Option.some.injEq, exists_eq_left', forall_eq']
  | modifyAlias kind ok => exact sim.modify_isDone built fits hop hstep kind ok
  | modifyLive kind id ok => exact sim.modify_isDone built fits hop hstep kind ok
  | move kind => exact absurd kind hmove
  | connect kind => exact sim.connect_isDone built fits hop hstep kind
  | disconnect kind cid named known kept =>
    -- a snapshot cable that the plan has not removed is still live
    obtain ⟨plan, hplan, rfl⟩ := known
    obtain ⟨c, hc, rfl⟩ := List.mem_map.mp hplan
    have hfind : s.patch.cable c.id = some c :=
      Keyed.find?_eq_some sim.cables.nodup (sim.cables.kept c hc kept)
    simp only [Applier.applyOne, Applicable, kind, Applier.applyDisconnect_isDone, named, iff_true]
    exact Option.isSome_iff_exists.mpr ⟨c, hfind⟩
  | disconnectPortAlias kind ok =>
    simp only [Applier.applyOne, Applicable, kind, Applier.applyDisconnectPort_isDone,
      sim.modules.resolve_of_ok ok, Option.some.injEq, exists_eq_left']
  | disconnectPortLive kind id portId ok =>
    simp only [Applier.applyOne, Applicable, kind, Applier.applyDisconnectPort_isDone,
      sim.modules.resolve_of_ok ok, Option.some.injEq, exists_eq_left']

/-- The lockstep with the modules of the plan, after a part of the plan both sides finished. -/
theorem run_built (hp : Runs (validateOne (w.world ops)) list {} st)
    (hc : Runs (Applier.applyOne w.rack) list w.start s) (hsub : ∀ op ∈ list, op ∈ ops) :
    Sim w st s ∧ BuiltFromPlan w ops s := by
  refine hp.simulate hc (R := fun st s => Sim w st s ∧ BuiltFromPlan w ops s) ?_
    ⟨.start w, fun name id hname => by cases hname⟩
  rintro op hop st s st' s' ⟨sim, built⟩ hp hc
  have hstep := Applier.applyOne_step sim.cables.widgets hc
  exact ⟨sim.step hp hc, built.step sim.modules (hsub op hop) hstep⟩

end Sim

theorem PlanFits.of_no_add (h : ∀ a ∈ ops, opType a ≠ .addModule) : PlanFits w ops where
  constructs a ha hadd := absurd hadd (h a ha)
  initial a ha hadd := absurd hadd (h a ha)
  named a ha hadd := absurd hadd (h a ha)

/-- Every operation of the plan is `Applicable` in the state before it. -/
def ApplicableThroughout (w : PatchWorld) (ops : List Json) : Prop :=
  ∀ pre op post s, ops = pre ++ op :: post → Runs (Applier.applyOne w.rack) pre w.start s →
    Applicable w.rack op s

/-- An accepted plan without moves and positions, whose new modules fit it, is applied to its end exactly
when it is `Applicable` throughout. -/
theorem apply_completes_iff (w : PatchWorld) (ops : List Json)
    (hp : validateAll (w.world ops) ops = .done st)
    (hmove : ∀ op ∈ ops, opType op ≠ .moveModule ∧ ¬ jhasKey op "position") (fits : PlanFits w ops) :
    (∃ s, Applier.apply w.rack ops w.patch = .done s) ↔ ApplicableThroughout w ops := by
  rw [validateAll, runFrom_done_iff] at hp
  simp only [Applier.apply, runFrom_done_iff]
  rw [show (∃ s, Runs (Applier.applyOne w.rack) ops { patch := w.patch } s) ↔ _ from runs_iff_no_throw]
  refine forall_congr' fun pre => forall_congr' fun op => forall_congr' fun post => forall_congr' fun s =>
    forall_congr' fun hops => forall_congr' fun hc => ?_
  subst hops
  obtain ⟨st₁, hpre, hrest⟩ := Runs.append_iff.mp hp
  obtain ⟨st₂, hstep, -⟩ := Runs.cons_iff.mp hrest
  obtain ⟨sim, built⟩ := Sim.run_built hpre hc fun a ha => List.mem_append_left _ ha
  have hop : op ∈ pre ++ op :: post := by simp
  rw [← Outcome.isDone_iff]
  exact sim.applyOne_isDone built fits hop (hmove op hop).1 (hmove op hop).2 (validateOne_step hstep)

/-- Removing the oscillator is applicable. -/
theorem apply_completes_bench : ApplicableThroughout bench removeOscillator :=
  (apply_completes_iff bench removeOscillator (Outcome.eq_done_of_isDone (by decide)) (by decide)
    (.of_no_add (by decide))).mp ⟨_, Outcome.eq_done_of_isDone (by decide)⟩

/-- The filter loses its cable, gets another one, and is removed if it has none. -/
def removeRewired : List Json :=
  [operation "disconnect" [("cable", .object [("cableId", .string "10")])],
   connectOperation (moduleById "2") 0 (moduleById "2") 1,
   operation "remove_module" [("cablePolicy", .string "fail_if_connected"), ("module", moduleById "2")]]

/-- A plan the preview accepts can throw: the preview does not count the cable the plan adds. -/
theorem accepted_plan_throws :
    ¬ ∀ (w : PatchWorld) (ops : List Json) (st : PreviewState),
      validateAll (w.world ops) ops = .done st →
      (∀ op ∈ ops, opType op ≠ .moveModule ∧ ¬ jhasKey op "position") → PlanFits w ops →
      ∃ s, Applier.apply w.rack ops w.patch = .done s := by
  intro h
  have hdone := h bench removeRewired _ (Outcome.eq_done_of_isDone (by decide)) (by decide)
    (.of_no_add (by decide))
  rw [← Outcome.isDone_iff] at hdone
  revert hdone
  decide

end RackMcp
