import RackMcp.Proof.Lockstep

/-!
# What the preview discloses and what commit destroys

A snapshot module or cable that commit destroys has been disclosed by the preview
(`destruction_disclosed`). The other way round a disclosed cable survives exactly when a
`disconnect_port` with policy `top` takes another cable off the port than the preview named, and no
later operation takes the one it named (`disclosed_removed_iff`).
-/

namespace RackMcp

open Gen Outcomes

variable {w : PatchWorld} {st st' : PreviewState} {s s' : Applier} {ops list : List Json} {op : Json}

/-! ### Nothing is destroyed undisclosed -/

theorem Applier.CommitStep.randomized_eq (h : CommitStep w.rack op s s')
    (hkind : opType op ≠ .randomizeModule) : s'.randomized = s.randomized := by
  cases h with
  | add _ _ _ _ _ _ _ _ _ _ _ randomized => exact randomized
  | remove _ _ _ _ _ _ _ _ _ _ _ randomized => exact randomized
  | modify _ _ _ _ _ _ same => exact same.randomized
  | randomize kind => exact absurd kind hkind
  | move _ _ _ _ _ same => exact same.randomized
  | connect _ _ _ _ _ _ _ _ _ _ _ _ _ _ _ _ _ _ same => exact same.randomized
  | disconnect _ _ _ _ _ same => exact same.randomized
  | disconnectPort _ _ _ _ _ _ _ same => exact same.randomized

/-- Without a `randomize_module` no module is randomized. -/
theorem randomized_eq_nil (hp : Runs (validateOne (w.world ops)) list {} st)
    (hc : Runs (Applier.applyOne w.rack) list w.start s)
    (hnone : ∀ op ∈ list, jstr op "op" ≠ "randomize_module") : s.randomized = [] := by
  have hboth : Sim w st s ∧ s.randomized = [] := by
    refine hp.simulate hc (R := fun st s => Sim w st s ∧ s.randomized = []) ?_ ⟨.start w, rfl⟩
    rintro op hop st s st' s' ⟨sim, hnil⟩ hp hc
    have hstep := Applier.applyOne_step sim.cables.widgets hc
    refine ⟨sim.step hp hc, ?_⟩
    rw [hstep.randomized_eq fun hkind => hnone op hop (by rw [← name_opType, hkind]; rfl), hnil]
  exact hboth.2

namespace Sim

/-- A snapshot module that is gone was disclosed. -/
theorem module_disclosed (sim : Sim w st s) {m : Module} (hm : m ∈ w.patch.modules)
    (hgone : s.patch.module m.id = none) : m.id ∈ st.removedModules := by
  by_contra hkept
  obtain ⟨planned, hshapes, -⟩ := sim.modules.shapes
  have hmem : toWorldModule m ∈ s.patch.shapes := by
    rw [hshapes]
    exact List.mem_append_left _ (List.mem_filter.mpr
      ⟨List.mem_map_of_mem hm, decide_eq_true_iff.mpr hkept⟩)
  have hlive := (s.patch.module_isSome m.id).mpr (List.mem_map_of_mem hmem)
  rw [hgone] at hlive
  cases hlive

/-- A snapshot cable that is gone was disclosed. -/
theorem cable_disclosed (sim : Sim w st s) {c : Cable} (hc : c ∈ w.patch.cables)
    (hgone : s.patch.cable c.id = none) : c.id ∈ st.removedCables := by
  by_contra hkept
  exact Keyed.find?_eq_none.mp hgone (List.mem_map_of_mem (sim.cables.kept c hc hkept))

end Sim

/-- Every module and every cable that existed before an accepted transaction and is absent after it is
listed as removed by the preview. A plan whose risk needs no confirmation destroys nothing and randomizes
nothing. -/
theorem destruction_disclosed (w : PatchWorld) (ops : List Json) (maxOperations : Int)
    (hp : validateAll (w.world ops) ops = .done st) (hc : Applier.apply w.rack ops w.patch = .done s) :
    (∀ m ∈ w.patch.modules, s.patch.module m.id = none → m.id ∈ st.removedModules) ∧
    (∀ c ∈ w.patch.cables, s.patch.cable c.id = none → c.id ∈ st.removedCables) ∧
    ((computeRisk (planEffects ops st) maxOperations).confirmationRequired = false →
      (∀ m ∈ w.patch.modules, (s.patch.module m.id).isSome) ∧
      (∀ c ∈ w.patch.cables, (s.patch.cable c.id).isSome) ∧ s.randomized = []) := by
  rw [validateAll, runFrom_done_iff] at hp
  rw [Applier.apply, runFrom_done_iff] at hc
  have sim := Sim.run hp hc
  refine ⟨fun m => sim.module_disclosed, fun c => sim.cable_disclosed, fun hrisk => ?_⟩
  simp only [computeRisk, PlanEffects.destructive, planEffects, Bool.or_eq_false_iff,
    decide_eq_false_iff_not, List.length_pos_iff, ne_eq, not_not] at hrisk
  obtain ⟨⟨⟨⟨hmodules, hcables⟩, -⟩, -⟩, hrandomizes⟩ := hrisk
  refine ⟨fun m hm => ?_, fun c hc => ?_, randomized_eq_nil hp hc fun op hop => ?_⟩
  · rw [Option.isSome_iff_ne_none]
    intro hgone
    have hdisclosed := sim.module_disclosed hm hgone
    rw [hmodules] at hdisclosed
    cases hdisclosed
  · rw [Option.isSome_iff_ne_none]
    intro hgone
    have hdisclosed := sim.cable_disclosed hc hgone
    rw [hcables] at hdisclosed
    cases hdisclosed
  · simpa using List.any_eq_false.mp hrandomizes op hop

/-- Removing the oscillator takes its cable, and the preview says so. -/
theorem destruction_disclosed_bench :
    (Applier.apply bench.rack removeOscillator bench.patch).state.patch.cable 10 = none ∧
      10 ∈ (validateAll (bench.world removeOscillator) removeOscillator).state.removedCables := by
  have hgone : (Applier.apply bench.rack removeOscillator bench.patch).state.patch.cable 10 = none := by
    decide
  obtain ⟨-, hcables, -⟩ := destruction_disclosed bench removeOscillator 128
    (Outcome.eq_done_of_isDone (by decide)) (Outcome.eq_done_of_isDone (by decide))
  exact ⟨hgone, hcables _ List.mem_cons_self hgone⟩

/-! ### What is disclosed and survives -/

/-- The cable is live. -/
def Applier.Live (s : Applier) (id : Int) : Prop := id ∈ s.patch.cables.map (·.id)

theorem Applier.live_iff {id : Int} : s.Live id ↔ s.patch.cable id ≠ none := by
  rw [Ne, ← Option.not_isSome_iff_eq_none, not_not]
  exact Keyed.find?_isSome.symm

namespace Applier

theorem live_survivors {ids : List Int} {id : Int} :
    id ∈ (s.survivors ids).map (·.id) ↔ s.Live id ∧ id ∉ ids := by
  simp only [survivors, Live, List.mem_map, List.mem_filter, decide_eq_true_eq]
  constructor
  · rintro ⟨c, ⟨hc, hnot⟩, rfl⟩
    exact ⟨⟨c, hc, rfl⟩, hnot⟩
  · rintro ⟨⟨c, hc, rfl⟩, hnot⟩
    exact ⟨c, ⟨hc, hnot⟩, rfl⟩

/-- A snapshot cable is live after an operation when it was live before and the operation did not take
it; no operation brings one back. -/
theorem CablesAfter.live_iff (h : CablesAfter w.rack op s s') {c : Cable} (hc : c ∈ w.patch.cables) :
    s'.Live c.id ↔ s.Live c.id ∧ c.id ∉ s.takes op := by
  rw [← live_survivors]
  cases h with
  | kept kind cables cablesMade => rw [Live, cables]
  | added kind outId inId outPort inPort _ _ cables cablesMade =>
    have hne : c.id ≠ w.rack.cableIds s.cablesMade := fun heq =>
      w.cable_fresh s.cablesMade (heq ▸ List.mem_map_of_mem hc)
    rw [Live, cables, ((w.relist_perm _ _).map _).mem_iff, List.map_cons, List.mem_cons]
    exact ⟨fun h => h.resolve_left hne, .inr⟩

/-- Every cable has a widget, whatever operations were applied. -/
theorem allWidgets_step (hw : s.AllWidgets) (h : CablesAfter w.rack op s s') : s'.AllWidgets := by
  have hkept : ∀ c ∈ s.survivors (s.takes op), c.widget.isSome := fun c hc =>
    hw c (List.mem_of_mem_filter hc)
  cases h with
  | kept kind cables cablesMade =>
    intro c hc
    exact hkept c (cables ▸ hc)
  | added kind outId inId outPort inPort _ _ cables cablesMade =>
    intro c hc
    rw [cables, (w.relist_perm _ _).mem_iff, List.mem_cons] at hc
    rcases hc with rfl | hc
    · rfl
    · exact hkept c hc

theorem allWidgets_run (h : Runs (applyOne w.rack) list s s') (hw : s.AllWidgets) : s'.AllWidgets :=
  h.invariant (fun _ _ _ _ hw hstep => allWidgets_step hw (applyOne_step hw hstep).cablesAfter) hw

/-- A snapshot cable does not come back. -/
theorem gone_run (h : Runs (applyOne w.rack) list s s') (hw : s.AllWidgets) {c : Cable}
    (hc : c ∈ w.patch.cables) (hgone : ¬ s.Live c.id) : ¬ s'.Live c.id := by
  have hboth : s'.AllWidgets ∧ ¬ s'.Live c.id := by
    refine h.invariant (I := fun s => s.AllWidgets ∧ ¬ s.Live c.id) ?_ ⟨hw, hgone⟩
    rintro op - s s' ⟨hw, hgone⟩ hstep
    have hafter := (applyOne_step hw hstep).cablesAfter
    exact ⟨allWidgets_step hw hafter, fun hlive => hgone ((hafter.live_iff hc).mp hlive).1⟩
  exact hboth.2

/-- A snapshot cable that goes away in a run was taken by one of its operations. -/
theorem exists_takes (h : Runs (applyOne w.rack) list s s') (hw : s.AllWidgets) {c : Cable}
    (hc : c ∈ w.patch.cables) (hlive : s.Live c.id) (hgone : ¬ s'.Live c.id) :
    ∃ mid op post t, list = mid ++ op :: post ∧ Runs (applyOne w.rack) mid s t ∧ c.id ∈ t.takes op := by
  obtain ⟨mid, op, post, t, u, hlist, hmid, hstep, _, htlive, hugone⟩ :=
    h.exists_change (P := fun s => ¬ s.Live c.id) (not_not.mpr hlive) hgone
  have hafter := (applyOne_step (allWidgets_run hmid hw) hstep).cablesAfter
  refine ⟨mid, op, post, t, hlist, hmid, ?_⟩
  by_contra hkept
  exact hugone ((hafter.live_iff hc).mpr ⟨not_not.mp htlive, hkept⟩)

end Applier

/-- A `disconnect_port` with policy `top` for which the last cable the preview finds on the port,
`named`, is not the last one the engine lists there. -/
def MissesTop (world : PlanWorld) (op : Json) (st : PreviewState) (s : Applier) (named : Int) : Prop :=
  let portRef := Json.get op "port"
  let id := (resolveModuleRef (Json.get portRef "module") st.aliases).moduleId
  let portType := jstr portRef "portType"
  opType op = .disconnectPort ∧ jstr op "policy" "all" = "top" ∧ 0 ≤ id ∧
    ∃ portId, readIntField portRef "portId" = .ok portId ∧
      (cablesOnPort world.cables st.removedCables id portType portId).getLast? = some named ∧
      (Applier.portCables s.patch id portType portId).getLast? ≠ some named

namespace Sim

theorem mem_of_cablesOn (here : PlanCable → Bool) {removed : List Int} {id : Int}
    (h : id ∈ (((w.world ops).cables.filter fun c => !removed.contains c.id && here c).map (·.id))) :
    ∃ c ∈ w.patch.cables, c.id = id ∧ c.id ∉ removed ∧ here c.plan := by
  obtain ⟨plan, hplan, rfl⟩ := List.mem_map.mp h
  obtain ⟨hmem, hhere⟩ := List.mem_filter.mp hplan
  obtain ⟨c, hc, rfl⟩ := List.mem_map.mp hmem
  rw [Bool.and_eq_true, Bool.not_eq_true', List.contains_eq_mem, decide_eq_false_iff_not] at hhere
  exact ⟨c, hc, rfl, hhere⟩

/-- A cable the preview discloses is a live snapshot cable, and commit takes it unless it takes another
one for policy `top`. -/
theorem discloses_taken (sim : Sim w st s) (h : PreviewStep (w.world ops) op st st') {id : Int}
    (hid : id ∈ discloses (w.world ops) op st) :
    ∃ c ∈ w.patch.cables, c.id = id ∧ s.Live id ∧
      (id ∈ s.takes op ∨ MissesTop (w.world ops) op st s id) := by
  have hknown : ∀ (here : PlanCable → Bool), id ∈ (((w.world ops).cables.filter
      fun c => !st.removedCables.contains c.id && here c).map (·.id)) →
      ∃ c ∈ w.patch.cables, c.id = id ∧ c ∈ s.patch.cables ∧ here c.plan := by
    intro here hmem
    obtain ⟨c, hc, hcid, hkept, hhere⟩ := mem_of_cablesOn here hmem
    exact ⟨c, hc, hcid, sim.cables.kept c hc hkept, hhere⟩
  have hmem : ∀ {c : Cable}, c ∈ s.patch.cables → s.Live c.id := fun hc => List.mem_map_of_mem hc
  cases h with
  | add kind => simp [discloses, kind] at hid
  | removeAlias kind _ synthetic => simp [discloses, kind, synthetic] at hid
  | removeLive kind mid ok named live =>
    simp only [discloses, kind, named, if_neg (not_lt.mpr live)] at hid
    obtain ⟨c, hc, rfl, hlive, htouches⟩ := hknown _ hid
    refine ⟨c, hc, rfl, hmem hlive, .inl ?_⟩
    simp only [Applier.takes, kind, sim.modules.resolve_of_ok ok]
    rw [show (resolveModuleRef (Json.get op "module") st.aliases).moduleId = mid from named,
      w.liveId_of_nonneg live]
    exact (sim.mem_moduleCables hlive).mpr htouches
  | modifyAlias kind => rcases kind with kind | kind | kind | kind <;> simp [discloses, kind] at hid
  | modifyLive kind => rcases kind with kind | kind | kind | kind <;> simp [discloses, kind] at hid
  | move kind => simp [discloses, kind] at hid
  | connect kind out inp _ input _ inOk _ inPort _ inputPort =>
    subst input
    simp only [discloses, kind, inputPort, freeInputCables] at hid
    split at hid
    · cases hid
    rename_i hnonneg
    obtain ⟨c, hc, rfl, hlive, hhere⟩ := hknown _ hid
    refine ⟨c, hc, rfl, hmem hlive, .inl ?_⟩
    simp only [Applier.takes, kind, sim.modules.resolve_of_ok inOk, inputPort]
    rw [w.liveId_of_nonneg (not_lt.mp hnonneg)]
    rw [onPort_input] at hhere
    exact (sim.mem_inputCables hlive).mpr hhere
  | disconnect kind cid named known kept =>
    simp only [discloses, kind, named, Option.toList_some, List.mem_singleton] at hid
    subst hid
    obtain ⟨plan, hplan, hplanId⟩ := known
    obtain ⟨c, hc, rfl⟩ := List.mem_map.mp hplan
    have hcid : c.id = id := hplanId
    subst hcid
    have hlive := sim.cables.kept c hc kept
    refine ⟨c, hc, rfl, hmem hlive, .inl ?_⟩
    simp only [Applier.takes, kind, named, Option.bind_some]
    have hfind : s.patch.cable c.id = some c := Keyed.find?_eq_some sim.cables.nodup hlive
    simp [hfind]
  | disconnectPortAlias kind _ synthetic =>
    simp only [discloses, kind, if_pos synthetic] at hid
    split at hid <;> cases hid
  | disconnectPortLive kind mid portId ok named live m _ port portType =>
    simp only [discloses, kind, port, named, if_neg (not_lt.mpr live)] at hid
    obtain ⟨c, hc, rfl, hlive, hhere⟩ := hknown _ (Applier.mem_selectMatches hid)
    refine ⟨c, hc, rfl, hmem hlive, ?_⟩
    have hread : jstr (Json.get op "port") "portType" ≠ "" := by
      rcases portType with portType | portType <;> simp [portType]
    simp only [Applier.takes, kind, sim.modules.resolve_of_ok ok, port]
    rw [named, w.liveId_of_nonneg live, jstr_eq_of_ne "input" hread]
    unfold selectMatches at hid ⊢
    split at hid
    · rename_i htop
      rw [if_pos htop]
      by_cases hlast : (Applier.portCables s.patch mid (jstr (Json.get op "port") "portType")
          portId).getLast? = some c.id
      · exact .inl (by simp [hlast])
      · exact .inr ⟨kind, htop, named ▸ live, portId, port, by rw [named]; simpa using hid,
          by rw [named]; exact hlast⟩
    · rename_i htop
      rw [if_neg htop]
      exact .inl ((sim.mem_portCables hlive).mpr hhere)

/-- What the preview counts as removed it keeps counting. -/
theorem removedCables_mono {st st' : PreviewState} (h : Runs (validateOne (w.world ops)) list st st')
    {id : Int} (hid : id ∈ st.removedCables) : id ∈ st'.removedCables :=
  h.invariant (I := fun st => id ∈ st.removedCables)
    (fun _ _ _ _ hid hstep => (validateOne_step hstep).mem_removedCables.mpr (.inl hid)) hid

/-- The modules the preview counts as removed are modules of the snapshot. -/
theorem removed_base (hp : Runs (validateOne (w.world ops)) list {} st) {id : Int}
    (hid : id ∈ st.removedModules) : id ∈ w.patch.shapes.map (·.id) := by
  have hall : ∀ id ∈ st.removedModules, id ∈ w.patch.shapes.map (·.id) := by
    refine hp.invariant (I := fun st => ∀ id ∈ st.removedModules, id ∈ w.patch.shapes.map (·.id)) ?_
      (by simp)
    rintro op - st st' hall hstep id hid
    cases validateOne_step hstep with
    | add _ _ _ _ _ _ removedModules => exact hall id (removedModules ▸ hid)
    | removeAlias _ _ _ same => exact hall id (same ▸ hid)
    | removeLive _ cid _ _ _ m found _ _ _ _ removedModules =>
      rw [removedModules, List.mem_append, List.mem_singleton] at hid
      rcases hid with hid | rfl
      · exact hall id hid
      · unfold liveModule at found
        split at found
        · cases found
        · obtain ⟨hm, rfl⟩ := Keyed.mem_of_find? found
          exact List.mem_map_of_mem hm
    | modifyAlias _ _ _ same => exact hall id (same.removedModules ▸ hid)
    | modifyLive _ _ _ _ _ _ _ _ same => exact hall id (same.removedModules ▸ hid)
    | move _ _ same => exact hall id (same.removedModules ▸ hid)
    | connect _ _ _ _ _ _ _ _ _ _ _ _ _ _ _ _ removedModules => exact hall id (removedModules ▸ hid)
    | disconnect _ cid _ _ _ same =>
      have hrest : PreviewState.SameButRemoved st (st.removeCable cid) :=
        PreviewState.removeCables_same st [cid]
      exact hall id (hrest.removedModules ▸ same ▸ hid)
    | disconnectPortAlias _ _ _ same => exact hall id (same ▸ hid)
    | disconnectPortLive _ _ _ _ _ _ _ _ _ _ _ same => exact hall id (same.removedModules ▸ hid)
  exact hall id hid

/-- A module the preview counts as removed is gone. -/
theorem removed_gone (sim : Sim w st s) (hp : Runs (validateOne (w.world ops)) list {} st) {id : Int}
    (hid : id ∈ st.removedModules) : s.patch.module id = none := by
  rw [← Option.not_isSome_iff_eq_none, s.patch.module_isSome]
  intro hlive
  obtain ⟨planned, hshapes, hfresh⟩ := sim.modules.shapes
  obtain ⟨m, hm, rfl⟩ := List.mem_map.mp hlive
  rw [hshapes, List.mem_append] at hm
  rcases hm with hm | hm
  · exact absurd hid (by simpa using (List.mem_filter.mp hm).2)
  · obtain ⟨n, -, hn⟩ := hfresh m hm
    have hbase := removed_base hp hid
    rw [hn] at hbase
    obtain ⟨b, hb, hbid⟩ := List.mem_map.mp hbase
    obtain ⟨module, hmodule, rfl⟩ := List.mem_map.mp hb
    exact w.module_fresh n (List.mem_map.mpr ⟨module, hmodule, hbid⟩)

end Sim

/-- A cable such a disconnect misses is disclosed and not taken. -/
theorem MissesTop.spec (sim : Sim w st s) (h : PreviewStep (w.world ops) op st st') {named : Int}
    (hmiss : MissesTop (w.world ops) op st s named) :
    named ∈ discloses (w.world ops) op st ∧ named ∉ s.takes op := by
  obtain ⟨kind, htop, hnonneg, portId, port, hnamed, hother⟩ := hmiss
  constructor
  · simp only [discloses, kind, port, if_neg (not_lt.mpr hnonneg), selectMatches, if_pos htop]
    simpa using hnamed
  · cases h with
    | disconnectPortAlias _ _ synthetic => exact absurd synthetic (not_lt.mpr hnonneg)
    | disconnectPortLive _ mid _ ok _ live m _ _ portType =>
      have hread : jstr (Json.get op "port") "portType" ≠ "" := by
        rcases portType with portType | portType <;> simp [portType]
      simp only [Applier.takes, kind, sim.modules.resolve_of_ok ok, port, selectMatches, if_pos htop]
      rw [w.liveId_of_nonneg hnonneg, jstr_eq_of_ne "input" hread]
      simpa using hother
    | _ => simp_all

/-- A later operation of the plan takes the cable. -/
def TakenLater (rack : Rack) (s : Applier) (post : List Json) (id : Int) : Prop :=
  ∃ mid op rest t, post = mid ++ op :: rest ∧ Runs (Applier.applyOne rack) mid s t ∧ id ∈ t.takes op

theorem takenLater_nil {rack : Rack} {id : Int} : ¬ TakenLater rack s [] id := by
  rintro ⟨mid, op, rest, t, hlist, -⟩
  simp at hlist

theorem takenLater_cons {rack : Rack} {post : List Json} {id : Int}
    (hstep : Applier.applyOne rack op s = .done s') :
    TakenLater rack s (op :: post) id ↔ id ∈ s.takes op ∨ TakenLater rack s' post id := by
  constructor
  · rintro ⟨mid, later, rest, t, hlist, hmid, htakes⟩
    cases mid with
    | nil =>
      obtain ⟨rfl, rfl⟩ := List.cons.inj hlist
      exact .inl (Runs.nil_iff.mp hmid ▸ htakes)
    | cons first mid =>
      obtain ⟨rfl, rfl⟩ := List.cons.inj hlist
      obtain ⟨s₁, hfirst, hmid⟩ := Runs.cons_iff.mp hmid
      obtain rfl : s' = s₁ := by simpa [hstep] using hfirst
      exact .inr ⟨mid, later, rest, t, rfl, hmid, htakes⟩
  · rintro (htakes | ⟨mid, later, rest, t, rfl, hmid, htakes⟩)
    · exact ⟨[], op, post, s, rfl, .nil s, htakes⟩
    · exact ⟨op :: mid, later, rest, t, rfl, .cons hstep hmid, htakes⟩

/-- Each cable that a `disconnect_port` with policy `top` named, and the engine did not list last, is taken
by a later operation. -/
def MissesTaken (w : PatchWorld) (ops : List Json) : Prop :=
  ∀ pre op post st s s' named, ops = pre ++ op :: post →
    Runs (validateOne (w.world ops)) pre {} st → Runs (Applier.applyOne w.rack) pre w.start s →
    Applier.applyOne w.rack op s = .done s' →
    MissesTop (w.world ops) op st s named → TakenLater w.rack s' post named

/-- Everything an accepted transaction disclosed as removed is gone after it exactly when each cable that
a `top` disconnect missed is taken by a later operation. -/
theorem disclosed_removed_iff (w : PatchWorld) (ops : List Json)
    (hp : validateAll (w.world ops) ops = .done st) (hc : Applier.apply w.rack ops w.patch = .done s) :
    ((∀ id ∈ st.removedModules, s.patch.module id = none) ∧
      ∀ id ∈ st.removedCables, s.patch.cable id = none) ↔ MissesTaken w ops := by
  rw [validateAll, runFrom_done_iff] at hp
  rw [Applier.apply, runFrom_done_iff] at hc
  have hw : w.start.AllWidgets := w.widgets
  constructor
  · rintro ⟨-, hgone⟩ pre op post st₁ s₁ s₂ named rfl hpre hcpre hstep hmiss
    obtain ⟨st₁', hpre', hprest⟩ := Runs.append_iff.mp hp
    obtain ⟨s₁', hcpre', hcrest⟩ := Runs.append_iff.mp hc
    obtain rfl := hpre.unique hpre'
    obtain rfl := hcpre.unique hcpre'
    obtain ⟨st₂, hpstep, hppost⟩ := Runs.cons_iff.mp hprest
    obtain ⟨s₂', hcstep, hcpost⟩ := Runs.cons_iff.mp hcrest
    obtain rfl : s₂ = s₂' := by simpa [hstep] using hcstep
    have sim := Sim.run hpre hcpre
    obtain ⟨hdisclosed, hkept⟩ := MissesTop.spec sim (validateOne_step hpstep) hmiss
    obtain ⟨c, hbase, rfl, hlive, -⟩ := sim.discloses_taken (validateOne_step hpstep) hdisclosed
    -- recorded as removed at this step, hence in the end, hence gone in the end
    have hrecorded : c.id ∈ st.removedCables :=
      Sim.removedCables_mono hppost ((validateOne_step hpstep).mem_removedCables.mpr (.inr hdisclosed))
    have hw₂ := Applier.allWidgets_run (Runs.snoc_iff.mpr ⟨s₁, hcpre, hstep⟩) hw
    have hlive₂ : s₂.Live c.id :=
      ((Applier.applyOne_step sim.cables.widgets hstep).cablesAfter.live_iff hbase).mpr ⟨hlive, hkept⟩
    have hgone' : ¬ s.Live c.id := fun h => Applier.live_iff.mp h (hgone _ hrecorded)
    exact Applier.exists_takes hcpost hw₂ hbase hlive₂ hgone'
  · intro htaken
    refine ⟨fun id => (Sim.run hp hc).removed_gone hp, fun id hid => ?_⟩
    -- the step that recorded the cable as removed
    obtain ⟨pre, op, post, st₁, st₂, rfl, hpre, hpstep, hppost, hnew, hrecorded⟩ :=
      hp.exists_change (P := fun st => id ∈ st.removedCables) (by simp) hid
    obtain ⟨s₁, hcpre, hcrest⟩ := Runs.append_iff.mp hc
    obtain ⟨s₂, hcstep, hcpost⟩ := Runs.cons_iff.mp hcrest
    have sim := Sim.run hpre hcpre
    have hdisclosed := ((validateOne_step hpstep).mem_removedCables.mp hrecorded).resolve_left hnew
    obtain ⟨c, hbase, rfl, hlive, hfate⟩ := sim.discloses_taken (validateOne_step hpstep) hdisclosed
    have hw₂ := Applier.allWidgets_run (Runs.snoc_iff.mpr ⟨s₁, hcpre, hcstep⟩) hw
    by_contra hnone
    have hend : s.Live c.id := Applier.live_iff.mpr hnone
    rcases hfate with htakes | hmiss
    · refine Applier.gone_run hcpost hw₂ hbase (fun hlive₂ => ?_) hend
      have hafter := (Applier.applyOne_step sim.cables.widgets hcstep).cablesAfter
      exact ((hafter.live_iff hbase).mp hlive₂).2 htakes
    · obtain ⟨mid, later, rest, t, rfl, hmid, htakes⟩ :=
        htaken pre op post st₁ s₁ s₂ c.id rfl hpre hcpre hcstep hmiss
      obtain ⟨t', hmid', hlater⟩ := Runs.append_iff.mp hcpost
      obtain rfl := hmid.unique hmid'
      obtain ⟨u, hlaterStep, hrest⟩ := Runs.cons_iff.mp hlater
      have hwt := Applier.allWidgets_run hmid hw₂
      have hafter := (Applier.applyOne_step hwt hlaterStep).cablesAfter
      refine Applier.gone_run hrest (Applier.allWidgets_step hwt hafter) hbase (fun hlive₂ => ?_) hend
      exact ((hafter.live_iff hbase).mp hlive₂).2 htakes

/-- Removing the oscillator misses no cable. -/
theorem disclosed_removed_bench : MissesTaken bench removeOscillator :=
  (disclosed_removed_iff bench removeOscillator (Outcome.eq_done_of_isDone (by decide))
    (Outcome.eq_done_of_isDone (by decide))).mp ⟨by decide, by decide⟩

/-- A cable from output 1:0 to the input 1:0, then the `top` disconnect of output 1:0, where the cable 10
already is. -/
def connectThenTop : List Json :=
  [connectOperation (moduleById "1") 0 (moduleById "1") 0,
   disconnectPortOperation (moduleById "1") "output" 0 "top"]

/-- The cable disclosed as removed can survive: the engine takes the new cable off the port. -/
theorem disclosed_cable_survives :
    ¬ ∀ (w : PatchWorld) (ops : List Json) (st : PreviewState) (s : Applier),
      validateAll (w.world ops) ops = .done st → Applier.apply w.rack ops w.patch = .done s →
      (∀ id ∈ st.removedModules, s.patch.module id = none) ∧
        ∀ id ∈ st.removedCables, s.patch.cable id = none := by
  intro h
  have hgone := (h bench connectThenTop _ _ (Outcome.eq_done_of_isDone (by decide))
    (Outcome.eq_done_of_isDone (by decide))).2 10 (by decide)
  revert hgone
  decide

end RackMcp
