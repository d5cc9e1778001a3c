import RackMcp.Proof.CommitGate
import RackMcp.Proof.PanelStep

/-!
# When the preview refuses an occupied position

While the preview knows the layout each panel stands where the preview has it (`LayoutSim`), but for the panels that a
`force` move pushed aside. `refusal_right_iff` says when a refused position is occupied.
-/

namespace RackMcp

open Gen Outcomes
open Layout (Occupant Point Box)
open PreviewState (SameLayout)

variable {world : PlanWorld} {rack : Rack} {op : Json} {st st' : PreviewState} {s s' : Applier}

/-! ### Panels that are pushed aside -/

/-- `setModulePosForce` puts the panel it is given at its target. The other panels go wherever Rack pushes them. -/
def ForceLands (rack : Rack) : Prop :=
  ∀ panels id target pos, rack.setModulePosForce panels id target id pos = target

/-- The operation is a move of another module, with policy `force`, that pushes the panel of this one away. -/
def Applier.Pushes (rack : Rack) (op : Json) (s : Applier) (id : Int) : Prop :=
  opType op = .moveModule ∧ jstr op "collision" "nearest" = "force" ∧
    ∃ mover g, s.resolve (Json.get op "module") = some mover ∧ mover ≠ id ∧
      readGridPosition (Json.get op "position") = .ok g ∧
      ∃ o ∈ s.patch.panels, o.moduleId = some id ∧
        rack.setModulePosForce s.patch.panels mover (Layout.gridToPixel g.1 g.2 rack.grid) id o.box.pos ≠ o.box.pos

/-- The operation puts the panel of this module where the plan says. -/
def Places (op : Json) (id : Int) : Prop :=
  opType op = .moveModule ∧ (jstr op "collision" "nearest" = "fail" ∨ jstr op "collision" "nearest" = "force") ∧
    (resolveModuleRef (Json.get op "module") ∅).moduleId = id

/-- Some operation of the list pushed the panel of this module away, and none after it placed it again. -/
def PushedAside (w : PatchWorld) (list : List Json) (id : Int) : Prop :=
  ∃ before op after s, list = before ++ op :: after ∧ Runs (Applier.applyOne w.rack) before w.start s ∧
    s.Pushes w.rack op id ∧ ∀ later ∈ after, ¬ Places later id

variable {w : PatchWorld} {ops list : List Json}

theorem PushedAside.snoc {id : Int} (h : PushedAside w list id) (hop : ¬ Places op id) :
    PushedAside w (list ++ [op]) id := by
  obtain ⟨before, pushing, after, s, rfl, hrun, hpushes, hafter⟩ := h
  refine ⟨before, pushing, after ++ [op], s, by simp, hrun, hpushes, ?_⟩
  intro later hlater
  rcases List.mem_append.mp hlater with hlater | hlater
  · exact hafter later hlater
  · rw [List.mem_singleton.mp hlater]
    exact hop

theorem pushedAside_snoc_self {id : Int} (hrun : Runs (Applier.applyOne w.rack) list w.start s)
    (h : s.Pushes w.rack op id) : PushedAside w (list ++ [op]) id :=
  ⟨list, op, [], s, rfl, hrun, h, by simp⟩

/-! ### The layout of the preview and the panels -/

/-- A panel whose module the preview has not removed. -/
def unremoved (removed : List Int) (o : Occupant) : Bool :=
  match o.moduleId with
  | none => true
  | some id => decide (id ∉ removed)

/-- The panels after a list whose layout the preview knows: those of the snapshot that are left, each at its place,
which is the one the preview has unless it was pushed aside. -/
structure LayoutSim (w : PatchWorld) (list : List Json) (st : PreviewState) (s : Applier) : Prop where
  modulesMade : s.modulesMade = 0
  panels : ∃ place, s.patch.panels = (w.patch.panels.filter (unremoved st.removedModules)).map (placePanel place) ∧
    ∀ o ∈ w.patch.panels, unremoved st.removedModules o = true → ∀ id, o.moduleId = some id →
      ¬ PushedAside w list id →
      (⟨place id o.box.pos, o.box.size⟩ : Box) = (st.plannedBoxes.lookup id).getD o.box

namespace LayoutSim

theorem start (w : PatchWorld) : LayoutSim w [] {} w.start where
  modulesMade := rfl
  panels := by
    refine ⟨fun _ pos => pos, ?_, ?_⟩
    · have hall : w.patch.panels.filter (unremoved []) = w.patch.panels := by
        rw [List.filter_eq_self]
        intro o _
        unfold unremoved
        split <;> simp
      show w.patch.panels = (w.patch.panels.filter (unremoved [])).map _
      rw [hall]
      refine (List.map_id _).symm.trans (List.map_congr_left ?_)
      intro o _
      rcases o with ⟨_ | id, box⟩ <;> rfl
    · intro o _ _ id _ _
      rfl

/-- While no module was added every reference is to a live module. -/
theorem nonneg (h : LayoutSim w list st s) (sim : Sim w st s) {ref : Option Json}
    (hok : (resolveModuleRef ref st.aliases).ok = true) : 0 ≤ (resolveModuleRef ref st.aliases).moduleId := by
  by_contra hneg
  obtain ⟨n, hn, -⟩ := sim.modules.planned_of_neg hok (not_le.mp hneg)
  rw [h.modulesMade] at hn
  omega

/-- Such a reference names the same module whatever the aliases are. -/
theorem moduleId_static (h : LayoutSim w list st s) (sim : Sim w st s) {ref : Option Json}
    (hok : (resolveModuleRef ref st.aliases).ok = true) :
    (resolveModuleRef ref ∅).moduleId = (resolveModuleRef ref st.aliases).moduleId := by
  have hnonneg := h.nonneg sim hok
  rcases refShape ref with ⟨id, -, hr⟩ | ⟨name, hr⟩ | hr
  · rw [hr, hr]
  · rcases sim.modules.aliases name with ⟨hnone, -⟩ | ⟨n, hn, -⟩
    · rw [hr, hnone] at hok
      cases hok
    · rw [h.modulesMade] at hn
      omega
  · rw [hr] at hok
    cases hok

theorem removedModules_step (h : PreviewStep world op st st') (hremove : opType op ≠ .removeModule) :
    st'.removedModules = st.removedModules := by
  cases h with
  | add _ _ _ _ _ _ removedModules => exact removedModules
  | removeAlias kind => exact absurd kind hremove
  | removeLive kind => exact absurd kind hremove
  | modifyAlias _ _ _ same => exact same.removedModules
  | modifyLive _ _ _ _ _ _ _ _ same => exact same.removedModules
  | move _ _ same => exact same.removedModules
  | connect _ _ _ _ _ _ _ _ _ _ _ _ _ _ _ _ removedModules => exact removedModules
  | disconnect _ cid _ _ _ same =>
    have hrest : PreviewState.SameButRemoved st (st.removeCable cid) := PreviewState.removeCables_same st [cid]
    exact same ▸ hrest.removedModules
  | disconnectPortAlias _ _ _ same => exact congrArg _ same
  | disconnectPortLive _ _ _ _ _ _ _ _ _ _ _ same => exact same.removedModules

theorem modulesMade_step (h : Applier.CommitStep rack op s s') (hadd : opType op ≠ .addModule) :
    s'.modulesMade = s.modulesMade := by
  cases h with
  | add kind => exact absurd kind hadd
  | remove _ _ _ _ _ _ _ _ _ modulesMade => exact modulesMade
  | modify _ _ _ _ _ _ same => exact same.modulesMade
  | randomize _ _ _ _ _ same => exact same.modulesMade
  | move _ _ _ _ _ same => exact same.modulesMade
  | connect _ _ _ _ _ _ _ _ _ _ _ _ _ _ _ _ _ _ same => exact same.modulesMade
  | disconnect _ _ _ _ _ same => exact same.modulesMade
  | disconnectPort _ _ _ _ _ _ _ same => exact same.modulesMade

theorem unremoved_append (removed : List Int) (id : Int) (o : Occupant) :
    unremoved (removed ++ [id]) o = (unremoved removed o && decide (o.moduleId ≠ some id)) := by
  unfold unremoved
  rcases o with ⟨_ | id', box⟩
  · rfl
  · by_cases hid : id' = id <;> simp [hid]

theorem quiet_step (h : LayoutSim w list st s) (hlayout : SameLayout st st')
    (hremoved : st'.removedModules = st.removedModules) (hpanels : s'.patch.panels = s.patch.panels)
    (hmade : s'.modulesMade = s.modulesMade) (hmove : opType op ≠ .moveModule) : LayoutSim w (list ++ [op]) st' s' where
  modulesMade := hmade.trans h.modulesMade
  panels := by
    obtain ⟨place, heq, hplace⟩ := h.panels
    refine ⟨place, by rw [hpanels, heq, hremoved], ?_⟩
    intro o ho hkept id hid hpushed
    rw [hlayout.plannedBoxes]
    rw [hremoved] at hkept
    refine hplace o ho hkept id hid ?_
    intro hbefore
    exact hpushed (hbefore.snoc fun hplaces => hmove hplaces.1)

theorem remove_step (h : LayoutSim w list st s) {id : Int} (hlayout : SameLayout st st')
    (hremoved : st'.removedModules = st.removedModules ++ [id])
    (hpanels : s'.patch.panels = s.patch.panels.filter (·.moduleId ≠ some id))
    (hmade : s'.modulesMade = s.modulesMade) (hmove : opType op ≠ .moveModule) : LayoutSim w (list ++ [op]) st' s' where
  modulesMade := hmade.trans h.modulesMade
  panels := by
    obtain ⟨place, heq, hplace⟩ := h.panels
    refine ⟨place, ?_, ?_⟩
    · rw [hpanels, heq, hremoved, List.filter_map, List.filter_filter]
      congr 1
      refine List.filter_congr fun o _ => ?_
      rw [unremoved_append, Bool.and_comm]
      simp
    · intro o ho hkept id' hid hpushed
      rw [hremoved, unremoved_append, Bool.and_eq_true] at hkept
      rw [hlayout.plannedBoxes]
      refine hplace o ho hkept.1 id' hid ?_
      intro hbefore
      exact hpushed (hbefore.snoc fun hplaces => hmove hplaces.1)

/-- The panel that a move is about, and the box the preview wants it to have. -/
theorem previewTarget_eq {selfIndex : Nat} {target : Box} {g : Int × Int}
    (h : previewTarget (w.world ops) op st = some (selfIndex, target))
    (hposition : readGridPosition (Json.get op "position") = .ok g) :
    ∃ self, w.patch.panels[selfIndex]? = some self ∧ self.moduleId = some (previewRef op st).moduleId ∧
      target = ⟨Layout.gridToPixel g.1 g.2 w.rack.grid, self.box.size⟩ := by
  unfold previewTarget at h
  rw [hposition] at h
  rcases hindex : (w.world ops).widgetIndex (previewRef op st).moduleId with _ | index
  · rw [hindex] at h
    cases h
  rw [hindex] at h
  cases h
  unfold PlanWorld.widgetIndex at hindex
  obtain ⟨hlt, hself, -⟩ := List.findIdx?_eq_some_iff_getElem.mp hindex
  have hpanel : w.patch.panels[selfIndex]? = some w.patch.panels[selfIndex] := List.getElem?_eq_getElem hlt
  refine ⟨w.patch.panels[selfIndex], hpanel, beq_iff_eq.mp hself, ?_⟩
  show (⟨_, ((w.patch.panels[selfIndex]?).map (·.box.size)).getD ⟨0, 0⟩⟩ : Box) = _
  rw [hpanel]
  rfl

/-- A panel of the patch is one of the snapshot. -/
theorem exists_panel (h : LayoutSim w list st s) {o : Occupant} (ho : o ∈ s.patch.panels) :
    ∃ o₀ ∈ w.patch.panels, o₀.moduleId = o.moduleId := by
  obtain ⟨place, heq, -⟩ := h.panels
  rw [heq] at ho
  obtain ⟨o₀, ho₀, rfl⟩ := List.mem_map.mp ho
  exact ⟨o₀, List.mem_of_mem_filter ho₀, (moduleId_placePanel place o₀).symm⟩

theorem move_step (h : LayoutSim w list st s) (sim : Sim w st s) (hforce : ForceLands w.rack)
    (hunique : (w.patch.panels.filterMap (·.moduleId)).Nodup) (hrun : Runs (Applier.applyOne w.rack) list w.start s)
    (kind : opType op = .moveModule) (hok : (previewRef op st).ok = true) (hlayout : MoveLayout (w.world ops) op st st')
    (hremoved : st'.removedModules = st.removedModules) (hc : Applier.applyMove w.rack op s = .done s')
    (hmade : s'.modulesMade = s.modulesMade) (hcertain : st'.layoutUncertain = false) :
    LayoutSim w (list ++ [op]) st' s' := by
  obtain ⟨id, g, place', hresolve, hwidget, hposition, hplacement, hpanels⟩ := Applier.applyMove_panels hc
  have hnonneg : 0 ≤ (previewRef op st).moduleId := h.nonneg sim hok
  have hid : (previewRef op st).moduleId = id := by
    rw [sim.modules.resolve_of_ok hok] at hresolve
    exact (w.liveId_of_nonneg hnonneg).symm.trans (Option.some.inj hresolve)
  cases hlayout with
  | uncertain hunknown =>
    rw [hunknown] at hcertain
    cases hcertain
  | unseen panel same =>
    exfalso
    obtain ⟨o, ho, hoid⟩ := List.mem_map.mp ((s.patch.widget_isSome id).mp hwidget).1
    obtain ⟨o₀, ho₀, hid₀⟩ := h.exists_panel ho
    rcases panel with hneg | hnone
    · omega
    · have hne := List.findIdx?_eq_none_iff.mp hnone o₀ ho₀
      rw [hid₀, hoid, hid] at hne
      simp at hne
  | planned selfIndex target htarget hpolicy hplanned _ =>
    obtain ⟨self, hself, hselfId, rfl⟩ := previewTarget_eq htarget hposition
    have hselfMem : self ∈ w.patch.panels := List.mem_of_getElem? hself
    rw [hid] at hselfId hplanned
    -- the moved panel lands on its target
    have hlands : ∀ pos, place' id pos = Layout.gridToPixel g.1 g.2 w.rack.grid := by
      intro pos
      unfold Applier.movePlacement at hplacement
      rcases hpolicy with hpolicy | hpolicy
      · rw [hpolicy, if_pos rfl] at hplacement
        split at hplacement
        · cases hplacement
          exact if_pos rfl
        · cases hplacement
      · rw [hpolicy, if_neg (by decide), if_pos rfl] at hplacement
        cases hplacement
        exact hforce _ _ _ _
    obtain ⟨place, heq, hplace⟩ := h.panels
    -- a panel that is not pushed aside stays
    have hstays : ∀ o ∈ w.patch.panels, unremoved st.removedModules o = true → ∀ other, o.moduleId = some other →
        other ≠ id → ¬ PushedAside w (list ++ [op]) other →
        place' other (place other o.box.pos) = place other o.box.pos := by
      intro o ho hkept other hother hne hpushed
      unfold Applier.movePlacement at hplacement
      rcases hpolicy with hpolicy | hpolicy
      · rw [hpolicy, if_pos rfl] at hplacement
        split at hplacement
        · cases hplacement
          exact if_neg hne
        · cases hplacement
      · rw [hpolicy, if_neg (by decide), if_pos rfl] at hplacement
        cases hplacement
        by_contra hmoved
        refine hpushed (pushedAside_snoc_self hrun ⟨kind, hpolicy, id, g, hresolve, hne.symm, hposition, ?_⟩)
        refine ⟨placePanel place o, ?_, (moduleId_placePanel place o).trans hother, ?_⟩
        · rw [heq]
          exact List.mem_map_of_mem (List.mem_filter.mpr ⟨ho, hkept⟩)
        · rw [placePanel_of_some hother]
          exact hmoved
    refine ⟨hmade.trans h.modulesMade, fun other pos => place' other (place other pos), ?_, ?_⟩
    · rw [hpanels, heq, hremoved, List.map_map]
      exact List.map_congr_left fun o _ => placePanel_placePanel place place' o
    · intro o ho hkept other hother hpushed
      rw [hremoved] at hkept
      rw [hplanned]
      by_cases hne : other = id
      · subst hne
        rw [Keyed.eq_of_some_eq hunique ho hselfMem hother hselfId, AList.lookup_insert, Option.getD_some]
        show (⟨place' other (place other self.box.pos), self.box.size⟩ : Box) = _
        rw [hlands]
      · rw [AList.lookup_insert_ne hne]
        show (⟨place' other (place other o.box.pos), o.box.size⟩ : Box) = _
        rw [hstays o ho hkept other hother hne hpushed]
        refine hplace o ho hkept other hother ?_
        intro hbefore
        refine hpushed (hbefore.snoc ?_)
        intro hplaces
        exact hne (hplaces.2.2.symm.trans ((h.moduleId_static sim hok).trans hid))

theorem step (h : LayoutSim w list st s) (sim : Sim w st s) (hforce : ForceLands w.rack)
    (hunique : (w.patch.panels.filterMap (·.moduleId)).Nodup) (hrun : Runs (Applier.applyOne w.rack) list w.start s)
    (hp : validateOne (w.world ops) op st = .done st') (hc : Applier.applyOne w.rack op s = .done s')
    (hcertain : st'.layoutUncertain = false) : LayoutSim w (list ++ [op]) st' s' := by
  have hpstep := validateOne_step hp
  have hcstep := Applier.applyOne_step sim.cables.widgets hc
  by_cases hadd : opType op = .addModule
  · unfold validateOne at hp
    split at hp
    · cases hp
    unfold validateBranch at hp
    rw [hadd] at hp
    rw [validateAdd_uncertain hp] at hcertain
    cases hcertain
  have hmade := modulesMade_step hcstep hadd
  by_cases hmove : opType op = .moveModule
  · have hremoved := removedModules_step hpstep (by simp [hmove])
    have hok : (previewRef op st).ok = true := by
      cases hpstep with
      | move _ ok => exact ok
      | _ => simp_all
    unfold validateOne at hp
    split at hp
    · cases hp
    unfold validateBranch at hp
    rw [hmove] at hp
    unfold Applier.applyOne at hc
    rw [hmove] at hc
    exact h.move_step sim hforce hunique hrun hmove hok (validateMove_layout hp) hremoved hc hmade hcertain
  have hlayout := layout_step hp hadd hmove
  by_cases hremove : opType op = .removeModule
  · unfold Applier.applyOne at hc
    rw [hremove] at hc
    obtain ⟨id, hresolve, hpanels⟩ := Applier.applyRemove_panels hc
    cases hpstep with
    | removeAlias _ ok synthetic =>
      have hnonneg := h.nonneg sim ok
      exact absurd synthetic (not_lt.mpr hnonneg)
    | removeLive _ id' ok named live _ _ _ _ _ _ removedModules =>
      rw [sim.modules.resolve_of_ok ok] at hresolve
      have hid : id' = id := by
        rw [← named]
        exact (w.liveId_of_nonneg (named ▸ live)).symm.trans (Option.some.inj hresolve)
      exact h.remove_step hlayout (hid ▸ removedModules) hpanels hmade hmove
    | _ => simp_all
  · exact h.quiet_step hlayout (removedModules_step hpstep hremove) (Applier.applyOne_panels hc hadd hremove hmove) hmade
      hmove

/-- The layout of the preview and the panels after an accepted and applied list. -/
theorem run (hforce : ForceLands w.rack) (hunique : (w.patch.panels.filterMap (·.moduleId)).Nodup)
    (hp : Runs (validateOne (w.world ops)) list {} st) (hc : Runs (Applier.applyOne w.rack) list w.start s)
    (hcertain : st.layoutUncertain = false) : LayoutSim w list st s := by
  induction list using List.reverseRecOn generalizing st s with
  | nil =>
    rw [Runs.nil_iff.mp hp, Runs.nil_iff.mp hc]
    exact start w
  | append_singleton list op ih =>
    obtain ⟨st₁, hp₁, hpstep⟩ := Runs.snoc_iff.mp hp
    obtain ⟨s₁, hc₁, hcstep⟩ := Runs.snoc_iff.mp hc
    have hcertain₁ : st₁.layoutUncertain = false := by
      by_contra hunknown
      have hlater := layoutUncertain_step hpstep (by simpa using hunknown)
      rw [hlater] at hcertain
      cases hcertain
    exact (ih hp₁ hc₁ hcertain₁).step (Sim.run hp₁ hc₁) hforce hunique hc₁ hpstep hcstep hcertain

end LayoutSim

/-! ### The refusal -/

/-- The refusal of a move onto an occupied position. -/
def collisionRefusal : ValidationError :=
  ⟨.validationFailed, "move_module: target position is occupied (collision fail)"⟩

/-- The preview finds the panel in the way of a move. -/
def FoundInWay (world : PlanWorld) (op : Json) (st : PreviewState) (o : Occupant) : Prop :=
  ∃ selfIndex target box, previewTarget world op st = some (selfIndex, target) ∧
    o.moduleId ≠ some (previewRef op st).moduleId ∧
    Layout.PlanLayout.boxOf ⟨st.removedModules, st.plannedBoxes⟩ o = some box ∧ Layout.intersects target box = true

/-- The panel overlaps the box that the panel of a move is to have, and is not that panel. -/
def Applier.InWay (rack : Rack) (op : Json) (s : Applier) (o : Occupant) : Prop :=
  ∃ id m panel g, s.resolve (Json.get op "module") = some id ∧ s.patch.widget id = some (m, panel) ∧
    readGridPosition (Json.get op "position") = .ok g ∧ o.moduleId ≠ some id ∧
    Layout.intersects ⟨Layout.gridToPixel g.1 g.2 rack.grid, panel.box.size⟩ o.box = true

/-- What a refused move found. -/
theorem validateOne_collision (kind : opType op = .moveModule)
    (h : validateOne world op st = .thrown collisionRefusal st') :
    (previewRef op st).ok = true ∧ 0 ≤ (previewRef op st).moduleId ∧
      (∃ m, liveModule world st (previewRef op st).moduleId = some m) ∧ st.layoutUncertain = false ∧
      ∃ selfIndex target g, readGridPosition (Json.get op "position") = .ok g ∧
        previewTarget world op st = some (selfIndex, target) ∧
        positionFree world st selfIndex target = false := by
  unfold validateOne at h
  split at h
  · cases h
  unfold validateBranch at h
  rw [kind] at h
  dsimp only at h
  unfold validateMove at h
  dsimp only at h
  split at h
  · cases h
  next hok =>
  split at h
  · cases h
  next hlive =>
  split at h
  · cases h
  next hsome =>
  split at h
  · cases h
  next selfIndex hself =>
  split at h
  · cases h
  next gx gy hposition =>
  split at h
  · next hrefused =>
    refine ⟨not_not.mp hok, not_lt.mp hlive, ?_, by simpa using hrefused.2.1, selfIndex, _, (gx, gy), hposition, ?_,
      by simpa using hrefused.2.2⟩
    · rw [← Option.isSome_iff_exists, Option.isSome_iff_ne_none]
      intro hnone
      exact hsome (Option.isNone_iff_eq_none.mpr hnone)
    · unfold previewTarget previewRef
      rw [hself, hposition]
  · split at h
    · cases h
    · cases h

theorem boxOf_of_unremoved {removed : List Int} {boxes : AList (fun _ : Int => Box)} {o : Occupant}
    (h : unremoved removed o = true) : Layout.PlanLayout.boxOf ⟨removed, boxes⟩ o =
      some (match o.moduleId with
        | none => o.box
        | some id => (boxes.lookup id).getD o.box) := by
  unfold unremoved at h
  unfold Layout.PlanLayout.boxOf
  rcases o with ⟨_ | id, box⟩
  · rfl
  · exact if_neg (of_decide_eq_true h)

theorem unremoved_of_boxOf {removed : List Int} {boxes : AList (fun _ : Int => Box)} {o : Occupant} {box : Box}
    (h : Layout.PlanLayout.boxOf ⟨removed, boxes⟩ o = some box) : unremoved removed o = true := by
  unfold Layout.PlanLayout.boxOf at h
  unfold unremoved
  rcases o with ⟨_ | id, box'⟩
  · rfl
  · by_cases hid : id ∈ removed
    · dsimp only at h
      rw [if_pos hid] at h
      cases h
    · exact decide_eq_true hid

namespace LayoutSim

/-- A panel that was not pushed aside stands where the preview has it. -/
theorem boxOf_eq (h : LayoutSim w list st s) :
    ∃ place, s.patch.panels = (w.patch.panels.filter (unremoved st.removedModules)).map (placePanel place) ∧
      ∀ o ∈ w.patch.panels, unremoved st.removedModules o = true →
        (∀ id, o.moduleId = some id → ¬ PushedAside w list id) →
        Layout.PlanLayout.boxOf ⟨st.removedModules, st.plannedBoxes⟩ o = some (placePanel place o).box := by
  obtain ⟨place, heq, hplace⟩ := h.panels
  refine ⟨place, heq, ?_⟩
  intro o ho hkept hunpushed
  rw [boxOf_of_unremoved hkept]
  rcases hid : o.moduleId with _ | id
  · rw [placePanel_of_none hid]
  · rw [placePanel_of_some hid]
    exact congrArg some (hplace o ho hkept id hid (hunpushed id hid)).symm

/-- The panel of a live module of the snapshot is in the patch, with its size. -/
theorem widget_eq (h : LayoutSim w list st s) (sim : Sim w st s)
    (hunique : (w.patch.panels.filterMap (·.moduleId)).Nodup) {id : Int} {m : WorldModule}
    (hm : liveModule (w.world ops) st id = some m) {self : Occupant} (hself : self ∈ w.patch.panels)
    (hselfId : self.moduleId = some id) :
    ∃ live panel, s.patch.widget id = some (live, panel) ∧ panel.box.size = self.box.size := by
  obtain ⟨live, hlive, -⟩ := sim.modules.module_eq hm
  obtain ⟨place, heq, -⟩ := h.panels
  have hkept : unremoved st.removedModules self = true := by
    unfold liveModule at hm
    split at hm
    · cases hm
    · next hid =>
      unfold unremoved
      rw [hselfId]
      exact decide_eq_true hid
  have hpanel : placePanel place self ∈ s.patch.panels := by
    rw [heq]
    exact List.mem_map_of_mem (List.mem_filter.mpr ⟨hself, hkept⟩)
  rcases hfind : s.patch.panels.find? (·.moduleId == some id) with _ | panel
  · have hnone := List.find?_eq_none.mp hfind _ hpanel
    rw [moduleId_placePanel, hselfId] at hnone
    simp at hnone
  · refine ⟨live, panel, by rw [Patch.widget, hfind, hlive], ?_⟩
    have hmem := List.mem_of_find?_eq_some hfind
    have hid : panel.moduleId = some id := by simpa using List.find?_some hfind
    rw [heq] at hmem
    obtain ⟨o, ho, rfl⟩ := List.mem_map.mp hmem
    rw [moduleId_placePanel] at hid
    rw [Keyed.eq_of_some_eq hunique (List.mem_of_mem_filter ho) hself hid hselfId, placePanel_of_some hselfId]

/-- Commit and preview mean the same panel and the same box. -/
theorem inWay_iff (h : LayoutSim w list st s) (sim : Sim w st s)
    (hunique : (w.patch.panels.filterMap (·.moduleId)).Nodup) (hok : (previewRef op st).ok = true)
    {m : WorldModule} (hm : liveModule (w.world ops) st (previewRef op st).moduleId = some m) {selfIndex : Nat}
    {target : Box} (htarget : previewTarget (w.world ops) op st = some (selfIndex, target)) {g : Int × Int}
    (hposition : readGridPosition (Json.get op "position") = .ok g) (o : Occupant) :
    s.InWay w.rack op o ↔
      o.moduleId ≠ some (previewRef op st).moduleId ∧ Layout.intersects target o.box = true := by
  obtain ⟨self, hself, hselfId, rfl⟩ := previewTarget_eq htarget hposition
  obtain ⟨live, panel, hwidget, hsize⟩ := h.widget_eq sim hunique hm (List.mem_of_getElem? hself) hselfId
  have hnonneg : 0 ≤ (previewRef op st).moduleId := h.nonneg sim hok
  have hresolve : s.resolve (Json.get op "module") = some (previewRef op st).moduleId := by
    rw [sim.modules.resolve_of_ok hok]
    exact congrArg some (w.liveId_of_nonneg hnonneg)
  constructor
  · intro ⟨id, live', panel', g', hresolve', hwidget', hposition', hne, hoverlap⟩
    have hid := Option.some.inj (hresolve'.symm.trans hresolve)
    subst hid
    have hpair := Option.some.inj (hwidget'.symm.trans hwidget)
    have hpanel : panel' = panel := congrArg Prod.snd hpair
    have hg : g' = g := Except.ok.inj (hposition'.symm.trans hposition)
    rw [hpanel, hg, hsize] at hoverlap
    exact ⟨hne, hoverlap⟩
  · intro ⟨hne, hoverlap⟩
    exact ⟨_, live, panel, g, hresolve, hwidget, hposition, hne, hsize ▸ hoverlap⟩

end LayoutSim

/-- A refused position is occupied exactly when a panel that the preview found in the way was not pushed aside, or a
panel that was pushed aside has come to stand in the way. -/
theorem refusal_right_iff (w : CommitWorld) (hforce : ForceLands w.rack) {pre ops : List Json} {op : Json}
    {st st' : PreviewState} {s : Applier} (hp : Runs (validateOne (w.world ops)) pre {} st)
    (hc : Runs (Applier.applyOne w.rack) pre w.start s) (kind : opType op = .moveModule)
    (hrefused : validateOne (w.world ops) op st = .thrown collisionRefusal st') :
    (∃ o ∈ s.patch.panels, s.InWay w.rack op o) ↔
      (∃ o ∈ w.patch.panels, FoundInWay (w.world ops) op st o ∧
        ∀ id, o.moduleId = some id → ¬ PushedAside w.toPatchWorld pre id) ∨
      ∃ o ∈ s.patch.panels, s.InWay w.rack op o ∧ ∃ id, o.moduleId = some id ∧ PushedAside w.toPatchWorld pre id := by
  obtain ⟨hok, -, ⟨m, hm⟩, hcertain, selfIndex, target, g, hposition, htarget, -⟩ := validateOne_collision kind hrefused
  have sim := Sim.run hp hc
  have hsim := LayoutSim.run hforce w.panelIds_nodup hp hc hcertain
  have hinWay := hsim.inWay_iff sim w.panelIds_nodup hok hm htarget hposition
  obtain ⟨place, heq, hbox⟩ := hsim.boxOf_eq
  constructor
  · intro ⟨o, ho, hblocks⟩
    by_cases hpushed : ∃ id, o.moduleId = some id ∧ PushedAside w.toPatchWorld pre id
    · exact .inr ⟨o, ho, hblocks, hpushed⟩
    left
    obtain ⟨hne, hoverlap⟩ := (hinWay o).mp hblocks
    rw [heq] at ho
    obtain ⟨o₀, ho₀, rfl⟩ := List.mem_map.mp ho
    obtain ⟨hmem, hkept⟩ := List.mem_filter.mp ho₀
    rw [moduleId_placePanel] at hne
    have hunpushed : ∀ id, o₀.moduleId = some id → ¬ PushedAside w.toPatchWorld pre id := by
      intro id hid hyes
      exact hpushed ⟨id, (moduleId_placePanel place o₀).trans hid, hyes⟩
    exact ⟨o₀, hmem, ⟨selfIndex, target, _, htarget, hne, hbox o₀ hmem hkept hunpushed, hoverlap⟩, hunpushed⟩
  · intro h
    rcases h with ⟨o₀, hmem, ⟨index, target', box, htarget', hne, hfound, hoverlap⟩, hunpushed⟩ | ⟨o, ho, hblocks, -⟩
    · have hpair := Option.some.inj (htarget'.symm.trans htarget)
      have htarget_eq : target' = target := congrArg Prod.snd hpair
      have hkept := unremoved_of_boxOf hfound
      have hbox_eq := Option.some.inj ((hbox o₀ hmem hkept hunpushed).symm.trans hfound)
      refine ⟨placePanel place o₀, ?_, (hinWay _).mpr ⟨?_, ?_⟩⟩
      · rw [heq]
        exact List.mem_map_of_mem (List.mem_filter.mpr ⟨hmem, hkept⟩)
      · rw [moduleId_placePanel]
        exact hne
      · rw [hbox_eq, ← htarget_eq]
        exact hoverlap
    · exact ⟨o, ho, hblocks⟩

/-- A move of a module to a column of the first row. -/
def moveOperation (module : Json) (column : Int) (collision : String) : Json :=
  operation "move_module" [("module", module),
    ("position", .object [("x", .integer column), ("y", .integer 0)]), ("collision", .string collision)]

/-- A rack whose `setModulePosForce` pushes a panel that is in the way to the left of the moved one. -/
def pushRack : Rack :=
  { benchRack with
    setModulePosForce := fun panels id target other pos =>
      let size (n : Int) : Point := ((panels.find? (·.moduleId == some n)).map (·.box.size)).getD ⟨0, 0⟩
      if other = id then target
      else if Layout.intersects ⟨target, size id⟩ ⟨pos, size other⟩ then
        ⟨((target.x.untopD 0 - (size other).x.untopD 0 : ℚ) : WithTop ℚ), pos.y⟩
      else pos }

/-- A wide panel and, further right, two narrow ones. -/
def pushPatch : Patch where
  modules :=
    [⟨1, "Fundamental", "VCO", [], 2, 2, ⟨[], false, ""⟩⟩, ⟨2, "Fundamental", "Mutes", [], 2, 2, ⟨[], false, ""⟩⟩,
     ⟨3, "Fundamental", "Mutes", [], 2, 2, ⟨[], false, ""⟩⟩]
  panels :=
    [⟨some 1, ⟨⟨(30090 : ℚ), (38000 : ℚ)⟩, ⟨(90 : ℚ), (380 : ℚ)⟩⟩⟩,
     ⟨some 2, ⟨⟨(30300 : ℚ), (38000 : ℚ)⟩, ⟨(15 : ℚ), (380 : ℚ)⟩⟩⟩,
     ⟨some 3, ⟨⟨(30315 : ℚ), (38000 : ℚ)⟩, ⟨(15 : ℚ), (380 : ℚ)⟩⟩⟩]
  cables := []

theorem pushPatch_module_fresh (n : ℕ) : pushRack.moduleIds n ∉ pushPatch.modules.map (·.id) := by
  intro h
  simp only [pushRack, benchRack, pushPatch, List.map_cons, List.map_nil, List.mem_cons, List.not_mem_nil, or_false] at h
  omega

theorem pushPatch_panel_fresh (n : ℕ) (o : Occupant) (ho : o ∈ pushPatch.panels) :
    o.moduleId ≠ some (pushRack.moduleIds n) := by
  intro h
  simp only [pushPatch, List.mem_cons, List.not_mem_nil, or_false] at ho
  rcases ho with rfl | rfl | rfl
  all_goals
    have hid := Option.some.inj h
    simp only [pushRack, benchRack] at hid
    omega

/-- The patch in that rack. -/
def pushBench : CommitWorld where
  rack := pushRack
  patch := pushPatch
  moduleIds_nodup := by decide
  cableIds_nodup := by decide
  widgets := by decide
  moduleIds_injective := benchRack_moduleIds_injective
  cableIds_injective := benchRack_cableIds_injective
  module_fresh := pushPatch_module_fresh
  end_fresh n c hc := by
    simp [pushPatch] at hc
  cable_fresh n h := by
    simp [pushPatch] at h
  relist_perm := benchRack_relist_perm
  relist_order cs c _ := by
    simp [pushPatch]
  panelIds_nodup := by decide
  panel_fresh := pushPatch_panel_fresh

/-- The first narrow panel is forced onto the wide one. -/
def forceNarrow : Json := moveOperation (moduleById "2") 10 "force"

/-- What the preview and commit have after that move. -/
def forcePreviewed (next : Json) : PreviewState := (validateOne (pushBench.world [forceNarrow, next]) forceNarrow {}).state
def forceApplied : Applier := (Applier.applyOne pushRack forceNarrow pushBench.start).state

theorem runs_forcePreviewed (next : Json) (h : (validateOne (pushBench.world [forceNarrow, next]) forceNarrow {}).isDone) :
    Runs (validateOne (pushBench.world [forceNarrow, next])) [forceNarrow] {} (forcePreviewed next) :=
  Runs.cons_iff.mpr ⟨_, Outcome.eq_done_of_isDone h, Runs.nil_iff.mpr rfl⟩

theorem runs_forceApplied : Runs (Applier.applyOne pushRack) [forceNarrow] pushBench.start forceApplied :=
  Runs.cons_iff.mpr ⟨_, Outcome.eq_done_of_isDone (by decide +kernel), Runs.nil_iff.mpr rfl⟩

/-- The forced panel was not pushed aside. -/
theorem not_pushedAside_narrow : ¬ PushedAside pushBench.toPatchWorld [forceNarrow] 2 := by
  rintro ⟨before, op, after, s, heq, hruns, ⟨-, -, mover, g, hresolve, hne, -⟩, -⟩
  obtain ⟨rfl, hrest⟩ | ⟨tail, -, hrest⟩ := List.cons_eq_append_iff.mp heq
  · obtain ⟨rfl, -⟩ := List.cons.inj hrest
    obtain rfl := Runs.nil_iff.mp hruns
    have hmover : some 2 = some mover := Eq.trans (by decide +kernel) hresolve
    exact hne (Option.some.inj hmover).symm
  · exact absurd hrest (by simp)

/-- The second narrow panel is moved onto the first. -/
def moveOnto : Json := moveOperation (moduleById "3") 10 "fail"

/-- It is refused with reason. -/
theorem refusal_right_bench : ∃ o ∈ forceApplied.patch.panels, forceApplied.InWay pushRack moveOnto o := by
  refine (refusal_right_iff pushBench (fun _ _ _ _ => if_pos rfl) (runs_forcePreviewed moveOnto (by decide +kernel))
    runs_forceApplied (by decide) (Outcome.eq_thrown_of_error (by decide +kernel))).mpr (.inl ?_)
  refine ⟨⟨some 2, ⟨⟨30300, 38000⟩, ⟨15, 380⟩⟩⟩, by decide,
    ⟨2, ⟨⟨30150, 38000⟩, ⟨15, 380⟩⟩, ⟨⟨30150, 38000⟩, ⟨15, 380⟩⟩, ?_, by decide, ?_, ?_⟩, ?_⟩
  · decide +kernel
  · decide +kernel
  · decide +kernel
  · intro id hid
    obtain rfl := Option.some.inj hid
    exact not_pushedAside_narrow

/-- It is moved to where the wide panel made room. -/
def moveNarrow : Json := moveOperation (moduleById "3") 11 "fail"

/-- This move is refused although no panel is in its way. -/
theorem refused_free_position :
    Runs (validateOne (pushBench.world [forceNarrow, moveNarrow])) [forceNarrow] {} (forcePreviewed moveNarrow) ∧
      Runs (Applier.applyOne pushRack) [forceNarrow] pushBench.start forceApplied ∧
      (validateOne (pushBench.world [forceNarrow, moveNarrow]) moveNarrow (forcePreviewed moveNarrow)).error? =
        some collisionRefusal ∧
      ¬ ∃ o ∈ forceApplied.patch.panels, forceApplied.InWay pushRack moveNarrow o := by
  refine ⟨runs_forcePreviewed moveNarrow (by decide +kernel), runs_forceApplied, by decide +kernel, ?_⟩
  intro ⟨o, ho, id, m, panel, g, hresolve, hwidget, hposition, hne, hoverlap⟩
  have hid : some 3 = some id := Eq.trans (by decide +kernel) hresolve
  have hg : Except.ok (11, 0) = Except.ok g := Eq.trans (by decide +kernel) hposition
  cases hid
  cases hg
  have hpanel : some (⟨some 3, ⟨⟨30315, 38000⟩, ⟨15, 380⟩⟩⟩ : Occupant) = some panel :=
    Eq.trans (by decide +kernel) (congrArg (Option.map Prod.snd) hwidget)
  cases hpanel
  have hfree : ∀ o ∈ forceApplied.patch.panels, o.moduleId ≠ some 3 →
      ¬ Layout.intersects ⟨Layout.gridToPixel 11 0 pushRack.grid, ⟨15, 380⟩⟩ o.box = true := by decide +kernel
  exact hfree o ho hne hoverlap

end RackMcp
