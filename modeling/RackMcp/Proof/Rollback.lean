import RackMcp.Lib.Journal
import RackMcp.Rackside.Transaction
import RackMcp.Proof.Lockstep

/-!
# Rolling a failed transaction back

`Journaled` holds between any two steps of the applier, inside an operation too: undoing the pushed
actions newest first gives the patch the transaction began with. One place breaks it. `applyAdd` reads the
position of the new panel after the module and its panel are on the rack and before it pushes their action,
so a position it cannot read strands the module (`rollback_iff`).
-/

namespace RackMcp

open Gen Outcomes Journal
open Layout (Occupant Point)

variable {rack : Rack} {op : Json}

/-! ### Patches up to the order of their lists -/

namespace Patch

variable {p q : Patch}

theorem Same.refl (p : Patch) : Same p p := ⟨.refl _, .refl _, .refl _⟩

instance : Setoid Patch where
  r := Same
  iseqv :=
    { refl := Same.refl
      symm := fun h => ⟨h.1.symm, h.2.1.symm, h.2.2.symm⟩
      trans := fun h h' => ⟨h.1.trans h'.1, h.2.1.trans h'.2.1, h.2.2.trans h'.2.2⟩ }

theorem same_of_eq (h : p = q) : p ≈ q := by
  subst h
  exact Same.refl p

end Patch

/-- The inverse of an action does not see the order of the lists. -/
theorem Action.invert_congr (hrelist : ∀ cs c, (rack.relist cs c).Perm (c :: cs)) (a : Action) (p q : Patch)
    (h : p ≈ q) : a.invert rack.relist p ≈ a.invert rack.relist q := by
  obtain ⟨hmodules, hpanels, hcables⟩ := h
  cases a with
  | moduleAdd id => exact ⟨hmodules.filter _, hpanels.filter _, hcables⟩
  | moduleRemove m panel => exact ⟨hmodules.append_right _, hpanels.append_right _, hcables⟩
  | drag moves => exact ⟨hmodules, hpanels.map _, hcables⟩
  | moduleBypass id bypassed => exact ⟨hmodules.map _, hpanels, hcables⟩
  | moduleChange id oldState newState => exact ⟨hmodules.map _, hpanels, hcables⟩
  | paramChange id paramId oldValue newValue => exact ⟨hmodules.map _, hpanels, hcables⟩
  | cableAdd c => exact ⟨hmodules, hpanels, hcables.filter _⟩
  | cableRemove c =>
    exact ⟨hmodules, hpanels, (hrelist _ c).trans ((hcables.cons c).trans (hrelist _ c).symm)⟩

/-! ### One change and its inverse -/

namespace Patch

variable {p : Patch} {id : Int}

theorem setState_setState {m : Module} (hnodup : (p.modules.map (·.id)).Nodup)
    (hm : p.module id = some m) {f g : ModuleState → ModuleState} (hback : g (f m.state) = m.state) :
    (p.setState id f).setState id g = p := by
  obtain ⟨hmem, rfl⟩ := Keyed.mem_of_find? hm
  have hmodules : Keyed.update Module.id m.id (fun m => { m with state := g m.state })
      (Keyed.update Module.id m.id (fun m => { m with state := f m.state }) p.modules) = p.modules := by
    rw [Keyed.update_update (fun m : Module => { m with state := f m.state })
      (fun m : Module => { m with state := g m.state }) fun _ => rfl]
    refine Keyed.update_eq_self _ fun b hb hid => ?_
    rw [Keyed.eq_of_key_eq hnodup hb hmem hid]
    simp only [Function.comp_apply, hback]
  exact congrArg (fun modules => { p with modules := modules }) hmodules

/-- Moving every panel and putting back the ones that moved. -/
theorem movePanels_back (hnodup : (p.panels.filterMap (·.moduleId)).Nodup) (place : Int → Point → Point) :
    (p.movePanels place).movePanels (oldPosition (Applier.dragMoves p.panels place)) = p := by
  have hpanels : ((p.movePanels place).movePanels
      (oldPosition (Applier.dragMoves p.panels place))).panels = p.panels := by
    simp only [movePanels, List.map_map]
    refine (List.map_congr_left fun o ho => ?_).trans (List.map_id _)
    obtain ⟨_ | id, box⟩ := o
    · rfl
    have hold : oldPosition (Applier.dragMoves p.panels place) id (place id box.pos) = box.pos := by
      unfold oldPosition
      cases hfind : (Applier.dragMoves p.panels place).find? (·.moduleId == id) with
      | some move =>
        obtain ⟨hmove, hid⟩ := Keyed.mem_of_find? hfind
        obtain ⟨other, hother, hmoved⟩ := List.mem_filterMap.mp hmove
        obtain ⟨otherId, hotherId, hmoved⟩ := Option.bind_eq_some_iff.mp hmoved
        split at hmoved
        · cases hmoved
        · cases hmoved
          obtain rfl : otherId = id := hid
          have := Keyed.eq_of_some_eq hnodup hother ho hotherId rfl
          rw [this]
      | none =>
        by_contra hmoved
        refine Keyed.find?_eq_none.mp hfind (List.mem_map.mpr ⟨⟨id, box.pos, place id box.pos⟩, ?_, rfl⟩)
        exact List.mem_filterMap.mpr ⟨_, ho, by simp [hmoved]⟩
    simp [hold]
  exact congrArg (fun panels => { p with panels := panels }) hpanels

end Patch

/-! ### Between any two steps -/

/-- A patch whose panels show each module at most once. -/
structure PanelPatch extends RackPatch where
  panelIds_nodup : (patch.panels.filterMap (·.moduleId)).Nodup
  panel_fresh : ∀ n, ∀ o ∈ patch.panels, o.moduleId ≠ some (rack.moduleIds n)

/-- Undoing the pushed actions newest first gives the patch the transaction began with. -/
structure Journaled (w : PanelPatch) (s : Applier) : Prop where
  moduleIds : (s.patch.modules.map (·.id)).Nodup
  panelIds : (s.patch.panels.filterMap (·.moduleId)).Nodup
  cableIds : (s.patch.cables.map (·.id)).Nodup
  moduleFresh : ∀ n, s.modulesMade ≤ n → w.rack.moduleIds n ∉ s.patch.modules.map (·.id)
  panelFresh : ∀ n, s.modulesMade ≤ n → ∀ o ∈ s.patch.panels, o.moduleId ≠ some (w.rack.moduleIds n)
  cableFresh : ∀ n, s.cablesMade ≤ n → w.rack.cableIds n ∉ s.patch.cables.map (·.id)
  added : ∀ id, Action.moduleAdd id ∈ s.actions → ∃ n < s.modulesMade, id = w.rack.moduleIds n
  undone : Restores (Action.invert w.rack.relist) w.patch s.actions s.patch

namespace Journaled

variable {w : PanelPatch} {s s' : Applier}

theorem start (w : PanelPatch) : Journaled w { patch := w.patch } where
  moduleIds := w.moduleIds_nodup
  panelIds := w.panelIds_nodup
  cableIds := w.cableIds_nodup
  moduleFresh n _ := w.module_fresh n
  panelFresh n _ := w.panel_fresh n
  cableFresh n _ := w.cable_fresh n
  added id hid := by cases hid
  undone := Patch.Same.refl _

/-- A step that changes neither the patch nor the actions. -/
theorem same (h : Journaled w s) (patch : s'.patch = s.patch) (actions : s'.actions = s.actions)
    (modulesMade : s.modulesMade ≤ s'.modulesMade) (cablesMade : s'.cablesMade = s.cablesMade) :
    Journaled w s' where
  moduleIds := patch ▸ h.moduleIds
  panelIds := patch ▸ h.panelIds
  cableIds := patch ▸ h.cableIds
  moduleFresh n hn := patch ▸ h.moduleFresh n (modulesMade.trans hn)
  panelFresh n hn := patch ▸ h.panelFresh n (modulesMade.trans hn)
  cableFresh n hn := patch ▸ h.cableFresh n (cablesMade ▸ hn)
  added id hid := by
    obtain ⟨n, hn, hid⟩ := h.added id (actions ▸ hid)
    exact ⟨n, lt_of_lt_of_le hn modulesMade, hid⟩
  undone := by
    rw [actions, patch]
    exact h.undone

/-- A change of a module's state whose action takes it back. -/
theorem setState (h : Journaled w s) {id : Int} {m : Module} (hm : s.patch.module id = some m)
    {f : ModuleState → ModuleState} (a : Action) (g : ModuleState → ModuleState)
    (hadd : ∀ id, a ≠ .moduleAdd id) (hinvert : ∀ p : Patch, a.invert w.rack.relist p = p.setState id g)
    (hback : g (f m.state) = m.state) :
    Journaled w ({ s with patch := s.patch.setState id f }.push a) where
  moduleIds := by
    have hids : (s.patch.setState id f).modules.map (·.id) = s.patch.modules.map (·.id) :=
      Keyed.map_update _ _ fun _ _ _ => rfl
    exact hids ▸ h.moduleIds
  panelIds := h.panelIds
  cableIds := h.cableIds
  moduleFresh n hn := by
    have hids : (s.patch.setState id f).modules.map (·.id) = s.patch.modules.map (·.id) :=
      Keyed.map_update _ _ fun _ _ _ => rfl
    exact hids ▸ h.moduleFresh n hn
  panelFresh := h.panelFresh
  cableFresh := h.cableFresh
  added id hid := by
    rcases List.mem_append.mp hid with hid | hid
    · exact h.added id hid
    · exact absurd (List.mem_singleton.mp hid).symm (hadd id)
  undone := by
    refine h.undone.push (Action.invert_congr w.relist_perm) ?_
    have hundo : a.invert w.rack.relist (s.patch.setState id f) = s.patch :=
      (hinvert _).trans (Patch.setState_setState h.moduleIds hm hback)
    exact Patch.same_of_eq hundo

/-- Moving panels, with the drag action of the ones that moved. -/
theorem placePanels (h : Journaled w s) (place : Int → Point → Point) :
    Journaled w (s.placePanels place []) where
  moduleIds := h.moduleIds
  panelIds := by
    have hids : (s.patch.movePanels place).panels.filterMap (·.moduleId) =
        s.patch.panels.filterMap (·.moduleId) := by
      rw [Patch.movePanels, List.filterMap_map]
      congr 1
      funext o
      rcases o with ⟨_ | _, _⟩ <;> rfl
    exact hids ▸ h.panelIds
  cableIds := h.cableIds
  moduleFresh := h.moduleFresh
  panelFresh n hn o ho := by
    obtain ⟨o', ho', rfl⟩ := List.mem_map.mp ho
    have hfresh := h.panelFresh n hn o' ho'
    rcases o' with ⟨_ | _, _⟩ <;> exact hfresh
  cableFresh := h.cableFresh
  added id hid := by
    simp only [Applier.placePanels, List.append_nil, List.mem_append] at hid
    rcases hid with hid | hid
    · exact h.added id hid
    · split at hid
      · cases hid
      · cases List.mem_singleton.mp hid
  undone := by
    have hback := Patch.movePanels_back h.panelIds place
    simp only [Applier.placePanels, List.append_nil]
    split
    · rename_i hnone
      rw [hnone] at hback
      have hsame : s.patch.movePanels place = s.patch := by
        refine Eq.trans ?_ hback
        have hid : ∀ p : Patch, p.movePanels (oldPosition []) = p := fun p => by
          have hpanels : (p.movePanels (oldPosition [])).panels = p.panels := by
            refine (List.map_congr_left fun o _ => ?_).trans (List.map_id _)
            rcases o with ⟨_ | _, _⟩ <;> rfl
          exact congrArg (fun panels => { p with panels := panels }) hpanels
        exact (hid _).symm
      rw [List.append_nil, hsame]
      exact h.undone
    · refine h.undone.push (Action.invert_congr w.relist_perm) ?_
      exact Patch.same_of_eq hback

theorem dropCable (h : Journaled w s) {c : Cable} (hc : s.patch.cable c.id = some c) :
    Journaled w ({ s with patch := s.patch.dropCable c.id }.push (.cableRemove c)) where
  moduleIds := h.moduleIds
  panelIds := h.panelIds
  cableIds := h.cableIds.sublist (List.filter_sublist.map _)
  moduleFresh := h.moduleFresh
  panelFresh := h.panelFresh
  cableFresh n hn hin := h.cableFresh n hn ((List.filter_sublist.map _).subset hin)
  added id hid := by
    rcases List.mem_append.mp hid with hid | hid
    · exact h.added id hid
    · cases List.mem_singleton.mp hid
  undone := by
    refine h.undone.push (Action.invert_congr w.relist_perm) ⟨.refl _, .refl _, ?_⟩
    have hnodup : (s.patch.cables.filterMap fun c => some c.id).Nodup := by
      rw [List.filterMap_eq_map']
      exact h.cableIds
    have hperm := Keyed.filter_ne_append_perm hnodup (Keyed.mem_of_find? hc).1 (rfl : some c.id = some c.id)
    refine (w.relist_perm _ c).trans ((List.perm_append_singleton c _).symm.trans ?_)
    change (s.patch.cables.filter (·.id ≠ c.id) ++ [c]).Perm s.patch.cables
    simpa using hperm

theorem removeCableById (h : Journaled w s) (id : Int) : Journaled w (s.removeCableById id) := by
  unfold Applier.removeCableById
  split
  · rename_i c hc
    split
    · obtain rfl : c.id = id := (Keyed.mem_of_find? hc).2
      exact h.dropCable hc
    · exact h
  · exact h

theorem removeCables (h : Journaled w s) (ids : List Int) : Journaled w (s.removeCables ids) := by
  induction ids generalizing s with
  | nil => exact h
  | cons id ids ih => exact ih (h.removeCableById id)

theorem addCable (h : Journaled w s) (color : Color) (outId outPort inId inPort : Int) :
    Journaled w (s.addCable w.rack color outId outPort inId inPort) := by
  have hfresh := h.cableFresh s.cablesMade le_rfl
  set c : Cable :=
    ⟨.connected (w.rack.cableIds s.cablesMade) outId outPort inId inPort, some color⟩ with hc
  have hcid : c.id = w.rack.cableIds s.cablesMade := rfl
  have hperm := w.relist_perm s.patch.cables c
  have hids := hperm.map (·.id)
  rw [List.map_cons, hcid] at hids
  constructor
  · exact h.moduleIds
  · exact h.panelIds
  · exact hids.nodup_iff.mpr (List.nodup_cons.mpr ⟨hfresh, h.cableIds⟩)
  · exact h.moduleFresh
  · exact h.panelFresh
  · intro n hn hin
    rcases List.mem_cons.mp (hids.mem_iff.mp hin) with heq | hin
    · have := w.cableIds_injective heq
      have hn : s.cablesMade + 1 ≤ n := hn
      omega
    · exact h.cableFresh n (Nat.le_of_succ_le hn) hin
  · intro id hid
    rcases List.mem_append.mp hid with hid | hid
    · exact h.added id hid
    · cases List.mem_singleton.mp hid
  · refine h.undone.push (Action.invert_congr w.relist_perm) ⟨.refl _, .refl _, ?_⟩
    have hdrop := hperm.filter (·.id ≠ c.id)
    have hsame : s.patch.cables.filter (·.id ≠ c.id) = s.patch.cables :=
      Keyed.filter_ne_eq_self (by rw [hcid]; exact hfresh)
    rw [List.filter_cons_of_neg (by simp), hsame] at hdrop
    exact hdrop

theorem dropModule (h : Journaled w s) {id : Int} {m : Module} {panel : Occupant}
    (hwidget : s.patch.widget id = some (m, panel)) :
    Journaled w ({ s with patch := s.patch.dropModule id }.push (.moduleRemove m panel)) := by
  unfold Patch.widget at hwidget
  split at hwidget
  swap
  · cases hwidget
  rename_i panel' m' hpanel hm
  cases hwidget
  obtain ⟨hmem, rfl⟩ := Keyed.mem_of_find? hm
  obtain ⟨hpmem, hpid⟩ := Keyed.mem_of_find? hpanel
  constructor
  · exact h.moduleIds.sublist (List.filter_sublist.map _)
  · exact h.panelIds.sublist (List.filter_sublist.filterMap _)
  · exact h.cableIds
  · exact fun n hn hin => h.moduleFresh n hn ((List.filter_sublist.map _).subset hin)
  · exact fun n hn o ho => h.panelFresh n hn o (List.mem_of_mem_filter ho)
  · exact h.cableFresh
  · intro id hid
    rcases List.mem_append.mp hid with hid | hid
    · exact h.added id hid
    · cases List.mem_singleton.mp hid
  · have hnodup : (s.patch.modules.filterMap fun m => some m.id).Nodup := by
      rw [List.filterMap_eq_map']
      exact h.moduleIds
    have hmodules := Keyed.filter_ne_append_perm hnodup hmem (rfl : some m.id = some m.id)
    refine h.undone.push (Action.invert_congr w.relist_perm) ⟨?_, ?_, .refl _⟩
    · change (s.patch.modules.filter (·.id ≠ m.id) ++ [m]).Perm s.patch.modules
      simpa using hmodules
    · exact Keyed.filter_ne_append_perm h.panelIds hpmem hpid

end Journaled

/-! ### Operations -/

namespace Journaled

variable {w : PanelPatch} {s : Applier}

theorem record (h : Journaled w s) (op summary : String) : Journaled w (s.record op summary) :=
  h.same rfl rfl le_rfl rfl

theorem resolving (h : Journaled w s) {ref : Option Json} {next : Int → Applied}
    (hnext : ∀ id, s.resolve ref = some id → Journaled w (next id).state) :
    Journaled w (s.resolving ref next).state := by
  unfold Applier.resolving
  split
  · exact h
  · exact hnext _ ‹_›

theorem bind {x : Applied} {f : Applier → Applied} (hx : Journaled w x.state)
    (hf : ∀ s, Journaled w s → Journaled w (f s).state) : Journaled w (x.bind f).state := by
  rcases Outcome.state_bind (x := x) (f := f) with hstate | ⟨s', rfl, hstate⟩
  · rw [hstate]
    exact hx
  · rw [hstate]
    exact hf s' hx

theorem setParamValue (h : Journaled w s) (moduleId : Int) (paramId : Nat) (spec : Json) :
    Journaled w (Applier.setParamValue w.rack moduleId paramId spec s).state := by
  unfold Applier.setParamValue
  split
  · exact h
  rename_i m hm
  -- writing a value pushes the value it replaced
  have hwrite : ∀ read newValue : Double, Journaled w ({ s with
      patch := s.patch.setState moduleId fun st => { st with values := st.values.set paramId read } }.push
        (.paramChange moduleId paramId ((m.state.values[paramId]?).getD (.finite 0)) newValue)) := by
    intro read newValue
    refine h.setState hm _ (fun st => { st with values := st.values.set paramId _ }) (by simp)
      (fun _ => rfl) ?_
    have hvalues : (m.state.values.set paramId read).set paramId
        ((m.state.values[paramId]?).getD (.finite 0)) = m.state.values := by
      rw [List.set_set]
      by_cases hlt : paramId < m.state.values.length
      · rw [List.getElem?_eq_getElem hlt, Option.getD_some, List.set_getElem_self]
      · rw [List.set_eq_of_length_le (not_lt.mp hlt)]
    simp only [hvalues]
  dsimp only
  split
  · exact h
  · exact hwrite _ _
  · split
    · exact h
    all_goals exact hwrite _ _

theorem setBypassValue (h : Journaled w s) (moduleId : Int) (bypassed : Bool) :
    Journaled w (Applier.setBypassValue moduleId bypassed s).state := by
  unfold Applier.setBypassValue
  split
  · exact h
  rename_i m hm
  split
  · exact h
  rename_i hchange
  refine h.setState hm _ (fun st => { st with bypassed := !bypassed }) (by simp) (fun _ => rfl) ?_
  have hback : (!bypassed) = m.state.bypassed := by
    cases bypassed <;> simp_all
  simp only [hback]

theorem setInitialParam (h : Journaled w s) (moduleId : Int) (paramCount : Nat) (mslug : String)
    (entry : Json × Nat) :
    Journaled w (Applier.setInitialParam w.rack moduleId paramCount mslug entry s).state := by
  unfold Applier.setInitialParam
  dsimp only
  split
  · exact h
  split
  · exact h
  exact h.setParamValue _ _ _

theorem applySetParam (h : Journaled w s) : Journaled w (Applier.applySetParam w.rack op s).state := by
  refine h.resolving fun id _ => ?_
  split
  · exact h
  split
  · exact h
  exact bind (h.setParamValue _ _ _) fun s hs => hs.record _ _

theorem applyBypass (h : Journaled w s) : Journaled w (Applier.applyBypass op s).state := by
  refine h.resolving fun id _ => ?_
  exact bind (h.setBypassValue _ _) fun s hs => hs.record _ _

theorem applyReset (h : Journaled w s) : Journaled w (Applier.applyReset w.rack op s).state := by
  refine h.resolving fun id _ => ?_
  split
  · exact h
  rename_i m panel hwidget
  exact (h.setState (Applier.module_of_widget hwidget) (.moduleChange id m.state _) (fun _ => m.state)
    (by simp) (fun _ => rfl) rfl).record _ _

theorem applyRandomize (h : Journaled w s) : Journaled w (Applier.applyRandomize w.rack op s).state := by
  refine h.resolving fun id _ => ?_
  split
  · exact h
  rename_i m hm
  have hrandomized : Journaled w { s with randomized := s.randomized ++ [id] } := h.same rfl rfl le_rfl rfl
  exact (hrandomized.setState hm (.moduleChange id m.state _) (fun _ => m.state) (by simp)
    (fun _ => rfl) rfl).record _ _

theorem applyMove (h : Journaled w s) : Journaled w (Applier.applyMove w.rack op s).state := by
  refine h.resolving fun id _ => ?_
  split
  · exact h
  split
  · exact h
  dsimp only
  split
  · exact h
  exact (h.placePanels _).record _ _

theorem applyConnect (h : Journaled w s) : Journaled w (Applier.applyConnect w.rack op s).state := by
  refine h.resolving fun outId _ => ?_
  refine h.resolving fun inId _ => ?_
  split
  · exact h
  split
  · exact h
  split
  swap
  · exact h
  split
  · exact h
  dsimp only
  split
  · exact h
  split
  · exact h
  exact ((h.removeCables _).addCable _ _ _ _ _).record _ _

theorem applyDisconnect (h : Journaled w s) : Journaled w (Applier.applyDisconnect op s).state := by
  unfold Applier.applyDisconnect
  dsimp only
  split
  · exact h
  exact (h.removeCableById _).record _ _

theorem applyDisconnectPort (h : Journaled w s) :
    Journaled w (Applier.applyDisconnectPort op s).state := by
  refine h.resolving fun id _ => ?_
  split
  · exact h
  exact (h.removeCables _).record _ _

theorem applyRemove (h : Journaled w s) : Journaled w (Applier.applyRemove op s).state := by
  refine h.resolving fun id _ => ?_
  split
  · exact h
  rename_i m panel hwidget
  dsimp only
  split
  · exact h
  have hcables := h.removeCables (Applier.moduleCables s.patch id)
  have hsame := Applier.removeCables_sameModules (s := s) (Applier.moduleCables s.patch id)
  have hwidget' : (s.removeCables (Applier.moduleCables s.patch id)).patch.widget id = some (m, panel) := by
    rw [← hwidget, Patch.widget, Patch.widget, Patch.module, Patch.module, hsame.modules, hsame.panels]
  exact (hcables.dropModule hwidget').record _ _

end Journaled

/-! ### Adding a module -/

/-- An `add_module` that puts its module and panel on the rack and then throws at the position, before it
pushes an action for them. -/
def StrandsModule (rack : Rack) (op : Json) : Prop :=
  opType op = .addModule ∧
  (∃ model, rack.getModel (jstr op "pluginSlug") (jstr op "modelSlug") = some model ∧
    model.module.isSome ∧ (∃ size, model.widget = .ok size) ∧ model.addError = none) ∧
  jstr op "placement" "auto" = "at" ∧ jhasKey op "position" ∧
  ∃ ierr, readGridPosition (Json.get op "position") = .error ierr

namespace Journaled

variable {w : PanelPatch} {s : Applier}

/-- A module and its panel on the rack, with their action. -/
theorem addModule (h : Journaled w s) {m : Module} (hid : m.id = w.rack.moduleIds s.modulesMade)
    {panel : Occupant} (hpanel : panel.moduleId = some m.id) :
    Journaled w ({ s with
      modulesMade := s.modulesMade + 1
      patch := { s.patch with
        modules := s.patch.modules ++ [m]
        panels := s.patch.panels ++ [panel] } }.push (.moduleAdd m.id)) := by
  have hfresh : m.id ∉ s.patch.modules.map (·.id) := hid ▸ h.moduleFresh s.modulesMade le_rfl
  have hpanelFresh : ∀ o ∈ s.patch.panels, o.moduleId ≠ some m.id :=
    hid ▸ h.panelFresh s.modulesMade le_rfl
  constructor
  · simp only [Applier.push, List.map_append, List.map_cons, List.map_nil]
    exact h.moduleIds.append (List.nodup_singleton _) (by simpa using hfresh)
  · simp only [Applier.push, List.filterMap_append, List.filterMap_cons_some hpanel, List.filterMap_nil]
    refine h.panelIds.append (List.nodup_singleton _) ?_
    intro id hin hid
    rw [List.mem_singleton] at hid
    obtain ⟨o, ho, hoid⟩ := List.mem_filterMap.mp hin
    exact hpanelFresh o ho (hid ▸ hoid)
  · exact h.cableIds
  · intro n hn hin
    simp only [Applier.push, List.map_append, List.mem_append, List.map_cons, List.map_nil,
      List.mem_singleton] at hin
    rcases hin with hin | heq
    · exact h.moduleFresh n (Nat.le_of_succ_le hn) hin
    · have := w.moduleIds_injective (heq.trans hid)
      have hn : s.modulesMade + 1 ≤ n := hn
      omega
  · intro n hn o ho heq
    rcases List.mem_append.mp ho with ho | ho
    · exact h.panelFresh n (Nat.le_of_succ_le hn) o ho heq
    · rw [List.mem_singleton.mp ho, hpanel, Option.some.injEq] at heq
      have := w.moduleIds_injective (hid.symm.trans heq)
      have hn : s.modulesMade + 1 ≤ n := hn
      omega
  · exact h.cableFresh
  · intro id hin
    rcases List.mem_append.mp hin with hin | hin
    · obtain ⟨n, hn, hn'⟩ := h.added id hin
      exact ⟨n, Nat.lt_succ_of_lt hn, hn'⟩
    · cases List.mem_singleton.mp hin
      exact ⟨s.modulesMade, Nat.lt_succ_self _, hid⟩
  · refine h.undone.push (Action.invert_congr w.relist_perm) ?_
    have hdrop : (Action.moduleAdd m.id).invert w.rack.relist ({ s.patch with
        modules := s.patch.modules ++ [m], panels := s.patch.panels ++ [panel] }) = s.patch := by
      have hmodules := Keyed.filter_ne_append_singleton hfresh
      have hpanels : (s.patch.panels ++ [panel]).filter (·.moduleId ≠ some m.id) = s.patch.panels := by
        rw [← hpanel]
        refine Keyed.filter_ne_append_singleton fun hin => ?_
        obtain ⟨o, ho, hoid⟩ := List.mem_map.mp hin
        exact hpanelFresh o ho (hoid.trans hpanel)
      simp only [Action.invert, Patch.dropModule, hmodules, hpanels]
    exact Patch.same_of_eq hdrop

/-- The rest of `applyAdd`, once the position is read. -/
theorem finishAdd (h : Journaled w s) {m : Module} (hid : m.id = w.rack.moduleIds s.modulesMade)
    {panel : Occupant} (hpanel : panel.moduleId = some m.id) {pos : Point}
    (hpos : Applier.addPosition w.rack op (s.patch.panels ++ [panel]) = .ok pos) :
    Journaled w (Applier.finishAdd w.rack op m { s with
      modulesMade := s.modulesMade + 1
      patch := { s.patch with
        modules := s.patch.modules ++ [m]
        panels := s.patch.panels ++ [panel] } }).state := by
  unfold Applier.finishAdd
  simp only [hpos]
  refine bind (forEach_state (fun entry _ s hs => hs.setInitialParam _ _ _ _) ?_) fun s hs => bind ?_ ?_
  · -- the module's action is pushed before the drag action of its placement
    have hplaced := (h.addModule hid hpanel).placePanels
      (w.rack.setModulePosForce (s.patch.panels ++ [panel]) m.id pos)
    refine hplaced.same rfl ?_ le_rfl rfl
    simp only [Applier.placePanels, Applier.push, List.append_nil]
    rfl
  · split
    · exact hs.setBypassValue _ _
    · exact hs
  · exact fun s hs => hs.record _ _

theorem filter_ne_append_module {modules : List Module} {m : Module} (h : m.id ∉ modules.map (·.id)) :
    (modules ++ [m]).filter (·.id ≠ m.id) = modules := Keyed.filter_ne_append_singleton h

/-- `applyAdd` keeps the journal unless it strands its module. -/
theorem applyAdd (h : Journaled w s) (kind : opType op = .addModule) (hnot : ¬ StrandsModule w.rack op) :
    Journaled w (Applier.applyAdd w.rack op s).state := by
  unfold Applier.applyAdd
  dsimp only
  split
  · exact h
  rename_i model hmodel
  split
  · exact h
  rename_i quantities inputs outputs state hmodule
  have hfresh := h.moduleFresh s.modulesMade le_rfl
  -- a widget the plugin cannot build, or cannot place, takes the module back off the engine
  have hback : ∀ m : Module, m.id = w.rack.moduleIds s.modulesMade → Journaled w { s with
      modulesMade := s.modulesMade + 1
      patch := ({ s.patch with modules := s.patch.modules ++ [m] } : Patch).dropModule m.id } := by
    intro m hid
    refine h.same ?_ rfl (Nat.le_succ _) rfl
    have hmodules := filter_ne_append_module (hid ▸ hfresh)
    have hpanels : s.patch.panels.filter (·.moduleId ≠ some m.id) = s.patch.panels := by
      rw [List.filter_eq_self]
      intro o ho
      have hne := h.panelFresh s.modulesMade le_rfl o ho
      simpa [hid] using hne
    simp only [Patch.dropModule, hmodules, hpanels]
  split
  · exact hback _ rfl
  rename_i size hsize
  split
  · exact hback _ rfl
  rename_i hadd
  have hpos : ∃ pos, Applier.addPosition w.rack op (s.patch.panels ++
      [⟨some (w.rack.moduleIds s.modulesMade), ⟨⟨0, 0⟩, size⟩⟩]) = .ok pos := by
    unfold Applier.addPosition
    split
    · rename_i hat
      split
      · rename_i ierr hbad
        exact absurd ⟨kind, ⟨model, hmodel, by simp [hmodule], ⟨size, hsize⟩, hadd⟩, hat.1, hat.2, ierr, hbad⟩ hnot
      · exact ⟨_, rfl⟩
    · exact ⟨_, rfl⟩
  obtain ⟨pos, hpos⟩ := hpos
  exact h.finishAdd rfl rfl hpos

/-- One operation keeps the journal, thrown or not, unless it strands a module. -/
theorem applyOne (h : Journaled w s) (hnot : ¬ StrandsModule w.rack op) :
    Journaled w (Applier.applyOne w.rack op s).state := by
  unfold Applier.applyOne
  split
  · exact h.applyAdd ‹_› hnot
  · exact h.applyRemove
  · exact h.applySetParam
  · exact h.applyBypass
  · exact h.applyReset
  · exact h.applyRandomize
  · exact h.applyMove
  · exact h.applyConnect
  · exact h.applyDisconnect
  · exact h.applyDisconnectPort
  · exact h

end Journaled

/-! ### The rollback -/

variable {w : PanelPatch} {s s' : Applier} {ops : List Json}

/-- An operation that strands its module leaves it on the rack, with the actions of the operations before. -/
theorem applyOne_strands (hstrands : StrandsModule rack op) :
    ∃ err m panel, m.id = rack.moduleIds s.modulesMade ∧ Applier.applyOne rack op s = .thrown err { s with
      modulesMade := s.modulesMade + 1
      patch := { s.patch with
        modules := s.patch.modules ++ [m]
        panels := s.patch.panels ++ [panel] } } := by
  obtain ⟨kind, ⟨model, hmodel, hmodule, ⟨size, hsize⟩, hadd⟩, hat, hposition, ierr, hbad⟩ := hstrands
  obtain ⟨⟨quantities, inputs, outputs, state⟩, hmodule⟩ := Option.isSome_iff_exists.mp hmodule
  refine ⟨"add_module: position " ++ ierr,
    ⟨rack.moduleIds s.modulesMade, jstr op "pluginSlug", jstr op "modelSlug", quantities, inputs, outputs,
      state⟩, ⟨some (rack.moduleIds s.modulesMade), ⟨⟨0, 0⟩, size⟩⟩, rfl, ?_⟩
  simp only [Applier.applyOne, kind, Applier.applyAdd, hmodel, hmodule, hsize, hadd, Applier.finishAdd,
    Applier.addPosition, hat, hposition, hbad]
  rfl

theorem not_strands_of_done (h : Applier.applyOne rack op s = .done s') : ¬ StrandsModule rack op := by
  intro hstrands
  obtain ⟨err, m, panel, -, hthrown⟩ := applyOne_strands (s := s) hstrands
  rw [hthrown] at h
  cases h

variable (rack) in
/-- No inverse takes away a module that no action added. -/
theorem module_mem_undoAll {log : List Action} {p : Patch} {id : Int} (hlog : Action.moduleAdd id ∉ log)
    (hid : id ∈ p.modules.map (·.id)) :
    id ∈ (undoAll (Action.invert rack.relist) log p).modules.map (·.id) := by
  refine undoAll_invariant (I := fun p : Patch => id ∈ p.modules.map (·.id)) _ (fun a ha p hp => ?_) hid
  have hstate : ∀ other f, id ∈ (p.setState other f).modules.map (·.id) := fun other f => by
    rw [show (p.setState other f).modules.map (·.id) = p.modules.map (·.id) from
      Keyed.map_update _ _ fun _ _ _ => rfl]
    exact hp
  cases a with
  | moduleAdd other =>
    have hne : id ≠ other := by
      rintro rfl
      exact hlog ha
    obtain ⟨m, hm, rfl⟩ := List.mem_map.mp hp
    exact List.mem_map.mpr ⟨m, List.mem_filter.mpr ⟨hm, by simpa using hne⟩, rfl⟩
  | moduleRemove m panel =>
    exact (List.map_append ▸ List.mem_append_left _ hp :
      id ∈ (p.modules ++ [m]).map (·.id))
  | drag moves => exact hp
  | moduleBypass other bypassed => exact hstate _ _
  | moduleChange other oldState newState => exact hstate _ _
  | paramChange other paramId oldValue newValue => exact hstate _ _
  | cableAdd c => exact hp
  | cableRemove c => exact hp

/-- Running the inverses of a failed transaction restores the patch, up to the order in which modules,
panels and cables are listed, exactly when the failing operation is not an `add_module` that strands its
module at an unreadable position. -/
theorem rollback_iff (w : PanelPatch) (ops : List Json) (i : Nat) (op : Json) (message : String)
    (hundo : ∀ a p, w.rack.undo a p = .done (a.invert w.rack.relist p))
    (hop : ops[i]? = some op) (h : Applier.apply w.rack ops w.patch = .thrown (i, message) s) :
    (runInverses w.rack.undo s.actions s.patch).2.Same w.patch ↔ ¬ StrandsModule w.rack op := by
  have hrun : (runInverses w.rack.undo s.actions s.patch).2 =
      undoAll (Action.invert w.rack.relist) s.actions s.patch := by
    unfold runInverses
    rw [runFrom_reverse (Action.invert w.rack.relist) hundo]
  rw [hrun]
  obtain ⟨pre, failing, post, u, rfl, hi, hpre, hthrown⟩ := runFrom_thrown_iff.mp h
  obtain rfl : failing = op := by
    rw [hi, Nat.zero_add, List.getElem?_append_right le_rfl] at hop
    simpa using hop
  have hu : Journaled w u := by
    refine hpre.invariant (I := Journaled w) (fun b _ t t' ht hstep => ?_) (.start w)
    have hstate := ht.applyOne (not_strands_of_done hstep)
    rwa [hstep] at hstate
  constructor
  · rintro hsame hstrands
    obtain ⟨err, m, panel, hid, hthrown'⟩ := applyOne_strands (s := u) hstrands
    rw [hthrown'] at hthrown
    cases hthrown
    have hlog : Action.moduleAdd m.id ∉ u.actions := fun hin => by
      obtain ⟨n, hn, hn'⟩ := hu.added m.id hin
      have := w.moduleIds_injective (hid.symm.trans hn')
      omega
    have hleft := module_mem_undoAll w.rack (p := { u.patch with
      modules := u.patch.modules ++ [m], panels := u.patch.panels ++ [panel] }) hlog (by simp)
    exact w.module_fresh u.modulesMade (hid ▸ (hsame.1.map _).mem_iff.mp hleft)
  · intro hnot
    have hstate := hu.applyOne hnot
    rw [hthrown] at hstate
    exact hstate.undone

theorem benchPatch_panel_fresh (n : Nat) (o : Occupant) (ho : o ∈ benchPatch.panels) :
    o.moduleId ≠ some (100 + (n : Int)) := by
  intro heq
  have hid : some (100 + (n : Int)) ∈ benchPatch.panels.map (·.moduleId) := List.mem_map.mpr ⟨o, ho, heq⟩
  simp only [benchPatch, List.map_cons, List.map_nil, List.mem_cons, Option.some.injEq, List.not_mem_nil,
    or_false] at hid
  omega

/-- The bench with its panels. -/
def benchPanels : PanelPatch where
  toRackPatch := bench.toRackPatch
  panelIds_nodup := by decide
  panel_fresh := benchPatch_panel_fresh

/-- A cable, and a parameter without a target. -/
def connectThenFail : List Json :=
  [connectOperation (moduleById "1") 0 (moduleById "2") 1,
   operation "set_parameter" [("module", moduleById "1"), ("paramId", .integer 0)]]

def noTargetMessage : String :=
  "set_parameter: exactly one of \"value\", \"normalized\" or \"display\" is required, and none was given"

/-- The plan fails at its second operation and its cable is taken back. -/
theorem rollback_bench :
    (runInverses benchRack.undo (Applier.apply benchRack connectThenFail benchPatch).state.actions
      (Applier.apply benchRack connectThenFail benchPatch).state.patch).2.Same benchPatch := by
  refine (rollback_iff benchPanels connectThenFail 1
    (operation "set_parameter" [("module", moduleById "1"), ("paramId", .integer 0)]) _ (fun _ _ => rfl) rfl
    (Outcome.eq_thrown_of_error (show _ = some (1, noTargetMessage) by decide))).mpr ?_
  rintro ⟨kind, -⟩
  revert kind
  decide

/-- A module at a position without a row. -/
def addAtNowhere : List Json :=
  [operation "add_module" [("alias", .string "notes"), ("pluginSlug", .string "Core"),
    ("modelSlug", .string "Notes"), ("placement", .string "at"), ("position", .object [("x", .integer 0)])]]

/-- A failed transaction can leave a module behind. -/
theorem failed_add_leaves_module :
    ¬ ∀ (w : PanelPatch) (ops : List Json) (i : Nat) (message : String) (s : Applier),
      (∀ op ∈ ops, checkOperationFields op = none) →
      (∀ a p, w.rack.undo a p = .done (a.invert w.rack.relist p)) →
      Applier.apply w.rack ops w.patch = .thrown (i, message) s →
      (runInverses w.rack.undo s.actions s.patch).2.Same w.patch := by
  intro h
  have hsame := h benchPanels addAtNowhere 0 "add_module: position missing required field \"y\"" _
    (by decide) (fun _ _ => rfl) (Outcome.eq_thrown_of_error (by decide))
  have hlength := hsame.1.length_eq
  revert hlength
  decide

end RackMcp