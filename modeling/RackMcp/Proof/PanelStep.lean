import RackMcp.Proof.CommitStep
import RackMcp.Proof.PreviewStep

/-!
# What one operation does to the layout

The preview keeps the layout that a plan reaches in `plannedBoxes`, and gives it up (`layoutUncertain`) where Rack
decides; commit has the panels. What each operation does to either is said here once.
-/

namespace RackMcp

open Gen Outcomes
open Layout (Occupant Point Box)

variable {world : PlanWorld} {rack : Rack} {op : Json} {st st' : PreviewState} {s s' : Applier}

/-! ### What an operation does to the layout the preview keeps -/

namespace PreviewState

/-- The two states agree on the layout. -/
structure SameLayout (st st' : PreviewState) : Prop where
  plannedBoxes : st'.plannedBoxes = st.plannedBoxes
  layoutUncertain : st'.layoutUncertain = st.layoutUncertain

theorem SameLayout.refl (st : PreviewState) : SameLayout st st := ⟨rfl, rfl⟩

theorem removeCables_layout (st : PreviewState) (ids : List Int) : SameLayout st (st.removeCables ids) := by
  induction ids generalizing st with
  | nil => exact .refl st
  | cons id ids ih =>
    have hrest := ih (st.removeCable id)
    have h : SameLayout st (st.removeCable id) := by
      unfold removeCable
      split
      · exact .refl st
      · exact ⟨rfl, rfl⟩
    exact ⟨hrest.plannedBoxes.trans h.plannedBoxes, hrest.layoutUncertain.trans h.layoutUncertain⟩

@[simp] theorem plannedBoxes_removeCables (st : PreviewState) (ids : List Int) :
    (st.removeCables ids).plannedBoxes = st.plannedBoxes := (removeCables_layout st ids).plannedBoxes

@[simp] theorem layoutUncertain_removeCables (st : PreviewState) (ids : List Int) :
    (st.removeCables ids).layoutUncertain = st.layoutUncertain := (removeCables_layout st ids).layoutUncertain

end PreviewState

open PreviewState (SameLayout)

theorem validateAdd_uncertain (h : validateAdd op world st = .done st') : st'.layoutUncertain = true := by
  unfold validateAdd at h
  dsimp only at h
  split at h
  · cases h
  split at h
  · cases h
  cases h
  rfl

theorem validateRemove_layout (h : validateRemove op world st = .done st') : SameLayout st st' := by
  unfold validateRemove at h
  dsimp only at h
  split at h
  · cases h
  split at h
  · cases h
    exact .refl st
  split at h
  · cases h
  split at h
  · cases h
  split at h
  · cases h
  cases h
  exact ⟨by simp, by simp⟩

theorem validateModify_layout {type : OpType} (h : validateModify type op world st = .done st') : SameLayout st st' := by
  unfold validateModify at h
  dsimp only at h
  split at h
  · cases h
  split at h
  · cases h
    exact ⟨rfl, rfl⟩
  split at h
  · cases h
  split at h
  · split at h
    · cases h
    split at h
    · cases h
    cases h
    exact ⟨rfl, rfl⟩
  · cases h
    exact ⟨rfl, rfl⟩

theorem claimInput_layout {inModule inPort : Int} {existing : List Int}
    (h : claimInput op inModule inPort existing st = .done st') : SameLayout st st' := by
  unfold claimInput at h
  dsimp only at h
  split at h
  · split at h
    · cases h
    split at h
    · cases h
    cases h
    constructor
    · refine (PreviewState.plannedBoxes_removeCables _ existing).trans ?_
      split <;> rfl
    · refine (PreviewState.layoutUncertain_removeCables _ existing).trans ?_
      split <;> rfl
  · cases h
    exact ⟨rfl, rfl⟩

theorem validateConnect_layout (h : validateConnect op world st = .done st') : SameLayout st st' := by
  unfold validateConnect at h
  dsimp only at h
  split at h
  · cases h
  split at h
  · cases h
  split at h
  · cases h
  split at h
  · cases h
  split at h
  · have hsame := claimInput_layout h
    exact ⟨hsame.plannedBoxes, hsame.layoutUncertain⟩
  · split at h
    · cases h
    have hsame := claimInput_layout h
    exact ⟨hsame.plannedBoxes, hsame.layoutUncertain⟩

theorem validateDisconnect_layout (h : validateDisconnect op world st = .done st') : SameLayout st st' := by
  unfold validateDisconnect at h
  dsimp only at h
  split at h
  · cases h
  split at h
  · cases h
  split at h
  · cases h
  cases h
  exact PreviewState.removeCables_layout st [_]

theorem validateDisconnectPort_layout (h : validateDisconnectPort op world st = .done st') : SameLayout st st' := by
  unfold validateDisconnectPort at h
  dsimp only at h
  split at h
  · cases h
  split at h
  · cases h
    exact .refl st
  split at h
  · cases h
  split at h
  · cases h
  split at h
  · cases h
  cases h
  exact ⟨by simp, by simp⟩

/-- Where the preview has the panel of a move: the index of the panel, and the box it is to have. -/
def previewTarget (world : PlanWorld) (op : Json) (st : PreviewState) : Option (Nat × Box) :=
  match world.widgetIndex (previewRef op st).moduleId, readGridPosition (Json.get op "position") with
  | some selfIndex, .ok g =>
    some (selfIndex, ⟨Layout.gridToPixel g.1 g.2 world.grid,
      ((world.occupants[selfIndex]?).map (·.box.size)).getD ⟨0, 0⟩⟩)
  | _, _ => none

/-- What an accepted move records of the layout: nothing without a live panel, the box the panel is to have for the
policies `fail` and `force`, and that the layout is uncertain for the others. -/
inductive MoveLayout (world : PlanWorld) (op : Json) (st st' : PreviewState) : Prop where
  | unseen (panel : (previewRef op st).moduleId < 0 ∨ world.widgetIndex (previewRef op st).moduleId = none)
      (same : SameLayout st st')
  | planned (selfIndex : Nat) (target : Box) (place : previewTarget world op st = some (selfIndex, target))
      (policy : jstr op "collision" "nearest" = "fail" ∨ jstr op "collision" "nearest" = "force")
      (plannedBoxes : st'.plannedBoxes = st.plannedBoxes.insert (previewRef op st).moduleId target)
      (layoutUncertain : st'.layoutUncertain = st.layoutUncertain)
  | uncertain (layoutUncertain : st'.layoutUncertain = true)

theorem validateMove_layout (h : validateMove op world st = .done st') : MoveLayout world op st st' := by
  unfold validateMove at h
  dsimp only at h
  split at h
  · cases h
  split at h
  · next hneg =>
    cases h
    exact .unseen (.inl hneg) ⟨rfl, rfl⟩
  split at h
  · cases h
  split at h
  · next hnone =>
    cases h
    exact .unseen (.inr hnone) ⟨rfl, rfl⟩
  next selfIndex hself =>
  split at h
  · cases h
  next gx gy hposition =>
  split at h
  · cases h
  split at h
  · next hpolicy =>
    cases h
    refine .planned selfIndex _ ?_ hpolicy rfl rfl
    unfold previewTarget previewRef
    rw [hself, hposition]
  · cases h
    exact .uncertain rfl

theorem MoveLayout.layoutUncertain (h : MoveLayout world op st st') (hst : st.layoutUncertain = true) :
    st'.layoutUncertain = true := by
  cases h with
  | unseen _ same => exact same.layoutUncertain.trans hst
  | planned _ _ _ _ _ same => exact same.trans hst
  | uncertain h => exact h

/-- A position that an earlier operation made uncertain stays so. -/
theorem layoutUncertain_step (h : validateOne world op st = .done st') (hst : st.layoutUncertain = true) :
    st'.layoutUncertain = true := by
  unfold validateOne at h
  split at h
  · cases h
  unfold validateBranch at h
  split at h
  · exact validateAdd_uncertain h
  · exact (validateRemove_layout h).layoutUncertain.trans hst
  iterate 4
    · exact (validateModify_layout h).layoutUncertain.trans hst
  · exact (validateMove_layout h).layoutUncertain hst
  · exact (validateConnect_layout h).layoutUncertain.trans hst
  · exact (validateDisconnect_layout h).layoutUncertain.trans hst
  · exact (validateDisconnectPort_layout h).layoutUncertain.trans hst
  · cases h
  · cases h

/-- An accepted operation that neither adds nor moves a module leaves the layout of the preview as it is, but for the
module it may remove. -/
theorem layout_step (h : validateOne world op st = .done st') (hadd : opType op ≠ .addModule)
    (hmove : opType op ≠ .moveModule) : SameLayout st st' := by
  unfold validateOne at h
  split at h
  · cases h
  unfold validateBranch at h
  split at h
  · exact absurd ‹_› hadd
  · exact validateRemove_layout h
  iterate 4
    · exact validateModify_layout h
  · exact absurd ‹_› hmove
  · exact validateConnect_layout h
  · exact validateDisconnect_layout h
  · exact validateDisconnectPort_layout h
  · cases h
  · cases h

/-! ### What an operation does to the panels -/

/-- The panel of a module at a new position. -/
def placePanel (place : Int → Point → Point) (o : Occupant) : Occupant :=
  match o.moduleId with
  | none => o
  | some id => { o with box := { o.box with pos := place id o.box.pos } }

@[simp] theorem moduleId_placePanel (place : Int → Point → Point) (o : Occupant) :
    (placePanel place o).moduleId = o.moduleId := by
  unfold placePanel
  split <;> rfl

theorem placePanel_of_some {place : Int → Point → Point} {o : Occupant} {id : Int} (h : o.moduleId = some id) :
    placePanel place o = { o with box := { o.box with pos := place id o.box.pos } } := by
  unfold placePanel
  rw [h]

theorem placePanel_of_none {place : Int → Point → Point} {o : Occupant} (h : o.moduleId = none) :
    placePanel place o = o := by
  unfold placePanel
  rw [h]

theorem placePanel_placePanel (place place' : Int → Point → Point) (o : Occupant) :
    placePanel place' (placePanel place o) = placePanel (fun id pos => place' id (place id pos)) o := by
  rcases o with ⟨_ | id, box⟩ <;> rfl

namespace Applier

theorem setParamValue_panels {moduleId : Int} {paramId : Nat} {spec : Json}
    (h : setParamValue rack moduleId paramId spec s = .done s') : s'.patch.panels = s.patch.panels := by
  unfold setParamValue at h
  split at h
  · cases h
  dsimp only at h
  split at h
  · cases h
  · cases h
    rfl
  split at h
  · cases h
  all_goals
    cases h
    rfl

theorem setBypassValue_panels {moduleId : Int} {bypassed : Bool} (h : setBypassValue moduleId bypassed s = .done s') :
    s'.patch.panels = s.patch.panels := by
  unfold setBypassValue at h
  split at h
  · cases h
  split at h
  all_goals
    cases h
    rfl

theorem applyRemove_panels (h : applyRemove op s = .done s') : ∃ id, s.resolve (Json.get op "module") = some id ∧
    s'.patch.panels = s.patch.panels.filter (·.moduleId ≠ some id) := by
  obtain ⟨id, hresolved, h⟩ := resolving_eq_done.mp h
  split at h
  · cases h
  dsimp only at h
  split at h
  · cases h
  cases h
  have hsame := removeCables_sameModules (s := s) (moduleCables s.patch id)
  refine ⟨id, hresolved, ?_⟩
  show (s.removeCables (moduleCables s.patch id)).patch.panels.filter _ = _
  rw [hsame.panels]

theorem applyMove_panels (h : applyMove rack op s = .done s') :
    ∃ id g place, s.resolve (Json.get op "module") = some id ∧ (s.patch.widget id).isSome ∧
      readGridPosition (Json.get op "position") = .ok g ∧
      movePlacement rack (jstr op "collision" "nearest") s.patch.panels id
        (Layout.gridToPixel g.1 g.2 rack.grid) = some place ∧
      s'.patch.panels = s.patch.panels.map (placePanel place) := by
  obtain ⟨id, hresolved, h⟩ := resolving_eq_done.mp h
  split at h
  · cases h
  next hwidget =>
  split at h
  · cases h
  next gx gy hposition =>
  dsimp only at h
  split at h
  · cases h
  next place hplace =>
  cases h
  exact ⟨id, (gx, gy), place, hresolved, by simp [hwidget], hposition, hplace, rfl⟩

/-- The other operations move no panel. -/
theorem applyOne_panels (h : applyOne rack op s = .done s') (hadd : opType op ≠ .addModule)
    (hremove : opType op ≠ .removeModule) (hmove : opType op ≠ .moveModule) : s'.patch.panels = s.patch.panels := by
  unfold applyOne at h
  split at h
  · exact absurd ‹_› hadd
  · exact absurd ‹_› hremove
  · obtain ⟨id, -, h⟩ := resolving_eq_done.mp h
    split at h
    · cases h
    split at h
    · cases h
    obtain ⟨t, hset, h⟩ := Outcome.bind_eq_done.mp h
    cases h
    have hsame := setParamValue_panels hset
    exact hsame
  · obtain ⟨id, -, h⟩ := resolving_eq_done.mp h
    obtain ⟨t, hset, h⟩ := Outcome.bind_eq_done.mp h
    cases h
    have hsame := setBypassValue_panels hset
    exact hsame
  · obtain ⟨id, -, h⟩ := resolving_eq_done.mp h
    split at h
    · cases h
    cases h
    rfl
  · obtain ⟨id, -, h⟩ := resolving_eq_done.mp h
    split at h
    · cases h
    cases h
    rfl
  · exact absurd ‹_› hmove
  · obtain ⟨outId, -, h⟩ := resolving_eq_done.mp h
    obtain ⟨inId, -, h⟩ := resolving_eq_done.mp h
    split at h
    · cases h
    split at h
    · cases h
    split at h
    · split at h
      · cases h
      dsimp only at h
      split at h
      · cases h
      split at h
      · cases h
      cases h
      exact (removeCables_sameModules _).panels
    · cases h
  · unfold applyDisconnect at h
    dsimp only at h
    split at h
    · cases h
    cases h
    exact (removeCableById_sameModules _).panels
  · obtain ⟨id, -, h⟩ := resolving_eq_done.mp h
    split at h
    · cases h
    cases h
    exact (removeCables_sameModules _).panels
  · cases h

end Applier

end RackMcp
