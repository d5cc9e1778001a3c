import RackMcp.Proof.Rollback

/-!
# The patch stays wired

`Patch.Wired` is what Rack's engine relies on: no two modules or cables have an id in common, every cable has a widget
and plugs into ports that exist, and an input takes one cable. Each finished operation keeps it (`Wired.step`), and so
does a commit, whatever becomes of it (`Wired.txnCommit`): a failed one gives the patch back, but for a module that was
left behind with no cables.
-/

namespace RackMcp

open Outcomes Journal

/-- The two cables enter the same input. -/
def PlanCable.SameInput (c d : PlanCable) : Prop :=
  c.hasInput = true ∧ d.hasInput = true ∧ c.inputModuleId = d.inputModuleId ∧ c.inputId = d.inputId

namespace Patch

/-- What the engine relies on. -/
structure Wired (p : Patch) : Prop where
  moduleIds : (p.shapes.map (·.id)).Nodup
  cableIds : (p.cables.map (·.id)).Nodup
  widgets : ∀ c ∈ p.cables, c.widget.isSome
  outputs : ∀ c ∈ p.cables, c.plan.hasOutput = true → ∃ m ∈ p.shapes, m.id = c.plan.outputModuleId ∧
    0 ≤ c.plan.outputId ∧ c.plan.outputId < m.outputCount
  inputs : ∀ c ∈ p.cables, c.plan.hasInput = true → ∃ m ∈ p.shapes, m.id = c.plan.inputModuleId ∧
    0 ≤ c.plan.inputId ∧ c.plan.inputId < m.inputCount
  single : ∀ c ∈ p.cables, ∀ d ∈ p.cables, c.plan.SameInput d.plan → c.id = d.id

namespace Wired

variable {p q : Patch}

/-- Cables can be taken away. -/
theorem of_sublist (h : p.Wired) (shapes : q.shapes = p.shapes) (cables : q.cables.Sublist p.cables) : q.Wired where
  moduleIds := shapes ▸ h.moduleIds
  cableIds := h.cableIds.sublist (cables.map _)
  widgets c hc := h.widgets c (cables.subset hc)
  outputs c hc := shapes ▸ h.outputs c (cables.subset hc)
  inputs c hc := shapes ▸ h.inputs c (cables.subset hc)
  single c hc d hd := h.single c (cables.subset hc) d (cables.subset hd)

/-- In whatever order modules and cables are listed. -/
theorem of_perm (h : p.Wired) (shapes : q.shapes.Perm p.shapes) (cables : q.cables.Perm p.cables) : q.Wired where
  moduleIds := (shapes.map _).nodup_iff.mpr h.moduleIds
  cableIds := (cables.map _).nodup_iff.mpr h.cableIds
  widgets c hc := h.widgets c (cables.mem_iff.mp hc)
  outputs c hc hout := by
    obtain ⟨m, hm, hport⟩ := h.outputs c (cables.mem_iff.mp hc) hout
    exact ⟨m, shapes.mem_iff.mpr hm, hport⟩
  inputs c hc hin := by
    obtain ⟨m, hm, hport⟩ := h.inputs c (cables.mem_iff.mp hc) hin
    exact ⟨m, shapes.mem_iff.mpr hm, hport⟩
  single c hc d hd := h.single c (cables.mem_iff.mp hc) d (cables.mem_iff.mp hd)

theorem of_same (h : p.Wired) (same : q.Same p) : q.Wired := h.of_perm (same.1.map toWorldModule) same.2.2

/-- A module can be added. -/
theorem of_added (h : p.Wired) {shape : WorldModule} (fresh : shape.id ∉ p.shapes.map (·.id))
    (shapes : q.shapes = p.shapes ++ [shape]) (cables : q.cables = p.cables) : q.Wired where
  moduleIds := by
    rw [shapes, List.map_append, List.nodup_append]
    refine ⟨h.moduleIds, List.nodup_singleton _, fun id hid other hother => ?_⟩
    rw [List.map_singleton, List.mem_singleton] at hother
    rintro rfl
    exact fresh (hother ▸ hid)
  cableIds := cables ▸ h.cableIds
  widgets := cables ▸ h.widgets
  outputs c hc hout := by
    obtain ⟨m, hm, hport⟩ := h.outputs c (cables ▸ hc) hout
    exact ⟨m, shapes ▸ List.mem_append_left _ hm, hport⟩
  inputs c hc hin := by
    obtain ⟨m, hm, hport⟩ := h.inputs c (cables ▸ hc) hin
    exact ⟨m, shapes ▸ List.mem_append_left _ hm, hport⟩
  single := cables ▸ h.single

/-- A module can be taken away with the cables on it. -/
theorem of_removed (h : p.Wired) {id : Int} (shapes : q.shapes = p.shapes.filter (·.id ≠ id))
    (cables : q.cables.Sublist p.cables) (untouched : ∀ c ∈ q.cables, c.plan.touches id = false) : q.Wired where
  moduleIds := by
    rw [shapes]
    exact h.moduleIds.sublist (List.filter_sublist.map _)
  cableIds := h.cableIds.sublist (cables.map _)
  widgets c hc := h.widgets c (cables.subset hc)
  outputs c hc hout := by
    obtain ⟨m, hm, hid, hport⟩ := h.outputs c (cables.subset hc) hout
    have hne : m.id ≠ id := by
      rintro rfl
      have htouches := untouched c hc
      simp [PlanCable.touches, hout, hid] at htouches
    exact ⟨m, shapes ▸ List.mem_filter.mpr ⟨hm, decide_eq_true hne⟩, hid, hport⟩
  inputs c hc hin := by
    obtain ⟨m, hm, hid, hport⟩ := h.inputs c (cables.subset hc) hin
    have hne : m.id ≠ id := by
      rintro rfl
      have htouches := untouched c hc
      simp [PlanCable.touches, hin, hid] at htouches
    exact ⟨m, shapes ▸ List.mem_filter.mpr ⟨hm, decide_eq_true hne⟩, hid, hport⟩
  single c hc d hd := h.single c (cables.subset hc) d (cables.subset hd)

/-- A cable can be plugged in where no cable enters. -/
theorem of_connected (h : p.Wired) {c : Cable} (shapes : q.shapes = p.shapes) (cables : q.cables.Perm (c :: p.cables))
    (fresh : c.id ∉ p.cables.map (·.id)) (widget : c.widget.isSome)
    (output : ∃ m ∈ p.shapes, m.id = c.plan.outputModuleId ∧ 0 ≤ c.plan.outputId ∧ c.plan.outputId < m.outputCount)
    (input : ∃ m ∈ p.shapes, m.id = c.plan.inputModuleId ∧ 0 ≤ c.plan.inputId ∧ c.plan.inputId < m.inputCount)
    (free : ∀ d ∈ p.cables, d.plan.entersPort c.plan.inputModuleId c.plan.inputId = false) : q.Wired := by
  have hfree : ∀ d ∈ p.cables, ¬ d.plan.SameInput c.plan := by
    rintro d hd ⟨hin, -, hmodule, hport⟩
    have hfree := free d hd
    simp [PlanCable.entersPort, hin, hmodule, hport] at hfree
  have hmem : ∀ d ∈ q.cables, d = c ∨ d ∈ p.cables := fun d hd => List.mem_cons.mp (cables.mem_iff.mp hd)
  exact
    { moduleIds := shapes ▸ h.moduleIds
      cableIds := (cables.map _).nodup_iff.mpr (List.nodup_cons.mpr ⟨fresh, h.cableIds⟩)
      widgets := fun d hd => (hmem d hd).elim (fun heq => heq ▸ widget) (h.widgets d)
      outputs := fun d hd hout => by
        rw [shapes]
        rcases hmem d hd with rfl | hd
        · exact output
        · exact h.outputs d hd hout
      inputs := fun d hd hin => by
        rw [shapes]
        rcases hmem d hd with rfl | hd
        · exact input
        · exact h.inputs d hd hin
      single := fun d hd e he hsame => by
        rcases hmem d hd with rfl | hd
        · rcases hmem e he with rfl | he
          · rfl
          · exact absurd ⟨hsame.2.1, hsame.1, hsame.2.2.1.symm, hsame.2.2.2.symm⟩ (hfree e he)
        · rcases hmem e he with rfl | he
          · exact absurd hsame (hfree d hd)
          · exact h.single d hd e he hsame }

end Wired

end Patch

/-! ### Operations -/

section Step
variable {rack : Rack} {op : Json} {s s' : Applier}

theorem survivors_sublist (s : Applier) (ids : List Int) : (s.survivors ids).Sublist s.patch.cables :=
  List.filter_sublist

theorem not_of_mem_survivors (here : PlanCable → Bool) {c : Cable}
    (hc : c ∈ s.survivors ((s.patch.cables.filter fun c => here c.plan).map (·.id))) : here c.plan = false := by
  obtain ⟨hmem, hid⟩ := List.mem_filter.mp hc
  by_contra hhere
  rw [Bool.not_eq_false] at hhere
  exact absurd (List.mem_map_of_mem (List.mem_filter.mpr ⟨hmem, hhere⟩)) (of_decide_eq_true hid)

/-- A finished operation keeps the patch wired. -/
theorem Patch.Wired.step (h : s.patch.Wired) (hrelist : ∀ cs c, (rack.relist cs c).Perm (c :: cs))
    (hmodule : rack.moduleIds s.modulesMade ∉ s.patch.modules.map (·.id))
    (hcable : rack.cableIds s.cablesMade ∉ s.patch.cables.map (·.id))
    (hstep : Applier.applyOne rack op s = .done s') : s'.patch.Wired := by
  cases Applier.applyOne_step h.widgets hstep with
  | add kind model shape found shape_id shapes panelIds cables =>
    have hfresh : shape.id ∉ s.patch.shapes.map (·.id) := by
      rw [Patch.mem_shapes_ids, shape_id]
      exact hmodule
    exact h.of_added hfresh shapes cables
  | remove kind id resolved widget policy shapes panelIds cables =>
    refine h.of_removed shapes (cables ▸ survivors_sublist s _) fun c hc => ?_
    rw [cables] at hc
    exact not_of_mem_survivors (·.touches id) hc
  | modify kind id resolved m found param same => exact h.of_sublist same.shapes (same.cables ▸ .refl _)
  | randomize kind id resolved m found same => exact h.of_sublist same.shapes (same.cables ▸ .refl _)
  | move kind id resolved widget position same => exact h.of_sublist same.shapes (same.cables ▸ .refl _)
  | connect kind outId inId outPort inPort output input outputPort inputPort outMod inMod outFound inFound outBound
      inBound policy cables cablesMade same =>
    have hrest := h.of_sublist (q := { s.patch with cables := s.survivors (Applier.inputCables s.patch inId inPort) })
      rfl (survivors_sublist s _)
    obtain ⟨hout, houtId⟩ := s.patch.shape_of_module outId outFound
    obtain ⟨hin, hinId⟩ := s.patch.shape_of_module inId inFound
    refine hrest.of_connected (c := Applier.newCable rack s op outId outPort inId inPort) same.shapes ?_ ?_ rfl
      ⟨_, hout, houtId, outBound⟩ ⟨_, hin, hinId, inBound⟩ fun d hd => ?_
    · rw [cables]
      exact hrelist _ _
    · exact fun hid => hcable ((survivors_sublist s _).map (·.id) |>.subset hid)
    · exact not_of_mem_survivors (·.entersPort inId inPort) hd
  | disconnect kind c named cables cablesMade same => exact h.of_sublist same.shapes (cables ▸ survivors_sublist s _)
  | disconnectPort kind id portId resolved port cables cablesMade same =>
    exact h.of_sublist same.shapes (cables ▸ survivors_sublist s _)

end Step

/-! ### Commits -/

section Commit
variable {w : PanelPatch} {s : Applier} {ops : List Json} {rs : RackState}

/-- Every state between the operations of a plan is wired. -/
theorem Patch.Wired.runs (h : w.patch.Wired) (hruns : Runs (Applier.applyOne w.rack) ops { patch := w.patch } s) :
    s.patch.Wired ∧ Journaled w s := by
  refine hruns.invariant (I := fun s => s.patch.Wired ∧ Journaled w s) (fun op _ s s' hs hstep => ?_) ⟨h, .start w⟩
  obtain ⟨hwired, hjournal⟩ := hs
  have hnext := hjournal.applyOne (not_strands_of_done hstep)
  rw [hstep] at hnext
  exact ⟨hwired.step w.relist_perm (hjournal.moduleFresh _ le_rfl) (hjournal.cableFresh _ le_rfl) hstep, hnext⟩

/-- The one patch has a module more, and no cables more. -/
def ExtraModule (shape : WorldModule) (p q : Patch) : Prop :=
  q.shapes.Perm (p.shapes ++ [shape]) ∧ q.cables = p.cables

/-- An inverse leaves a module alone that no action added. -/
theorem ExtraModule.invert {shape : WorldModule} {p q : Patch} (h : ExtraModule shape p q)
    (relist : List Cable → Cable → List Cable) {a : Action} (ha : a ≠ .moduleAdd shape.id) :
    ExtraModule shape (a.invert relist p) (a.invert relist q) := by
  obtain ⟨hshapes, hcables⟩ := h
  cases a with
  | moduleAdd id =>
    have hne : shape.id ≠ id := fun heq => ha (heq ▸ rfl)
    refine ⟨?_, hcables⟩
    have hkept : [shape].filter (·.id ≠ id) = [shape] := List.filter_eq_self.mpr fun m hm =>
      decide_eq_true (List.mem_singleton.mp hm ▸ hne)
    have hfilter := hshapes.filter (·.id ≠ id)
    rw [List.filter_append, hkept] at hfilter
    show (q.dropModule id).shapes.Perm ((p.dropModule id).shapes ++ [shape])
    rw [Patch.shapes_dropModule, Patch.shapes_dropModule]
    exact hfilter
  | moduleRemove m panel =>
    refine ⟨?_, hcables⟩
    show (List.map toWorldModule (q.modules ++ [m])).Perm (List.map toWorldModule (p.modules ++ [m]) ++ [shape])
    rw [List.map_append, List.map_append]
    exact (hshapes.append_right _).trans (by
      rw [List.append_assoc, List.append_assoc]
      exact List.perm_append_comm.append_left _)
  | drag moves => exact ⟨hshapes, hcables⟩
  | moduleBypass id bypassed =>
    exact ⟨by simpa [Action.invert] using hshapes, hcables⟩
  | moduleChange id oldState newState =>
    exact ⟨by simpa [Action.invert] using hshapes, hcables⟩
  | paramChange id paramId oldValue newValue =>
    exact ⟨by simpa [Action.invert] using hshapes, hcables⟩
  | cableAdd c =>
    refine ⟨hshapes, ?_⟩
    show q.cables.filter _ = p.cables.filter _
    rw [hcables]
  | cableRemove c =>
    refine ⟨hshapes, ?_⟩
    show relist q.cables c = relist p.cables c
    rw [hcables]

/-- What a failed plan leaves when its inverses have run is wired. -/
theorem Patch.Wired.rolledBack (h : w.patch.Wired) {failure : Nat × String}
    (hthrown : Applier.apply w.rack ops w.patch = .thrown failure s) :
    (undoAll (Action.invert w.rack.relist) s.actions s.patch).Wired := by
  obtain ⟨i, message⟩ := failure
  obtain ⟨before, op, after, u, rfl, hi, hbefore, hfails⟩ := runFrom_thrown_iff.mp hthrown
  have hu := (h.runs hbefore).2
  by_cases hstrands : StrandsModule w.rack op
  · obtain ⟨err, m, panel, hid, hthrown'⟩ := applyOne_strands (s := u) hstrands
    obtain ⟨-, rfl⟩ := Outcome.thrown.inj (hthrown'.symm.trans hfails)
    have hnew : ∀ a ∈ u.actions, a ≠ .moduleAdd (toWorldModule m).id := by
      rintro a ha rfl
      obtain ⟨n, hn, hn'⟩ := hu.added m.id ha
      have heq := w.moduleIds_injective (hid.symm.trans hn')
      omega
    have hextra : ExtraModule (toWorldModule m) (undoAll (Action.invert w.rack.relist) u.actions u.patch)
        (undoAll (Action.invert w.rack.relist) u.actions { u.patch with
          modules := u.patch.modules ++ [m]
          panels := u.patch.panels ++ [panel] }) := by
      refine undoAll_relation _ (fun a ha p q hpq => hpq.invert _ (hnew a ha)) ⟨?_, rfl⟩
      show (List.map toWorldModule (u.patch.modules ++ [m])).Perm _
      rw [List.map_append]
      exact List.Perm.refl _
    have hbase := h.of_same hu.undone
    have hfresh : m.id ∉ (undoAll (Action.invert w.rack.relist) u.actions u.patch).shapes.map (·.id) := by
      rw [Patch.mem_shapes_ids, (hu.undone.1.map _).mem_iff]
      show m.id ∉ _
      rw [hid]
      exact w.module_fresh _
    have hadded : Patch.Wired { undoAll (Action.invert w.rack.relist) u.actions u.patch with
        modules := (undoAll (Action.invert w.rack.relist) u.actions u.patch).modules ++ [m] } :=
      hbase.of_added hfresh (List.map_append ..) rfl
    refine hadded.of_perm ?_ (hextra.2 ▸ List.Perm.refl _)
    refine hextra.1.trans ?_
    show (_ ++ [toWorldModule m]).Perm (List.map toWorldModule (_ ++ [m]))
    rw [List.map_append]
    exact List.Perm.refl _
  · have hstate := hu.applyOne hstrands
    rw [hfails] at hstate
    exact h.of_same hstate.undone

/-- A commit keeps the patch wired, whatever becomes of it. -/
theorem Patch.Wired.txnCommit (h : w.patch.Wired)
    (hundo : ∀ a p, w.rack.undo a p = .done (a.invert w.rack.relist p)) (hpatch : rs.patch = w.patch) (request : Json)
    (durationMs : Double) : (RackMcp.txnCommit w.rack request durationMs rs).2.patch.Wired := by
  have hwired : rs.patch.Wired := hpatch ▸ h
  unfold RackMcp.txnCommit
  split
  · exact hwired
  · split
    · next s hdone =>
      rw [hpatch] at hdone
      have hs := (h.runs (runFrom_done_iff.mp hdone)).1
      unfold finishCommit
      dsimp only
      split <;> exact hs
    · next failedIndex failMessage s hthrown =>
      rw [hpatch] at hthrown
      show (runInverses w.rack.undo s.actions s.patch).2.Wired
      unfold runInverses
      rw [runFrom_reverse (Action.invert w.rack.relist) hundo]
      exact h.rolledBack hthrown

end Commit

end RackMcp
