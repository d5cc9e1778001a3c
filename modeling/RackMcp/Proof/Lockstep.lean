import RackMcp.Proof.CommitStep
import RackMcp.Proof.PreviewStep

/-!
# Preview and commit in lockstep

`validateOne` works on the snapshot and on sets of removed ids, the applier on the live patch. `Sim`
relates the two after a list both accept: a module reference names the same module on both sides
(`PatchWorld.liveId` takes the synthetic id of a planned module to the id the engine gave it), the live
modules of the snapshot are the ones the preview has not removed, and a cable of the snapshot that the
preview has not removed is still live. The other direction fails for `disconnect_port` with policy
`top`, so it is no part of the relation.
-/

namespace RackMcp

open Outcomes

/-- A patch world: every cable has a widget, a fresh module id is at no end of a cable, and the engine lists
the surviving cables of the patch in their order, and the cables the plan adds anywhere among them. -/
structure PatchWorld extends RackPatch where
  widgets : ∀ c ∈ patch.cables, c.widget.isSome
  end_fresh : ∀ n, ∀ c ∈ patch.cables, ¬ c.plan.touches (rack.moduleIds n)
  relist_order : ∀ cs c, c.id ∉ patch.cables.map (·.id) →
    (rack.relist cs c).filter (·.id ∈ patch.cables.map (·.id)) =
      cs.filter (·.id ∈ patch.cables.map (·.id))

namespace PatchWorld

variable (w : PatchWorld)

/-- The snapshot the preview of `ops` reads. -/
def world (ops : List Json) : PlanWorld := snapshotWorld w.rack w.patch ops

/-- The applier before the first operation. -/
def start : Applier := { patch := w.patch }

/-- The cable was in the patch before the transaction. -/
def IsBase (c : Cable) : Prop := c.id ∈ w.patch.cables.map (·.id)

instance (c : Cable) : Decidable (w.IsBase c) := inferInstanceAs (Decidable (_ ∈ _))

/-- The engine id of the module the preview knows under `id`: planned modules are numbered downwards
from -1000. -/
def liveId (id : Int) : Int := if 0 ≤ id then id else w.rack.moduleIds (-1000 - id).toNat

theorem liveId_of_nonneg {id : Int} (h : 0 ≤ id) : w.liveId id = id := if_pos h

theorem liveId_of_neg {id : Int} (h : id < 0) : w.liveId id = w.rack.moduleIds (-1000 - id).toNat :=
  if_neg (not_le.mpr h)

variable {w}

end PatchWorld

/-! ### Cables -/

/-- The live cables against the cables the preview counts as removed. -/
structure CableSim (w : PatchWorld) (removed : List Int) (cables : List Cable) (made : Nat) : Prop where
  widgets : ∀ c ∈ cables, c.widget.isSome
  nodup : (cables.map (·.id)).Nodup
  order : (cables.filter (w.IsBase ·)).Sublist w.patch.cables
  kept : ∀ c ∈ w.patch.cables, c.id ∉ removed → c ∈ cables
  added : ∀ c ∈ cables, ¬ w.IsBase c → ∃ n < made, c.id = w.rack.cableIds n

namespace CableSim

variable {w : PatchWorld} {removed removed' taken : List Int} {cables : List Cable} {made : Nat}

theorem start (w : PatchWorld) : CableSim w [] w.patch.cables 0 where
  widgets := w.widgets
  nodup := w.cableIds_nodup
  order := List.filter_sublist
  kept _ hc _ := hc
  added _ hc hnot := absurd (List.mem_map_of_mem hc) hnot

/-- Commit takes cables away, and the preview counts every one of them that was in the snapshot. -/
theorem take (h : CableSim w removed cables made) (hmono : removed ⊆ removed')
    (htaken : ∀ c ∈ w.patch.cables, c ∈ cables → c.id ∈ taken → c.id ∈ removed') :
    CableSim w removed' (cables.filter (·.id ∉ taken)) made where
  widgets c hc := h.widgets c (List.mem_of_mem_filter hc)
  nodup := h.nodup.sublist (List.filter_sublist.map _)
  order := (List.filter_sublist.filter _).trans h.order
  kept c hc hkept := by
    have hlive := h.kept c hc fun hin => hkept (hmono hin)
    have hnot : c.id ∉ taken := fun hin => hkept (htaken c hc hlive hin)
    exact List.mem_filter.mpr ⟨hlive, by simpa using hnot⟩
  added c hc := h.added c (List.mem_of_mem_filter hc)

/-- Commit adds a cable with the next fresh id, wherever the engine lists it. -/
theorem add (h : CableSim w removed cables made) {c : Cable} (hid : c.id = w.rack.cableIds made)
    (hwidget : c.widget.isSome) : CableSim w removed (w.rack.relist cables c) (made + 1) := by
  have hnew : ¬ w.IsBase c := by
    unfold PatchWorld.IsBase
    rw [hid]
    exact w.cable_fresh made
  have hperm := w.relist_perm cables c
  have hmem : ∀ d, d ∈ w.rack.relist cables c ↔ d = c ∨ d ∈ cables := fun d => by
    rw [hperm.mem_iff, List.mem_cons]
  constructor
  · intro d hd
    rcases (hmem d).mp hd with rfl | hd
    · exact hwidget
    · exact h.widgets d hd
  · rw [(hperm.map _).nodup_iff, List.map_cons, List.nodup_cons]
    refine ⟨fun hin => ?_, h.nodup⟩
    obtain ⟨d, hd, hdid⟩ := List.mem_map.mp hin
    have hnotBase : ¬ w.IsBase d := by
      unfold PatchWorld.IsBase
      rw [hdid]
      exact hnew
    obtain ⟨n, hn, hnid⟩ := h.added d hd hnotBase
    have heq := w.cableIds_injective (hnid.symm.trans (hdid.trans hid))
    omega
  · have horder : (w.rack.relist cables c).filter (w.IsBase ·) = cables.filter (w.IsBase ·) :=
      w.relist_order cables c hnew
    rw [horder]
    exact h.order
  · intro d hd hkept
    exact (hmem d).mpr (.inr (h.kept d hd hkept))
  · intro d hd hnot
    rcases (hmem d).mp hd with rfl | hd
    · exact ⟨made, Nat.lt_succ_self _, hid⟩
    · obtain ⟨n, hn, hnid⟩ := h.added d hd hnot
      exact ⟨n, Nat.lt_succ_of_lt hn, hnid⟩

/-- The unremoved snapshot cables are the live ones among them, in the same order. -/
theorem unremoved (h : CableSim w removed cables made) :
    cables.filter (fun c => w.IsBase c ∧ c.id ∉ removed) =
      w.patch.cables.filter (·.id ∉ removed) := by
  have hsub : (cables.filter fun c => w.IsBase c ∧ c.id ∉ removed).Sublist
      (w.patch.cables.filter (·.id ∉ removed)) := by
    have hsplit : cables.filter (fun c => w.IsBase c ∧ c.id ∉ removed) =
        (cables.filter (w.IsBase ·)).filter (·.id ∉ removed) := by
      rw [List.filter_filter]
      exact List.filter_congr fun c _ => by simp [Bool.and_comm]
    rw [hsplit]
    exact h.order.filter _
  refine hsub.eq_of_length_le (List.subperm_of_subset ?_ fun c hc => ?_).length_le
  · exact (w.cableIds_nodup.of_map).filter _
  · obtain ⟨hbase, hkept⟩ := List.mem_filter.mp hc
    have hnot : c.id ∉ removed := by simpa using hkept
    exact List.mem_filter.mpr ⟨h.kept c hbase hnot, by
      simpa using ⟨(List.mem_map_of_mem hbase : w.IsBase c), hnot⟩⟩

/-- What the preview finds at an end point is what commit finds there among the snapshot cables that
the preview has not removed. -/
theorem found (h : CableSim w removed cables made) (here : PlanCable → Bool) :
    ((w.patch.cables.map (·.plan)).filter fun c => !removed.contains c.id && here c).map (·.id) =
      ((cables.filter (here ·.plan)).filter fun c => w.IsBase c ∧ c.id ∉ removed).map (·.id) := by
  have hleft : (w.patch.cables.map (·.plan)).filter (fun c => !removed.contains c.id && here c) =
      ((w.patch.cables.filter (·.id ∉ removed)).filter (here ·.plan)).map (·.plan) := by
    rw [List.filter_map, List.filter_filter]
    refine congrArg _ (List.filter_congr fun c _ => ?_)
    rw [Function.comp_apply, decide_not, List.contains_eq_mem, Bool.and_comm]
    rfl
  rw [hleft, List.map_map, ← h.unremoved, List.filter_filter, List.filter_filter]
  refine congrArg _ (List.filter_congr fun c _ => ?_)
  simp [Bool.and_comm]

/-- A live snapshot cable at an end point is known to the preview there, or already removed by it. -/
theorem mem_found (here : PlanCable → Bool) {c : Cable}
    (hbase : c ∈ w.patch.cables) (hhere : here c.plan) (hkept : c.id ∉ removed) :
    c.id ∈ ((w.patch.cables.map (·.plan)).filter
      fun c => !removed.contains c.id && here c).map (·.id) := by
  refine List.mem_map.mpr ⟨c.plan, List.mem_filter.mpr ⟨List.mem_map_of_mem hbase, ?_⟩, rfl⟩
  have hid : c.plan.id ∉ removed := hkept
  simp [hhere, hid]

end CableSim

/-! ### Modules and aliases -/

/-- The live modules and the aliases against what the preview recorded. -/
structure ModuleSim (w : PatchWorld) (st : PreviewState) (s : Applier) : Prop where
  shapes : ∃ planned, s.patch.shapes = w.patch.shapes.filter (·.id ∉ st.removedModules) ++ planned ∧
    ∀ m ∈ planned, ∃ n < s.modulesMade, m.id = w.rack.moduleIds n
  nextSyntheticId : st.nextSyntheticId = -1000 - s.modulesMade
  aliases : ∀ name, (st.aliases.lookup name = none ∧ s.aliasMap.lookup name = none) ∨
    ∃ n < s.modulesMade, st.aliases.lookup name = some (-1000 - (n : Int)) ∧
      s.aliasMap.lookup name = some (w.rack.moduleIds n)

/-- Preview and commit after a list both accepted. -/
structure Sim (w : PatchWorld) (st : PreviewState) (s : Applier) : Prop where
  modules : ModuleSim w st s
  cables : CableSim w st.removedCables s.patch.cables s.cablesMade

namespace ModuleSim

variable {w : PatchWorld} {st st' : PreviewState} {s s' : Applier}

theorem start (w : PatchWorld) : ModuleSim w {} w.start where
  shapes := ⟨[], by simp [PatchWorld.start], by simp⟩
  nextSyntheticId := by simp [PatchWorld.start]
  aliases name := .inl ⟨rfl, rfl⟩

theorem liveId_planned (w : PatchWorld) (n : Nat) :
    w.liveId (-1000 - (n : Int)) = w.rack.moduleIds n := by
  rw [w.liveId_of_neg (by omega)]
  congr 1
  omega

/-- A reference resolves on both sides or on neither, to the same module. -/
theorem resolve (h : ModuleSim w st s) (ref : Option Json) :
    s.resolve ref =
      if (resolveModuleRef ref st.aliases).ok then
        some (w.liveId (resolveModuleRef ref st.aliases).moduleId)
      else none := by
  unfold Applier.resolve
  rcases refShape ref with ⟨id, hid, hr⟩ | ⟨name, hr⟩ | hr
  · simp [hr, w.liveId_of_nonneg hid]
  · rcases h.aliases name with ⟨hst, hs⟩ | ⟨n, _, hst, hs⟩
    · simp [hr, hst, hs]
    · simp [hr, hst, hs, liveId_planned]
  · simp [hr]

theorem resolve_of_ok (h : ModuleSim w st s) {ref : Option Json}
    (hok : (resolveModuleRef ref st.aliases).ok) :
    s.resolve ref = some (w.liveId (resolveModuleRef ref st.aliases).moduleId) := by
  rw [h.resolve, if_pos hok]

/-- A reference that does not name a live id names a planned module. -/
theorem planned_of_neg (h : ModuleSim w st s) {ref : Option Json}
    (hok : (resolveModuleRef ref st.aliases).ok)
    (hneg : (resolveModuleRef ref st.aliases).moduleId < 0) :
    ∃ n < s.modulesMade, (resolveModuleRef ref st.aliases).moduleId = -1000 - (n : Int) := by
  rcases refShape ref with ⟨id, hid, hr⟩ | ⟨name, hr⟩ | hr
  · rw [hr] at hneg
    exact absurd hid (not_le.mpr hneg)
  · rcases h.aliases name with ⟨hst, -⟩ | ⟨n, hn, hst, -⟩
    · rw [hr, hst] at hok
      cases hok
    · exact ⟨n, hn, by rw [hr, hst]⟩
  · rw [hr] at hok
    cases hok

/-- A live module of the snapshot is live in the patch, with the same parameters and ports. -/
theorem mem_shapes (h : ModuleSim w st s) {ops : List Json} {id : Int} {m : WorldModule}
    (hm : liveModule (w.world ops) st id = some m) : m ∈ s.patch.shapes ∧ m.id = id := by
  unfold liveModule at hm
  split at hm
  · cases hm
  rename_i hkept
  obtain ⟨hmem, hid⟩ := Keyed.mem_of_find? hm
  obtain ⟨planned, hshapes, -⟩ := h.shapes
  rw [hshapes]
  exact ⟨List.mem_append_left _ (List.mem_filter.mpr ⟨hmem, by simpa [hid] using hkept⟩), hid⟩

/-- What `Engine::getModule` gives for a live module of the snapshot. -/
theorem module_eq (h : ModuleSim w st s) {ops : List Json} {id : Int} {m : WorldModule}
    (hm : liveModule (w.world ops) st id = some m) :
    ∃ live, s.patch.module id = some live ∧ toWorldModule live = m := by
  unfold liveModule at hm
  split at hm
  · cases hm
  rename_i hkept
  obtain ⟨planned, hshapes, hfresh⟩ := h.shapes
  have hfind : s.patch.shapes.find? (·.id == id) = some m := by
    have hm' : w.patch.shapes.find? (·.id == id) = some m := hm
    obtain ⟨hmem, rfl⟩ := Keyed.mem_of_find? hm'
    have hnodup : (w.patch.shapes.map (·.id)).Nodup := by
      rw [Patch.shapes, List.map_map]
      exact w.moduleIds_nodup
    have hfilter : m ∈ w.patch.shapes.filter (·.id ∉ st.removedModules) :=
      List.mem_filter.mpr ⟨hmem, by simpa using hkept⟩
    rw [hshapes, List.find?_append, Keyed.find?_eq_some (hnodup.sublist (List.filter_sublist.map _)) hfilter]
    rfl
  rw [Patch.shapes, List.find?_map] at hfind
  obtain ⟨live, hlive, rfl⟩ := Option.map_eq_some_iff.mp hfind
  exact ⟨live, hlive, rfl⟩

end ModuleSim

/-! ### What commit takes, the preview has disclosed -/

namespace Sim

variable {w : PatchWorld} {st st' : PreviewState} {s s' : Applier} {ops : List Json} {op : Json}

theorem start (w : PatchWorld) : Sim w {} w.start := ⟨.start w, .start w⟩

/-- A cable at a planned module was not in the snapshot. -/
theorem not_touches_planned {c : Cable} (hbase : c ∈ w.patch.cables) {id : Int} (hneg : id < 0) :
    ¬ c.plan.touches (w.liveId id) := by
  rw [w.liveId_of_neg hneg]
  exact w.end_fresh _ c hbase

theorem touches_of_onPort {c : PlanCable} {id portId : Int} {portType : String}
    (h : c.onPort id portType portId) : c.touches id := by
  simp only [PlanCable.onPort, PlanCable.entersPort, PlanCable.leavesPort, Bool.or_eq_true,
    Bool.and_eq_true] at h
  rcases h with ⟨-, h, -⟩ | ⟨-, h, -⟩
  all_goals simp [PlanCable.touches, h]

theorem onPort_input (c : PlanCable) (id portId : Int) :
    c.onPort id "input" portId = c.entersPort id portId := by
  simp [PlanCable.onPort]

/-- A live cable is selected by where it is. -/
theorem mem_ids (here : PlanCable → Bool) {c : Cable} (hnodup : (s.patch.cables.map (·.id)).Nodup)
    (hc : c ∈ s.patch.cables) :
    c.id ∈ (s.patch.cables.filter (here ·.plan)).map (·.id) ↔ here c.plan := by
  rw [List.mem_map]
  constructor
  · rintro ⟨d, hd, hid⟩
    obtain ⟨hd, hhere⟩ := List.mem_filter.mp hd
    exact Keyed.eq_of_key_eq hnodup hd hc hid ▸ hhere
  · exact fun hhere => ⟨c, List.mem_filter.mpr ⟨hc, hhere⟩, rfl⟩

theorem mem_moduleCables {c : Cable} (sim : Sim w st s) (hc : c ∈ s.patch.cables) {id : Int} :
    c.id ∈ Applier.moduleCables s.patch id ↔ c.plan.touches id :=
  mem_ids (·.touches id) sim.cables.nodup hc

theorem mem_inputCables {c : Cable} (sim : Sim w st s) (hc : c ∈ s.patch.cables) {id portId : Int} :
    c.id ∈ Applier.inputCables s.patch id portId ↔ c.plan.entersPort id portId :=
  mem_ids (·.entersPort id portId) sim.cables.nodup hc

theorem mem_portCables {c : Cable} (sim : Sim w st s) (hc : c ∈ s.patch.cables) {id portId : Int}
    {portType : String} :
    c.id ∈ Applier.portCables s.patch id portType portId ↔ c.plan.onPort id portType portId :=
  mem_ids (·.onPort id portType portId) sim.cables.nodup hc

/-- What the applier selects at a port, when it is a snapshot cable the preview still counts, is what
the preview selects there. For policy `top`, the last of all live cables on the port, being one the
preview counts, is the last of those. -/
theorem select_disclosed (sim : Sim w st s) (policy : String) {id portId : Int} {portType : String}
    {c : Cable} (hbase : c ∈ w.patch.cables) (hlive : c ∈ s.patch.cables)
    (hkept : c.id ∉ st.removedCables)
    (h : c.id ∈ selectMatches policy (Applier.portCables s.patch id portType portId)) :
    c.id ∈ selectMatches policy (cablesOnPort (w.world ops).cables st.removedCables id portType portId) := by
  have hfound := sim.cables.found (·.onPort id portType portId)
  change cablesOnPort (w.world ops).cables st.removedCables id portType portId = _ at hfound
  unfold selectMatches at h ⊢
  split at h
  · rename_i htop
    rw [if_pos htop, hfound]
    rw [Applier.portCables, Option.mem_toList, List.getLast?_map] at h
    obtain ⟨d, hlast, hid⟩ := Option.map_eq_some_iff.mp h
    have hmem := List.mem_of_getLast? hlast
    have hd : d = c := Keyed.eq_of_key_eq sim.cables.nodup (List.mem_of_mem_filter hmem) hlive hid
    subst hd
    rw [Option.mem_toList, List.getLast?_map]
    refine Option.map_eq_some_iff.mpr ⟨d, Keyed.getLast?_filter_of_pos hlast ?_, rfl⟩
    have : w.IsBase d := List.mem_map_of_mem hbase
    simp [this, hkept]
  · rename_i htop
    rw [if_neg htop]
    exact CableSim.mem_found _ hbase ((sim.mem_portCables hlive).mp h) hkept

/-- The heart of the lockstep: a snapshot cable that commit takes is one the preview has removed. -/
theorem takes_disclosed (sim : Sim w st s) (h : PreviewStep (w.world ops) op st st') {c : Cable}
    (hbase : c ∈ w.patch.cables) (hlive : c ∈ s.patch.cables) (htaken : c.id ∈ s.takes op) :
    c.id ∈ st'.removedCables := by
  by_cases hkept : c.id ∈ st.removedCables
  · exact h.mem_removedCables.mpr (.inl hkept)
  refine h.mem_removedCables.mpr (.inr ?_)
  cases h with
  | add kind => simp [Applier.takes, kind] at htaken
  | removeAlias kind ok synthetic =>
    simp only [Applier.takes, kind, sim.modules.resolve_of_ok ok] at htaken
    exact absurd ((sim.mem_moduleCables hlive).mp htaken) (not_touches_planned hbase synthetic)
  | removeLive kind id ok named live =>
    simp only [Applier.takes, kind, sim.modules.resolve_of_ok ok] at htaken
    have hhere := (sim.mem_moduleCables hlive).mp htaken
    rw [w.liveId_of_nonneg (named ▸ live)] at hhere
    simp only [discloses, kind, named, if_neg (not_lt.mpr live)]
    exact CableSim.mem_found _ hbase (named ▸ hhere) hkept
  | modifyAlias kind => rcases kind with kind | kind | kind | kind <;> simp [Applier.takes, kind] at htaken
  | modifyLive kind => rcases kind with kind | kind | kind | kind <;> simp [Applier.takes, kind] at htaken
  | move kind => simp [Applier.takes, kind] at htaken
  | connect kind out inp _ input _ inOk _ inPort _ inputPort =>
    subst input
    simp only [Applier.takes, kind, sim.modules.resolve_of_ok inOk, inputPort] at htaken
    have hhere := (sim.mem_inputCables hlive).mp htaken
    rw [← onPort_input] at hhere
    simp only [discloses, kind, inputPort, freeInputCables]
    split
    · exact absurd (touches_of_onPort hhere) (not_touches_planned hbase ‹_›)
    · rw [w.liveId_of_nonneg (not_lt.mp ‹_›)] at hhere
      exact CableSim.mem_found _ hbase hhere hkept
  | disconnect kind cid named =>
    simp only [Applier.takes, kind, named, Option.bind_some] at htaken
    obtain ⟨d, hd, hid⟩ := List.mem_map.mp htaken
    have hcid : d.id = cid := (Keyed.mem_of_find? (Option.mem_toList.mp hd)).2
    simp [discloses, kind, named, ← hid, hcid]
  | disconnectPortAlias kind ok synthetic =>
    simp only [Applier.takes, kind, sim.modules.resolve_of_ok ok] at htaken
    split at htaken
    · rename_i id portId hid _
      have hhere := (sim.mem_portCables hlive).mp (Applier.mem_selectMatches htaken)
      rw [← Option.some.inj hid] at hhere
      exact absurd (touches_of_onPort hhere) (not_touches_planned hbase synthetic)
    · cases htaken
  | disconnectPortLive kind id portId ok named live m _ port portType =>
    simp only [Applier.takes, kind, sim.modules.resolve_of_ok ok, port] at htaken
    simp only [discloses, kind, port, named, if_neg (not_lt.mpr live)]
    rw [named, w.liveId_of_nonneg live] at htaken
    have hread : jstr (Json.get op "port") "portType" ≠ "" := by
      rcases portType with portType | portType <;> simp [portType]
    rw [jstr_eq_of_ne "input" hread] at htaken
    exact sim.select_disclosed _ hbase hlive hkept htaken

/-! ### The step -/

theorem cables_step (sim : Sim w st s) (hp : PreviewStep (w.world ops) op st st')
    (hc : Applier.CablesAfter w.rack op s s') :
    CableSim w st'.removedCables s'.patch.cables s'.cablesMade := by
  have htake : CableSim w st'.removedCables (s.survivors (s.takes op)) s.cablesMade :=
    sim.cables.take (fun id hid => hp.mem_removedCables.mpr (.inl hid)) fun c hbase hlive htaken =>
      sim.takes_disclosed hp hbase hlive htaken
  cases hc with
  | kept kind cables cablesMade =>
    rw [cables, cablesMade]
    exact htake
  | added kind outId inId outPort inPort _ _ cables cablesMade =>
    rw [cables, cablesMade]
    exact htake.add rfl rfl

end Sim

namespace ModuleSim

variable {w : PatchWorld} {st st' : PreviewState} {s s' : Applier} {ops : List Json} {op : Json}

/-- An operation that neither adds nor removes a module. -/
theorem of_same (h : ModuleSim w st s) (aliases : st'.aliases = st.aliases)
    (nextSyntheticId : st'.nextSyntheticId = st.nextSyntheticId)
    (removedModules : st'.removedModules = st.removedModules)
    (shapes : s'.patch.shapes = s.patch.shapes) (aliasMap : s'.aliasMap = s.aliasMap)
    (modulesMade : s'.modulesMade = s.modulesMade) : ModuleSim w st' s' where
  shapes := by rw [shapes, removedModules, modulesMade]; exact h.shapes
  nextSyntheticId := by rw [nextSyntheticId, modulesMade]; exact h.nextSyntheticId
  aliases := by rw [aliases, aliasMap, modulesMade]; exact h.aliases

theorem add (h : ModuleSim w st s) {name : String} {shape : WorldModule}
    (shape_id : shape.id = w.rack.moduleIds s.modulesMade)
    (aliases : st'.aliases = st.aliases.insert name st.nextSyntheticId)
    (nextSyntheticId : st'.nextSyntheticId = st.nextSyntheticId - 1)
    (removedModules : st'.removedModules = st.removedModules)
    (shapes : s'.patch.shapes = s.patch.shapes ++ [shape])
    (aliasMap : s'.aliasMap = s.aliasMap.insert name shape.id)
    (modulesMade : s'.modulesMade = s.modulesMade + 1) : ModuleSim w st' s' := by
  have hnext := h.nextSyntheticId
  constructor
  · obtain ⟨planned, hshapes, hfresh⟩ := h.shapes
    refine ⟨planned ++ [shape], by rw [shapes, hshapes, removedModules, List.append_assoc], fun m hm => ?_⟩
    rw [modulesMade]
    rcases List.mem_append.mp hm with hm | hm
    · obtain ⟨n, hn, hid⟩ := hfresh m hm
      exact ⟨n, Nat.lt_succ_of_lt hn, hid⟩
    · rw [List.mem_singleton.mp hm]
      exact ⟨s.modulesMade, Nat.lt_succ_self _, shape_id⟩
  · rw [nextSyntheticId, modulesMade, hnext]
    push_cast
    omega
  · intro other
    rw [aliases, aliasMap, modulesMade]
    by_cases hother : other = name
    · subst hother
      exact .inr ⟨s.modulesMade, Nat.lt_succ_self _, by rw [AList.lookup_insert, hnext],
        by rw [AList.lookup_insert, shape_id]⟩
    · rw [AList.lookup_insert_ne hother, AList.lookup_insert_ne hother]
      rcases h.aliases other with hnone | ⟨n, hn, hst, hs⟩
      · exact .inl hnone
      · exact .inr ⟨n, Nat.lt_succ_of_lt hn, hst, hs⟩

/-- Commit removes a module; the preview records it when it was in the snapshot. -/
theorem remove (h : ModuleSim w st s) {id : Int} (aliases : st'.aliases = st.aliases)
    (nextSyntheticId : st'.nextSyntheticId = st.nextSyntheticId)
    (removed : ∀ m ∈ w.patch.shapes, m.id ∈ st'.removedModules ↔ m.id ∈ st.removedModules ∨ m.id = id)
    (shapes : s'.patch.shapes = s.patch.shapes.filter (·.id ≠ id)) (aliasMap : s'.aliasMap = s.aliasMap)
    (modulesMade : s'.modulesMade = s.modulesMade) : ModuleSim w st' s' where
  shapes := by
    obtain ⟨planned, hshapes, hfresh⟩ := h.shapes
    refine ⟨planned.filter (·.id ≠ id), ?_, fun m hm => modulesMade ▸ hfresh m (List.mem_of_mem_filter hm)⟩
    rw [shapes, hshapes, List.filter_append, List.filter_filter]
    congr 1
    refine List.filter_congr fun m hm => ?_
    have hiff := removed m hm
    by_cases hin : m.id ∈ st.removedModules <;> by_cases hid : m.id = id <;> simp_all
  nextSyntheticId := by rw [nextSyntheticId, modulesMade]; exact h.nextSyntheticId
  aliases := by rw [aliases, aliasMap, modulesMade]; exact h.aliases

theorem shape_id_ne (w : PatchWorld) {m : WorldModule} (hm : m ∈ w.patch.shapes) {id : Int}
    (hneg : id < 0) : m.id ≠ w.liveId id := by
  intro heq
  rw [w.liveId_of_neg hneg] at heq
  obtain ⟨module, hmodule, rfl⟩ := List.mem_map.mp hm
  exact w.module_fresh _ (List.mem_map.mpr ⟨module, hmodule, heq⟩)

theorem step (h : ModuleSim w st s) (hp : PreviewStep (w.world ops) op st st')
    (hc : Applier.CommitStep w.rack op s s') : ModuleSim w st' s' := by
  cases hc with
  | add kind model shape found shape_id shapes panelIds cables aliasMap modulesMade =>
    cases hp with
    | add _ _ _ _ aliases nextSyntheticId removedModules =>
      exact h.add shape_id aliases nextSyntheticId removedModules shapes aliasMap modulesMade
    | _ => simp_all
  | remove kind id resolved widget policy shapes panelIds cables aliasMap modulesMade =>
    cases hp with
    | removeAlias _ ok synthetic same =>
      rw [h.resolve_of_ok ok, Option.some.injEq] at resolved
      refine h.remove (by rw [same]) (by rw [same]) (fun m hm => ?_) shapes aliasMap modulesMade
      rw [same, ← resolved]
      exact ⟨.inl, fun h => h.resolve_right (shape_id_ne w hm synthetic)⟩
    | removeLive _ cid ok named live m found _ _ aliases nextSyntheticId removedModules =>
      rw [h.resolve_of_ok ok, Option.some.injEq] at resolved
      change w.liveId (previewRef op st).moduleId = id at resolved
      rw [named, w.liveId_of_nonneg live] at resolved
      refine h.remove aliases nextSyntheticId (fun m hm => ?_) shapes aliasMap modulesMade
      rw [removedModules, List.mem_append, List.mem_singleton, resolved]
    | _ => simp_all
  | modify kind id resolved m found param same =>
    cases hp with
    | modifyAlias _ _ _ same' =>
      exact h.of_same same'.aliases same'.nextSyntheticId same'.removedModules same.shapes same.aliasMap
        same.modulesMade
    | modifyLive _ _ _ _ _ _ _ _ same' =>
      exact h.of_same same'.aliases same'.nextSyntheticId same'.removedModules same.shapes same.aliasMap
        same.modulesMade
    | _ => simp_all
  | randomize kind id resolved m found same =>
    cases hp with
    | modifyAlias _ _ _ same' =>
      exact h.of_same same'.aliases same'.nextSyntheticId same'.removedModules same.shapes same.aliasMap
        same.modulesMade
    | modifyLive _ _ _ _ _ _ _ _ same' =>
      exact h.of_same same'.aliases same'.nextSyntheticId same'.removedModules same.shapes same.aliasMap
        same.modulesMade
    | _ => simp_all
  | move kind id resolved widget position same =>
    cases hp with
    | move _ _ same' =>
      exact h.of_same same'.aliases same'.nextSyntheticId same'.removedModules same.shapes same.aliasMap
        same.modulesMade
    | _ => simp_all
  | connect kind _ _ _ _ _ _ _ _ _ _ _ _ _ _ _ _ _ same =>
    cases hp with
    | connect _ _ _ _ _ _ _ _ _ _ _ _ _ _ aliases nextSyntheticId removedModules =>
      exact h.of_same aliases nextSyntheticId removedModules same.shapes same.aliasMap same.modulesMade
    | _ => simp_all
  | disconnect kind _ _ _ _ same =>
    cases hp with
    | disconnect _ cid _ _ _ same' =>
      have hrest : PreviewState.SameButRemoved st (st.removeCable cid) :=
        PreviewState.removeCables_same st [cid]
      exact h.of_same (same' ▸ hrest.aliases) (same' ▸ hrest.nextSyntheticId)
        (same' ▸ hrest.removedModules) same.shapes same.aliasMap same.modulesMade
    | _ => simp_all
  | disconnectPort kind _ _ _ _ _ _ same =>
    cases hp with
    | disconnectPortAlias _ _ _ same' =>
      exact h.of_same (by rw [same']) (by rw [same']) (by rw [same']) same.shapes same.aliasMap
        same.modulesMade
    | disconnectPortLive _ _ _ _ _ _ _ _ _ _ _ same' =>
      exact h.of_same same'.aliases same'.nextSyntheticId same'.removedModules same.shapes same.aliasMap
        same.modulesMade
    | _ => simp_all

end ModuleSim

namespace Sim

variable {w : PatchWorld} {st st' : PreviewState} {s s' : Applier} {ops : List Json} {op : Json}

/-- One operation both sides finish keeps the lockstep. -/
theorem step (sim : Sim w st s) (hp : validateOne (w.world ops) op st = .done st')
    (hc : Applier.applyOne w.rack op s = .done s') : Sim w st' s' := by
  have hp := validateOne_step hp
  have hc := Applier.applyOne_step sim.cables.widgets hc
  exact ⟨sim.modules.step hp hc, sim.cables_step hp hc.cablesAfter⟩

/-- So does a list. -/
theorem run (hp : Runs (validateOne (w.world ops)) list {} st)
    (hc : Runs (Applier.applyOne w.rack) list w.start s) : Sim w st s :=
  hp.simulate hc (fun _ _ _ _ _ _ sim => sim.step) (.start w)

end Sim

/-! ### A world to run plans on -/

/-- A rack that lists every new cable last, honours every position and has one model to add. -/
def benchRack : Rack where
  grid := { width := 15, height := 380 }
  getModel plugin model :=
    if plugin = "Core" ∧ model = "Notes" then
      some ⟨some ([some ⟨.finite 0, .finite 1⟩, none], 2, 2, ⟨[.finite 0, .finite 0], false, ""⟩),
        .ok ⟨90, 380⟩, none⟩
    else none
  moduleIds n := 100 + n
  cableIds n := 100 + n
  relist cables c := cables ++ [c]
  requestModulePos _ _ _ := true
  setModulePosForce _ id target other pos := if other = id then target else pos
  setModulePosSqueeze _ id target other pos := if other = id then target else pos
  setModulePosNearest _ id target other pos := if other = id then target else pos
  toFloat x := x
  scale _ x := x
  setValue _ _ x := x
  setDisplayValueString _ _ _ := .finite 0
  resetModule m := { m.state with values := m.state.values.map fun _ => .finite 0 }
  randomizeModule m := m.state
  undo a p := .done (a.invert (fun cables c => cables ++ [c]) p)
  canonicalFingerprint _ := "plan"
  computePatchFingerprint p := some (String.intercalate " " (p.modules.map fun m => toString m.id))

/-- An oscillator 1, a filter 2 and the Bridge 3, with the cable 10 from 1:0 to 2:0. -/
def benchPatch : Patch where
  modules :=
    [⟨1, "Fundamental", "VCO", [some ⟨.finite 0, .finite 1⟩], 2, 2, ⟨[.finite 0], false, ""⟩⟩,
     ⟨2, "Fundamental", "VCF", [some ⟨.finite 0, .finite 1⟩], 2, 2, ⟨[.finite 0], false, ""⟩⟩,
     ⟨3, "RackMCP", "Bridge", [], 0, 0, ⟨[], false, ""⟩⟩]
  panels := [⟨some 1, ⟨⟨30000, 38000⟩, ⟨90, 380⟩⟩⟩, ⟨some 2, ⟨⟨30090, 38000⟩, ⟨90, 380⟩⟩⟩,
    ⟨some 3, ⟨⟨30180, 38000⟩, ⟨90, 380⟩⟩⟩]
  cables := [⟨.connected 10 1 0 2 0, some ⟨0, 0, 0, 255⟩⟩]

/-- The patch in its rack. -/
def bench : PatchWorld where
  rack := benchRack
  patch := benchPatch
  moduleIds_nodup := by decide
  cableIds_nodup := by decide
  widgets := by decide
  moduleIds_injective m n h := by
    have h : (100 : Int) + m = 100 + n := h
    omega
  cableIds_injective m n h := by
    have h : (100 : Int) + m = 100 + n := h
    omega
  module_fresh n h := by
    simp only [benchRack, benchPatch, List.map_cons, List.map_nil, List.mem_cons, List.not_mem_nil, or_false] at h
    omega
  end_fresh n c hc := by
    simp only [benchPatch, List.mem_singleton] at hc
    subst hc
    simp only [PlanCable.touches, PlanCable.connected, benchRack, Bool.or_eq_true, Bool.and_eq_true,
      beq_iff_eq]
    omega
  cable_fresh n h := by
    simp only [benchRack, benchPatch, Cable.id, PlanCable.connected, List.map_cons, List.map_nil,
      List.mem_cons, List.not_mem_nil, or_false] at h
    omega
  relist_perm cs c := List.perm_append_singleton c cs
  relist_order cs c hc := by
    have hdrop : [c].filter (·.id ∈ benchPatch.cables.map (·.id)) = [] := by
      rw [List.filter_eq_nil_iff]
      intro d hd
      rw [List.mem_singleton.mp hd]
      simpa using hc
    change (cs ++ [c]).filter _ = _
    rw [List.filter_append, hdrop, List.append_nil]

theorem benchRack_moduleIds_injective : Function.Injective benchRack.moduleIds := bench.moduleIds_injective

theorem benchRack_cableIds_injective : Function.Injective benchRack.cableIds := bench.cableIds_injective

theorem benchRack_relist_perm (cs : List Cable) (c : Cable) : (benchRack.relist cs c).Perm (c :: cs) :=
  bench.relist_perm cs c

/-- The operations of a plan, as JSON. -/
def operation (name : String) (fields : List (String × Json)) : Json :=
  .object (("op", .string name) :: fields)

/-- A reference to a live module, and one to a module the plan added. -/
def moduleById (id : String) : Json := .object [("moduleId", .string id)]

/-- A port reference. -/
def portRef (module : Json) (portId : Int) : Json :=
  .object [("module", module), ("portId", .integer portId)]

def connectOperation (out : Json) (outPort : Int) (inp : Json) (inPort : Int) : Json :=
  operation "connect" [("output", portRef out outPort), ("input", portRef inp inPort),
    ("inputPolicy", .string "fail_if_connected")]

def disconnectPortOperation (module : Json) (portType : String) (portId : Int) (policy : String) : Json :=
  operation "disconnect_port" [("port", .object [("module", module), ("portType", .string portType),
    ("portId", .integer portId)]), ("policy", .string policy)]

/-- The oscillator is removed with its cables. -/
def removeOscillator : List Json :=
  [operation "remove_module" [("cablePolicy", .string "remove_attached"), ("module", moduleById "1")]]

end RackMcp
