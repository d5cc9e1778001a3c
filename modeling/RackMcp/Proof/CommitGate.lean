import RackMcp.Proof.ConnectRefusal
import RackMcp.Proof.Rollback

/-!
# What the commit gate does not check

`txnCommit` checks the shapes of the operations, the plan hash and the fingerprint, and leaves the rest to
the applier. `PreviewRequires` is what `validateOne` asks of an operation and neither that gate nor a
finished `applyOne` establishes; `commit_gate_iff` says that it is exactly what separates a commit from a
plan the preview accepts.
-/

namespace RackMcp

open Gen Outcomes

variable {world : PlanWorld} {w : PatchWorld} {st st' : PreviewState} {s s' : Applier}
  {ops pre list : List Json} {op : Json}

/-! ### When the preview accepts an operation -/

theorem isDone_refuse {code : ErrorCode} {message : String} : (refuse code message st).isDone = false := rfl

theorem validateAdd_isDone :
    (validateAdd op world st).isDone ↔ world.modelInstalled (jstr op "pluginSlug") (jstr op "modelSlug") ∧
      jstr op "alias" ≠ "" ∧ jstr op "alias" ∉ st.aliases := by
  unfold validateAdd
  dsimp only
  split
  · rename_i hmissing
    simp [isDone_refuse, hmissing]
  rename_i hinstalled
  split
  · rename_i halias
    simp only [isDone_refuse, Bool.false_eq_true, false_iff]
    rintro ⟨-, hnonempty, hfresh⟩
    exact halias.elim hnonempty hfresh
  · rename_i halias
    simp only [Outcome.isDone_done, true_iff]
    exact ⟨not_not.mp hinstalled, not_or.mp halias⟩

theorem validateRemove_isDone :
    (validateRemove op world st).isDone ↔ (previewRef op st).ok ∧
      (0 ≤ (previewRef op st).moduleId → ∃ m, liveModule world st (previewRef op st).moduleId = some m ∧
        (isBridgeModule m → jbool op "allowLastBridge" false ∨
          1 < remainingBridgeCount world.modules st.removedModules) ∧
        (cablesOnModule world.cables st.removedCables (previewRef op st).moduleId = [] ∨
          jstr op "cablePolicy" "remove_attached" ≠ "fail_if_connected")) := by
  unfold validateRemove previewRef
  dsimp only
  split
  · rename_i hbad
    simp [isDone_refuse, hbad]
  rename_i hok
  split
  · rename_i hneg
    simp only [Outcome.isDone_done, true_iff]
    exact ⟨not_not.mp hok, fun hlive => absurd hneg (not_lt.mpr hlive)⟩
  rename_i hlive
  have hlive := not_lt.mp hlive
  split
  · rename_i hnone
    simp [isDone_refuse, hnone, hlive]
  rename_i m hfound
  simp only [not_not.mp hok, hlive, hfound, Option.some.injEq, exists_eq_left', true_and, true_implies]
  split
  · rename_i hlast
    simp only [Outcome.isDone_thrown, Bool.false_eq_true, false_iff]
    rintro ⟨hbridge, -⟩
    rcases hbridge hlast.1 with hallow | hleft
    · exact hlast.2.1 hallow
    · exact absurd hlast.2.2 (not_le.mpr hleft)
  rename_i hkeeps
  have hbridge : isBridgeModule m → jbool op "allowLastBridge" false ∨
      1 < remainingBridgeCount world.modules st.removedModules := fun hm => by
    by_contra hnot
    obtain ⟨hallow, hleft⟩ := not_or.mp hnot
    exact hkeeps ⟨hm, hallow, not_lt.mp hleft⟩
  split
  · rename_i hpolicy
    simp only [isDone_refuse, Bool.false_eq_true, false_iff]
    rintro ⟨-, hnil | hother⟩
    · exact hpolicy.1 hnil
    · exact hother hpolicy.2
  · rename_i hpolicy
    simp only [Outcome.isDone_done, true_iff]
    refine ⟨hbridge, ?_⟩
    by_contra hnot
    obtain ⟨hattached, hfail⟩ := not_or.mp hnot
    exact hpolicy ⟨hattached, not_not.mp hfail⟩

theorem validateModify_isDone {type : OpType} :
    (validateModify type op world st).isDone ↔ (previewRef op st).ok ∧
      (0 ≤ (previewRef op st).moduleId → ∃ m, liveModule world st (previewRef op st).moduleId = some m ∧
        (type = .setParameter → ∃ paramId, readIntField op "paramId" = .ok paramId ∧
          0 ≤ paramId ∧ paramId < m.paramCount)) := by
  unfold validateModify previewRef
  dsimp only
  split
  · rename_i hbad
    simp [isDone_refuse, hbad]
  rename_i hok
  split
  · rename_i hneg
    simp only [Outcome.isDone_done, true_iff]
    exact ⟨not_not.mp hok, fun hlive => absurd hneg (not_lt.mpr hlive)⟩
  rename_i hlive
  have hlive := not_lt.mp hlive
  split
  · rename_i hnone
    simp [isDone_refuse, hnone, hlive]
  rename_i m hfound
  simp only [not_not.mp hok, hlive, hfound, Option.some.injEq, exists_eq_left', true_and, true_implies]
  split
  · rename_i htype
    simp only [htype, true_implies]
    split
    · rename_i ierr hbad
      simp [isDone_refuse, hbad]
    · rename_i paramId hparam
      simp only [hparam, Except.ok.injEq, exists_eq_left']
      split
      · simp only [isDone_refuse, Bool.false_eq_true, false_iff]
        omega
      · simp only [Outcome.isDone_done, true_iff]
        omega
  · rename_i htype
    simp [htype]

/-- The position of a move is one the preview does not refuse: without policy `fail`, or with a layout that
is no longer known exactly, or free. -/
def MoveAllowed (world : PlanWorld) (op : Json) (st : PreviewState) (selfIndex : Nat) : Prop :=
  ∃ g : Int × Int, readGridPosition (Json.get op "position") = .ok g ∧
    ¬ (jstr op "collision" "nearest" = "fail" ∧ ¬ st.layoutUncertain ∧
      ¬ positionFree world st selfIndex ⟨Layout.gridToPixel g.1 g.2 world.grid,
        ((world.occupants[selfIndex]?).map (·.box.size)).getD ⟨0, 0⟩⟩)

theorem validateMove_isDone :
    (validateMove op world st).isDone ↔ (previewRef op st).ok ∧
      (0 ≤ (previewRef op st).moduleId → ∃ m, liveModule world st (previewRef op st).moduleId = some m ∧
        ∀ selfIndex, world.widgetIndex (previewRef op st).moduleId = some selfIndex →
          MoveAllowed world op st selfIndex) := by
  unfold validateMove previewRef MoveAllowed
  dsimp only
  split
  · rename_i hbad
    simp [isDone_refuse, hbad]
  rename_i hok
  split
  · rename_i hneg
    simp only [Outcome.isDone_done, true_iff]
    exact ⟨not_not.mp hok, fun hlive => absurd hneg (not_lt.mpr hlive)⟩
  rename_i hlive
  have hlive := not_lt.mp hlive
  split
  · rename_i hnone
    simp [isDone_refuse, Option.isNone_iff_eq_none.mp hnone, hlive]
  rename_i hsome
  obtain ⟨m, hfound⟩ : ∃ m, liveModule world st
      (resolveModuleRef (Json.get op "module") st.aliases).moduleId = some m := by
    rw [← Option.isSome_iff_exists, Option.isSome_iff_ne_none]
    exact fun hnone => hsome (Option.isNone_iff_eq_none.mpr hnone)
  simp only [not_not.mp hok, hlive, hfound, Option.some.injEq, exists_eq_left', true_and, true_implies]
  split
  · rename_i hindex
    simp [hindex]
  rename_i selfIndex hindex
  simp only [hindex, Option.some.injEq, forall_eq']
  split
  · rename_i ierr hbad
    simp [isDone_refuse, hbad]
  rename_i gx gy hposition
  simp only [hposition, Except.ok.injEq, exists_eq_left']
  split
  · rename_i hrefused
    simp only [isDone_refuse, Bool.false_eq_true, false_iff, not_not]
    exact hrefused
  · rename_i hallowed
    split
    all_goals
      simp only [Outcome.isDone_done, true_iff]
      exact hallowed

theorem claimInput_isDone {inModule inPort : Int} {existing : List Int} :
    (claimInput op inModule inPort existing st).isDone ↔
      (¬ st.inputClaimed inModule inPort ∧ existing = []) ∨
      (jstr op "inputPolicy" "fail_if_connected" ≠ "fail_if_connected" ∧
        jstr op "inputPolicy" "fail_if_connected" ≠ "stack") := by
  unfold claimInput
  dsimp only
  split
  · rename_i htaken
    have hnot : ¬ (¬ st.inputClaimed inModule inPort ∧ existing = []) := fun hfree =>
      htaken.elim hfree.1 fun h => h hfree.2
    split
    · rename_i hfail
      exact iff_of_false (by simp) fun h => h.elim hnot fun h => h.1 hfail
    split
    · rename_i hstack
      exact iff_of_false (by simp) fun h => h.elim hnot fun h => h.2 hstack
    · rename_i hfail hstack
      simp [hfail, hstack]
  · rename_i hfree
    obtain ⟨hclaimed, hexisting⟩ := not_or.mp hfree
    simp only [Outcome.isDone_done, true_iff]
    exact .inl ⟨hclaimed, not_not.mp hexisting⟩

theorem validateDisconnect_isDone :
    (validateDisconnect op world st).isDone ↔
      ∃ cid, parseDecimalId (jstr (Json.get op "cable") "cableId") = some cid ∧ world.hasCable cid ∧
        cid ∉ st.removedCables := by
  unfold validateDisconnect
  dsimp only
  split
  · rename_i hnone
    simp [isDone_refuse, hnone]
  rename_i cid hnamed
  simp only [hnamed, Option.some.injEq, exists_eq_left']
  split
  · rename_i hunknown
    simp [isDone_refuse, hunknown]
  rename_i hknown
  split
  · rename_i hremoved
    simp [isDone_refuse, hremoved]
  · rename_i hkept
    simp only [Outcome.isDone_done, true_iff]
    exact ⟨not_not.mp hknown, hkept⟩

theorem validateDisconnectPort_isDone :
    (validateDisconnectPort op world st).isDone ↔
      (resolveModuleRef (Json.get (Json.get op "port") "module") st.aliases).ok ∧
      (0 ≤ (resolveModuleRef (Json.get (Json.get op "port") "module") st.aliases).moduleId →
        (∃ m, liveModule world st
          (resolveModuleRef (Json.get (Json.get op "port") "module") st.aliases).moduleId = some m) ∧
        (∃ portId, readIntField (Json.get op "port") "portId" = .ok portId) ∧
        (jstr (Json.get op "port") "portType" = "input" ∨
          jstr (Json.get op "port") "portType" = "output")) := by
  unfold validateDisconnectPort
  dsimp only
  split
  · rename_i hbad
    simp [isDone_refuse, hbad.1]
  rename_i hok
  have hresolved : (resolveModuleRef (Json.get (Json.get op "port") "module") st.aliases).ok := by
    by_contra hnot
    exact hok ⟨hnot, by rw [moduleId_of_not_ok hnot]; decide⟩
  split
  · rename_i hneg
    simp only [Outcome.isDone_done, true_iff]
    exact ⟨hresolved, fun hlive => absurd hneg (not_lt.mpr hlive)⟩
  rename_i hlive
  have hlive := not_lt.mp hlive
  split
  · rename_i hnone
    simp [isDone_refuse, hnone, hlive]
  rename_i m hfound
  simp only [hresolved, hlive, hfound, Option.some.injEq, exists_eq', true_and, true_implies]
  split
  · rename_i ierr hbad
    simp [isDone_refuse, hbad]
  rename_i portId hport
  simp only [hport, Except.ok.injEq, exists_eq', true_and]
  split
  · rename_i htype
    simp [isDone_refuse, htype.1, htype.2]
  · rename_i htype
    simp only [Outcome.isDone_done, true_iff]
    by_contra hnot
    exact htype (not_or.mp hnot)

/-! ### Numeric references and live modules -/

/-- The reference names a module by its numeric id. -/
def NamesById (ref : Option Json) (id : Int) : Prop :=
  resolveModuleRef ref ∅ = { ok := true, moduleId := id }

theorem NamesById.resolve {ref : Option Json} {id : Int} (h : NamesById ref id) (aliases : AliasMap) :
    resolveModuleRef ref aliases = { ok := true, moduleId := id } ∧ 0 ≤ id := by
  unfold NamesById at h
  rcases refShape ref with ⟨id', hid', hr⟩ | ⟨name, hr⟩ | hr
  · rw [hr] at h ⊢
    cases h
    exact ⟨rfl, hid'⟩
  · rw [hr] at h
    cases h
  · rw [hr] at h
    cases h

/-- A resolved reference is numeric exactly when its id is no synthetic one. -/
theorem Sim.namesById_iff (sim : Sim w st s) {ref : Option Json}
    (ok : (resolveModuleRef ref st.aliases).ok) {P : Int → Prop} :
    (∀ id, NamesById ref id → P id) ↔
      (0 ≤ (resolveModuleRef ref st.aliases).moduleId → P (resolveModuleRef ref st.aliases).moduleId) := by
  constructor
  · intro hall hlive
    refine hall _ ?_
    rcases refShape ref with ⟨id, -, hr⟩ | ⟨name, hr⟩ | hr
    · rw [NamesById, hr, hr]
    · obtain ⟨n, -, hn⟩ | hnot := em (∃ n < s.modulesMade,
        (resolveModuleRef ref st.aliases).moduleId = -1000 - (n : Int))
      · omega
      · rcases sim.modules.aliases name with ⟨hnone, -⟩ | ⟨n, hn, hst, -⟩
        · rw [hr, hnone] at ok
          cases ok
        · exact absurd ⟨n, hn, by rw [hr, hst]⟩ hnot
    · rw [hr] at ok
      cases ok
  · intro h id hid
    obtain ⟨hr, hnonneg⟩ := hid.resolve st.aliases
    rw [hr] at h
    exact h hnonneg

/-- The module was in the patch before the transaction. -/
def PatchWorld.HasModule (w : PatchWorld) (id : Int) : Prop := id ∈ w.patch.modules.map (·.id)

/-- A module of the snapshot is live exactly when the preview has not removed it. -/
theorem Sim.isSome_module_iff (sim : Sim w st s) {id : Int} (hbase : w.HasModule id) :
    (s.patch.module id).isSome ↔ id ∉ st.removedModules := by
  rw [Patch.module_isSome]
  obtain ⟨planned, hshapes, hfresh⟩ := sim.modules.shapes
  rw [hshapes, List.map_append, List.mem_append]
  constructor
  · rintro (hin | hin)
    · obtain ⟨m, hm, rfl⟩ := List.mem_map.mp hin
      simpa using (List.mem_filter.mp hm).2
    · obtain ⟨m, hm, rfl⟩ := List.mem_map.mp hin
      obtain ⟨n, -, hn⟩ := hfresh m hm
      exact absurd (hn ▸ hbase) (w.module_fresh n)
  · intro hkept
    obtain ⟨module, hmodule, rfl⟩ := List.mem_map.mp hbase
    exact .inl (List.mem_map.mpr ⟨toWorldModule module,
      List.mem_filter.mpr ⟨List.mem_map_of_mem hmodule, decide_eq_true_iff.mpr hkept⟩, rfl⟩)

variable (ops) in
/-- What validation finds under a numeric id of a module that is live in the patch. -/
theorem Sim.liveModule_iff (sim : Sim w st s) {id : Int} {live : Module}
    (hlive : s.patch.module id = some live) {P : WorldModule → Prop} :
    (∃ m, liveModule (w.world ops) st id = some m ∧ P m) ↔ w.HasModule id ∧ P (toWorldModule live) := by
  constructor
  · rintro ⟨m, hm, hP⟩
    obtain ⟨live', hlive', rfl⟩ := sim.modules.module_eq hm
    rw [hlive, Option.some.injEq] at hlive'
    subst hlive'
    refine ⟨?_, hP⟩
    unfold liveModule at hm
    split at hm
    · cases hm
    obtain ⟨hmem, hid⟩ := Keyed.mem_of_find? hm
    obtain ⟨module, hmodule, heq⟩ := List.mem_map.mp hmem
    exact List.mem_map.mpr ⟨module, hmodule, by rw [← hid, ← heq]; rfl⟩
  · rintro ⟨hbase, hP⟩
    have hkept := (sim.isSome_module_iff hbase).mp (by rw [hlive]; rfl)
    obtain ⟨m, hm⟩ : ∃ m, liveModule (w.world ops) st id = some m := by
      rw [liveModule, if_neg hkept, ← Option.isSome_iff_exists, PlanWorld.module, Keyed.find?_isSome]
      exact (Patch.mem_shapes_ids w.patch id).mpr hbase
    obtain ⟨live', hlive', rfl⟩ := sim.modules.module_eq hm
    rw [hlive, Option.some.injEq] at hlive'
    subst hlive'
    exact ⟨_, hm, hP⟩

/-- The Bridges of the snapshot that are live. -/
def liveBridges (w : PatchWorld) (s : Applier) : Nat :=
  w.patch.shapes.countP fun m => isBridgeModule m && (s.patch.module m.id).isSome

variable (ops) in
theorem Sim.liveBridges_eq (sim : Sim w st s) :
    liveBridges w s = remainingBridgeCount (w.world ops).modules st.removedModules := by
  refine List.countP_congr fun m hm => ?_
  obtain ⟨module, hmodule, rfl⟩ := List.mem_map.mp hm
  have hbase : w.HasModule (toWorldModule module).id := List.mem_map.mpr ⟨module, hmodule, rfl⟩
  simp [sim.isSome_module_iff hbase]

/-! ### What separates a commit from an accepted plan -/

/-- What `validateOne` asks of an operation besides what the commit gate and a finished `applyOne`
establish. -/
def PreviewRequires (w : PatchWorld) (ops : List Json) (op : Json) (st : PreviewState) (s : Applier) : Prop :=
  let ref := Json.get op "module"
  match opType op with
  | .addModule => jstr op "alias" ≠ "" ∧ jstr op "alias" ∉ s.aliasMap
  | .removeModule => ∀ id, NamesById ref id → w.HasModule id ∧
      ∀ live, s.patch.module id = some live → isBridgeModule (toWorldModule live) →
        jbool op "allowLastBridge" false ∨ 1 < liveBridges w s
  | .setParameter | .setBypass | .resetModule | .randomizeModule => ∀ id, NamesById ref id → w.HasModule id
  | .moveModule => ∀ id, NamesById ref id → w.HasModule id ∧
      ∀ selfIndex, (w.world ops).widgetIndex id = some selfIndex → MoveAllowed (w.world ops) op st selfIndex
  | .connect =>
    (∀ id, NamesById (Json.get (Json.get op "output") "module") id → w.HasModule id) ∧
    (∀ id, NamesById (Json.get (Json.get op "input") "module") id → w.HasModule id) ∧
    -- no earlier operation claimed the input, or the policy replaces what is there
    ((∀ portId, readIntField (Json.get op "input") "portId" = .ok portId → ¬ st.inputClaimed
        (resolveModuleRef (Json.get (Json.get op "input") "module") st.aliases).moduleId portId) ∨
      (jstr op "inputPolicy" "fail_if_connected" ≠ "fail_if_connected" ∧
        jstr op "inputPolicy" "fail_if_connected" ≠ "stack"))
  | .disconnect => ∀ cid, parseDecimalId (jstr (Json.get op "cable") "cableId") = some cid →
      cid ∈ w.patch.cables.map (·.id) ∧ cid ∉ st.removedCables
  | .disconnectPort => ∀ id, NamesById (Json.get (Json.get op "port") "module") id →
      w.HasModule id ∧ (s.patch.module id).isSome ∧
        (jstr (Json.get op "port") "portType" = "input" ∨ jstr (Json.get op "port") "portType" = "output")
  | _ => True

theorem validateOne_of_shape (hshape : checkOperationFields op = none) :
    validateOne world op st = validateBranch op world st := by
  rw [validateOne, hshape]

theorem installed_of_getModel {model : Model} (hop : op ∈ ops) (kind : opType op = .addModule)
    (hmodel : w.rack.getModel (jstr op "pluginSlug") (jstr op "modelSlug") = some model) :
    (w.world ops).modelInstalled (jstr op "pluginSlug") (jstr op "modelSlug") := by
  refine List.mem_filterMap.mpr ⟨op, List.mem_filter.mpr ⟨hop, ?_⟩, ?_⟩
  · rw [← name_opType, kind]
    rfl
  · dsimp only
    rw [hmodel]
    rfl

namespace Sim

theorem of_resolve (sim : Sim w st s) {ref : Option Json} {id : Int} (h : s.resolve ref = some id) :
    (resolveModuleRef ref st.aliases).ok ∧ w.liveId (resolveModuleRef ref st.aliases).moduleId = id := by
  rw [sim.modules.resolve] at h
  split at h
  · exact ⟨‹_›, Option.some.inj h⟩
  · cases h

theorem alias_fresh_iff (sim : Sim w st s) {name : String} : name ∈ st.aliases ↔ name ∈ s.aliasMap := by
  rw [← AList.lookup_isSome, ← AList.lookup_isSome]
  rcases sim.modules.aliases name with ⟨hst, hs⟩ | ⟨n, -, hst, hs⟩
  · rw [hst, hs]
  · rw [hst, hs]
    rfl

variable (ops) in
/-- A module without live cables has none the preview counts. -/
theorem cablesOnModule_eq_nil (sim : Sim w st s) {id : Int}
    (h : Applier.moduleCables s.patch id = []) :
    cablesOnModule (w.world ops).cables st.removedCables id = [] := by
  rw [List.eq_nil_iff_forall_not_mem]
  intro x hx
  obtain ⟨c, hc, rfl, hkept, htouches⟩ := mem_of_cablesOn (·.touches id) hx
  have hin := (sim.mem_moduleCables (sim.cables.kept c hc hkept)).mpr htouches
  rw [h] at hin
  cases hin

theorem isDone_remove (sim : Sim w st s) (kind : opType op = .removeModule) {id : Int}
    (resolved : s.resolve (Json.get op "module") = some id) (widget : (s.patch.widget id).isSome)
    (policy : Applier.moduleCables s.patch id = [] ∨
      jstr op "cablePolicy" "remove_attached" ≠ "fail_if_connected") :
    (validateRemove op (w.world ops) st).isDone ↔ PreviewRequires w ops op st s := by
  obtain ⟨ok, rfl⟩ := sim.of_resolve resolved
  rw [validateRemove_isDone]
  simp only [PreviewRequires, kind, previewRef, ok, true_and]
  rw [sim.namesById_iff ok]
  refine forall_congr' fun hlive => ?_
  rw [w.liveId_of_nonneg hlive] at widget policy
  obtain ⟨live, hmodule⟩ := Option.isSome_iff_exists.mp
    ((Patch.module_isSome _ _).mpr ((Patch.widget_isSome _ _).mp widget).2)
  have hpolicy := policy.imp_left (sim.cablesOnModule_eq_nil ops)
  rw [sim.liveModule_iff ops hmodule, ← sim.liveBridges_eq ops]
  simp only [hmodule, Option.some.injEq, forall_eq', hpolicy, and_true]

theorem isDone_modify (sim : Sim w st s) {type : OpType} (kind : opType op = type)
    (htype : type = .setParameter ∨ type = .setBypass ∨ type = .resetModule ∨ type = .randomizeModule)
    {id : Int} {m : Module} (resolved : s.resolve (Json.get op "module") = some id)
    (found : s.patch.module id = some m)
    (param : type = .setParameter → ∃ paramId, readIntField op "paramId" = .ok paramId ∧
      0 ≤ paramId ∧ paramId < m.quantities.length) :
    (validateModify type op (w.world ops) st).isDone ↔ PreviewRequires w ops op st s := by
  obtain ⟨ok, rfl⟩ := sim.of_resolve resolved
  have hrequires : PreviewRequires w ops op st s ↔
      ∀ id, NamesById (Json.get op "module") id → w.HasModule id := by
    rcases htype with rfl | rfl | rfl | rfl <;> simp only [PreviewRequires, kind]
  rw [hrequires, sim.namesById_iff ok, validateModify_isDone]
  simp only [previewRef, ok, true_and]
  refine forall_congr' fun hlive => ?_
  rw [w.liveId_of_nonneg hlive] at found
  rw [sim.liveModule_iff ops found]
  exact and_iff_left param

theorem isDone_move (sim : Sim w st s) (kind : opType op = .moveModule) {id : Int}
    (resolved : s.resolve (Json.get op "module") = some id) (widget : (s.patch.widget id).isSome) :
    (validateMove op (w.world ops) st).isDone ↔ PreviewRequires w ops op st s := by
  obtain ⟨ok, rfl⟩ := sim.of_resolve resolved
  rw [validateMove_isDone]
  simp only [PreviewRequires, kind, previewRef, ok, true_and]
  rw [sim.namesById_iff ok]
  refine forall_congr' fun hlive => ?_
  rw [w.liveId_of_nonneg hlive] at widget
  obtain ⟨live, hmodule⟩ := Option.isSome_iff_exists.mp
    ((Patch.module_isSome _ _).mpr ((Patch.widget_isSome _ _).mp widget).2)
  exact sim.liveModule_iff ops hmodule

theorem isDone_disconnect (kind : opType op = .disconnect) {c : Cable}
    (named : (parseDecimalId (jstr (Json.get op "cable") "cableId")).bind s.patch.cable = some c) :
    (validateDisconnect op (w.world ops) st).isDone ↔ PreviewRequires w ops op st s := by
  obtain ⟨cid, hparse, -⟩ := Option.bind_eq_some_iff.mp named
  rw [validateDisconnect_isDone]
  simp only [PreviewRequires, kind, hparse, Option.some.injEq, exists_eq_left', forall_eq']
  refine and_congr_left fun _ => ?_
  constructor
  · rintro ⟨plan, hplan, rfl⟩
    obtain ⟨c, hc, rfl⟩ := List.mem_map.mp hplan
    exact List.mem_map.mpr ⟨c, hc, rfl⟩
  · rintro hin
    obtain ⟨c, hc, rfl⟩ := List.mem_map.mp hin
    exact ⟨c.plan, List.mem_map_of_mem hc, rfl⟩

theorem isDone_disconnectPort (sim : Sim w st s) (kind : opType op = .disconnectPort) {id portId : Int}
    (resolved : s.resolve (Json.get (Json.get op "port") "module") = some id)
    (port : readIntField (Json.get op "port") "portId" = .ok portId) :
    (validateDisconnectPort op (w.world ops) st).isDone ↔ PreviewRequires w ops op st s := by
  obtain ⟨ok, -⟩ := sim.of_resolve resolved
  rw [validateDisconnectPort_isDone]
  simp only [PreviewRequires, kind, ok, true_and]
  rw [sim.namesById_iff ok]
  refine forall_congr' fun hlive => ?_
  simp only [port, Except.ok.injEq, exists_eq', true_and, ← and_assoc]
  refine and_congr_left fun _ => ?_
  constructor
  · rintro ⟨m, hm⟩
    obtain ⟨live, hmodule, -⟩ := sim.modules.module_eq hm
    exact ⟨((sim.liveModule_iff ops (P := fun _ => True) hmodule).mp ⟨m, hm, trivial⟩).1,
      by rw [hmodule]; rfl⟩
  · rintro ⟨hbase, hsome⟩
    obtain ⟨live, hmodule⟩ := Option.isSome_iff_exists.mp hsome
    obtain ⟨m, hm, -⟩ := (sim.liveModule_iff ops (P := fun _ => True) hmodule).mpr ⟨hbase, trivial⟩
    exact ⟨m, hm⟩

variable (ops) in
/-- A port reference the applier accepted is in range for the preview when its module is of the snapshot. -/
theorem port_of_live (sim : Sim w st s) {ref : Option Json} {m : Module} {portId : Int}
    (count : WorldModule → Nat)
    (found : s.patch.module (w.liveId (resolveModuleRef ref st.aliases).moduleId) = some m)
    (bound : 0 ≤ portId ∧ portId < count (toWorldModule m))
    (hlive : 0 ≤ (resolveModuleRef ref st.aliases).moduleId) :
    (∃ m ∈ liveModule (w.world ops) st (resolveModuleRef ref st.aliases).moduleId,
        0 ≤ portId ∧ portId < count m) ↔ w.HasModule (resolveModuleRef ref st.aliases).moduleId := by
  rw [w.liveId_of_nonneg hlive] at found
  exact (sim.liveModule_iff ops found).trans (and_iff_left bound)

theorem isDone_connect (sim : Sim w st s) (hshape : checkOperationFields op = none)
    (kind : opType op = .connect) (hstep : Applier.CommitStep w.rack op s s') :
    (validateOne (w.world ops) op st).isDone ↔ PreviewRequires w ops op st s := by
  cases hstep with
  | connect _ outId inId outPort inPort output input outputPort inputPort outMod inMod outFound inFound
      outBound inBound policy =>
    obtain ⟨outOk, rfl⟩ := sim.of_resolve output
    obtain ⟨inOk, rfl⟩ := sim.of_resolve input
    simp only [PreviewRequires, kind]
    rw [sim.namesById_iff outOk, sim.namesById_iff inOk]
    have hout := sim.port_of_live ops (·.outputCount) outFound outBound
    have hin := sim.port_of_live ops (·.inputCount) inFound inBound
    by_cases hinOrder : ∃ id portId, PortsInOrder (w.world ops) op st id portId
    · obtain ⟨id, portId, inOrder⟩ := hinOrder
      obtain ⟨st₀, same, hclaim⟩ := validateConnect_inOrder inOrder
      rw [hclaim, claimInput_isDone, same.inputClaimed]
      obtain rfl := inOrder.input
      obtain rfl : inPort = portId := Except.ok.inj (inputPort.symm.trans inOrder.inputPort)
      obtain ⟨outPort', houtPort', houtRange⟩ := inOrder.outRange
      obtain rfl : outPort = outPort' := Except.ok.inj (outputPort.symm.trans houtPort')
      have hfree : freeInputCables (w.world ops) st
          (resolveModuleRef (Json.get (Json.get op "input") "module") st.aliases).moduleId inPort = [] ∨
          (jstr op "inputPolicy" "fail_if_connected" ≠ "fail_if_connected" ∧
            jstr op "inputPolicy" "fail_if_connected" ≠ "stack") := by
        refine policy.imp_left fun hnil => ?_
        by_contra hne
        exact carries_of_free sim hne hnil
      simp only [inputPort, Except.ok.injEq, forall_eq']
      constructor
      · rintro hclaimed
        refine ⟨fun hlive => (hout hlive).mp (houtRange hlive),
          fun hlive => (hin hlive).mp (inOrder.inRange hlive), hclaimed.imp_left And.left⟩
      · rintro ⟨-, -, hclaimed⟩
        rcases hfree with hnil | hreplace
        · exact hclaimed.imp_left fun h => ⟨h, hnil⟩
        · exact .inr hreplace
    · obtain ⟨code, message, st₁, hrefuse, -⟩ := validateConnect_not_inOrder kind hinOrder
      rw [hrefuse]
      refine iff_of_false (by simp [isDone_refuse]) ?_
      rintro ⟨hbaseOut, hbaseIn, -⟩
      exact hinOrder ⟨_, inPort, hshape, kind, outOk, inOk, rfl, inputPort,
        ⟨outPort, outputPort, fun hlive => (hout hlive).mpr (hbaseOut hlive)⟩,
        fun hlive => (hin hlive).mpr (hbaseIn hlive)⟩
  | _ => simp_all

/-- For an operation that commit applied, `PreviewRequires` is what the preview's acceptance comes down
to. -/
theorem validateOne_isDone (sim : Sim w st s) (hop : op ∈ ops) (hshape : checkOperationFields op = none)
    (hstep : Applier.CommitStep w.rack op s s') :
    (validateOne (w.world ops) op st).isDone ↔ PreviewRequires w ops op st s := by
  have hcommit := hstep
  cases hstep with
  | add kind model shape found =>
    rw [validateOne_of_shape hshape, validateBranch, kind, validateAdd_isDone]
    simp only [PreviewRequires, kind, installed_of_getModel hop kind found, true_and, sim.alias_fresh_iff]
  | remove kind id resolved widget policy =>
    rw [validateOne_of_shape hshape, validateBranch, kind]
    exact sim.isDone_remove kind resolved widget policy
  | modify kind id resolved m found param =>
    rw [validateOne_of_shape hshape, validateBranch]
    rcases kind with kind | kind | kind
    all_goals
      rw [kind]
      exact sim.isDone_modify kind (by simp) resolved found fun h => param (kind.trans h)
  | randomize kind id resolved m found =>
    rw [validateOne_of_shape hshape, validateBranch, kind]
    exact sim.isDone_modify kind (by simp) resolved found (by simp)
  | move kind id resolved widget =>
    rw [validateOne_of_shape hshape, validateBranch, kind]
    exact sim.isDone_move kind resolved widget
  | connect kind => exact sim.isDone_connect hshape kind hcommit
  | disconnect kind c named =>
    rw [validateOne_of_shape hshape, validateBranch, kind]
    exact isDone_disconnect kind named
  | disconnectPort kind id portId resolved port =>
    rw [validateOne_of_shape hshape, validateBranch, kind]
    exact sim.isDone_disconnectPort kind resolved port

end Sim

/-! ### The gate -/

/-- Every operation of the list meets `PreviewRequires` in the states the ones before it lead to. -/
def RequirementsMet (w : PatchWorld) (ops list : List Json) : Prop :=
  ∀ pre op post st s, list = pre ++ op :: post → Runs (validateOne (w.world ops)) pre {} st →
    Runs (Applier.applyOne w.rack) pre w.start s → PreviewRequires w ops op st s

/-- A list that commit applied is accepted exactly when its requirements are met. -/
theorem accepted_iff_requirementsMet (hsub : ∀ op ∈ list, op ∈ ops)
    (hshapes : ∀ op ∈ list, checkOperationFields op = none)
    (hc : Runs (Applier.applyOne w.rack) list w.start s) :
    (∃ st, Runs (validateOne (w.world ops)) list {} st) ↔ RequirementsMet w ops list := by
  rw [runs_iff_no_throw]
  constructor
  · rintro hall pre op post st t rfl hp ht
    obtain ⟨t', ht', hrest⟩ := Runs.append_iff.mp hc
    obtain rfl := ht.unique ht'
    obtain ⟨t₁, hstep, -⟩ := Runs.cons_iff.mp hrest
    have sim := Sim.run hp ht
    have hop : op ∈ pre ++ op :: post := by simp
    exact (sim.validateOne_isDone (hsub op hop) (hshapes op hop)
      (Applier.applyOne_step sim.cables.widgets hstep)).mp (Outcome.isDone_iff.mpr (hall pre op post st rfl hp))
  · rintro hmet pre op post st rfl hp
    obtain ⟨t, ht, hrest⟩ := Runs.append_iff.mp hc
    obtain ⟨t₁, hstep, -⟩ := Runs.cons_iff.mp hrest
    have sim := Sim.run hp ht
    have hop : op ∈ pre ++ op :: post := by simp
    exact Outcome.isDone_iff.mp ((sim.validateOne_isDone (hsub op hop) (hshapes op hop)
      (Applier.applyOne_step sim.cables.widgets hstep)).mpr (hmet pre op post st t rfl hp ht))

/-- A patch world with its panels, as a commit finds it. -/
structure CommitWorld extends PatchWorld, PanelPatch

/-- The preview accepts the whole plan. -/
def Accepted (w : PatchWorld) (ops : List Json) : Prop :=
  ∃ st, validateAll (w.world ops) ops = .done st

/-- The commit enters the patch's history, or leaves another patch than it found. -/
def Mutates (rack : Rack) (request : Json) (durationMs : Double) (rs : RackState) : Prop :=
  (txnCommit rack request durationMs rs).2.history ≠ rs.history ∨
    ¬ (txnCommit rack request durationMs rs).2.patch.Same rs.patch

/-- The commit gate lets through only what the preview accepts: the requirements of a plan that is applied to
its end are met, and those of a plan that strands a module, up to there, with the rest acceptable. -/
def GateCovers (w : PatchWorld) (request : Json) (rs : RackState) : Prop :=
  let ops := planOperations (Json.get request "plan")
  commitGate w.rack request rs = none →
  match Applier.apply w.rack ops w.patch with
  | .done _ => RequirementsMet w ops ops
  | .thrown (i, _) _ => (∃ op, ops[i]? = some op ∧ StrandsModule w.rack op) →
      RequirementsMet w ops (ops.take i) ∧
      ∀ st, Runs (validateOne (w.world ops)) (ops.take i) {} st →
        ∃ st', Runs (validateOne (w.world ops)) (ops.drop i) st st'

/-- The shapes of the operations are checked by the gate. -/
theorem shapes_of_commitGate {rack : Rack} {request : Json} {rs : RackState}
    (h : commitGate rack request rs = none) :
    ∀ op ∈ planOperations (Json.get request "plan"), checkOperationFields op = none := by
  unfold commitGate at h
  dsimp only at h
  split at h
  · cases h
  split at h
  · cases h
  split at h
  · cases h
  rename_i hshape
  intro op hop
  obtain ⟨i, hi, rfl⟩ := List.getElem_of_mem hop
  have hmem : ((planOperations (Json.get request "plan"))[i], i) ∈
      (planOperations (Json.get request "plan")).zipIdx :=
    List.mem_zipIdx_iff_getElem?.mpr (List.getElem?_eq_getElem hi)
  exact Option.map_eq_none_iff.mp (List.findSome?_eq_none_iff.mp hshape _ hmem)

theorem accepted_iff : Accepted w ops ↔ ∃ st, Runs (validateOne (w.world ops)) ops {} st := by
  simp only [Accepted, validateAll, runFrom_done_iff]

/-- A commit mutates the patch only if the preview accepts its plan, exactly when the gate covers what the
preview requires. -/
theorem commit_gate_iff (w : CommitWorld) (request : Json) (durationMs : Double) (rs : RackState)
    (hpatch : rs.patch = w.patch)
    (hundo : ∀ a p, w.rack.undo a p = .done (a.invert w.rack.relist p)) :
    (Mutates w.rack request durationMs rs →
      Accepted w.toPatchWorld (planOperations (Json.get request "plan"))) ↔
      GateCovers w.toPatchWorld request rs := by
  unfold Mutates GateCovers txnCommit
  cases hgate : commitGate w.rack request rs with
  | some refusal =>
    refine iff_of_true (fun h => ?_) (by simp)
    exact absurd (Patch.Same.refl _) (h.resolve_left fun hne => hne rfl)
  | none =>
    have hshapes := shapes_of_commitGate hgate
    generalize planOperations (Json.get request "plan") = ops at hshapes
    simp only [true_implies, hpatch]
    cases happly : Applier.apply w.rack ops w.patch with
    | done s =>
      have hhistory : (finishCommit w.rack request durationMs s rs).2.history ≠ rs.history := by
        unfold finishCommit
        dsimp only
        split <;> simp
      rw [accepted_iff]
      simp only [ne_eq, hhistory, not_false_eq_true, true_or, true_implies]
      exact accepted_iff_requirementsMet (fun _ h => h) hshapes (runFrom_done_iff.mp happly)
    | thrown error s =>
      obtain ⟨i, message⟩ := error
      obtain ⟨pre, failing, post, u, rfl, hi, hpre, -⟩ := runFrom_thrown_iff.mp happly
      obtain rfl : i = pre.length := by omega
      have hfailing : (pre ++ failing :: post)[pre.length]? = some failing := by simp
      have hsame := rollback_iff w.toPanelPatch (pre ++ failing :: post) pre.length failing message hundo
        hfailing happly
      have hmutates : ((rollBack w.rack pre.length message s rs).2.history ≠ rs.history ∨
          ¬ (rollBack w.rack pre.length message s rs).2.patch.Same w.patch) ↔ StrandsModule w.rack failing := by
        have hhistory : (rollBack w.rack pre.length message s rs).2.history = rs.history := rfl
        simp only [hhistory, ne_eq, not_true_eq_false, false_or]
        exact not_iff_comm.mp hsame.symm
      have hacc : Accepted w.toPatchWorld (pre ++ failing :: post) ↔
          RequirementsMet w.toPatchWorld (pre ++ failing :: post) pre ∧
          ∀ st, Runs (validateOne (w.world (pre ++ failing :: post))) pre {} st →
            ∃ st', Runs (validateOne (w.world (pre ++ failing :: post))) (failing :: post) st st' := by
        have hsub : ∀ op ∈ pre, op ∈ pre ++ failing :: post := fun op hop => List.mem_append_left _ hop
        have hmet := accepted_iff_requirementsMet (w := w.toPatchWorld) hsub
          (fun op hop => hshapes op (hsub op hop)) hpre
        rw [accepted_iff, ← hmet]
        simp only [Runs.append_iff]
        constructor
        · rintro ⟨st', st, hfirst, hlast⟩
          exact ⟨⟨st, hfirst⟩, fun t ht => ⟨st', hfirst.unique ht ▸ hlast⟩⟩
        · rintro ⟨⟨st, hfirst⟩, hrest⟩
          obtain ⟨st', hlast⟩ := hrest st hfirst
          exact ⟨st', st, hfirst, hlast⟩
      rw [hmutates, hacc]
      simp only [hfailing, Option.some.injEq, exists_eq_left', List.take_left, List.drop_left]

/-- The bench, as a commit finds it. -/
def benchCommit : CommitWorld where
  toPatchWorld := bench
  panelIds_nodup := benchPanels.panelIds_nodup
  panel_fresh := benchPanels.panel_fresh

/-- A commit request whose hash and fingerprint are in order. -/
def commitRequest (ops : List Json) : Json :=
  .object [("operationId", .string "removal"), ("planHash", .string "plan"),
    ("expectedFingerprint", .string "1 2 3"), ("plan", .object [("operations", .array ops)])]

/-- The gate covers the removal of the oscillator. -/
theorem commit_gate_bench :
    GateCovers benchCommit.toPatchWorld (commitRequest removeOscillator) { patch := benchPatch } :=
  (commit_gate_iff benchCommit (commitRequest removeOscillator) .nan { patch := benchPatch } rfl
    (fun _ _ => rfl)).mp fun _ => ⟨_, Outcome.eq_done_of_isDone (by decide)⟩

/-- The only Bridge is removed. -/
def removeBridge : List Json :=
  [operation "remove_module" [("cablePolicy", .string "remove_attached"), ("module", moduleById "3")]]

/-- A commit can remove the last Bridge, which the preview refuses. -/
theorem commit_removes_last_bridge :
    ¬ ∀ (w : CommitWorld) (request : Json) (durationMs : Double) (rs : RackState), rs.patch = w.patch →
      (∀ a p, w.rack.undo a p = .done (a.invert w.rack.relist p)) →
      Mutates w.rack request durationMs rs →
      Accepted w.toPatchWorld (planOperations (Json.get request "plan")) := by
  intro h
  obtain ⟨st, hst⟩ := h benchCommit (commitRequest removeBridge) .nan { patch := benchPatch } rfl
    (fun _ _ => rfl) (.inl (by decide))
  have hdone : (validateAll (bench.world removeBridge) removeBridge).isDone := by
    rw [show validateAll (bench.world removeBridge) removeBridge = .done st from hst]
    rfl
  revert hdone
  decide

end RackMcp
