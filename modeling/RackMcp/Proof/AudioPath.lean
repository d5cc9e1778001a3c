import RackMcp.Proof.Disclosure

/-!
# What the audio-path flag discloses

The preview raises the flag exactly when an operation names a Core Audio module (`touchesAudio_iff`): the model it
adds, the module it removes, an end of the cable it connects, the module whose port it disconnects. What commit adds
to the audio path is always named so. A cable that commit takes away need not be: its audio end can be the one that
the operation does not name. `audio_disclosed_iff` says for which plans the flag is complete.
-/

namespace RackMcp

open Gen Outcomes

variable {world : PlanWorld} {op : Json} {st st' : PreviewState}

/-! ### The flag -/

/-- The reference names a live Core Audio module by its id. -/
def NamesAudioModule (world : PlanWorld) (ref : Option Json) : Prop :=
  let id := (resolveModuleRef ref ∅).moduleId
  0 ≤ id ∧ ∃ m, world.module id = some m ∧ isAudioModule m

/-- The operation names a Core Audio module. -/
def NamesAudio (world : PlanWorld) (op : Json) : Prop :=
  match opType op with
  | .addModule => jstr op "pluginSlug" = "Core" ∧ isAudioSlug (jstr op "modelSlug")
  | .removeModule => NamesAudioModule world (Json.get op "module")
  | .connect => NamesAudioModule world (Json.get (Json.get op "output") "module") ∨
      NamesAudioModule world (Json.get (Json.get op "input") "module")
  | .disconnectPort => NamesAudioModule world (Json.get (Json.get op "port") "module")
  | _ => False

/-- Ids below zero stand for the modules the plan adds. -/
structure SyntheticIds (st : PreviewState) : Prop where
  next : st.nextSyntheticId < 0
  aliases : ∀ name id, st.aliases.lookup name = some id → id < 0

theorem syntheticIds_start : SyntheticIds {} := ⟨by decide, fun _ _ h => by cases h⟩

theorem SyntheticIds.congr (h : SyntheticIds st) (aliases : st'.aliases = st.aliases)
    (next : st'.nextSyntheticId = st.nextSyntheticId) : SyntheticIds st' :=
  ⟨next ▸ h.next, aliases ▸ h.aliases⟩

theorem SyntheticIds.step (h : SyntheticIds st) (hstep : PreviewStep world op st st') : SyntheticIds st' := by
  cases hstep with
  | add _ _ _ _ aliases next =>
    constructor
    · have hnext := h.next
      omega
    · intro name id hid
      rw [aliases] at hid
      by_cases hname : name = jstr op "alias"
      · subst hname
        rw [AList.lookup_insert] at hid
        have hnext := h.next
        have heq := Option.some.inj hid
        omega
      · rw [AList.lookup_insert_ne hname] at hid
        exact h.aliases name id hid
  | removeAlias _ _ _ same => exact same ▸ h
  | removeLive _ _ _ _ _ _ _ _ _ aliases next => exact h.congr aliases next
  | modifyAlias _ _ _ same => exact h.congr same.aliases same.nextSyntheticId
  | modifyLive _ _ _ _ _ _ _ _ same => exact h.congr same.aliases same.nextSyntheticId
  | move _ _ same => exact h.congr same.aliases same.nextSyntheticId
  | connect _ _ _ _ _ _ _ _ _ _ _ _ _ _ aliases next => exact h.congr aliases next
  | disconnect _ cid _ _ _ same =>
    have hrest : PreviewState.SameButRemoved st (st.removeCable cid) := PreviewState.removeCables_same st [cid]
    exact same ▸ h.congr hrest.aliases hrest.nextSyntheticId
  | disconnectPortAlias _ _ _ same => exact same ▸ h
  | disconnectPortLive _ _ _ _ _ _ _ _ _ _ _ same => exact h.congr same.aliases same.nextSyntheticId

/-- A reference names a live module, whatever aliases the plan has introduced. -/
theorem moduleId_eq_iff (h : SyntheticIds st) (ref : Option Json) {id : Int} (hid : 0 ≤ id) :
    (resolveModuleRef ref st.aliases).moduleId = id ↔ (resolveModuleRef ref ∅).moduleId = id := by
  rcases refShape ref with ⟨id', -, hr⟩ | ⟨name, hr⟩ | hr
  · rw [hr, hr]
  · have hempty : (resolveModuleRef ref ∅).moduleId = -1 := by
      rw [hr, AList.lookup_empty]
    rw [hempty, hr]
    rcases hlookup : st.aliases.lookup name with _ | id'
    · rfl
    · have hneg := h.aliases name id' hlookup
      constructor
      · intro (heq : id' = id)
        omega
      · intro heq
        omega
  · rw [hr, hr]

/-- A live module that the reference names by its id is a Core Audio module. -/
theorem namesAudioModule_iff (h : SyntheticIds st) {ref : Option Json} {m : WorldModule}
    (hid : 0 ≤ (resolveModuleRef ref st.aliases).moduleId)
    (hm : liveModule world st (resolveModuleRef ref st.aliases).moduleId = some m) :
    NamesAudioModule world ref ↔ isAudioModule m = true := by
  have heq := (moduleId_eq_iff h ref hid).mp rfl
  have hmodule : world.module (resolveModuleRef ref st.aliases).moduleId = some m := by
    unfold liveModule at hm
    split at hm
    · cases hm
    · exact hm
  unfold NamesAudioModule
  rw [heq]
  constructor
  · intro ⟨_, m', hm', haudio⟩
    rw [hmodule] at hm'
    rwa [Option.some.inj hm']
  · intro haudio
    exact ⟨hid, m, hmodule, haudio⟩

/-- A reference to a module the plan adds names no live one. -/
theorem not_namesAudioModule (h : SyntheticIds st) {ref : Option Json}
    (hid : (resolveModuleRef ref st.aliases).moduleId < 0) : ¬ NamesAudioModule world ref := by
  intro ⟨hlive, _⟩
  have heq := (moduleId_eq_iff h ref hlive).mpr rfl
  omega

theorem touchesAudio_removeCables (st : PreviewState) (ids : List Int) :
    (st.removeCables ids).touchesAudio = st.touchesAudio := by
  induction ids generalizing st with
  | nil => rfl
  | cons id ids ih =>
    refine (ih (st.removeCable id)).trans ?_
    unfold PreviewState.removeCable
    split <;> rfl

theorem touchesAudio_claimInput {inModule inPort : Int} {existing : List Int}
    (h : claimInput op inModule inPort existing st = .done st') : st'.touchesAudio = st.touchesAudio := by
  unfold claimInput at h
  dsimp only at h
  split at h
  · split at h
    · cases h
    split at h
    · cases h
    cases h
    refine (touchesAudio_removeCables _ existing).trans ?_
    split <;> rfl
  · cases h
    rfl

/-! One branch of `validateOne` after the other: the flag is raised exactly by what the operation names. -/

theorem touchesAudio_add (kind : opType op = .addModule) (h : validateAdd op world st = .done st') :
    st'.touchesAudio = true ↔ st.touchesAudio = true ∨ NamesAudio world op := by
  unfold validateAdd at h
  dsimp only at h
  split at h
  · cases h
  split at h
  · cases h
  cases h
  simp [NamesAudio, kind]

theorem touchesAudio_remove (hids : SyntheticIds st) (kind : opType op = .removeModule)
    (h : validateRemove op world st = .done st') :
    st'.touchesAudio = true ↔ st.touchesAudio = true ∨ NamesAudio world op := by
  have hnames : NamesAudio world op = NamesAudioModule world (Json.get op "module") := by
    unfold NamesAudio
    rw [kind]
  unfold validateRemove at h
  dsimp only at h
  split at h
  · cases h
  rw [hnames]
  split at h
  · next hsynthetic =>
    cases h
    simp [not_namesAudioModule hids hsynthetic]
  · next hlive =>
    split at h
    · cases h
    next m hm =>
    rw [namesAudioModule_iff hids (not_lt.mp hlive) hm]
    split at h
    · cases h
    split at h
    · cases h
    cases h
    simp [touchesAudio_removeCables]

theorem touchesAudio_modify {type : OpType} (h : validateModify type op world st = .done st') :
    st'.touchesAudio = st.touchesAudio := by
  unfold validateModify at h
  dsimp only at h
  split at h
  · cases h
  split at h
  · cases h
    rfl
  split at h
  · cases h
  split at h
  · split at h
    · cases h
    split at h
    · cases h
    cases h
    rfl
  · cases h
    rfl

theorem touchesAudio_move (h : validateMove op world st = .done st') : st'.touchesAudio = st.touchesAudio := by
  unfold validateMove at h
  dsimp only at h
  split at h
  · cases h
  split at h
  · cases h
    rfl
  split at h
  · cases h
  split at h
  · cases h
    rfl
  split at h
  · cases h
  split at h
  · cases h
  split at h
  · cases h
    rfl
  · cases h
    rfl

theorem touchesAudio_connect (hids : SyntheticIds st) (kind : opType op = .connect)
    (h : validateConnect op world st = .done st') :
    st'.touchesAudio = true ↔ st.touchesAudio = true ∨ NamesAudio world op := by
  have hnames : NamesAudio world op = (NamesAudioModule world (Json.get (Json.get op "output") "module") ∨
      NamesAudioModule world (Json.get (Json.get op "input") "module")) := by
    unfold NamesAudio
    rw [kind]
  unfold validateConnect at h
  dsimp only at h
  split at h
  · cases h
  split at h
  · cases h
  split at h
  · cases h
  split at h
  · cases h
  next houtBound =>
  -- the flag as the output end leaves it
  have hout : (decide ((resolveModuleRef (Json.get (Json.get op "output") "module") st.aliases).moduleId ≥ 0) &&
      (liveModule world st (resolveModuleRef (Json.get (Json.get op "output") "module") st.aliases).moduleId).any
        isAudioModule) = true ↔ NamesAudioModule world (Json.get (Json.get op "output") "module") := by
    by_cases hlive : 0 ≤ (resolveModuleRef (Json.get (Json.get op "output") "module") st.aliases).moduleId
    · obtain ⟨m, hm, -⟩ := not_not.mp fun hnot => houtBound ⟨hlive, hnot⟩
      rw [namesAudioModule_iff hids hlive hm, Option.mem_def.mp hm]
      simp [hlive]
    · have hnot : ¬ NamesAudioModule world _ := not_namesAudioModule hids (not_le.mp hlive)
      simp [hlive, hnot]
  rw [hnames]
  split at h
  · next hsynthetic =>
    rw [touchesAudio_claimInput h, Bool.or_eq_true, hout]
    simp [not_namesAudioModule hids hsynthetic]
  · next hlive =>
    split at h
    · cases h
    next hinBound =>
    obtain ⟨m, hm, -⟩ := not_not.mp hinBound
    have hm' : liveModule world st (resolveModuleRef (Json.get (Json.get op "input") "module") st.aliases).moduleId =
        some m := hm
    rw [touchesAudio_claimInput h, Option.mem_def.mp hm, Bool.or_eq_true, Bool.or_eq_true, hout,
      namesAudioModule_iff hids (not_lt.mp hlive) hm', or_assoc]
    rfl

theorem touchesAudio_disconnect (h : validateDisconnect op world st = .done st') :
    st'.touchesAudio = st.touchesAudio := by
  unfold validateDisconnect at h
  dsimp only at h
  split at h
  · cases h
  split at h
  · cases h
  split at h
  · cases h
  cases h
  exact touchesAudio_removeCables st [_]

theorem touchesAudio_disconnectPort (hids : SyntheticIds st) (kind : opType op = .disconnectPort)
    (h : validateDisconnectPort op world st = .done st') :
    st'.touchesAudio = true ↔ st.touchesAudio = true ∨ NamesAudio world op := by
  have hnames : NamesAudio world op = NamesAudioModule world (Json.get (Json.get op "port") "module") := by
    unfold NamesAudio
    rw [kind]
  unfold validateDisconnectPort at h
  dsimp only at h
  split at h
  · cases h
  rw [hnames]
  split at h
  · next hsynthetic =>
    cases h
    simp [not_namesAudioModule hids hsynthetic]
  · next hlive =>
    split at h
    · cases h
    next m hm =>
    rw [namesAudioModule_iff hids (not_lt.mp hlive) hm]
    split at h
    · cases h
    split at h
    · cases h
    cases h
    simp [touchesAudio_removeCables]

theorem touchesAudio_step (hids : SyntheticIds st) (h : validateOne world op st = .done st') :
    st'.touchesAudio = true ↔ st.touchesAudio = true ∨ NamesAudio world op := by
  have hquiet : st'.touchesAudio = st.touchesAudio → NamesAudio world op = False →
      (st'.touchesAudio = true ↔ st.touchesAudio = true ∨ NamesAudio world op) := by
    intro heq hnone
    rw [heq, hnone, or_false]
  unfold validateOne at h
  split at h
  · cases h
  unfold validateBranch at h
  split at h
  · exact touchesAudio_add ‹_› h
  · exact touchesAudio_remove hids ‹_› h
  iterate 4
    · exact hquiet (touchesAudio_modify h) (by simp [NamesAudio, *])
  · exact hquiet (touchesAudio_move h) (by simp [NamesAudio, *])
  · exact touchesAudio_connect hids ‹_› h
  · exact hquiet (touchesAudio_disconnect h) (by simp [NamesAudio, *])
  · exact touchesAudio_disconnectPort hids ‹_› h
  · cases h
  · cases h

/-- The preview raises the flag exactly when an operation of the plan names a Core Audio module. -/
theorem touchesAudio_iff {list : List Json} (h : Runs (validateOne world) list {} st) :
    st.touchesAudio = true ↔ ∃ op ∈ list, NamesAudio world op := by
  suffices hall : ∀ {st₀}, Runs (validateOne world) list st₀ st → SyntheticIds st₀ →
      (st.touchesAudio = true ↔ st₀.touchesAudio = true ∨ ∃ op ∈ list, NamesAudio world op) by
    simpa using hall h syntheticIds_start
  intro st₀ h hids
  clear * - h hids
  induction list generalizing st₀ with
  | nil =>
    rw [Runs.nil_iff.mp h]
    simp
  | cons op list ih =>
    obtain ⟨st₁, hstep, hrest⟩ := Runs.cons_iff.mp h
    rw [ih hrest (hids.step (validateOne_step hstep)), touchesAudio_step hids hstep]
    simp [or_assoc]

/-! ### What commit does to the audio path -/

/-- An end of the cable is on a Core Audio module of the patch. -/
def Patch.AudioCable (p : Patch) (c : Cable) : Prop :=
  ∃ m ∈ p.shapes, isAudioModule m = true ∧ c.plan.touches m.id = true

/-- A Core Audio module, or a cable with an end on one, has come or gone. -/
inductive Patch.AudioChange (p q : Patch) : Prop where
  | moduleAdded (m : WorldModule) (here : m ∈ q.shapes) (new : m.id ∉ p.shapes.map (·.id)) (audio : isAudioModule m = true)
  | moduleRemoved (m : WorldModule) (here : m ∈ p.shapes) (gone : m.id ∉ q.shapes.map (·.id))
      (audio : isAudioModule m = true)
  | cableAdded (c : Cable) (here : c ∈ q.cables) (new : c.id ∉ p.cables.map (·.id)) (audio : q.AudioCable c)
  | cableRemoved (c : Cable) (here : c ∈ p.cables) (gone : c.id ∉ q.cables.map (·.id)) (audio : p.AudioCable c)

variable {w : PatchWorld} {s s' : Applier} {ops list : List Json}

/-- The audio path of the patch while no operation has named a Core Audio module: the modules are those of the
snapshot, and no cable of the plan is at one. -/
structure AudioKept (w : PatchWorld) (s : Applier) : Prop where
  modules : ∀ m, isAudioModule m = true → (m ∈ s.patch.shapes ↔ m ∈ w.patch.shapes)
  cables : ∀ c ∈ s.patch.cables, s.patch.AudioCable c → c ∈ w.patch.cables

namespace AudioKept

theorem start (w : PatchWorld) : AudioKept w w.start := ⟨fun _ _ => Iff.rfl, fun _ hc _ => hc⟩

theorem audioCable_iff (h : AudioKept w s) (c : Cable) : s.patch.AudioCable c ↔ w.patch.AudioCable c := by
  constructor
  · intro ⟨m, hm, haudio, htouches⟩
    exact ⟨m, (h.modules m haudio).mp hm, haudio, htouches⟩
  · intro ⟨m, hm, haudio, htouches⟩
    exact ⟨m, (h.modules m haudio).mpr hm, haudio, htouches⟩

/-- A reference that commit resolves to a Core Audio module names one. -/
theorem names (h : AudioKept w s) (sim : Sim w st s) (hids : SyntheticIds st) {ref : Option Json} {m : WorldModule}
    (hok : (resolveModuleRef ref st.aliases).ok = true) (hresolve : s.resolve ref = some m.id)
    (hlive : 0 ≤ (resolveModuleRef ref st.aliases).moduleId →
      ∃ m', liveModule (w.world ops) st (resolveModuleRef ref st.aliases).moduleId = some m')
    (hm : m ∈ s.patch.shapes) (haudio : isAudioModule m = true) : NamesAudioModule (w.world ops) ref := by
  have hbase := (h.modules m haudio).mp hm
  rw [sim.modules.resolve_of_ok hok] at hresolve
  have hid := Option.some.inj hresolve
  by_cases hneg : (resolveModuleRef ref st.aliases).moduleId < 0
  · exact absurd hid.symm (ModuleSim.shape_id_ne w hbase hneg)
  · have hnonneg := not_lt.mp hneg
    obtain ⟨m', hm'⟩ := hlive hnonneg
    rw [w.liveId_of_nonneg hnonneg] at hid
    obtain ⟨hm'mem, hm'id⟩ := sim.modules.mem_shapes hm'
    refine (namesAudioModule_iff hids hnonneg hm').mpr ?_
    have hnodup : (w.patch.shapes.map (·.id)).Nodup := by
      rw [Patch.shapes, List.map_map]
      exact w.moduleIds_nodup
    have hm'base : m' ∈ w.patch.shapes := by
      unfold liveModule at hm'
      split at hm'
      · cases hm'
      · exact List.mem_of_find?_eq_some hm'
    rwa [Keyed.eq_of_key_eq hnodup hm'base hbase (hm'id.trans hid)]

/-- The module that an `add_module` makes is a Core Audio module when it names one. -/
theorem isAudioModule_newModule (kind : opType op = .addModule) (s : Applier) (quantities : List (Option ParamQuantity))
    (inputs outputs : Nat) (state : ModuleState) :
    isAudioModule (toWorldModule (Applier.newModule w.rack s op quantities inputs outputs state)) = true ↔
      NamesAudio world op := by
  unfold NamesAudio
  rw [kind]
  show (jstr op "pluginSlug" == "Core" && isAudioSlug (jstr op "modelSlug")) = true ↔ _
  rw [Bool.and_eq_true, beq_iff_eq]

/-- An operation that names no Core Audio module neither adds nor removes one. -/
theorem modules_step (h : AudioKept w s) (sim : Sim w st s) (hids : SyntheticIds st)
    (hp : PreviewStep (w.world ops) op st st') (hc : Applier.applyOne w.rack op s = .done s')
    (hnone : ¬ NamesAudio (w.world ops) op) (m : WorldModule) (haudio : isAudioModule m = true) :
    m ∈ s'.patch.shapes ↔ m ∈ s.patch.shapes := by
  have hstep := Applier.applyOne_step sim.cables.widgets hc
  cases hstep with
  | add kind =>
    unfold Applier.applyOne at hc
    rw [kind] at hc
    obtain ⟨model, quantities, inputs, outputs, state, -, -, hadds⟩ := Applier.applyAdd_adds hc
    have hne : m ≠ toWorldModule (Applier.newModule w.rack s op quantities inputs outputs state) := by
      intro heq
      subst heq
      exact hnone ((isAudioModule_newModule kind s quantities inputs outputs state).mp haudio)
    rw [hadds.shapes, List.mem_append, List.mem_singleton]
    exact or_iff_left hne
  | remove kind id resolved _ _ shapes =>
    rw [shapes, List.mem_filter, decide_eq_true_iff]
    refine and_iff_left_of_imp ?_
    intro hm hid
    subst hid
    refine hnone ?_
    unfold NamesAudio
    rw [kind]
    cases hp with
    | removeAlias _ ok synthetic =>
      exact h.names sim hids ok resolved (fun hlive => absurd hlive (not_le.mpr synthetic)) hm haudio
    | removeLive _ id ok named live m' found =>
      exact h.names sim hids ok resolved (fun _ => ⟨m', (congrArg _ named).trans found⟩) hm haudio
    | _ => simp_all
  | modify _ _ _ _ _ _ same => rw [same.shapes]
  | randomize _ _ _ _ _ same => rw [same.shapes]
  | move _ _ _ _ _ same => rw [same.shapes]
  | connect _ _ _ _ _ _ _ _ _ _ _ _ _ _ _ _ _ _ same => rw [same.shapes]
  | disconnect _ _ _ _ _ same => rw [same.shapes]
  | disconnectPort _ _ _ _ _ _ _ same => rw [same.shapes]

/-- A cable that a `connect` adds without naming a Core Audio module is at none. -/
theorem newCable_step (h : AudioKept w s) (sim : Sim w st s) (hids : SyntheticIds st)
    (hp : PreviewStep (w.world ops) op st st') (hc : Applier.CommitStep w.rack op s s')
    (hnone : ¬ NamesAudio (w.world ops) op) {c : Cable} (hmem : c ∈ s'.patch.cables)
    (haudio : s.patch.AudioCable c) : c ∈ s.patch.cables := by
  by_contra hnew
  have hsurvivors : ∀ ids, c ∈ s.survivors ids → c ∈ s.patch.cables := fun _ hc => List.mem_of_mem_filter hc
  cases hc with
  | connect kind outId inId outPort inPort output input _ _ _ _ _ _ _ _ _ cables =>
    rw [cables, (w.relist_perm _ _).mem_iff, List.mem_cons] at hmem
    have hc := hmem.resolve_right fun hc => hnew (hsurvivors _ hc)
    obtain ⟨m, hm, hm_audio, htouches⟩ := haudio
    have hend : inId = m.id ∨ outId = m.id := by
      rw [hc] at htouches
      simpa [Applier.newCable, PlanCable.connected, PlanCable.touches] using htouches
    refine hnone ?_
    unfold NamesAudio
    rw [kind]
    cases hp with
    | connect _ out inp outRef inRef outOk inOk _ _ _ _ outBound inBound =>
      subst outRef inRef
      rcases hend with hend | hend
      · right
        refine h.names sim hids inOk (hend ▸ input) ?_ hm hm_audio
        intro hlive
        obtain ⟨m', hm', -⟩ := inBound hlive
        exact ⟨m', hm'⟩
      · left
        refine h.names sim hids outOk (hend ▸ output) ?_ hm hm_audio
        intro hlive
        obtain ⟨m', hm', -⟩ := outBound hlive
        exact ⟨m', hm'⟩
    | _ => simp_all
  | add _ _ _ _ _ _ _ cables => exact hnew (cables ▸ hmem)
  | remove _ _ _ _ _ _ _ cables => exact hnew (hsurvivors _ (cables ▸ hmem))
  | modify _ _ _ _ _ _ same => exact hnew (same.cables ▸ hmem)
  | randomize _ _ _ _ _ same => exact hnew (same.cables ▸ hmem)
  | move _ _ _ _ _ same => exact hnew (same.cables ▸ hmem)
  | disconnect _ _ _ cables => exact hnew (hsurvivors _ (cables ▸ hmem))
  | disconnectPort _ _ _ _ _ cables => exact hnew (hsurvivors _ (cables ▸ hmem))

theorem step (h : AudioKept w s) (sim : Sim w st s) (hids : SyntheticIds st)
    (hp : validateOne (w.world ops) op st = .done st') (hc : Applier.applyOne w.rack op s = .done s')
    (hnone : ¬ NamesAudio (w.world ops) op) : AudioKept w s' := by
  have hpstep := validateOne_step hp
  have hmodules := h.modules_step sim hids hpstep hc hnone
  constructor
  · intro m haudio
    rw [hmodules m haudio]
    exact h.modules m haudio
  · intro c hmem ⟨m, hm, haudio, htouches⟩
    have hcable : s.patch.AudioCable c := ⟨m, (hmodules m haudio).mp hm, haudio, htouches⟩
    have hcstep := Applier.applyOne_step sim.cables.widgets hc
    exact h.cables c (h.newCable_step sim hids hpstep hcstep hnone hmem hcable) hcable

/-- While no operation names a Core Audio module, the audio path changes when an operation takes a snapshot cable that
has an end on one. -/
theorem audioChange_iff (h : AudioKept w s) (sim : Sim w st s) (hids : SyntheticIds st)
    (hp : validateOne (w.world ops) op st = .done st') (hc : Applier.applyOne w.rack op s = .done s')
    (hnone : ¬ NamesAudio (w.world ops) op) :
    s.patch.AudioChange s'.patch ↔
      ∃ c ∈ w.patch.cables, c ∈ s.patch.cables ∧ c.id ∈ s.takes op ∧ w.patch.AudioCable c := by
  have hpstep := validateOne_step hp
  have hmodules := h.modules_step sim hids hpstep hc hnone
  have hcstep := Applier.applyOne_step sim.cables.widgets hc
  constructor
  · intro hchange
    cases hchange with
    | moduleAdded m here new haudio =>
      exact absurd (List.mem_map_of_mem ((hmodules m haudio).mp here)) new
    | moduleRemoved m here gone haudio =>
      exact absurd (List.mem_map_of_mem ((hmodules m haudio).mpr here)) gone
    | cableAdded c here new haudio =>
      obtain ⟨m, hm, haudio, htouches⟩ := haudio
      have hcable : s.patch.AudioCable c := ⟨m, (hmodules m haudio).mp hm, haudio, htouches⟩
      exact absurd (List.mem_map_of_mem (h.newCable_step sim hids hpstep hcstep hnone here hcable)) new
    | cableRemoved c here gone haudio =>
      have hbase := h.cables c here haudio
      refine ⟨c, hbase, here, ?_, (h.audioCable_iff c).mp haudio⟩
      by_contra hkept
      exact gone ((hcstep.cablesAfter.live_iff hbase).mpr ⟨List.mem_map_of_mem here, hkept⟩)
  · intro ⟨c, hbase, here, htaken, haudio⟩
    refine .cableRemoved c here ?_ ((h.audioCable_iff c).mpr haudio)
    intro hlive
    exact ((hcstep.cablesAfter.live_iff hbase).mp hlive).2 htaken

/-- After a list that names no Core Audio module the audio modules are those of the snapshot. -/
theorem run (hp : Runs (validateOne (w.world ops)) list {} st) (hc : Runs (Applier.applyOne w.rack) list w.start s)
    (hnone : ∀ op ∈ list, ¬ NamesAudio (w.world ops) op) : (Sim w st s ∧ SyntheticIds st) ∧ AudioKept w s := by
  refine hp.simulate hc (R := fun st s => (Sim w st s ∧ SyntheticIds st) ∧ AudioKept w s) ?_
    ⟨⟨.start w, syntheticIds_start⟩, start w⟩
  intro op hop st s st' s' ⟨⟨sim, hids⟩, h⟩ hp hc
  exact ⟨⟨sim.step hp hc, hids.step (validateOne_step hp)⟩, h.step sim hids hp hc (hnone op hop)⟩

end AudioKept

/-! ### Which plans are flagged -/

/-- Whatever operation of the plan changes the audio path, the preview has raised the flag and `computeRisk` says
so. -/
def AudioDisclosed (w : PatchWorld) (ops : List Json) (st : PreviewState) : Prop :=
  ∀ pre op post s s', ops = pre ++ op :: post → Runs (Applier.applyOne w.rack) pre w.start s →
    Applier.applyOne w.rack op s = .done s' → s.patch.AudioChange s'.patch →
    st.touchesAudio = true ∧ ∀ maxOperations,
      RiskFlag.affectsAudioPath ∈ (computeRisk (planEffects ops st) maxOperations).entries.map (·.1)

/-- Some operation takes a cable of the snapshot that has an end on a Core Audio module. -/
def TakesAudioCable (w : PatchWorld) (ops : List Json) : Prop :=
  ∃ pre op post s s', ops = pre ++ op :: post ∧ Runs (Applier.applyOne w.rack) pre w.start s ∧
    Applier.applyOne w.rack op s = .done s' ∧
    ∃ c ∈ w.patch.cables, c ∈ s.patch.cables ∧ c.id ∈ s.takes op ∧ w.patch.AudioCable c

theorem affectsAudioPath_mem (h : st.touchesAudio = true) (ops : List Json) (maxOperations : Int) :
    RiskFlag.affectsAudioPath ∈ (computeRisk (planEffects ops st) maxOperations).entries.map (·.1) := by
  simp [computeRisk, planEffects, h]

/-- The flag is complete for an accepted plan exactly when one of its operations names a Core Audio module, or none
takes a cable that has an end on one. -/
theorem audio_disclosed_iff (w : PatchWorld) (ops : List Json) (hp : validateAll (w.world ops) ops = .done st) :
    AudioDisclosed w ops st ↔ (∃ op ∈ ops, NamesAudio (w.world ops) op) ∨ ¬ TakesAudioCable w ops := by
  rw [validateAll, runFrom_done_iff] at hp
  have hflag := touchesAudio_iff hp
  by_cases hnames : ∃ op ∈ ops, NamesAudio (w.world ops) op
  · have hraised := hflag.mpr hnames
    constructor
    · intro _
      exact .inl hnames
    · intro _ pre op post s s' _ _ _ _
      exact ⟨hraised, affectsAudioPath_mem hraised ops⟩
  have hnone : ∀ op ∈ ops, ¬ NamesAudio (w.world ops) op := fun op hop hname => hnames ⟨op, hop, hname⟩
  -- no operation names one: each step changes the audio path by taking a cable
  have hstep : ∀ pre op post s s', ops = pre ++ op :: post → Runs (Applier.applyOne w.rack) pre w.start s →
      Applier.applyOne w.rack op s = .done s' → (s.patch.AudioChange s'.patch ↔
        ∃ c ∈ w.patch.cables, c ∈ s.patch.cables ∧ c.id ∈ s.takes op ∧ w.patch.AudioCable c) := by
    intro pre op post s s' heq hpre hc
    have hsub : ∀ op' ∈ pre, op' ∈ ops := fun op' hop => heq ▸ List.mem_append_left _ hop
    have hop : op ∈ ops := heq ▸ List.mem_append_right _ List.mem_cons_self
    have hp' : Runs (validateOne (w.world ops)) (pre ++ op :: post) {} st := heq ▸ hp
    obtain ⟨st₁, hpre', hrest⟩ := Runs.append_iff.mp hp'
    obtain ⟨st₂, hpstep, -⟩ := Runs.cons_iff.mp hrest
    obtain ⟨⟨sim, hids⟩, hkept⟩ := AudioKept.run hpre' hpre fun op' hop' => hnone op' (hsub op' hop')
    exact hkept.audioChange_iff sim hids hpstep hc (hnone op hop)
  constructor
  · intro hdisclosed
    right
    rintro ⟨pre, op, post, s, s', heq, hpre, hc, htaken⟩
    have hchange := (hstep pre op post s s' heq hpre hc).mpr htaken
    exact hnames (hflag.mp (hdisclosed pre op post s s' heq hpre hc hchange).1)
  · intro hcond pre op post s s' heq hpre hc hchange
    have htaken := (hstep pre op post s s' heq hpre hc).mp hchange
    exact absurd ⟨pre, op, post, s, s', heq, hpre, hc, htaken⟩ (hcond.resolve_left hnames)

/-- An oscillator 1 that plays through the audio interface 4, by the cable 10. -/
def audioPatch : Patch where
  modules :=
    [⟨1, "Fundamental", "VCO", [some ⟨.finite 0, .finite 1⟩], 2, 2, ⟨[.finite 0], false, ""⟩⟩,
     ⟨4, "Core", "AudioInterface2", [], 2, 2, ⟨[], false, ""⟩⟩]
  panels :=
    [⟨some 1, ⟨⟨(30000 : ℚ), (38000 : ℚ)⟩, ⟨(90 : ℚ), (380 : ℚ)⟩⟩⟩,
     ⟨some 4, ⟨⟨(30090 : ℚ), (38000 : ℚ)⟩, ⟨(90 : ℚ), (380 : ℚ)⟩⟩⟩]
  cables := [⟨.connected 10 1 0 4 0, some ⟨0, 0, 0, 255⟩⟩]

theorem audioPatch_module_fresh (n : ℕ) : benchRack.moduleIds n ∉ audioPatch.modules.map (·.id) := by
  intro h
  simp only [benchRack, audioPatch, List.map_cons, List.map_nil, List.mem_cons, List.not_mem_nil, or_false] at h
  omega

theorem audioPatch_end_fresh (n : ℕ) (c : Cable) (hc : c ∈ audioPatch.cables) :
    ¬ c.plan.touches (benchRack.moduleIds n) := by
  simp only [audioPatch, List.mem_singleton] at hc
  subst hc
  simp only [PlanCable.touches, PlanCable.connected, benchRack, Bool.or_eq_true, Bool.and_eq_true, beq_iff_eq]
  omega

/-- The patch in its rack. -/
def audioBench : PatchWorld where
  rack := benchRack
  patch := audioPatch
  moduleIds_nodup := by decide
  cableIds_nodup := by decide
  widgets := by decide
  moduleIds_injective := benchRack_moduleIds_injective
  cableIds_injective := benchRack_cableIds_injective
  module_fresh := audioPatch_module_fresh
  end_fresh := audioPatch_end_fresh
  cable_fresh := bench.cable_fresh
  relist_perm := benchRack_relist_perm
  relist_order := bench.relist_order

/-- The cable to the interface is taken by its id, and no operation names the interface. -/
def silence : List Json := [operation "disconnect" [("cable", .object [("cableId", .string "10")])]]

/-- A plan that silences the patch is not flagged. -/
theorem audio_undisclosed :
    (validateAll (audioBench.world silence) silence).isDone = true ∧
      ¬ AudioDisclosed audioBench silence (validateAll (audioBench.world silence) silence).state := by
  refine ⟨by decide, ?_⟩
  intro h
  have hchange : audioBench.start.patch.AudioChange
      (Applier.applyOne audioBench.rack silence.head! audioBench.start).state.patch := by
    refine .cableRemoved ⟨.connected 10 1 0 4 0, some ⟨0, 0, 0, 255⟩⟩ (by decide) (by decide) ?_
    exact ⟨⟨4, "Core", "AudioInterface2", 0, 2, 2⟩, by decide, by decide, by decide⟩
  have hraised := (h [] _ [] audioBench.start _ rfl (Runs.nil_iff.mpr rfl)
    (Outcome.eq_done_of_isDone (by decide)) hchange).1
  revert hraised
  decide

/-- The plan names the audio interface, which it removes. -/
def removeInterface : List Json :=
  [operation "remove_module" [("cablePolicy", .string "remove_attached"), ("module", moduleById "4")]]

theorem removeInterface_named : NamesAudio (audioBench.world removeInterface) removeInterface.head! := by
  refine ⟨by decide, ⟨4, "Core", "AudioInterface2", 0, 2, 2⟩, by decide, by decide⟩

/-- A plan that takes the interface away, and with it the cable, is flagged. -/
theorem audio_disclosed_bench :
    RiskFlag.affectsAudioPath ∈ (computeRisk (planEffects removeInterface
      (validateAll (audioBench.world removeInterface) removeInterface).state) 100).entries.map (·.1) := by
  have hdisclosed := (audio_disclosed_iff audioBench removeInterface (Outcome.eq_done_of_isDone (by decide))).mpr
    (.inl ⟨_, List.mem_cons_self, removeInterface_named⟩)
  have hchange : audioBench.start.patch.AudioChange
      (Applier.applyOne audioBench.rack removeInterface.head! audioBench.start).state.patch :=
    .moduleRemoved ⟨4, "Core", "AudioInterface2", 0, 2, 2⟩ (by decide) (by decide) (by decide)
  exact (hdisclosed [] _ [] audioBench.start _ rfl (Runs.nil_iff.mpr rfl) (Outcome.eq_done_of_isDone (by decide))
    hchange).2 100

end RackMcp
