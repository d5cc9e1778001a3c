import RackMcp.Core.Validate

/-!
# What one accepted operation records

`PreviewStep` says, for each operation kind, what an accepting `validateOne` checked in the state
before it and what it recorded. `validateOne_step` derives it once.
-/

namespace RackMcp

open Gen Outcomes

variable {world : PlanWorld} {op : Json} {st st' : PreviewState}

namespace PreviewState

@[simp] theorem removedCables_removeCable (st : PreviewState) (id : Int) :
    (st.removeCable id).removedCables =
      if id ∈ st.removedCables then st.removedCables else st.removedCables ++ [id] := by
  unfold removeCable
  split <;> rfl

theorem mem_removeCables {ids : List Int} {id : Int} :
    id ∈ (st.removeCables ids).removedCables ↔ id ∈ st.removedCables ∨ id ∈ ids := by
  induction ids generalizing st with
  | nil => simp [removeCables]
  | cons head ids ih =>
    have h : id ∈ (st.removeCable head).removedCables ↔ id ∈ st.removedCables ∨ id = head := by
      rw [removedCables_removeCable]
      split
      · rename_i hmem
        exact ⟨.inl, fun h => h.elim (fun h => h) fun heq => heq ▸ hmem⟩
      · simp
    calc id ∈ (st.removeCables (head :: ids)).removedCables
        ↔ id ∈ ((st.removeCable head).removeCables ids).removedCables := Iff.rfl
      _ ↔ id ∈ st.removedCables ∨ id ∈ head :: ids := by
        rw [ih, h, List.mem_cons, or_assoc]

theorem removedCables_removeCables_congr (h : st.removedCables = st'.removedCables) (ids : List Int) :
    (st.removeCables ids).removedCables = (st'.removeCables ids).removedCables := by
  induction ids generalizing st st' with
  | nil => exact h
  | cons id ids ih => exact ih (by rw [removedCables_removeCable, removedCables_removeCable, h])

/-- The two states agree on what the plan declared, removed and claimed. -/
structure SameRecord (st st' : PreviewState) : Prop where
  aliases : st'.aliases = st.aliases
  nextSyntheticId : st'.nextSyntheticId = st.nextSyntheticId
  removedModules : st'.removedModules = st.removedModules
  removedCables : st'.removedCables = st.removedCables
  claimedInputs : st'.claimedInputs = st.claimedInputs

/-- `SameRecord` but for the removed cables. -/
structure SameButRemoved (st st' : PreviewState) : Prop where
  aliases : st'.aliases = st.aliases
  nextSyntheticId : st'.nextSyntheticId = st.nextSyntheticId
  removedModules : st'.removedModules = st.removedModules
  claimedInputs : st'.claimedInputs = st.claimedInputs

theorem SameButRemoved.trans {st'' : PreviewState} (h : SameButRemoved st st')
    (h' : SameButRemoved st' st'') : SameButRemoved st st'' :=
  ⟨h'.1.trans h.1, h'.2.trans h.2, h'.3.trans h.3, h'.4.trans h.4⟩

theorem removeCables_same (st : PreviewState) (ids : List Int) :
    SameButRemoved st (st.removeCables ids) := by
  induction ids generalizing st with
  | nil => exact ⟨rfl, rfl, rfl, rfl⟩
  | cons id ids ih =>
    have h : SameButRemoved st (st.removeCable id) := by
      unfold removeCable
      split <;> exact ⟨rfl, rfl, rfl, rfl⟩
    exact h.trans (ih _)

end PreviewState

open PreviewState

/-- The module reference of an operation, as the preview resolves it. -/
def previewRef (op : Json) (st : PreviewState) : ModuleRef :=
  resolveModuleRef (Json.get op "module") st.aliases

/-- The snapshot cables on an input that the plan has not removed. -/
def freeInputCables (world : PlanWorld) (st : PreviewState) (moduleId portId : Int) : List Int :=
  if moduleId < 0 then [] else cablesOnPort world.cables st.removedCables moduleId "input" portId

/-- What an accepting `validateOne` checked and recorded. -/
inductive PreviewStep (world : PlanWorld) (op : Json) (st st' : PreviewState) : Prop where
  | add (kind : opType op = .addModule)
      (installed : world.modelInstalled (jstr op "pluginSlug") (jstr op "modelSlug"))
      (nonempty : jstr op "alias" ≠ "") (fresh : jstr op "alias" ∉ st.aliases)
      (aliases : st'.aliases = st.aliases.insert (jstr op "alias") st.nextSyntheticId)
      (nextSyntheticId : st'.nextSyntheticId = st.nextSyntheticId - 1)
      (removedModules : st'.removedModules = st.removedModules)
      (removedCables : st'.removedCables = st.removedCables)
      (claimedInputs : st'.claimedInputs = st.claimedInputs)
  | removeAlias (kind : opType op = .removeModule) (ok : (previewRef op st).ok)
      (synthetic : (previewRef op st).moduleId < 0) (same : st' = st)
  | removeLive (kind : opType op = .removeModule) (id : Int) (ok : (previewRef op st).ok)
      (named : (previewRef op st).moduleId = id) (live : 0 ≤ id) (m : WorldModule)
      (found : liveModule world st id = some m)
      (bridge : isBridgeModule m → jbool op "allowLastBridge" false ∨
        1 < remainingBridgeCount world.modules st.removedModules)
      (policy : cablesOnModule world.cables st.removedCables id = [] ∨
        jstr op "cablePolicy" "remove_attached" ≠ "fail_if_connected")
      (aliases : st'.aliases = st.aliases) (nextSyntheticId : st'.nextSyntheticId = st.nextSyntheticId)
      (removedModules : st'.removedModules = st.removedModules ++ [id])
      (removedCables : st'.removedCables =
        (st.removeCables (cablesOnModule world.cables st.removedCables id)).removedCables)
      (claimedInputs : st'.claimedInputs = st.claimedInputs)
  | modifyAlias (kind : opType op = .setParameter ∨ opType op = .setBypass ∨
        opType op = .resetModule ∨ opType op = .randomizeModule)
      (ok : (previewRef op st).ok) (synthetic : (previewRef op st).moduleId < 0)
      (same : SameRecord st st')
  | modifyLive (kind : opType op = .setParameter ∨ opType op = .setBypass ∨
        opType op = .resetModule ∨ opType op = .randomizeModule)
      (id : Int) (ok : (previewRef op st).ok) (named : (previewRef op st).moduleId = id) (live : 0 ≤ id)
      (m : WorldModule) (found : liveModule world st id = some m)
      (param : opType op = .setParameter → ∃ paramId, readIntField op "paramId" = .ok paramId ∧
        0 ≤ paramId ∧ paramId < m.paramCount)
      (same : SameRecord st st')
  | move (kind : opType op = .moveModule) (ok : (previewRef op st).ok) (same : SameRecord st st')
  | connect (kind : opType op = .connect) (out inp : ModuleRef)
      (output : out = resolveModuleRef (Json.get (Json.get op "output") "module") st.aliases)
      (input : inp = resolveModuleRef (Json.get (Json.get op "input") "module") st.aliases)
      (outOk : out.ok) (inOk : inp.ok) (outPort inPort : Int)
      (outputPort : readIntField (Json.get op "output") "portId" = .ok outPort)
      (inputPort : readIntField (Json.get op "input") "portId" = .ok inPort)
      (outBound : 0 ≤ out.moduleId → ∃ m, liveModule world st out.moduleId = some m ∧ 0 ≤ outPort ∧
        outPort < m.outputCount)
      (inBound : 0 ≤ inp.moduleId → ∃ m, liveModule world st inp.moduleId = some m ∧ 0 ≤ inPort ∧
        inPort < m.inputCount)
      (policy : (¬ st.inputClaimed inp.moduleId inPort ∧
          freeInputCables world st inp.moduleId inPort = []) ∨
        (jstr op "inputPolicy" "fail_if_connected" ≠ "fail_if_connected" ∧
          jstr op "inputPolicy" "fail_if_connected" ≠ "stack"))
      (aliases : st'.aliases = st.aliases) (nextSyntheticId : st'.nextSyntheticId = st.nextSyntheticId)
      (removedModules : st'.removedModules = st.removedModules)
      (removedCables : st'.removedCables =
        (st.removeCables (freeInputCables world st inp.moduleId inPort)).removedCables)
      (claimedInputs : st'.claimedInputs = st.claimedInputs ++ [(inp.moduleId, inPort)])
  | disconnect (kind : opType op = .disconnect) (cid : Int)
      (named : parseDecimalId (jstr (Json.get op "cable") "cableId") = some cid)
      (known : world.hasCable cid) (kept : cid ∉ st.removedCables) (same : st' = st.removeCable cid)
  | disconnectPortAlias (kind : opType op = .disconnectPort)
      (ok : (resolveModuleRef (Json.get (Json.get op "port") "module") st.aliases).ok)
      (synthetic : (resolveModuleRef (Json.get (Json.get op "port") "module") st.aliases).moduleId < 0)
      (same : st' = st)
  | disconnectPortLive (kind : opType op = .disconnectPort) (id portId : Int)
      (ok : (resolveModuleRef (Json.get (Json.get op "port") "module") st.aliases).ok)
      (named : (resolveModuleRef (Json.get (Json.get op "port") "module") st.aliases).moduleId = id)
      (live : 0 ≤ id) (m : WorldModule) (found : liveModule world st id = some m)
      (port : readIntField (Json.get op "port") "portId" = .ok portId)
      (portType : jstr (Json.get op "port") "portType" = "input" ∨
        jstr (Json.get op "port") "portType" = "output")
      (removedCables : st'.removedCables = (st.removeCables (selectMatches (jstr op "policy" "all")
        (cablesOnPort world.cables st.removedCables id (jstr (Json.get op "port") "portType")
          portId))).removedCables)
      (same : SameButRemoved st st')

/-! ### Every accepted operation is such a step -/

theorem validateAdd_step (kind : opType op = .addModule) (h : validateAdd op world st = .done st') :
    PreviewStep world op st st' := by
  unfold validateAdd at h
  dsimp only at h
  split at h
  · cases h
  rename_i hinstalled
  split at h
  · cases h
  rename_i halias
  obtain ⟨hnonempty, hfresh⟩ := not_or.mp halias
  cases h
  exact .add kind (not_not.mp hinstalled) hnonempty hfresh rfl rfl rfl rfl rfl

theorem validateRemove_step (kind : opType op = .removeModule)
    (h : validateRemove op world st = .done st') : PreviewStep world op st st' := by
  unfold validateRemove at h
  dsimp only at h
  split at h
  · cases h
  rename_i hok
  split at h
  · cases h
    exact .removeAlias kind (not_not.mp hok) ‹_› rfl
  rename_i hlive
  split at h
  · cases h
  rename_i m hfound
  split at h
  · cases h
  rename_i hbridge
  split at h
  · cases h
  rename_i hpolicy
  cases h
  have hsame := removeCables_same
    { st with
      removesBridge := st.removesBridge || isBridgeModule m
      touchesAudio := st.touchesAudio || isAudioModule m }
    (cablesOnModule world.cables st.removedCables (previewRef op st).moduleId)
  refine .removeLive kind (previewRef op st).moduleId (not_not.mp hok) rfl (not_lt.mp hlive) m hfound
    ?_ ?_ hsame.aliases hsame.nextSyntheticId ?_ ?_ hsame.claimedInputs
  · intro hm
    by_contra hnot
    obtain ⟨hallow, hleft⟩ := not_or.mp hnot
    exact hbridge ⟨hm, hallow, not_lt.mp hleft⟩
  · by_cases hnil : cablesOnModule world.cables st.removedCables (previewRef op st).moduleId = []
    · exact .inl hnil
    · exact .inr fun hfail => hpolicy ⟨hnil, hfail⟩
  · exact congrArg (· ++ [(previewRef op st).moduleId]) hsame.removedModules
  · exact removedCables_removeCables_congr (by rfl) _

theorem validateModify_step {type : OpType} (kind : opType op = type)
    (hkind : type = .setParameter ∨ type = .setBypass ∨ type = .resetModule ∨ type = .randomizeModule)
    (h : validateModify type op world st = .done st') : PreviewStep world op st st' := by
  subst kind
  unfold validateModify at h
  dsimp only at h
  split at h
  · cases h
  rename_i hok
  split at h
  · cases h
    exact .modifyAlias hkind (not_not.mp hok) ‹_› ⟨rfl, rfl, rfl, rfl, rfl⟩
  rename_i hlive
  split at h
  · cases h
  rename_i m hfound
  split at h
  · split at h
    · cases h
    rename_i paramId hparam
    split at h
    · cases h
    rename_i hbound
    cases h
    exact .modifyLive hkind _ (not_not.mp hok) rfl (not_lt.mp hlive) m hfound
      (fun _ => ⟨paramId, hparam, by omega, by omega⟩) ⟨rfl, rfl, rfl, rfl, rfl⟩
  · rename_i hother
    cases h
    exact .modifyLive hkind _ (not_not.mp hok) rfl (not_lt.mp hlive) m hfound
      (fun hset => absurd hset hother) ⟨rfl, rfl, rfl, rfl, rfl⟩

theorem validateMove_step (kind : opType op = .moveModule)
    (h : validateMove op world st = .done st') : PreviewStep world op st st' := by
  unfold validateMove at h
  dsimp only at h
  split at h
  · cases h
  rename_i hok
  refine .move kind (not_not.mp hok) ?_
  split at h
  · cases h
    exact ⟨rfl, rfl, rfl, rfl, rfl⟩
  split at h
  · cases h
  split at h
  · cases h
    exact ⟨rfl, rfl, rfl, rfl, rfl⟩
  split at h
  · cases h
  split at h
  · cases h
  split at h
  all_goals
    cases h
    exact ⟨rfl, rfl, rfl, rfl, rfl⟩

theorem claimInput_done {inModule inPort : Int} {existing : List Int}
    (h : claimInput op inModule inPort existing st = .done st') :
    ((¬ st.inputClaimed inModule inPort ∧ existing = []) ∨
      (jstr op "inputPolicy" "fail_if_connected" ≠ "fail_if_connected" ∧
        jstr op "inputPolicy" "fail_if_connected" ≠ "stack")) ∧
    st'.aliases = st.aliases ∧ st'.nextSyntheticId = st.nextSyntheticId ∧
    st'.removedModules = st.removedModules ∧
    st'.removedCables = (st.removeCables existing).removedCables ∧
    st'.claimedInputs = st.claimedInputs ++ [(inModule, inPort)] := by
  unfold claimInput at h
  dsimp only at h
  split at h
  · split at h
    · cases h
    rename_i hfail
    split at h
    · cases h
    rename_i hstack
    cases h
    refine ⟨.inr ⟨hfail, hstack⟩, ?_⟩
    split
    all_goals
      have hsame := removeCables_same st existing
      have hsame' := removeCables_same
        { st with replacedInputs := st.replacedInputs ++ [(inModule, inPort)] } existing
    · exact ⟨hsame'.aliases, hsame'.nextSyntheticId, hsame'.removedModules,
        removedCables_removeCables_congr (by rfl) _,
        congrArg (· ++ [(inModule, inPort)]) hsame'.claimedInputs⟩
    · exact ⟨hsame.aliases, hsame.nextSyntheticId, hsame.removedModules, rfl,
        congrArg (· ++ [(inModule, inPort)]) hsame.claimedInputs⟩
  · rename_i hfree
    obtain ⟨hclaimed, hexisting⟩ := not_or.mp hfree
    have hnil := not_not.mp hexisting
    cases h
    subst hnil
    exact ⟨.inl ⟨hclaimed, rfl⟩, rfl, rfl, rfl, rfl, rfl⟩

theorem validateConnect_step (kind : opType op = .connect)
    (h : validateConnect op world st = .done st') : PreviewStep world op st st' := by
  unfold validateConnect at h
  dsimp only at h
  split at h
  · cases h
  rename_i hok
  obtain ⟨houtOk, hinOk⟩ := not_or.mp hok
  split at h
  · cases h
  rename_i outPort houtPort
  split at h
  · cases h
  rename_i inPort hinPort
  split at h
  · cases h
  rename_i houtBound
  have hout : 0 ≤ (resolveModuleRef (Json.get (Json.get op "output") "module") st.aliases).moduleId →
      ∃ m, liveModule world st
        (resolveModuleRef (Json.get (Json.get op "output") "module") st.aliases).moduleId = some m ∧
        0 ≤ outPort ∧ outPort < m.outputCount := by
    intro hlive
    obtain ⟨m, hm, hrange⟩ := not_not.mp fun hnot => houtBound ⟨hlive, hnot⟩
    exact ⟨m, hm, hrange⟩
  split at h
  · rename_i hsynthetic
    obtain ⟨hpolicy, h1, h2, h3, h4, h5⟩ := claimInput_done h
    refine .connect kind _ _ rfl rfl (not_not.mp houtOk) (not_not.mp hinOk) outPort inPort houtPort
      hinPort hout (fun hlive => absurd hlive (not_le.mpr hsynthetic)) ?_ h1 h2 h3 ?_ h5
    · rw [freeInputCables, if_pos hsynthetic]
      exact hpolicy
    · rw [freeInputCables, if_pos hsynthetic]
      exact h4.trans (removedCables_removeCables_congr (by rfl) _)
  · rename_i hlive
    split at h
    · cases h
    rename_i hinBound
    obtain ⟨m, hm, hrange⟩ := not_not.mp hinBound
    obtain ⟨hpolicy, h1, h2, h3, h4, h5⟩ := claimInput_done h
    refine .connect kind _ _ rfl rfl (not_not.mp houtOk) (not_not.mp hinOk) outPort inPort houtPort
      hinPort hout (fun _ => ⟨m, hm, hrange⟩) ?_ h1 h2 h3 ?_ h5
    · rw [freeInputCables, if_neg hlive]
      exact hpolicy
    · rw [freeInputCables, if_neg hlive]
      exact h4.trans (removedCables_removeCables_congr (by rfl) _)

theorem validateDisconnect_step (kind : opType op = .disconnect)
    (h : validateDisconnect op world st = .done st') : PreviewStep world op st st' := by
  unfold validateDisconnect at h
  dsimp only at h
  split at h
  · cases h
  rename_i cid hnamed
  split at h
  · cases h
  rename_i hknown
  split at h
  · cases h
  rename_i hkept
  cases h
  exact .disconnect kind cid hnamed (not_not.mp hknown) hkept rfl

theorem validateDisconnectPort_step (kind : opType op = .disconnectPort)
    (h : validateDisconnectPort op world st = .done st') : PreviewStep world op st st' := by
  unfold validateDisconnectPort at h
  dsimp only at h
  split at h
  · cases h
  rename_i hok
  -- an unresolved reference carries the id -1, so it was refused above
  have hresolved : (resolveModuleRef (Json.get (Json.get op "port") "module") st.aliases).ok := by
    by_contra hnot
    exact hok ⟨hnot, by rw [moduleId_of_not_ok hnot]; decide⟩
  split at h
  · cases h
    exact .disconnectPortAlias kind hresolved ‹_› rfl
  rename_i hlive
  split at h
  · cases h
  rename_i m hfound
  split at h
  · cases h
  rename_i portId hport
  split at h
  · cases h
  rename_i htype
  cases h
  refine .disconnectPortLive kind _ portId hresolved rfl (not_lt.mp hlive) m hfound hport ?_
    (removedCables_removeCables_congr (by rfl) _) ?_
  · by_contra hnot
    exact htype (not_or.mp hnot)
  · have hsame := removeCables_same
      { st with touchesAudio := st.touchesAudio || isAudioModule m }
      (selectMatches (jstr op "policy" "all") (cablesOnPort world.cables st.removedCables
        (resolveModuleRef (Json.get (Json.get op "port") "module") st.aliases).moduleId
        (jstr (Json.get op "port") "portType") portId))
    exact ⟨hsame.aliases, hsame.nextSyntheticId, hsame.removedModules, hsame.claimedInputs⟩

/-- Every accepted operation is a `PreviewStep`. -/
theorem validateOne_step (h : validateOne world op st = .done st') : PreviewStep world op st st' := by
  unfold validateOne at h
  split at h
  · cases h
  unfold validateBranch at h
  split at h
  · exact validateAdd_step ‹_› h
  · exact validateRemove_step ‹_› h
  · exact validateModify_step ‹_› (by simp) h
  · exact validateModify_step ‹_› (by simp) h
  · exact validateModify_step ‹_› (by simp) h
  · exact validateModify_step ‹_› (by simp) h
  · exact validateMove_step ‹_› h
  · exact validateConnect_step ‹_› h
  · exact validateDisconnect_step ‹_› h
  · exact validateDisconnectPort_step ‹_› h
  · cases h
  · cases h

/-! ### The cables an operation discloses -/

/-- The ids of the cables the operation removes, as the preview enumerates them. -/
def discloses (world : PlanWorld) (op : Json) (st : PreviewState) : List Int :=
  match opType op with
  | .removeModule =>
    let id := (previewRef op st).moduleId
    if id < 0 then [] else cablesOnModule world.cables st.removedCables id
  | .connect =>
    let inRef := Json.get op "input"
    match readIntField inRef "portId" with
    | .ok portId =>
      freeInputCables world st (resolveModuleRef (Json.get inRef "module") st.aliases).moduleId portId
    | .error _ => []
  | .disconnect => (parseDecimalId (jstr (Json.get op "cable") "cableId")).toList
  | .disconnectPort =>
    let portRef := Json.get op "port"
    let id := (resolveModuleRef (Json.get portRef "module") st.aliases).moduleId
    match readIntField portRef "portId" with
    | .ok portId =>
      if id < 0 then []
      else selectMatches (jstr op "policy" "all")
        (cablesOnPort world.cables st.removedCables id (jstr portRef "portType") portId)
    | .error _ => []
  | _ => []

/-- An accepted operation records as removed exactly what it discloses. -/
theorem PreviewStep.mem_removedCables (h : PreviewStep world op st st') {id : Int} :
    id ∈ st'.removedCables ↔ id ∈ st.removedCables ∨ id ∈ discloses world op st := by
  cases h with
  | add kind _ _ _ _ _ _ removedCables => simp [discloses, kind, removedCables]
  | removeAlias kind _ synthetic same => simp [discloses, kind, synthetic, same]
  | removeLive kind id _ named live _ _ _ _ _ _ _ removedCables =>
    rw [removedCables, mem_removeCables]
    simp [discloses, kind, named, not_lt.mpr live]
  | modifyAlias kind _ _ same =>
    rcases kind with kind | kind | kind | kind
    all_goals simp [discloses, kind, same.removedCables]
  | modifyLive kind _ _ _ _ _ _ _ same =>
    rcases kind with kind | kind | kind | kind
    all_goals simp [discloses, kind, same.removedCables]
  | move kind _ same => simp [discloses, kind, same.removedCables]
  | connect kind out inp _ input _ _ _ inPort _ inputPort _ _ _ _ _ _ removedCables =>
    rw [removedCables, mem_removeCables]
    simp [discloses, kind, inputPort, input]
  | disconnect kind cid named _ _ same =>
    rw [same, removedCables_removeCable]
    split
    · rename_i hmem
      simp only [discloses, kind, named, Option.toList_some, List.mem_singleton]
      exact ⟨.inl, fun h => h.elim (fun h => h) fun heq => heq ▸ hmem⟩
    · simp [discloses, kind, named]
  | disconnectPortAlias kind _ synthetic same =>
    rw [same]
    simp only [discloses, kind, if_pos synthetic]
    split <;> simp
  | disconnectPortLive kind id portId _ named live _ _ port _ removedCables =>
    rw [removedCables, mem_removeCables]
    simp [discloses, kind, port, named, not_lt.mpr live]

end RackMcp
