import RackMcp.Proof.Disclosure

/-!
# When a refused connect is refused for good reason

The preview refuses a connect into an input that carries a snapshot cable or that an earlier operation of
the plan claimed. A claim is never given back: `connect_refusal_iff` says that the refusal is unfounded
exactly when an operation after the last connect into the input takes that connect's cable away.
-/

namespace RackMcp

open Gen Outcomes

variable {w : PatchWorld} {s₀ st st' : PreviewState} {s s' : Applier} {ops pre list : List Json} {op : Json}

/-! ### The refusal -/

/-- `validateOne` answers that the input is taken. -/
def RefusedAsTaken (world : PlanWorld) (op : Json) (st : PreviewState) : Prop :=
  ∃ e st', validateOne world op st = .thrown e st' ∧ (e = inputConnectedRefusal ∨ e = singleCableRefusal)

/-- The connect is well formed and its references and ports are in order, so that only its input policy is
left to decide; the input is `portId` of the module the preview knows as `id`. -/
structure PortsInOrder (world : PlanWorld) (op : Json) (st : PreviewState) (id portId : Int) : Prop where
  shape : checkOperationFields op = none
  kind : opType op = .connect
  outOk : (resolveModuleRef (Json.get (Json.get op "output") "module") st.aliases).ok
  inOk : (resolveModuleRef (Json.get (Json.get op "input") "module") st.aliases).ok
  input : (resolveModuleRef (Json.get (Json.get op "input") "module") st.aliases).moduleId = id
  inputPort : readIntField (Json.get op "input") "portId" = .ok portId
  outRange : ∃ outPort, readIntField (Json.get op "output") "portId" = .ok outPort ∧
    (0 ≤ (resolveModuleRef (Json.get (Json.get op "output") "module") st.aliases).moduleId →
      ∃ m ∈ liveModule world st
        (resolveModuleRef (Json.get (Json.get op "output") "module") st.aliases).moduleId,
        0 ≤ outPort ∧ outPort < m.outputCount)
  inRange : 0 ≤ id → ∃ m ∈ liveModule world st id, 0 ≤ portId ∧ portId < m.inputCount

/-- A connect in order comes down to its input policy. -/
theorem validateConnect_inOrder {world : PlanWorld} {id portId : Int}
    (inOrder : PortsInOrder world op st id portId) :
    ∃ st₀, PreviewState.SameRecord st st₀ ∧
      validateOne world op st = claimInput op id portId (freeInputCables world st id portId) st₀ := by
  obtain ⟨shape, kind, outOk, inOk, input, inputPort, ⟨outPort, outputPort, outRange⟩, inRange⟩ := inOrder
  subst input
  rw [validateOne, shape]
  simp only [validateBranch, kind]
  unfold validateConnect
  dsimp only
  rw [if_neg (not_or.mpr ⟨not_not.mpr outOk, not_not.mpr inOk⟩), outputPort, inputPort]
  dsimp only
  rw [if_neg fun hbad => hbad.2 (outRange hbad.1)]
  unfold freeInputCables
  split
  · refine ⟨_, ?_, rfl⟩
    exact ⟨rfl, rfl, rfl, rfl, rfl⟩
  · rename_i hlive
    have hin := inRange (not_lt.mp hlive)
    rw [if_neg (by exact not_not.mpr hin)]
    refine ⟨_, ?_, rfl⟩
    exact ⟨rfl, rfl, rfl, rfl, rfl⟩

/-- A connect that is not in order is refused, for another reason. -/
theorem validateConnect_not_inOrder {world : PlanWorld} (kind : opType op = .connect)
    (hnot : ¬ ∃ id portId, PortsInOrder world op st id portId) :
    ∃ code message st', validateOne world op st = refuse code message st' ∧
      code ≠ .validationFailed ∧ code ≠ .unsupportedOperation := by
  unfold validateOne
  split
  · exact ⟨_, _, _, rfl, by decide, by decide⟩
  rename_i hshape
  simp only [validateBranch, kind]
  unfold validateConnect
  dsimp only
  split
  · exact ⟨_, _, _, rfl, by decide, by decide⟩
  rename_i hok
  obtain ⟨houtOk, hinOk⟩ := not_or.mp hok
  split
  · exact ⟨_, _, _, rfl, by decide, by decide⟩
  rename_i outPort houtPort
  split
  · exact ⟨_, _, _, rfl, by decide, by decide⟩
  rename_i inPort hinPort
  split
  · exact ⟨_, _, _, rfl, by decide, by decide⟩
  rename_i hbound
  -- all that is left is a connect in order, or an input that is out of range
  have hinOrder : ∀ hin, PortsInOrder world op st
      (resolveModuleRef (Json.get (Json.get op "input") "module") st.aliases).moduleId inPort := fun hin =>
    ⟨hshape, kind, not_not.mp houtOk, not_not.mp hinOk, rfl, hinPort,
      ⟨outPort, houtPort, fun hlive => not_not.mp fun h => hbound ⟨hlive, h⟩⟩, hin⟩
  split
  · rename_i hsynthetic
    exact absurd ⟨_, _, hinOrder fun hlive => absurd hsynthetic (not_lt.mpr hlive)⟩ hnot
  · split
    · exact ⟨_, _, _, rfl, by decide, by decide⟩
    · rename_i hrange
      exact absurd ⟨_, _, hinOrder fun _ => not_not.mp hrange⟩ hnot

theorem claimInput_refused {inModule inPort : Int} {existing : List Int}
    (policy : jstr op "inputPolicy" "fail_if_connected" = "fail_if_connected" ∨
      jstr op "inputPolicy" "fail_if_connected" = "stack") :
    (∃ e st', claimInput op inModule inPort existing st = .thrown e st' ∧
      (e = inputConnectedRefusal ∨ e = singleCableRefusal)) ↔
      st.inputClaimed inModule inPort ∨ existing ≠ [] := by
  unfold claimInput
  dsimp only
  split
  · rename_i htaken
    rcases policy with policy | policy
    · simp [policy, htaken]
    · simp [policy, htaken]
  · rename_i hfree
    simp [hfree]

theorem PreviewState.SameRecord.inputClaimed (h : SameRecord st st') (id portId : Int) :
    st'.inputClaimed id portId = st.inputClaimed id portId := by
  rw [PreviewState.inputClaimed, PreviewState.inputClaimed, h.claimedInputs]

/-- What the connect's refusal comes down to. -/
theorem refusedAsTaken_iff {world : PlanWorld} (kind : opType op = .connect)
    (policy : jstr op "inputPolicy" "fail_if_connected" = "fail_if_connected" ∨
      jstr op "inputPolicy" "fail_if_connected" = "stack") :
    RefusedAsTaken world op st ↔ ∃ id portId, PortsInOrder world op st id portId ∧
      (st.inputClaimed id portId ∨ freeInputCables world st id portId ≠ []) := by
  by_cases hinOrder : ∃ id portId, PortsInOrder world op st id portId
  · obtain ⟨id, portId, inOrder⟩ := hinOrder
    obtain ⟨st₀, same, hclaim⟩ := validateConnect_inOrder inOrder
    rw [RefusedAsTaken, hclaim, claimInput_refused policy, same.inputClaimed]
    constructor
    · exact fun htaken => ⟨id, portId, inOrder, htaken⟩
    · rintro ⟨id', portId', inOrder', htaken⟩
      obtain rfl : id = id' := inOrder.input.symm.trans inOrder'.input
      obtain rfl : portId = portId' :=
        Except.ok.inj (inOrder.inputPort.symm.trans inOrder'.inputPort)
      exact htaken
  · refine iff_of_false ?_ fun ⟨id, portId, inOrder, _⟩ => hinOrder ⟨id, portId, inOrder⟩
    obtain ⟨code, message, st₁, hrefuse, hcode, hcode'⟩ := validateConnect_not_inOrder kind hinOrder
    rintro ⟨e, st₂, hthrown, rfl | rfl⟩
    · rw [hrefuse] at hthrown
      cases hthrown
      exact hcode rfl
    · rw [hrefuse] at hthrown
      cases hthrown
      exact hcode' rfl

/-! ### Claims -/

/-- The connect goes into the input `portId` of the module the preview knows as `id`. -/
def ConnectsInto (aliases : AliasMap) (id portId : Int) (op : Json) : Prop :=
  opType op = .connect ∧ (resolveModuleRef (Json.get (Json.get op "input") "module") aliases).ok ∧
    (resolveModuleRef (Json.get (Json.get op "input") "module") aliases).moduleId = id ∧
    readIntField (Json.get op "input") "portId" = .ok portId

/-- A resolved reference stays resolved, to the same module. -/
theorem PreviewStep.resolve_eq {world : PlanWorld} (h : PreviewStep world op st st') {ref : Option Json}
    (hok : (resolveModuleRef ref st.aliases).ok) :
    resolveModuleRef ref st'.aliases = resolveModuleRef ref st.aliases := by
  have hsame : st'.aliases = st.aliases ∨ ∃ name id, name ∉ st.aliases ∧
      st'.aliases = st.aliases.insert name id := by
    cases h with
    | add _ _ _ fresh aliases => exact .inr ⟨_, _, fresh, aliases⟩
    | removeAlias _ _ _ same => exact .inl (by rw [same])
    | removeLive _ _ _ _ _ _ _ _ _ aliases => exact .inl aliases
    | modifyAlias _ _ _ same => exact .inl same.aliases
    | modifyLive _ _ _ _ _ _ _ _ same => exact .inl same.aliases
    | move _ _ same => exact .inl same.aliases
    | connect _ _ _ _ _ _ _ _ _ _ _ _ _ _ aliases => exact .inl aliases
    | disconnect _ cid _ _ _ same =>
      have hrest : PreviewState.SameButRemoved st (st.removeCable cid) :=
        PreviewState.removeCables_same st [cid]
      exact .inl (same ▸ hrest.aliases)
    | disconnectPortAlias _ _ _ same => exact .inl (by rw [same])
    | disconnectPortLive _ _ _ _ _ _ _ _ _ _ _ same => exact .inl same.aliases
  rcases hsame with hsame | ⟨name, id, hfresh, hinsert⟩
  · rw [hsame]
  · rcases refShape ref with ⟨_, -, hr⟩ | ⟨other, hr⟩ | hr
    · rw [hr, hr]
    · have hne : other ≠ name := by
        rintro rfl
        rw [hr, AList.lookup_eq_none.mpr hfresh] at hok
        cases hok
      rw [hr, hr, hinsert, AList.lookup_insert_ne hne]
    · rw [hr, hr]

theorem resolve_eq_run (h : Runs (validateOne (w.world ops)) list st st') {ref : Option Json}
    (hok : (resolveModuleRef ref st.aliases).ok) :
    resolveModuleRef ref st'.aliases = resolveModuleRef ref st.aliases := by
  refine h.invariant (I := fun st' => resolveModuleRef ref st'.aliases = resolveModuleRef ref st.aliases)
    (fun op _ t t' hsame hstep => ?_) rfl
  rw [(validateOne_step hstep).resolve_eq (hsame ▸ hok), hsame]

/-- An accepted operation claims the input it connects into and gives no claim back. -/
theorem PreviewStep.mem_claimedInputs {world : PlanWorld} (h : PreviewStep world op st st')
    {id portId : Int} :
    (id, portId) ∈ st'.claimedInputs ↔
      (id, portId) ∈ st.claimedInputs ∨ ConnectsInto st.aliases id portId op := by
  unfold ConnectsInto
  cases h with
  | add kind _ _ _ _ _ _ _ claimedInputs => simp [kind, claimedInputs]
  | removeAlias kind _ _ same => simp [kind, same]
  | removeLive kind _ _ _ _ _ _ _ _ _ _ _ _ claimedInputs => simp [kind, claimedInputs]
  | modifyAlias kind _ _ same =>
    rcases kind with kind | kind | kind | kind <;> simp [kind, same.claimedInputs]
  | modifyLive kind _ _ _ _ _ _ _ same =>
    rcases kind with kind | kind | kind | kind <;> simp [kind, same.claimedInputs]
  | move kind _ same => simp [kind, same.claimedInputs]
  | connect kind _ inp _ input _ inOk _ inPort _ inputPort _ _ _ _ _ _ _ claimedInputs =>
    subst input
    rw [claimedInputs, List.mem_append, List.mem_singleton, Prod.mk.injEq]
    simp only [kind, inOk, inputPort, true_and, Except.ok.injEq, eq_comm]
  | disconnect kind cid _ _ _ same =>
    have hrest : PreviewState.SameButRemoved st (st.removeCable cid) :=
      PreviewState.removeCables_same st [cid]
    simp [kind, same, hrest.claimedInputs]
  | disconnectPortAlias kind _ _ same => simp [kind, same]
  | disconnectPortLive kind _ _ _ _ _ _ _ _ _ _ same => simp [kind, same.claimedInputs]

/-- What an accepted connect connects into does not change later. -/
theorem connectsInto_later (hstep : validateOne (w.world ops) op s₀ = .done st)
    (hafter : Runs (validateOne (w.world ops)) list st st') {id portId : Int} :
    ConnectsInto s₀.aliases id portId op ↔ ConnectsInto st'.aliases id portId op := by
  have hpreview := validateOne_step hstep
  by_cases kind : opType op = .connect
  · have hok : (resolveModuleRef (Json.get (Json.get op "input") "module") s₀.aliases).ok := by
      cases hpreview with
      | connect _ _ inp _ input _ inOk => exact input ▸ inOk
      | _ => simp_all
    have hfirst := hpreview.resolve_eq hok
    have hlast := resolve_eq_run hafter (hfirst ▸ hok)
    rw [ConnectsInto, ConnectsInto, hlast, hfirst]
  · exact iff_of_false (fun h => kind h.1) fun h => kind h.1

/-- The claimed inputs are the ones an earlier operation connects into. -/
theorem inputClaimed_iff (hp : Runs (validateOne (w.world ops)) pre {} st) {id portId : Int} :
    st.inputClaimed id portId ↔ ∃ c ∈ pre, ConnectsInto st.aliases id portId c := by
  rw [PreviewState.inputClaimed, List.contains_iff_mem]
  constructor
  · intro hmem
    obtain ⟨before, c, after, t, t', rfl, -, hstep, hafter, hnew, hclaimed⟩ :=
      hp.exists_change (P := fun st => (id, portId) ∈ st.claimedInputs) (by simp) hmem
    have hc := ((validateOne_step hstep).mem_claimedInputs.mp hclaimed).resolve_left hnew
    exact ⟨c, by simp, (connectsInto_later hstep hafter).mp hc⟩
  · rintro ⟨c, hc, hconnects⟩
    obtain ⟨before, after, rfl⟩ := List.append_of_mem hc
    obtain ⟨t, -, hrest⟩ := Runs.append_iff.mp hp
    obtain ⟨t', hstep, hafter⟩ := Runs.cons_iff.mp hrest
    have hclaimed := (validateOne_step hstep).mem_claimedInputs.mpr
      (.inr ((connectsInto_later hstep hafter).mpr hconnects))
    exact hafter.invariant (I := fun st => (id, portId) ∈ st.claimedInputs)
      (fun _ _ _ _ hmem hnext => (validateOne_step hnext).mem_claimedInputs.mpr (.inl hmem)) hclaimed

/-! ### The cables on an input -/

/-- The preview knows a module under this id: a module of the snapshot or a planned one. -/
def Known (w : PatchWorld) (id : Int) : Prop :=
  (0 ≤ id ∧ id ∈ w.patch.modules.map (·.id)) ∨ ∃ n : Nat, id = -1000 - (n : Int)

/-- Modules the preview tells apart are different modules. -/
theorem Known.liveId_inj {id id' : Int} (h : Known w id) (h' : Known w id')
    (heq : w.liveId id = w.liveId id') : id = id' := by
  rcases h with ⟨hnonneg, hbase⟩ | ⟨n, rfl⟩ <;> rcases h' with ⟨hnonneg', hbase'⟩ | ⟨n', rfl⟩
  · rwa [w.liveId_of_nonneg hnonneg, w.liveId_of_nonneg hnonneg'] at heq
  · rw [w.liveId_of_nonneg hnonneg, ModuleSim.liveId_planned] at heq
    exact absurd (heq ▸ hbase) (w.module_fresh n')
  · rw [w.liveId_of_nonneg hnonneg', ModuleSim.liveId_planned] at heq
    exact absurd (heq ▸ hbase') (w.module_fresh n)
  · rw [ModuleSim.liveId_planned, ModuleSim.liveId_planned] at heq
    rw [w.moduleIds_injective heq]

variable (ops) in
theorem known_of_ok (sim : Sim w st s) {ref : Option Json} (ok : (resolveModuleRef ref st.aliases).ok)
    (live : 0 ≤ (resolveModuleRef ref st.aliases).moduleId → ∃ m,
      liveModule (w.world ops) st (resolveModuleRef ref st.aliases).moduleId = some m) :
    Known w (resolveModuleRef ref st.aliases).moduleId := by
  by_cases hlive : 0 ≤ (resolveModuleRef ref st.aliases).moduleId
  · refine .inl ⟨hlive, ?_⟩
    obtain ⟨m, hm⟩ := live hlive
    unfold liveModule at hm
    split at hm
    · cases hm
    obtain ⟨hmem, hid⟩ := Keyed.mem_of_find? hm
    obtain ⟨module, hmodule, rfl⟩ := List.mem_map.mp hmem
    exact List.mem_map.mpr ⟨module, hmodule, hid⟩
  · obtain ⟨n, -, hn⟩ := sim.modules.planned_of_neg ok (not_le.mp hlive)
    exact .inr ⟨n, hn⟩

theorem mem_inputCables_survivors {taken : List Int} {moduleId portId x : Int} :
    x ∈ ((s.survivors taken).filter (·.plan.entersPort moduleId portId)).map (·.id) ↔
      x ∈ Applier.inputCables s.patch moduleId portId ∧ x ∉ taken := by
  simp only [Applier.inputCables, Applier.survivors, List.mem_map, List.mem_filter, decide_eq_true_eq]
  constructor
  · rintro ⟨c, ⟨⟨hc, hnot⟩, hhere⟩, rfl⟩
    exact ⟨⟨c, ⟨hc, hhere⟩, rfl⟩, hnot⟩
  · rintro ⟨⟨c, ⟨hc, hhere⟩, rfl⟩, hnot⟩
    exact ⟨c, ⟨⟨hc, hnot⟩, hhere⟩, rfl⟩

/-- The new cable enters exactly the input it was made for. -/
theorem newCable_entersPort {rack : Rack} {outId outPort inId inPort moduleId portId : Int} :
    (Applier.newCable rack s op outId outPort inId inPort).plan.entersPort moduleId portId ↔
      inId = moduleId ∧ inPort = portId := by
  simp [Applier.newCable, PlanCable.connected, PlanCable.entersPort]

/-- An accepted and applied operation that does not connect into an input leaves there what it does not
take. -/
theorem mem_inputCables_step (sim : Sim w st s) (hp : validateOne (w.world ops) op st = .done st')
    (hc : Applier.applyOne w.rack op s = .done s') {id portId : Int} (known : Known w id)
    (hnot : ¬ ConnectsInto st.aliases id portId op) {x : Int} :
    x ∈ Applier.inputCables s'.patch (w.liveId id) portId ↔
      x ∈ Applier.inputCables s.patch (w.liveId id) portId ∧ x ∉ s.takes op := by
  rw [← mem_inputCables_survivors]
  cases (Applier.applyOne_step sim.cables.widgets hc).cablesAfter with
  | kept kind cables => rw [Applier.inputCables, cables]
  | added kind outId inId outPort inPort input inputPort cables =>
    -- the connect goes into another input
    have hother : ¬ (inId = w.liveId id ∧ inPort = portId) := by
      rintro ⟨hid, rfl⟩
      cases validateOne_step hp with
      | connect _ _ inp _ inpRef _ inOk _ _ _ _ _ inBound =>
        subst inpRef
        have hknown := known_of_ok ops sim inOk fun hlive => (inBound hlive).imp fun _ h => h.1
        rw [sim.modules.resolve_of_ok inOk, Option.some.injEq] at input
        exact hnot ⟨kind, inOk, hknown.liveId_inj known (input.trans hid), inputPort⟩
      | _ => simp_all
    rw [Applier.inputCables, cables, (((w.relist_perm _ _).filter _).map _).mem_iff,
      List.filter_cons_of_neg (by rw [newCable_entersPort]; exact hother)]

/-- After an accepted and applied connect its cable is the only one on the input. -/
theorem inputCables_connected (sim : Sim w st s) (hc : Applier.applyOne w.rack op s = .done s') {id portId : Int}
    (hinto : ConnectsInto st.aliases id portId op) :
    Applier.inputCables s'.patch (w.liveId id) portId = [w.rack.cableIds s.cablesMade] := by
  obtain ⟨kind, ok, rfl, hport⟩ := hinto
  cases (Applier.applyOne_step sim.cables.widgets hc).cablesAfter with
  | kept kind' => exact absurd kind kind'
  | added _ outId inId outPort inPort input inputPort cables =>
    rw [hport, Except.ok.injEq] at inputPort
    subst inputPort
    have hresolve := sim.modules.resolve_of_ok ok
    rw [hresolve, Option.some.injEq] at input
    subst input
    have htakes : s.takes op = Applier.inputCables s.patch
        (w.liveId (resolveModuleRef (Json.get (Json.get op "input") "module") st.aliases).moduleId)
        portId := by
      simp only [Applier.takes, kind, hresolve, hport]
    -- what was on the input is taken, so only the new cable is left there
    have hnone : (s.survivors (s.takes op)).filter (·.plan.entersPort
        (w.liveId (resolveModuleRef (Json.get (Json.get op "input") "module") st.aliases).moduleId)
        portId) = [] := by
      rw [← List.map_eq_nil_iff (f := (·.id)), List.eq_nil_iff_forall_not_mem]
      intro x hx
      rw [mem_inputCables_survivors, htakes] at hx
      exact hx.2 hx.1
    have hperm := ((w.relist_perm (s.survivors (s.takes op)) (Applier.newCable w.rack s op outId outPort
      (w.liveId (resolveModuleRef (Json.get (Json.get op "input") "module") st.aliases).moduleId)
      portId)).filter (·.plan.entersPort
        (w.liveId (resolveModuleRef (Json.get (Json.get op "input") "module") st.aliases).moduleId)
        portId))
    rw [List.filter_cons_of_pos (by rw [newCable_entersPort]; exact ⟨rfl, rfl⟩), hnone] at hperm
    rw [Applier.inputCables, cables, List.perm_singleton.mp hperm]
    rfl

/-- A cable stays on an input that no later operation connects into until an operation takes it. -/
theorem mem_inputCables_run (hp : Runs (validateOne (w.world ops)) list st st')
    (hc : Runs (Applier.applyOne w.rack) list s s') (sim : Sim w st s) {id portId : Int}
    (known : Known w id) (hnot : ∀ d ∈ list, ¬ ConnectsInto st'.aliases id portId d) {x : Int} :
    x ∈ Applier.inputCables s'.patch (w.liveId id) portId ↔
      x ∈ Applier.inputCables s.patch (w.liveId id) portId ∧ ¬ TakenLater w.rack s list x := by
  induction hp generalizing s with
  | nil =>
    rw [Runs.nil_iff.mp hc]
    exact (and_iff_left takenLater_nil).symm
  | @cons d list st t st' hstep hrest ih =>
    obtain ⟨u, hcstep, hcrest⟩ := Runs.cons_iff.mp hc
    have hhead : ¬ ConnectsInto st.aliases id portId d := fun h =>
      hnot d List.mem_cons_self ((connectsInto_later hstep hrest).mp h)
    rw [ih hcrest (sim.step hstep hcstep) fun e he => hnot e (List.mem_cons_of_mem _ he),
      mem_inputCables_step sim hstep hcstep known hhead, takenLater_cons hcstep, not_or, and_assoc]

/-! ### The refusal and the input -/

/-- The last operation of the prefix that connects into the input had its cable taken away again. -/
def Released (w : PatchWorld) (pre : List Json) (aliases : AliasMap) (id portId : Int) : Prop :=
  ∃ before c after s s', pre = before ++ c :: after ∧ ConnectsInto aliases id portId c ∧
    (∀ d ∈ after, ¬ ConnectsInto aliases id portId d) ∧
    Runs (Applier.applyOne w.rack) before w.start s ∧ Applier.applyOne w.rack c s = .done s' ∧
    TakenLater w.rack s' after (w.rack.cableIds s.cablesMade)

/-- Once an input was connected into, it is empty exactly when the last such cable was taken away. -/
theorem released_iff (hp : Runs (validateOne (w.world ops)) pre {} st)
    (hc : Runs (Applier.applyOne w.rack) pre w.start s) {id portId : Int} (known : Known w id)
    (hclaimed : st.inputClaimed id portId) :
    Released w pre st.aliases id portId ↔ Applier.inputCables s.patch (w.liveId id) portId = [] := by
  -- what a connect into the input and the operations after it leave there
  have hsplit : ∀ {before c after} {u u' : Applier}, pre = before ++ c :: after →
      ConnectsInto st.aliases id portId c → (∀ d ∈ after, ¬ ConnectsInto st.aliases id portId d) →
      Runs (Applier.applyOne w.rack) before w.start u → Applier.applyOne w.rack c u = .done u' →
      (TakenLater w.rack u' after (w.rack.cableIds u.cablesMade) ↔
        Applier.inputCables s.patch (w.liveId id) portId = []) := by
    rintro before c after u u' rfl hinto hnot hbefore hcstep
    obtain ⟨t, hpre, hrest⟩ := Runs.append_iff.mp hp
    obtain ⟨t', hstep, hafter⟩ := Runs.cons_iff.mp hrest
    obtain ⟨v, hcpre, hcrest⟩ := Runs.append_iff.mp hc
    obtain rfl := hbefore.unique hcpre
    obtain ⟨v', hcstep', hcafter⟩ := Runs.cons_iff.mp hcrest
    obtain rfl : u' = v' := by simpa [hcstep] using hcstep'
    have sim := Sim.run hpre hcpre
    have hone := inputCables_connected sim hcstep ((connectsInto_later hstep hafter).mpr hinto)
    have hmem : ∀ x, x ∈ Applier.inputCables s.patch (w.liveId id) portId ↔
        x = w.rack.cableIds u.cablesMade ∧ ¬ TakenLater w.rack u' after x := fun x => by
      rw [mem_inputCables_run hafter hcafter (sim.step hstep hcstep) known hnot, hone,
        List.mem_singleton]
    constructor
    · intro htaken
      refine List.eq_nil_iff_forall_not_mem.mpr fun x hx => ?_
      obtain ⟨rfl, hkept⟩ := (hmem x).mp hx
      exact hkept htaken
    · intro hnil
      by_contra hkept
      have hin := (hmem _).mpr ⟨rfl, hkept⟩
      rw [hnil] at hin
      cases hin
  constructor
  · rintro ⟨before, c, after, u, u', hpre, hinto, hnot, hbefore, hcstep, htaken⟩
    exact (hsplit hpre hinto hnot hbefore hcstep).mp htaken
  · intro hnil
    obtain ⟨before, c, after, rfl, hinto, hnot⟩ := Keyed.exists_last ((inputClaimed_iff hp).mp hclaimed)
    obtain ⟨u, hbefore, hcrest⟩ := Runs.append_iff.mp hc
    obtain ⟨u', hcstep, -⟩ := Runs.cons_iff.mp hcrest
    exact ⟨before, c, after, u, u', rfl, hinto, hnot, hbefore, hcstep,
      (hsplit rfl hinto hnot hbefore hcstep).mpr hnil⟩

/-- In the patch that commit works on, the input of the connect carries a cable. -/
def InputCarriesCable (op : Json) (s : Applier) : Prop :=
  ∃ id portId, s.resolve (Json.get (Json.get op "input") "module") = some id ∧
    readIntField (Json.get op "input") "portId" = .ok portId ∧ Applier.inputCables s.patch id portId ≠ []

/-- A free snapshot cable on an input is live there. -/
theorem carries_of_free (sim : Sim w st s) {id portId : Int}
    (hfree : freeInputCables (w.world ops) st id portId ≠ []) :
    Applier.inputCables s.patch (w.liveId id) portId ≠ [] := by
  unfold freeInputCables at hfree
  split at hfree
  · exact absurd rfl hfree
  rename_i hlive
  obtain ⟨x, hx⟩ := List.exists_mem_of_ne_nil _ hfree
  obtain ⟨c, hc, rfl, hkept, hhere⟩ := Sim.mem_of_cablesOn _ hx
  rw [Sim.onPort_input] at hhere
  rw [w.liveId_of_nonneg (not_lt.mp hlive)]
  exact List.ne_nil_of_mem ((sim.mem_inputCables (sim.cables.kept c hc hkept)).mpr hhere)

/-- After a prefix that both sides accepted, a connect with policy `fail_if_connected` or `stack` is
refused as into a taken input only if commit finds a cable there, exactly when it is not a connect in
order into an input whose last connect was released. -/
theorem connect_refusal_iff (w : PatchWorld) (ops pre : List Json) (op : Json) (st : PreviewState)
    (s : Applier) (hp : Runs (validateOne (w.world ops)) pre {} st)
    (hc : Runs (Applier.applyOne w.rack) pre w.start s) (kind : opType op = .connect)
    (policy : jstr op "inputPolicy" "fail_if_connected" = "fail_if_connected" ∨
      jstr op "inputPolicy" "fail_if_connected" = "stack") :
    (RefusedAsTaken (w.world ops) op st → InputCarriesCable op s) ↔
      ¬ ∃ id portId, PortsInOrder (w.world ops) op st id portId ∧ Released w pre st.aliases id portId := by
  have sim := Sim.run hp hc
  have hknown : ∀ {id portId}, PortsInOrder (w.world ops) op st id portId → Known w id :=
    fun inOrder => by
      have hlive := inOrder.inRange
      rw [← inOrder.input] at hlive ⊢
      exact known_of_ok ops sim inOrder.inOk fun h => (hlive h).imp fun _ h => h.1
  rw [refusedAsTaken_iff kind policy]
  constructor
  · rintro hrefused ⟨id, portId, inOrder, hreleased⟩
    have hclaimed : st.inputClaimed id portId := by
      obtain ⟨before, c, after, _, _, rfl, hinto, -⟩ := hreleased
      exact (inputClaimed_iff hp).mpr ⟨c, by simp, hinto⟩
    obtain ⟨id', portId', hid, hport, hcarries⟩ := hrefused ⟨id, portId, inOrder, .inl hclaimed⟩
    rw [sim.modules.resolve_of_ok inOrder.inOk, inOrder.input, Option.some.injEq] at hid
    rw [inOrder.inputPort, Except.ok.injEq] at hport
    subst hid hport
    exact hcarries ((released_iff hp hc (hknown inOrder) hclaimed).mp hreleased)
  · rintro hnot ⟨id, portId, inOrder, htaken⟩
    refine ⟨w.liveId id, portId, ?_, inOrder.inputPort, ?_⟩
    · rw [sim.modules.resolve_of_ok inOrder.inOk, inOrder.input]
    rcases htaken with hclaimed | hfree
    · intro hnil
      exact hnot ⟨id, portId, inOrder, (released_iff hp hc (hknown inOrder) hclaimed).mpr hnil⟩
    · exact carries_of_free sim hfree

/-- A cable into the input 2:1. -/
def connectOnce : List Json := [connectOperation (moduleById "1") 0 (moduleById "2") 1]

/-- After it, a second cable into that input is refused with reason. -/
theorem connect_refusal_bench :
    ¬ ∃ id portId, PortsInOrder (bench.world connectOnce) (connectOperation (moduleById "1") 1 (moduleById "2") 1)
        (validateAll (bench.world connectOnce) connectOnce).state id portId ∧
      Released bench connectOnce (validateAll (bench.world connectOnce) connectOnce).state.aliases id portId := by
  have hp := runFrom_done_iff.mp (show validateAll (bench.world connectOnce) connectOnce = _ from
    Outcome.eq_done_of_isDone (by decide))
  have hc := runFrom_done_iff.mp (show Applier.apply bench.rack connectOnce bench.patch = _ from
    Outcome.eq_done_of_isDone (by decide))
  exact (connect_refusal_iff bench connectOnce connectOnce
    (connectOperation (moduleById "1") 1 (moduleById "2") 1) _ _ hp hc (by decide) (by decide)).mp
    fun _ => ⟨2, 1, by decide, by decide, by decide⟩

/-- A cable into the input 2:1, and all cables off that input again. -/
def connectAndFree : List Json :=
  [connectOperation (moduleById "1") 0 (moduleById "2") 1,
   disconnectPortOperation (moduleById "2") "input" 1 "all"]

/-- The preview can refuse a connect into an input that is free when commit gets there. -/
theorem refusal_of_free_input :
    ¬ ∀ (w : PatchWorld) (ops pre : List Json) (op : Json) (st : PreviewState) (s : Applier),
      Runs (validateOne (w.world ops)) pre {} st → Runs (Applier.applyOne w.rack) pre w.start s →
      opType op = .connect →
      (jstr op "inputPolicy" "fail_if_connected" = "fail_if_connected" ∨
        jstr op "inputPolicy" "fail_if_connected" = "stack") →
      RefusedAsTaken (w.world ops) op st → InputCarriesCable op s := by
  intro h
  have hp := runFrom_done_iff.mp (show validateAll (bench.world connectAndFree) connectAndFree = _ from
    Outcome.eq_done_of_isDone (by decide))
  have hc := runFrom_done_iff.mp (show Applier.apply bench.rack connectAndFree bench.patch = _ from
    Outcome.eq_done_of_isDone (by decide))
  obtain ⟨id, portId, hid, hport, hcarries⟩ :=
    h bench connectAndFree connectAndFree (connectOperation (moduleById "1") 1 (moduleById "2") 1) _ _
      hp hc (by decide) (by decide) ⟨inputConnectedRefusal, _, rfl, .inl rfl⟩
  have hid' : some id = some 2 := hid.symm.trans (by decide)
  have hport' : (Except.ok portId : Except String Int) = .ok 1 := hport.symm.trans (by decide)
  cases hid'
  cases hport'
  exact hcarries (by decide)

end RackMcp
