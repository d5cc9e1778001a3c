import RackMcp.Proof.Lockstep

/-!
# The last Bridge

No accepted plan removes every Bridge of the patch unless one of its operations asks for it: the number
of Bridges the plan leaves never falls below one (`remainingBridgeCount_step`).
-/

namespace RackMcp

open Gen Outcomes

variable {world : PlanWorld} {op : Json} {st st' : PreviewState}

/-- A Bridge the plan has not removed. -/
theorem remainingBridgeCount_pos {modules : List WorldModule} {removed : List Int} :
    0 < remainingBridgeCount modules removed ↔ ∃ m ∈ modules, isBridgeModule m ∧ m.id ∉ removed := by
  simp only [remainingBridgeCount, List.countP_pos_iff, Bool.and_eq_true, Bool.not_eq_true',
    List.contains_eq_mem, decide_eq_false_iff_not]

/-- Removing one module takes at most one Bridge away, and none when the module is no Bridge. -/
theorem remainingBridgeCount_snoc {modules : List WorldModule} (removed : List Int) {m : WorldModule}
    (hnodup : (modules.map (·.id)).Nodup) (hm : m ∈ modules) :
    remainingBridgeCount modules removed ≤
      remainingBridgeCount modules (removed ++ [m.id]) + if isBridgeModule m then 1 else 0 := by
  have hother : ∀ b ∈ modules.erase m, b.id ≠ m.id := fun b hb hid => by
    have hmodules : modules.Nodup := hnodup.of_map
    obtain ⟨hne, hb⟩ := (hmodules.mem_erase_iff).mp hb
    exact hne (Keyed.eq_of_key_eq hnodup hb hm hid)
  have hperm := List.perm_cons_erase hm
  have hrest : (modules.erase m).countP (fun b => isBridgeModule b && !removed.contains b.id) =
      (modules.erase m).countP (fun b => isBridgeModule b && !(removed ++ [m.id]).contains b.id) := by
    refine List.countP_congr fun b hb => ?_
    have hne := hother b hb
    simp [hne]
  rw [remainingBridgeCount, remainingBridgeCount, hperm.countP_eq, hperm.countP_eq, List.countP_cons,
    List.countP_cons, hrest]
  by_cases hbridge : isBridgeModule m
  · simp only [hbridge, Bool.true_and, if_true]
    split <;> split <;> omega
  · simp [hbridge]

/-- An accepted operation that does not ask to remove the last Bridge leaves one. -/
theorem remainingBridgeCount_step (hnodup : (world.modules.map (·.id)).Nodup)
    (hallow : opType op = .removeModule → ¬ jbool op "allowLastBridge" false)
    (h : PreviewStep world op st st') (hpos : 0 < remainingBridgeCount world.modules st.removedModules) :
    0 < remainingBridgeCount world.modules st'.removedModules := by
  cases h with
  | add _ _ _ _ _ _ removedModules => rwa [removedModules]
  | removeAlias _ _ _ same => rwa [same]
  | removeLive kind id _ _ _ m found bridge _ _ _ removedModules =>
    unfold liveModule at found
    split at found
    · cases found
    obtain ⟨hm, rfl⟩ := Keyed.mem_of_find? found
    have hcount := remainingBridgeCount_snoc st.removedModules hnodup hm
    rw [removedModules]
    by_cases hbridge : isBridgeModule m
    · have hleft := (bridge hbridge).resolve_left (hallow kind)
      rw [if_pos hbridge] at hcount
      omega
    · rw [if_neg hbridge] at hcount
      omega
  | modifyAlias _ _ _ same => rwa [same.removedModules]
  | modifyLive _ _ _ _ _ _ _ _ same => rwa [same.removedModules]
  | move _ _ same => rwa [same.removedModules]
  | connect _ _ _ _ _ _ _ _ _ _ _ _ _ _ _ _ removedModules => rwa [removedModules]
  | disconnect _ cid _ _ _ same =>
    have hrest : PreviewState.SameButRemoved st (st.removeCable cid) :=
      PreviewState.removeCables_same st [cid]
    rwa [same, hrest.removedModules]
  | disconnectPortAlias _ _ _ same => rwa [same]
  | disconnectPortLive _ _ _ _ _ _ _ _ _ _ _ same => rwa [same.removedModules]

/-! ### The refusal -/

theorem refuse_ne_lastBridge {code : ErrorCode} {message : String} (h : code ≠ .unsupportedOperation) :
    refuse code message st ≠ .thrown lastBridgeRefusal st' := by
  intro heq
  cases heq
  exact h rfl

/-- Only `remove_module` of a live Bridge, with at most one Bridge left, is refused for the last Bridge. -/
theorem validateRemove_lastBridge (h : validateRemove op world st = .thrown lastBridgeRefusal st') :
    ∃ id m, liveModule world st id = some m ∧ isBridgeModule m ∧
      remainingBridgeCount world.modules st.removedModules ≤ 1 := by
  unfold validateRemove at h
  dsimp only at h
  split at h
  · exact absurd h (refuse_ne_lastBridge (by decide))
  split at h
  · cases h
  split at h
  · exact absurd h (refuse_ne_lastBridge (by decide))
  rename_i m hfound
  split at h
  · rename_i hlast
    exact ⟨_, m, hfound, hlast.1, hlast.2.2⟩
  split at h
  · exact absurd h (refuse_ne_lastBridge (by decide))
  · cases h

theorem validateModify_ne_lastBridge {type : OpType} :
    validateModify type op world st ≠ .thrown lastBridgeRefusal st' := by
  intro h
  unfold validateModify at h
  dsimp only at h
  repeat' split at h
  all_goals first
    | exact absurd h (refuse_ne_lastBridge (by decide))
    | cases h

theorem validateMove_ne_lastBridge : validateMove op world st ≠ .thrown lastBridgeRefusal st' := by
  intro h
  unfold validateMove at h
  dsimp only at h
  repeat' split at h
  all_goals first
    | exact absurd h (refuse_ne_lastBridge (by decide))
    | cases h

theorem claimInput_ne_lastBridge {inModule inPort : Int} {existing : List Int} :
    claimInput op inModule inPort existing st ≠ .thrown lastBridgeRefusal st' := by
  intro h
  unfold claimInput at h
  dsimp only at h
  split at h
  · split at h
    · cases h
    split at h
    · exact absurd (congrArg (fun e : Verdict => e.mapError ValidationError.message) h) (by
        simp [Outcome.mapError, singleCableRefusal, lastBridgeRefusal])
    · cases h
  · cases h

theorem validateConnect_ne_lastBridge :
    validateConnect op world st ≠ .thrown lastBridgeRefusal st' := by
  intro h
  unfold validateConnect at h
  dsimp only at h
  repeat' split at h
  all_goals first
    | exact absurd h (refuse_ne_lastBridge (by decide))
    | exact absurd h claimInput_ne_lastBridge

theorem validateDisconnects_ne_lastBridge :
    validateDisconnect op world st ≠ .thrown lastBridgeRefusal st' ∧
      validateDisconnectPort op world st ≠ .thrown lastBridgeRefusal st' := by
  constructor
  · intro h
    unfold validateDisconnect at h
    dsimp only at h
    repeat' split at h
    all_goals first
      | exact absurd h (refuse_ne_lastBridge (by decide))
      | cases h
  · intro h
    unfold validateDisconnectPort at h
    dsimp only at h
    repeat' split at h
    all_goals first
      | exact absurd h (refuse_ne_lastBridge (by decide))
      | cases h

theorem validateAdd_ne_lastBridge : validateAdd op world st ≠ .thrown lastBridgeRefusal st' := by
  intro h
  unfold validateAdd at h
  dsimp only at h
  repeat' split at h
  all_goals first
    | exact absurd h (refuse_ne_lastBridge (by decide))
    | cases h

/-- The refusal of an operation that is no `remove_module` has another message. -/
theorem unsupported_ne_lastBridge {message : String} (h : message ≠ lastBridgeRefusal.message) :
    refuse .unsupportedOperation message st ≠ .thrown lastBridgeRefusal st' := by
  intro heq
  cases heq
  exact h rfl

/-- The last-Bridge refusal comes when exactly one Bridge is left. -/
theorem remainingBridgeCount_of_refusal (h : validateOne world op st = .thrown lastBridgeRefusal st') :
    remainingBridgeCount world.modules st.removedModules = 1 := by
  have hremove : ∃ id m, liveModule world st id = some m ∧ isBridgeModule m ∧
      remainingBridgeCount world.modules st.removedModules ≤ 1 := by
    unfold validateOne at h
    split at h
    · exact absurd h (refuse_ne_lastBridge (by decide))
    unfold validateBranch at h
    split at h
    · exact absurd h validateAdd_ne_lastBridge
    · exact validateRemove_lastBridge h
    · exact absurd h validateModify_ne_lastBridge
    · exact absurd h validateModify_ne_lastBridge
    · exact absurd h validateModify_ne_lastBridge
    · exact absurd h validateModify_ne_lastBridge
    · exact absurd h validateMove_ne_lastBridge
    · exact absurd h validateConnect_ne_lastBridge
    · exact absurd h validateDisconnects_ne_lastBridge.1
    · exact absurd h validateDisconnects_ne_lastBridge.2
    · exact absurd h (unsupported_ne_lastBridge (by decide))
    · refine absurd h (unsupported_ne_lastBridge fun heq => ?_)
      have hlist := congrArg String.toList heq
      simp [lastBridgeRefusal] at hlist
  obtain ⟨id, m, found, hbridge, hleft⟩ := hremove
  have hpos : 0 < remainingBridgeCount world.modules st.removedModules := by
    unfold liveModule at found
    split at found
    · cases found
    obtain ⟨hm, rfl⟩ := Keyed.mem_of_find? found
    exact remainingBridgeCount_pos.mpr ⟨m, hm, hbridge, ‹_›⟩
  omega

theorem remainingBridgeCount_eq_one {modules : List WorldModule} {removed : List Int}
    (h : remainingBridgeCount modules removed = 1) :
    ∃! m, m ∈ modules ∧ isBridgeModule m ∧ m.id ∉ removed := by
  rw [remainingBridgeCount, List.countP_eq_length_filter, List.length_eq_one_iff] at h
  obtain ⟨last, hlast⟩ := h
  have hmem (m : WorldModule) : m ∈ modules ∧ isBridgeModule m ∧ m.id ∉ removed ↔ m = last := by
    have hsingleton := List.mem_singleton (a := m) (b := last)
    rw [← hsingleton, ← hlast, List.mem_filter]
    simp
  exact ⟨last, (hmem last).mpr rfl, fun m hm => (hmem m).mp hm⟩

/-- An accepted plan without `allowLastBridge` leaves a Bridge of the patch, and an operation is refused
for the last Bridge only when exactly one is left. -/
theorem last_bridge_kept (world : PlanWorld) (ops : List Json)
    (hnodup : (world.modules.map (·.id)).Nodup) (hbridge : ∃ m ∈ world.modules, isBridgeModule m)
    (hallow : ∀ op ∈ ops, jstr op "op" = "remove_module" → ¬ jbool op "allowLastBridge" false) :
    (∀ st, validateAll world ops = .done st →
      ∃ m ∈ world.modules, isBridgeModule m ∧ m.id ∉ st.removedModules) ∧
    (∀ op st st', validateOne world op st = .thrown lastBridgeRefusal st' →
      ∃! m, m ∈ world.modules ∧ isBridgeModule m ∧ m.id ∉ st.removedModules) := by
  refine ⟨fun st hp => ?_, fun op st st' h => remainingBridgeCount_eq_one (remainingBridgeCount_of_refusal h)⟩
  rw [validateAll, runFrom_done_iff] at hp
  rw [← remainingBridgeCount_pos]
  refine hp.invariant (I := fun st => 0 < remainingBridgeCount world.modules st.removedModules) ?_ ?_
  · intro op hop st st' hpos hstep
    refine remainingBridgeCount_step hnodup (fun kind => hallow op hop ?_) (validateOne_step hstep) hpos
    rw [← name_opType, kind]
    rfl
  · obtain ⟨m, hm, hisBridge⟩ := hbridge
    exact remainingBridgeCount_pos.mpr ⟨m, hm, hisBridge, by simp⟩

/-- Without the oscillator the Bridge of the bench is still there. -/
theorem last_bridge_bench : ∃ m ∈ (bench.world removeOscillator).modules, isBridgeModule m ∧
    m.id ∉ (validateAll (bench.world removeOscillator) removeOscillator).state.removedModules :=
  (last_bridge_kept (bench.world removeOscillator) removeOscillator (by decide) (by decide)
    (by decide)).1 _ (Outcome.eq_done_of_isDone (by decide))

end RackMcp
