import RackMcp.Lib.ExpiringCache
import RackMcp.Proof.SessionStep

/-!
# At most once under an operation id

The pump executes commands one after the other, each against the cache the ones before left.
`at_most_once`: what was recorded under an id answers every later command with that id while it is
within its lifetime and the next 512 records, so the handler does not run again. Two facts carry it. An
id is recorded only when no live entry has it, so the ids in the cache differ (`CacheSound`); and an
entry has no more entries behind it than were recorded since (`kept`).
-/

namespace RackMcp

open Gen ExpiringCache

variable {J : Jansson}

/-! ### The cache -/

theorem recordOperation_eq (cache : OpCache) (operationId fingerprint frame : String) (nowMs : Int) :
    recordOperation cache operationId fingerprint frame nowMs =
      record (fun e => !e.stale nowMs) opCacheBound cache ⟨operationId, fingerprint, frame, nowMs⟩ := rfl

theorem stale_iff {e : OpEntry} {nowMs : Int} :
    e.stale nowMs = true ↔ e.storedAtMs + limitIdempotencyCacheMs ≤ nowMs := by
  unfold OpEntry.stale
  rw [decide_eq_true_eq]
  omega

/-- A lookup misses when every entry under the id has expired. -/
theorem stale_of_miss {cache : OpCache} {operationId fingerprint : String} {nowMs : Int}
    (h : lookupOperation cache operationId fingerprint nowMs = .miss) {e : OpEntry} (he : e ∈ cache)
    (hid : e.operationId = operationId) : e.stale nowMs = true := by
  induction cache with
  | nil => cases he
  | cons first rest ih =>
    unfold lookupOperation at h
    split at h
    · next hskip =>
      rcases List.mem_cons.mp he with rfl | he
      · exact hskip.resolve_left (not_not.mpr hid)
      · exact ih h he
    · split at h <;> cases h

/-- A live entry decides every lookup of its id. -/
theorem lookupOperation_of_mem {cache : OpCache} (hids : (cache.map OpEntry.operationId).Nodup) {e : OpEntry}
    (he : e ∈ cache) {nowMs : Int} (hlive : e.stale nowMs = false) (fingerprint : String) :
    lookupOperation cache e.operationId fingerprint nowMs =
      if e.requestFingerprint ≠ fingerprint then .mismatch else .replay e.frame := by
  induction cache with
  | nil => cases he
  | cons first rest ih =>
    rw [List.map_cons, List.nodup_cons] at hids
    unfold lookupOperation
    rcases List.mem_cons.mp he with rfl | he
    · rw [if_neg]
      simp [hlive]
    · have hne : first.operationId ≠ e.operationId := fun heq => hids.1 (heq ▸ List.mem_map_of_mem he)
      rw [if_pos (.inl hne)]
      exact ih hids.2 he

/-! ### One command -/

/-- A call of `executeCommand`: the command, the clock readings and what the handlers would answer. -/
structure Call where
  cmd : BridgeCommand
  readings : ExecutionReadings
  answers : RackAnswers

/-- A call against the cache. -/
def OpCache.call (J : Jansson) (cache : OpCache) (c : Call) : OpCache × List Execution :=
  let executed := executeCommand J c.answers c.readings c.cmd cache
  (executed.2, [executed.1])

/-- The handler ran and its result was recorded. -/
def Execution.isRecorded : Execution → Bool
  | .ran _ recorded => recorded
  | _ => false

/-- A call leaves the cache alone, or records the result of its handler under an id no live entry has. -/
theorem executeCommand_cases (c : Call) (cache : OpCache) :
    ((executeCommand J c.answers c.readings c.cmd cache).1.isRecorded = false ∧
      (executeCommand J c.answers c.readings c.cmd cache).2 = cache) ∨
    ∃ result, dispatch J c.answers c.cmd = .ok result ∧ result.cacheable = true ∧ c.cmd.operationId ≠ "" ∧
      lookupOperation cache c.cmd.operationId (requestFingerprint J c.cmd) c.readings.lookupMs = .miss ∧
      executeCommand J c.answers c.readings c.cmd cache =
        (.ran result true, recordOperation cache c.cmd.operationId (requestFingerprint J c.cmd) result.frame
          c.readings.recordMs) := by
  unfold executeCommand
  split
  · next hempty =>
    left
    unfold runHandler
    split
    · exact ⟨rfl, rfl⟩
    · rw [if_neg (fun hrecord => hrecord.1 hempty)]
      exact ⟨rfl, rfl⟩
  · dsimp only
    split
    · exact .inl ⟨rfl, rfl⟩
    · exact .inl ⟨rfl, rfl⟩
    · next hmiss =>
      unfold runHandler
      split
      · exact .inl ⟨rfl, rfl⟩
      · next result hresult =>
        split
        · next hrecord => exact .inr ⟨result, hresult, hrecord.2, hrecord.1, hmiss, rfl⟩
        · exact .inl ⟨rfl, rfl⟩

section hit
variable {cmd : BridgeCommand} {answers : RackAnswers} {t : ExecutionReadings} {cache : OpCache}

/-- A command whose id and request are recorded is answered from the record. -/
theorem executeCommand_replay {cached : String} (hne : cmd.operationId ≠ "")
    (h : lookupOperation cache cmd.operationId (requestFingerprint J cmd) t.lookupMs = .replay cached) :
    executeCommand J answers t cmd cache = (.replayed (replayFrame J cmd.requestId cached), cache) := by
  unfold executeCommand
  rw [if_neg hne]
  dsimp only
  rw [h]

/-- A command whose id is recorded for another request is refused. -/
theorem executeCommand_mismatch (hne : cmd.operationId ≠ "")
    (h : lookupOperation cache cmd.operationId (requestFingerprint J cmd) t.lookupMs = .mismatch) :
    executeCommand J answers t cmd cache =
      (.mismatched (buildResError J cmd.requestId .badRequest
        ("operationId was already used for a different request; " ++
          "retry the original request or use a fresh operationId") false false), cache) := by
  unfold executeCommand
  rw [if_neg hne]
  dsimp only
  rw [h]

/-- A command whose id no live entry has is handed to its handler. -/
theorem executeCommand_miss (hne : cmd.operationId ≠ "")
    (h : lookupOperation cache cmd.operationId (requestFingerprint J cmd) t.lookupMs = .miss) :
    executeCommand J answers t cmd cache =
      runHandler J answers t.recordMs cmd (requestFingerprint J cmd) cache := by
  unfold executeCommand
  rw [if_neg hne]
  dsimp only
  rw [h]

end hit

/-- The ids in the cache differ, and it keeps to its bound. -/
structure CacheSound (cache : OpCache) : Prop where
  ids : (cache.map OpEntry.operationId).Nodup
  bound : cache.length ≤ opCacheBound

theorem cacheSound_call {cache : OpCache} (hsound : CacheSound cache) {c : Call}
    (hclock : c.readings.lookupMs ≤ c.readings.recordMs) : CacheSound (cache.call J c).1 := by
  obtain ⟨-, hsame⟩ | ⟨result, -, -, -, hmiss, heq⟩ := executeCommand_cases (J := J) c cache
  · rw [OpCache.call, hsame]
    exact hsound
  · rw [OpCache.call, heq, recordOperation_eq]
    refine ⟨nodup_record hsound.ids ?_, length_record_le (by decide) hsound.bound⟩
    intro e he hlive hid
    have hstale := stale_iff.mp (stale_of_miss hmiss he hid)
    have hfresh : ¬ e.stale c.readings.recordMs = true := by simpa using hlive
    rw [stale_iff] at hfresh
    omega

/-! ### Over a run -/

/-- The cache before the call at an index. -/
def cacheAt (J : Jansson) (calls : List Call) (k : ℕ) : OpCache := Trace.stateAt (OpCache.call J) [] calls k

/-- What the call at an index did. -/
def executionAt (J : Jansson) (calls : List Call) (k : ℕ) : Option Execution :=
  (calls[k]?).map fun c => (executeCommand J c.answers c.readings c.cmd (cacheAt J calls k)).1

/-- The results recorded by the calls after index `i` and before index `j`. -/
def recordsBetween (J : Jansson) (calls : List Call) (i j : ℕ) : ℕ :=
  (List.range j).countP fun k => decide (i < k) && (executionAt J calls k).any Execution.isRecorded

/-- The clock does not run back from one call to the next. -/
def CallsInOrder (calls : List Call) : Prop :=
  (calls.flatMap fun c => [c.readings.lookupMs, c.readings.recordMs]).Pairwise (· ≤ ·)

section run
variable {calls : List Call}

theorem CallsInOrder.lookup_le_record (hclock : CallsInOrder calls) {k : ℕ} {c : Call}
    (hc : calls[k]? = some c) : c.readings.lookupMs ≤ c.readings.recordMs := by
  have hpair := (List.pairwise_flatMap.mp hclock).1 c (List.mem_of_getElem? hc)
  simpa using hpair

theorem CallsInOrder.record_le_lookup (hclock : CallsInOrder calls) {j k : ℕ} {c d : Call} (hjk : j < k)
    (hc : calls[j]? = some c) (hd : calls[k]? = some d) : c.readings.recordMs ≤ d.readings.lookupMs := by
  have hpair := List.pairwise_iff_getElem.mp (List.pairwise_flatMap.mp hclock).2
  obtain ⟨hj, rfl⟩ := List.getElem?_eq_some_iff.mp hc
  obtain ⟨hk, rfl⟩ := List.getElem?_eq_some_iff.mp hd
  exact hpair j k hj hk hjk _ (by simp) _ (by simp)

theorem cacheAt_succ {k : ℕ} {c : Call} (hc : calls[k]? = some c) :
    cacheAt J calls (k + 1) = (executeCommand J c.answers c.readings c.cmd (cacheAt J calls k)).2 :=
  Trace.stateAt_succ hc

theorem executionAt_eq {k : ℕ} {c : Call} (hc : calls[k]? = some c) :
    executionAt J calls k = some (executeCommand J c.answers c.readings c.cmd (cacheAt J calls k)).1 := by
  unfold executionAt
  rw [hc]
  rfl

theorem cacheSound_run (hclock : CallsInOrder calls) (k : ℕ) : CacheSound (cacheAt J calls k) :=
  Trace.stable (Nat.zero_le k) ⟨List.nodup_nil, Nat.zero_le _⟩
    fun _ _ _ hc hsound => cacheSound_call hsound (hclock.lookup_le_record hc)

theorem recordsBetween_succ (calls : List Call) (i j : ℕ) :
    recordsBetween J calls i (j + 1) = recordsBetween J calls i j +
      if (decide (i < j) && (executionAt J calls j).any Execution.isRecorded) = true then 1 else 0 := by
  unfold recordsBetween
  rw [List.range_succ, List.countP_append, List.countP_singleton]

/-- A recorded entry is still there while it is live and fewer results than the bound were recorded since. -/
theorem kept {i : ℕ} {e : OpEntry} (he : Within 0 e (cacheAt J calls (i + 1))) {j : ℕ} (hij : i + 1 ≤ j)
    (hlive : ∀ k c, k < j → calls[k]? = some c → e.stale c.readings.recordMs = false)
    (hcount : recordsBetween J calls i j < opCacheBound) :
    Within (recordsBetween J calls i j) e (cacheAt J calls j) := by
  induction j, hij using Nat.le_induction with
  | base => exact he.mono (Nat.zero_le _)
  | succ j hij ih =>
    have hsucc := recordsBetween_succ (J := J) calls i j
    have hbefore := ih (fun k c hk => hlive k c (by omega)) (by omega)
    rcases hc : calls[j]? with _ | c
    · rw [cacheAt, Trace.stateAt_succ_of_none hc]
      exact hbefore.mono (by omega)
    · rw [cacheAt_succ hc]
      obtain ⟨-, hsame⟩ | ⟨result, -, -, -, -, heq⟩ := executeCommand_cases (J := J) c (cacheAt J calls j)
      · rw [hsame]
        exact hbefore.mono (by omega)
      · have hrecorded : (decide (i < j) && (executionAt J calls j).any Execution.isRecorded) = true := by
          rw [executionAt_eq hc, heq]
          have hlt : i < j := hij
          simp [Execution.isRecorded, hlt]
        rw [if_pos hrecorded] at hsucc
        rw [heq, recordOperation_eq, hsucc]
        exact hbefore.record (by simpa using hlive j c (by omega) hc) (by omega)

/-- The entry a call records. -/
def Call.entry (J : Jansson) (c : Call) (result : HandlerResult) : OpEntry :=
  ⟨c.cmd.operationId, requestFingerprint J c.cmd, result.frame, c.readings.recordMs⟩

/-- A recorded result is the handler's, under an id, and its entry is the last of the cache. -/
theorem entry_of_recorded {i : ℕ} {c : Call} {result : HandlerResult} (hc : calls[i]? = some c)
    (hran : executionAt J calls i = some (.ran result true)) :
    dispatch J c.answers c.cmd = .ok result ∧ result.cacheable = true ∧ c.cmd.operationId ≠ "" ∧
      Within 0 (c.entry J result) (cacheAt J calls (i + 1)) := by
  rw [executionAt_eq hc, Option.some.injEq] at hran
  obtain ⟨hnot, -⟩ | ⟨result', hdispatch, hcacheable, hne, -, heq⟩ :=
    executeCommand_cases (J := J) c (cacheAt J calls i)
  · rw [hran] at hnot
    cases hnot
  · rw [heq] at hran
    cases hran
    refine ⟨hdispatch, hcacheable, hne, ?_⟩
    rw [cacheAt_succ hc, heq, recordOperation_eq]
    exact within_record_self

/-- A recorded result decides what a later command with its id finds within the lifetime and the next 512
records. -/
theorem lookup_of_recorded (hclock : CallsInOrder calls) {i j : ℕ} {c d : Call} {result : HandlerResult}
    (hc : calls[i]? = some c) (hran : executionAt J calls i = some (.ran result true)) (hij : i < j)
    (hd : calls[j]? = some d) (hid : d.cmd.operationId = c.cmd.operationId)
    (hlife : d.readings.lookupMs < c.readings.recordMs + limitIdempotencyCacheMs)
    (hcount : recordsBetween J calls i j < opCacheBound) :
    lookupOperation (cacheAt J calls j) d.cmd.operationId (requestFingerprint J d.cmd) d.readings.lookupMs =
      if requestFingerprint J c.cmd ≠ requestFingerprint J d.cmd then .mismatch else .replay result.frame := by
  obtain ⟨-, -, -, hwithin⟩ := entry_of_recorded hc hran
  -- Until the later call the entry is live, so it is still there when the call looks it up.
  have hlive : ∀ nowMs ≤ d.readings.lookupMs, (c.entry J result).stale nowMs = false := by
    intro nowMs hnow
    rw [Bool.eq_false_iff, ne_eq, stale_iff]
    show ¬ c.readings.recordMs + limitIdempotencyCacheMs ≤ nowMs
    omega
  have hmem : c.entry J result ∈ cacheAt J calls j :=
    (kept hwithin hij (fun k x hk hx => hlive _ (hclock.record_le_lookup hk hx hd)) hcount).mem
  rw [hid]
  exact lookupOperation_of_mem (cacheSound_run hclock j).ids hmem (hlive _ le_rfl) (requestFingerprint J d.cmd)

end run

/-! ### The frames of a run -/

/-- jansson encodes the value, and reads back what it encoded. -/
def Jansson.RoundTrips (J : Jansson) (v : Json) : Prop := ∃ text, J.dumps v = some text ∧ J.loads text = some v

/-- The objects `txnOutcomeToFrame` encodes. -/
def txnResponses (cmd : BridgeCommand) (outcome : TxnOutcome) : List (List (String × Json)) :=
  match outcome.errorCode with
  | none => [resOk cmd.requestId outcome.payload]
  | some code =>
    let base := resError cmd.requestId code outcome.errorMessage outcome.retrySafe
      outcome.mutationMayHaveOccurred
    base :: (errorWithExtras outcome.payload base).toList

/-- The object `patchFileOutcomeToFrame` encodes. -/
def patchFileResponses (cmd : BridgeCommand) (outcome : PatchFileOutcome) : List (List (String × Json)) :=
  match outcome.errorCode with
  | none => [resOk cmd.requestId outcome.payload]
  | some code => [resError cmd.requestId code outcome.errorMessage false (code == .internal)]

/-- The response objects a call with a cacheable result encodes. -/
def Call.responses (c : Call) : List (List (String × Json)) :=
  if c.cmd.method ∈ ["txn.commit", "txn.undoLast"] then
    match c.answers.txn c.cmd.method with
    | .ok outcome => txnResponses c.cmd outcome
    | .error _ => []
  else
    match c.answers.patchFile c.cmd.method with
    | .ok outcome => patchFileResponses c.cmd outcome
    | .error _ => []

theorem Jansson.RoundTrips.loads {v : Json} (h : J.RoundTrips v) (fallback : String) :
    J.loads ((J.dumps v).getD fallback) = some v := by
  obtain ⟨text, hdumps, hloads⟩ := h
  rw [hdumps]
  exact hloads

theorem loads_attachErrorExtras {frame : String} {extras : Option Json} {base : List (String × Json)}
    (hbase : J.loads frame = some (.object base))
    (h : ∀ root ∈ (errorWithExtras extras base).toList, J.RoundTrips (.object root)) :
    ∃ root ∈ base :: (errorWithExtras extras base).toList,
      J.loads (attachErrorExtras J frame extras) = some (.object root) := by
  unfold attachErrorExtras
  split
  · exact ⟨base, List.mem_cons_self, hbase⟩
  · rw [hbase]
    dsimp only
    rcases hextras : errorWithExtras extras base with _ | root
    · exact ⟨base, List.mem_cons_self, hbase⟩
    · rw [hextras] at h
      exact ⟨root, by simp, (h root (by simp)).loads frame⟩

theorem loads_txnOutcomeToFrame {cmd : BridgeCommand} {outcome : TxnOutcome}
    (h : ∀ root ∈ txnResponses cmd outcome, J.RoundTrips (.object root)) :
    ∃ root ∈ txnResponses cmd outcome, J.loads (txnOutcomeToFrame J cmd outcome) = some (.object root) := by
  unfold txnResponses txnOutcomeToFrame at *
  rcases hcode : outcome.errorCode with _ | code
  · rw [hcode] at h
    exact ⟨_, List.mem_singleton_self _, (h _ (List.mem_singleton_self _)).loads _⟩
  · rw [hcode] at h
    dsimp only at h ⊢
    split
    · exact loads_attachErrorExtras ((h _ List.mem_cons_self).loads _)
        fun root hroot => h root (List.mem_cons_of_mem _ hroot)
    · exact ⟨_, List.mem_cons_self, (h _ List.mem_cons_self).loads _⟩

theorem loads_patchFileOutcomeToFrame {cmd : BridgeCommand} {outcome : PatchFileOutcome}
    (h : ∀ root ∈ patchFileResponses cmd outcome, J.RoundTrips (.object root)) :
    ∃ root ∈ patchFileResponses cmd outcome,
      J.loads (patchFileOutcomeToFrame J cmd outcome) = some (.object root) := by
  unfold patchFileResponses patchFileOutcomeToFrame at *
  split
  · next code hcode =>
    rw [hcode] at h ⊢
    exact ⟨_, List.mem_singleton_self _, (h _ (List.mem_singleton_self _)).loads _⟩
  · next hcode =>
    rw [hcode] at h ⊢
    exact ⟨_, List.mem_singleton_self _, (h _ (List.mem_singleton_self _)).loads _⟩

theorem map_eq_ok {ε α β : Type} {x : Except ε α} {f : α → β} {b : β} (h : x.map f = .ok b) :
    ∃ a, x = .ok a ∧ f a = b := by
  rcases x with e | a
  · cases h
  · exact ⟨a, rfl, Except.ok.inj h⟩

/-- The frame of a cacheable result is one of the call's responses. -/
theorem loads_dispatch {c : Call} {result : HandlerResult} (hresult : dispatch J c.answers c.cmd = .ok result)
    (hcacheable : result.cacheable = true) (h : ∀ root ∈ c.responses, J.RoundTrips (.object root)) :
    ∃ root ∈ c.responses, J.loads result.frame = some (.object root) := by
  have htxn : ∀ (outcome : TxnOutcome), c.answers.txn c.cmd.method = .ok outcome →
      c.cmd.method ∈ ["txn.commit", "txn.undoLast"] →
      ∃ root ∈ c.responses, J.loads (txnOutcomeToFrame J c.cmd outcome) = some (.object root) := by
    intro outcome houtcome hmethod
    have hresponses : c.responses = txnResponses c.cmd outcome := by
      unfold Call.responses
      rw [if_pos hmethod, houtcome]
    rw [hresponses] at h ⊢
    exact loads_txnOutcomeToFrame h
  unfold dispatch at hresult
  split at hresult
  · obtain ⟨frame, -, rfl⟩ := map_eq_ok hresult
    cases hcacheable
  split at hresult
  · obtain ⟨outcome, -, rfl⟩ := map_eq_ok hresult
    cases hcacheable
  split at hresult
  · next hmethod =>
    obtain ⟨outcome, houtcome, rfl⟩ := map_eq_ok hresult
    exact htxn outcome houtcome (by simp [hmethod])
  split at hresult
  · next hmethod =>
    obtain ⟨outcome, houtcome, rfl⟩ := map_eq_ok hresult
    exact htxn outcome houtcome (by simp [hmethod])
  split at hresult
  · next hcommit hundo _ =>
    obtain ⟨outcome, houtcome, rfl⟩ := map_eq_ok hresult
    have hresponses : c.responses = patchFileResponses c.cmd outcome := by
      unfold Call.responses
      rw [if_neg (by simp [hcommit, hundo]), houtcome]
    rw [hresponses] at h ⊢
    exact loads_patchFileOutcomeToFrame h
  · cases hresult
    cases hcacheable

/-! ### What a replay changes -/

theorem lookup_setMember_self (key : String) (value : Json) (members : List (String × Json)) :
    (setMember key value members).lookup key = some value := by
  unfold setMember
  split
  · next hany =>
    induction members with
    | nil => cases hany
    | cons m rest ih =>
      by_cases hm : m.1 = key
      · simp [hm]
      · have hrest : rest.any (·.1 == key) = true := by simpa [hm] using hany
        have hne : (key == m.1) = false := by simpa using fun heq => hm heq.symm
        rw [List.map_cons, if_neg hm, List.lookup_cons, hne]
        exact ih hrest
  · next hany =>
    have hnone : members.lookup key = none := by
      rw [List.lookup_eq_none_iff]
      intro m hm
      have hne : m.1 ≠ key := fun heq => hany (List.any_eq_true.mpr ⟨m, hm, by simpa using heq⟩)
      simpa using hne.symm
    rw [List.lookup_append, hnone]
    simp

theorem lookup_map_of_ne {key key' : String} (hne : key' ≠ key) (value : Json)
    (members : List (String × Json)) :
    (members.map fun m => if m.1 = key then (key, value) else m).lookup key' = members.lookup key' := by
  have hfalse : (key' == key) = false := by simpa using hne
  induction members with
  | nil => rfl
  | cons m rest ih =>
    by_cases hm : m.1 = key
    · rw [List.map_cons, if_pos hm, List.lookup_cons, List.lookup_cons, hm, hfalse, ih]
    · rw [List.map_cons, if_neg hm, List.lookup_cons, List.lookup_cons, ih]

theorem lookup_setMember_of_ne {key key' : String} (hne : key' ≠ key) (value : Json)
    (members : List (String × Json)) : (setMember key value members).lookup key' = members.lookup key' := by
  unfold setMember
  split
  · exact lookup_map_of_ne hne value members
  · have hfalse : (key' == key) = false := by simpa using hne
    rw [List.lookup_append, List.lookup_cons, hfalse]
    simp

/-! ### At most once -/

/-- On a clock that does not run back, and with jansson reading back what it encodes: what a call recorded
under an id decides every later call with the id that looks it up within the lifetime and before 512
further records. The same request is answered with the recorded frame under its own id, another one with
BAD_REQUEST, and the handler runs for neither. The ids in the cache differ, and it has 512 entries at
most. -/
theorem at_most_once (J : Jansson) (calls : List Call) (hclock : CallsInOrder calls)
    (hencodes : ∀ c ∈ calls, ∀ root ∈ c.responses, J.RoundTrips (.object root) ∧
      ∀ d ∈ calls, J.RoundTrips (asReplay d.cmd.requestId (.object root))) :
    (∀ i j c d result, calls[i]? = some c → executionAt J calls i = some (.ran result true) → i < j →
      calls[j]? = some d → d.cmd.operationId = c.cmd.operationId →
      d.readings.lookupMs < c.readings.recordMs + limitIdempotencyCacheMs →
      recordsBetween J calls i j < 512 →
      (requestFingerprint J d.cmd = requestFingerprint J c.cmd →
        ∃ root text, J.loads result.frame = some (.object root) ∧
          J.loads text = some (asReplay d.cmd.requestId (.object root)) ∧
          executionAt J calls j = some (.replayed text)) ∧
      (requestFingerprint J d.cmd ≠ requestFingerprint J c.cmd →
        executionAt J calls j = some (.mismatched (buildResError J d.cmd.requestId .badRequest
          ("operationId was already used for a different request; " ++
            "retry the original request or use a fresh operationId") false false)))) ∧
    ∀ k, ((cacheAt J calls k).map OpEntry.operationId).Nodup ∧ (cacheAt J calls k).length ≤ 512 := by
  refine ⟨?_, fun k => ⟨(cacheSound_run hclock k).ids, (cacheSound_run hclock k).bound⟩⟩
  intro i j c d result hc hran hij hd hid hlife hcount
  obtain ⟨hdispatch, hcacheable, hne, -⟩ := entry_of_recorded hc hran
  have hlookup := lookup_of_recorded hclock hc hran hij hd hid hlife hcount
  have hne' : d.cmd.operationId ≠ "" := hid ▸ hne
  constructor
  · intro hsame
    rw [if_neg (not_not.mpr hsame.symm)] at hlookup
    obtain ⟨root, hroot, hloads⟩ := loads_dispatch hdispatch hcacheable fun root hroot =>
      (hencodes c (List.mem_of_getElem? hc) root hroot).1
    obtain ⟨text, hdumps, hread⟩ :=
      (hencodes c (List.mem_of_getElem? hc) root hroot).2 d (List.mem_of_getElem? hd)
    refine ⟨root, text, hloads, hread, ?_⟩
    have hreplay : replayFrame J d.cmd.requestId result.frame = text := by
      unfold replayFrame
      rw [hloads]
      dsimp only
      rw [hdumps]
      rfl
    rw [executionAt_eq hd, executeCommand_replay hne' hlookup, hreplay]
  · intro hother
    rw [if_pos (Ne.symm hother)] at hlookup
    rw [executionAt_eq hd, executeCommand_mismatch hne' hlookup]

/-! ### A bench run -/

/-- An undo under one operation id. -/
def benchUndoCall (requestId : String) (lookupMs recordMs : Int) (txn : Except HandlerThrow TxnOutcome) : Call where
  cmd :=
    { connectionId := 1, requestId, method := "txn.undoLast"
      operationId := "11111111-1111-4111-8111-111111111111"
      payload := .object [("expectedOperationId", .string ""), ("scope", .object [])]
      deadlineAtMs := 5000, mutating := true, leaseId := "00000000-0000-4000-8000-000000000000" }
  readings := ⟨lookupMs, recordMs⟩
  answers := { benchAnswers with txn := fun _ => txn }

/-- The undo, and its retry; a second undo would throw. -/
def benchCalls : List Call :=
  [benchUndoCall "00000000000000a2" 6 7 (.ok {}), benchUndoCall "00000000000000a3" 900 901 (.error .nonStandard)]

/-- The values of the run that are encoded. -/
def benchValues : List Json :=
  benchCalls.flatMap fun c => c.responses.flatMap fun root =>
    .object root :: benchCalls.map fun d => asReplay d.cmd.requestId (.object root)

def benchCodec : Jansson := { benchJansson with loads := fun text => benchValues.find? (compactText · == text) }

theorem benchCodec_roundTrips {v : Json} (hv : v ∈ benchValues) : benchCodec.RoundTrips v :=
  ⟨compactText v, rfl, Keyed.find?_eq_some (by decide) hv⟩

theorem bench_recorded : ∃ result, executionAt benchCodec benchCalls 0 = some (.ran result true) := by
  exact ⟨_, rfl⟩

/-- On the bench the retry is answered from the record. -/
theorem at_most_once_bench : ∃ text, executionAt benchCodec benchCalls 1 = some (.replayed text) := by
  obtain ⟨result, hran⟩ := bench_recorded
  have hencodes : ∀ c ∈ benchCalls, ∀ root ∈ c.responses, benchCodec.RoundTrips (.object root) ∧
      ∀ d ∈ benchCalls, benchCodec.RoundTrips (asReplay d.cmd.requestId (.object root)) := by
    intro c hc root hroot
    refine ⟨benchCodec_roundTrips ?_, fun d hd => benchCodec_roundTrips ?_⟩
    · exact List.mem_flatMap.mpr ⟨c, hc, List.mem_flatMap.mpr ⟨root, hroot, List.mem_cons_self⟩⟩
    · exact List.mem_flatMap.mpr ⟨c, hc, List.mem_flatMap.mpr
        ⟨root, hroot, List.mem_cons_of_mem _ (List.mem_map_of_mem hd)⟩⟩
  have hcount : recordsBetween benchCodec benchCalls 0 1 < 512 :=
    lt_of_le_of_lt List.countP_le_length (by decide)
  obtain ⟨hsame, -⟩ := (at_most_once benchCodec benchCalls (by unfold CallsInOrder; decide) hencodes).1 0 1 _ _
    result rfl hran (by decide) rfl rfl (by decide) hcount
  obtain ⟨root, text, -, -, hreplayed⟩ := hsame rfl
  exact ⟨text, hreplayed⟩

end RackMcp
