import RackMcp.Proof.Responses
import RackMcp.Proof.SingleUse

/-!
# What the recovery checkpoint holds

A load or a clear is executed after its call has read the fingerprint of the live patch and saved a copy of it, in
three requests. Nothing keeps the patch from changing in between, and the plugin compares nothing when it loads or
clears: so the patch it discards is the confirmed and archived one when nothing has changed it meanwhile.
-/

namespace RackMcp.Server

open Gen

variable {N : Node} {rack : Rack} {J : Jansson} {s s' : Shared}

/-! ### The patch of a Rack over time -/

/-- The later of two states of a Rack: its patch is the same if it has not changed since. -/
structure Site.Becomes (a b : Site) : Prop where
  revision : a.revision ≤ b.revision
  patch : b.revision = a.revision → b.host.rack.patch = a.host.rack.patch

theorem Site.Becomes.refl (a : Site) : a.Becomes a := ⟨Nat.le_refl _, fun _ => rfl⟩

theorem Site.Becomes.trans {a b c : Site} (h : a.Becomes b) (h' : b.Becomes c) : a.Becomes c := by
  refine ⟨h.revision.trans h'.revision, fun hsame => ?_⟩
  have hlower := h.revision
  have hupper := h'.revision
  exact (h'.patch (by omega)).trans (h.patch (by omega))

theorem Site.becomes_become (host : Host) (a : Site) : a.Becomes (a.become host) := by
  unfold Site.become
  split
  · next hsame => exact ⟨Nat.le_refl _, fun _ => hsame⟩
  · exact ⟨Nat.le_succ _, fun hsame => absurd hsame (Nat.succ_ne_self _)⟩

theorem becomes_modify {sites : List Site} {f : Site → Site} (hf : ∀ a : Site, a.Becomes (f a)) (k h : ℕ) {a : Site}
    (ha : sites[h]? = some a) : ∃ b, (sites.modify k f)[h]? = some b ∧ a.Becomes b := by
  rw [List.getElem?_modify, ha]
  by_cases hkh : k = h
  · exact ⟨f a, congrArg some (if_pos hkh), hf a⟩
  · exact ⟨a, congrArg some (if_neg hkh), .refl a⟩

namespace World

theorem becomes_step (w : World) (e : WorldEvent) {h : ℕ} {a : Site} (ha : w.sites[h]? = some a) :
    ∃ b, (w.step N rack J e).1.sites[h]? = some b ∧ a.Becomes b := by
  rcases e with tool | i | e | ⟨n, t, r⟩ | ⟨k, e⟩
  · exact ⟨a, ha, .refl a⟩
  · unfold step
    dsimp only
    split <;> exact ⟨a, ha, .refl a⟩
  · exact ⟨a, ha, .refl a⟩
  · unfold step
    dsimp only
    split
    · exact ⟨a, ha, .refl a⟩
    · next x _ => exact becomes_modify (Site.becomes_become x.left) x.host h ha
  · exact becomes_modify (fun a => Site.becomes_become _ a) k h ha

section run
variable {sites : List Site} {es : List WorldEvent}

theorem becomes_stateAt {j k h : ℕ} (hjk : j ≤ k) {a : Site} (ha : (stateAt N rack J sites es j).sites[h]? = some a) :
    ∃ b, (stateAt N rack J sites es k).sites[h]? = some b ∧ a.Becomes b := by
  refine Trace.stable (P := fun w : World => ∃ b, w.sites[h]? = some b ∧ a.Becomes b) hjk ⟨a, ha, .refl a⟩
    fun i e _ _ ih => ?_
  obtain ⟨b, hb, hbecomes⟩ := ih
  obtain ⟨c, hc, hstep⟩ := @becomes_step N rack J _ e _ _ hb
  exact ⟨c, hc, hbecomes.trans hstep⟩

/-- Two executions on one Rack, whose patch has not changed in between, find the same patch. -/
theorem patch_of_revision {j k : ℕ} (hjk : j ≤ k) {y x : Executed} (hy : Executes N rack J sites es j y)
    (hx : Executes N rack J sites es k x) (hhost : y.host = x.host) (hrevision : y.site.revision = x.site.revision) :
    y.site.host.rack.patch = x.site.host.rack.patch := by
  have hsite := (runs_of_executes hy).1.site
  rw [hhost] at hsite
  obtain ⟨b, hb, hbecomes⟩ := becomes_stateAt hjk hsite
  rw [(runs_of_executes hx).1.site] at hb
  obtain rfl := Option.some.inj hb
  exact (hbecomes.patch hrevision.symm).symm

end run

end World

/-! ### What an answered fingerprint says -/

/-- A fingerprint that was read is that of the patch it was read of. -/
theorem fingerprint_of_read {x : Executed} (hlegible : x.Legible N rack J) {t : ExecutionReadings}
    (hexecuted : x.site.host.execute rack J t x.readings x.cmd = (x.execution, x.left))
    (hmethod : x.cmd.method = "patch.fingerprint") (hid : x.cmd.operationId = "")
    (hpayload : x.cmd.payload = .object []) {root : Json}
    (hroot : N.parse (sentFrame J limitBridgeFrameBytes x.cmd x.execution) = some root)
    (hok : jbool root "ok" false = true) :
    ∃ fingerprint, rack.computePatchFingerprint x.site.host.rack.patch = some fingerprint ∧
      (Json.get root "payload").getD .null = fingerprintPayload fingerprint x.site.host.rack.patchEpoch := by
  have hguard : epochGuard J x.cmd x.site.host.rack.patchEpoch = none := by
    unfold epochGuard
    rw [hpayload]
    rfl
  have hdispatch : dispatch J (x.site.host.answers rack J x.readings x.cmd) x.cmd =
      (handlePatchFingerprint rack J x.readings x.cmd x.site.host).map fun frame => { frame } := by
    unfold dispatch
    rw [if_pos (by rw [hmethod]; decide), hmethod]
    rfl
  have hexecution : x.execution = (runHandler J (x.site.host.answers rack J x.readings x.cmd) t.recordMs x.cmd ""
      x.site.host.opCache).1 := by
    have h := congrArg Prod.fst hexecuted
    unfold Host.execute executeCommand at h
    rw [if_pos hid] at h
    exact h.symm
  unfold handlePatchFingerprint at hdispatch
  rw [hguard] at hdispatch
  rcases hfingerprint : rack.computePatchFingerprint x.site.host.rack.patch with _ | fingerprint
  · rw [hfingerprint] at hdispatch
    rw [runHandler_threw hdispatch] at hexecution
    have hread := hlegible.sent_ok (hlegible.of_threw hexecution) (resInternalError x.cmd.requestId
      x.cmd.mutating) (by rw [hexecution, answer_threw]; rfl) hroot hok
    rw [hread, Executed.barrier, not_ok_resError] at hok
    cases hok
  · rw [hfingerprint] at hdispatch
    rw [runHandler_forgotten hdispatch rfl] at hexecution
    have hresponse : resOk x.cmd.requestId (some (fingerprintPayload fingerprint x.site.host.rack.patchEpoch)) ∈
        x.responses rack J := by
      unfold Executed.responses
      rw [if_pos hmethod, hfingerprint]
      exact List.mem_singleton_self _
    have hread := hlegible.sent_ok (hlegible.of_ran hexecution _ hresponse) (resInternalError
      x.cmd.requestId true) (by rw [hexecution]; rfl) hroot hok
    exact ⟨fingerprint, rfl, by rw [hread]; rfl⟩

/-! ### What an answered copy archived -/

/-- The execution left a copy of the patch at the path it was given. -/
structure Executed.Archives (x : Executed) : Prop where
  method : x.cmd.method = "patchfile.saveCopy"
  ran : x.execution.handlerRan = true
  path : jstr x.cmd.payload "path" ≠ ""
  saved : savePatchAtomic x.readings (jstr x.cmd.payload "path") = none

theorem saved_of_patchSaveCopy {r : RackReadings} {request : Json} {h : Host} {outcome : PatchFileOutcome}
    (houtcome : (patchSaveCopy rack r request h).1 = .ok outcome) (hcode : outcome.errorCode = none) :
    jstr request "path" ≠ "" ∧ savePatchAtomic r (jstr request "path") = none := by
  unfold patchSaveCopy at houtcome
  dsimp only at houtcome
  split at houtcome
  · rw [← Except.ok.inj houtcome] at hcode
    cases hcode
  next hpath =>
  split at houtcome
  · rw [← Except.ok.inj houtcome] at hcode
    cases hcode
  · cases houtcome
  · next hsaved => exact ⟨hpath, hsaved⟩

/-- A copy that reads as a success and was not replayed is there. -/
theorem archives_of_read {x : Executed} (hlegible : x.Legible N rack J) {t : ExecutionReadings}
    (hexecuted : x.site.host.execute rack J t x.readings x.cmd = (x.execution, x.left))
    (hmethod : x.cmd.method = "patchfile.saveCopy") (hnew : ∀ frame, x.execution ≠ .replayed frame) {root : Json}
    (hroot : N.parse (sentFrame J limitBridgeFrameBytes x.cmd x.execution) = some root)
    (hok : jbool root "ok" false = true) : x.Archives := by
  obtain ⟨hran, outcome, houtcome, hcode⟩ :=
    hlegible.patchFile_ok hexecuted (by rw [hmethod]; decide) hnew hroot hok
  rw [hmethod] at houtcome
  obtain ⟨hpath, hsaved⟩ := saved_of_patchSaveCopy houtcome hcode
  exact ⟨hmethod, hran, hpath, hsaved⟩

/-! ### The requests of one call -/

/-- A request that mutates nothing has no operation id. -/
theorem operationId_of_reads (hreach : Reachable N s) {e : Exchange} (he : e ∈ s.exchanges) {r : Request}
    (hcall : e.call = .request r) (hmethod : r.method ∉ mutatingMethods) : r.operationId = none := by
  obtain ⟨n, hn⟩ := List.getElem?_of_mem he
  obtain ⟨s₀, -, -, hallowed, -, -⟩ := origin hreach hn
  have hsanctioned := (hallowed r hcall).2
  rcases hsanctioned
  case reads _ hid => exact hid
  all_goals
    next hother _ _ => exact absurd (by rw [hother]; decide) hmethod

/-- The copy of a call that replaces the patch is made under a random operation id. -/
theorem operationId_of_recovery (hreach : Reachable N s) {e : Exchange} (he : e ∈ s.exchanges) {r : Request}
    (hcall : e.call = .request r) (hmethod : r.method = "patchfile.saveCopy") {tool : ToolCall} {kind : LoadKind}
    {token operationId : String} (htool : s.tools[e.caller]? = some tool)
    (hreplaces : tool.Replaces kind token operationId) : ∃ d, r.operationId = some (N.randomUUID d) := by
  obtain ⟨n, hn⟩ := List.getElem?_of_mem he
  obtain ⟨s₀, -, -, hallowed, -, hgrows⟩ := origin hreach hn
  have hposted : Grows N s₀ (bridgeComm.post e.caller e.call s₀) := .single (.link (.post _ _ _ hallowed))
  have hlater : Grows N s₀ s := hposted.trans hgrows
  have hsanctioned := (hallowed r hcall).2
  rcases hsanctioned
  case recovery selected path payloadId operationId hdrawn _ _ hid =>
    obtain ⟨d, rfl⟩ := hdrawn
    exact ⟨d, hid⟩
  case checkpoint label operationId path selected m n htool' _ _ _ _ =>
    have hsame := hlater.tool htool'
    rw [htool] at hsame
    rw [Option.some.inj hsame] at hreplaces
    exact hreplaces.elim
  case reads hreads _ => exact absurd (by rw [hmethod]; decide) hreads
  all_goals
    next hother _ _ => rw [hother] at hmethod; exact absurd hmethod (by decide)

/-- The executions are of requests of one tool call. -/
def Shared.SameCaller (s : Shared) (y x : Executed) : Prop :=
  ∃ e e', s.exchanges[y.exchange]? = some e ∧ s.exchanges[x.exchange]? = some e' ∧ e.caller = e'.caller

variable (N) in
/-- Tool call `i` presented a confirmation that was minted with this binding. -/
def Shared.Presents (s : Shared) (i : ℕ) (binding : LoadBinding) : Prop :=
  ∃ tool kind token operationId id, s.tools[i]? = some tool ∧ tool.Replaces kind token operationId ∧
    checkTag N token = .ok id ∧ .loadMinted id binding ∈ s.trail

/-- The handler of a load or a clear ran. -/
def Executed.Discards (x : Executed) : Prop :=
  (x.cmd.method = "patchfile.load" ∨ x.cmd.method = "patchfile.clear") ∧ x.execution.handlerRan = true

/-! ### Runs -/

section run
variable (N rack J) (sites : List Site) (es : List WorldEvent)

/-- The server reads what the fingerprint and the copy handlers answer in the run. -/
def AnswersLegible : Prop :=
  ∀ k x, World.Executes N rack J sites es k x →
    x.cmd.method = "patch.fingerprint" ∨ x.cmd.method = "patchfile.saveCopy" → x.Legible N rack J

/-- A copy under a random operation id is not the replay of an operation before. -/
def RandomIdsFresh : Prop :=
  ∀ k x d, World.Executes N rack J sites es k x → x.cmd.method = "patchfile.saveCopy" →
    x.cmd.operationId = N.randomUUID d → ∀ frame, x.execution ≠ .replayed frame

/-- A load or a clear is executed on the Rack on which the fingerprint and the copy of its call were, and nothing has
changed the patch there since. -/
def Undisturbed : Prop :=
  ∀ j k y x, j < k → World.Executes N rack J sites es j y → World.Executes N rack J sites es k x → x.Discards →
    (World.stateAt N rack J sites es k).server.SameCaller y x →
    y.cmd.method = "patch.fingerprint" ∨ y.cmd.method = "patchfile.saveCopy" →
    y.host = x.host ∧ y.site.revision = x.site.revision

/-- The patch that the execution found has the fingerprint of the confirmation, and the copy that its call saved is
of that patch. -/
def HeldByRecovery (k : ℕ) (x : Executed) : Prop :=
  ∃ e binding, (World.stateAt N rack J sites es k).server.exchanges[x.exchange]? = some e ∧
    (World.stateAt N rack J sites es k).server.Presents N e.caller binding ∧
    rack.computePatchFingerprint x.site.host.rack.patch = some binding.fingerprint ∧
    ∃ j < k, ∃ z, World.Executes N rack J sites es j z ∧ z.Archives ∧
      (World.stateAt N rack J sites es k).server.SameCaller z x ∧
      z.site.host.rack.patch = x.site.host.rack.patch

end run

section answered
variable {sites : List Site} {es : List WorldEvent} {k i : ℕ}

/-- An answer that a call got before was executed for it, and read as a success. -/
theorem World.answered_source {method : String} {payload v : Json}
    (h : (stateAt N rack J sites es k).server.Answered i method payload v) (hmethod : method ∉ leaseMethods) :
    ∃ e ∈ (stateAt N rack J sites es k).server.exchanges, ∃ r, e.caller = i ∧ e.call = .request r ∧
      r.method = method ∧ r.payload = payload ∧
      ∃ j < k, ∃ y root, Executes N rack J sites es j y ∧
        (stateAt N rack J sites es k).server.exchanges[y.exchange]? = some e ∧ y.cmd = commandOf r ∧
        N.parse (sentFrame J limitBridgeFrameBytes y.cmd y.execution) = some root ∧
        jbool root "ok" false = true ∧ v = (Json.get root "payload").getD .null := by
  obtain ⟨e, he, hcaller, hreply, r, hcall, hr, hpayload⟩ := h
  obtain ⟨n, hn⟩ := List.getElem?_of_mem he
  obtain ⟨j, hj, y, root, hy, rfl, hcmd, hroot, hok, hv⟩ := payload_source hn hcall (hr ▸ hmethod) hreply
  exact ⟨e, he, r, hcaller, hcall, hr, hpayload, j, hj, y, root, hy, hn, hcmd, hroot, hok, hv⟩

/-- The fingerprint a call was answered was that of the patch then. -/
theorem World.fingerprint_answered (hlegible : AnswersLegible N rack J sites es) {v : Json}
    (h : (stateAt N rack J sites es k).server.Answered i "patch.fingerprint" (.object []) v) :
    ∃ e j y fingerprint, j < k ∧ Executes N rack J sites es j y ∧ y.cmd.method = "patch.fingerprint" ∧
      (stateAt N rack J sites es k).server.exchanges[y.exchange]? = some e ∧ e.caller = i ∧
      rack.computePatchFingerprint y.site.host.rack.patch = some fingerprint ∧
      v = fingerprintPayload fingerprint y.site.host.rack.patchEpoch := by
  obtain ⟨e, he, r, hcaller, hcall, hmethod, hpayload, j, hj, y, root, hy, hn, hcmd, hroot, hok, hv⟩ :=
    answered_source h (by decide)
  have hid := operationId_of_reads (reachable_stateAt (N := N) rack J sites es k) he hcall (by rw [hmethod]; decide)
  have hmethod' : y.cmd.method = "patch.fingerprint" := by
    rw [hcmd]
    exact hmethod
  have hid' : y.cmd.operationId = "" := by
    rw [hcmd]
    show r.operationId.getD "" = ""
    rw [hid]
    rfl
  have hpayload' : y.cmd.payload = .object [] := by
    rw [hcmd]
    exact hpayload
  obtain ⟨t, hexecuted⟩ := (runs_of_executes hy).1.executed
  obtain ⟨fingerprint, hfingerprint, hread⟩ :=
    fingerprint_of_read (hlegible j y hy (.inl hmethod')) hexecuted hmethod' hid' hpayload' hroot hok
  exact ⟨e, j, y, fingerprint, hj, hy, hmethod', hn, hcaller, hfingerprint, hv.trans hread⟩

/-- The copy a call that replaces the patch was answered is there. -/
theorem World.copy_answered (hlegible : AnswersLegible N rack J sites es) (hfresh : RandomIdsFresh N rack J sites es)
    {payload v : Json} (h : (stateAt N rack J sites es k).server.Answered i "patchfile.saveCopy" payload v)
    {tool : ToolCall} {kind : LoadKind} {token operationId : String}
    (htool : (stateAt N rack J sites es k).server.tools[i]? = some tool)
    (hreplaces : tool.Replaces kind token operationId) :
    ∃ e j z, j < k ∧ Executes N rack J sites es j z ∧ z.Archives ∧
      (stateAt N rack J sites es k).server.exchanges[z.exchange]? = some e ∧ e.caller = i := by
  obtain ⟨e, he, r, rfl, hcall, hmethod, -, j, hj, z, root, hz, hn, hcmd, hroot, hok, -⟩ :=
    answered_source h (by decide)
  obtain ⟨d, hid⟩ := operationId_of_recovery (reachable_stateAt (N := N) rack J sites es k) he hcall hmethod htool
    hreplaces
  have hmethod' : z.cmd.method = "patchfile.saveCopy" := by
    rw [hcmd]
    exact hmethod
  have hid' : z.cmd.operationId = N.randomUUID d := by
    rw [hcmd]
    show r.operationId.getD "" = _
    rw [hid]
    rfl
  obtain ⟨t, hexecuted⟩ := (runs_of_executes hz).1.executed
  exact ⟨e, j, z, hj, hz, archives_of_read (hlegible j z hz (.inr hmethod')) hexecuted hmethod'
    (hfresh j z d hz hmethod' hid') hroot hok, hn, rfl⟩

end answered

/-- What passes the check against the live patch has the fingerprint of the binding. -/
theorem fingerprint_of_liveRefusal {binding : LoadBinding} {fingerprint : String} {patchEpoch : Int}
    (h : liveRefusal binding (fingerprintPayload fingerprint patchEpoch) = none) :
    fingerprint = binding.fingerprint := by
  unfold liveRefusal at h
  split at h
  · cases h
  split at h
  · cases h
  next hsame =>
  rw [not_not] at hsame
  exact of_decide_eq_true hsame

/-- In a run in which no load or clear finds a patch that was changed since its call read the fingerprint and saved
the copy, every load and every clear discards the patch that the copy holds and the confirmation describes. -/
theorem recovery_holds (N : Node) (rack : Rack) (J : Jansson) (sites : List Site) (es : List WorldEvent)
    (hlegible : AnswersLegible N rack J sites es) (hfresh : RandomIdsFresh N rack J sites es)
    (hundisturbed : Undisturbed N rack J sites es) :
    ∀ k x, World.Executes N rack J sites es k x → x.Discards → HeldByRecovery N rack J sites es k x := by
  intro k x hx hdiscards
  have hreach := World.reachable_stateAt (N := N) rack J sites es k
  obtain ⟨e, r, he, hcall, -, -, hcmd, -⟩ := (World.runs_of_executes hx).1.request
  have hmethod : r.method = "patchfile.load" ∨ r.method = "patchfile.clear" := by
    have hmethod := hdiscards.1
    rw [hcmd] at hmethod
    exact hmethod
  obtain ⟨selected, kind, operationId, id, binding, hconfirmed⟩ :=
    confirmed_of_replace hreach (List.mem_of_getElem? he) hcall hmethod
  obtain ⟨tool, token, htool, hreplaces, htag⟩ := hconfirmed.tool
  obtain ⟨v, hanswered, hlive⟩ := hconfirmed.fingerprint
  obtain ⟨path, payloadId, v', hcopied⟩ := hconfirmed.checkpoint
  obtain ⟨e₁, j₁, y, fingerprint, hj₁, hy, hymethod, hn₁, hcaller₁, hfingerprint, rfl⟩ :=
    World.fingerprint_answered hlegible hanswered
  obtain ⟨e₂, j₂, z, hj₂, hz, harchives, hn₂, hcaller₂⟩ :=
    World.copy_answered hlegible hfresh hcopied htool hreplaces
  have hsame₁ : (World.stateAt N rack J sites es k).server.SameCaller y x := ⟨e₁, e, hn₁, he, hcaller₁⟩
  have hsame₂ : (World.stateAt N rack J sites es k).server.SameCaller z x := ⟨e₂, e, hn₂, he, hcaller₂⟩
  obtain ⟨hhost₁, hrevision₁⟩ := hundisturbed j₁ k y x hj₁ hy hx hdiscards hsame₁ (.inl hymethod)
  obtain ⟨hhost₂, hrevision₂⟩ := hundisturbed j₂ k z x hj₂ hz hx hdiscards hsame₂ (.inr harchives.method)
  have hpatch₁ := World.patch_of_revision hj₁.le hy hx hhost₁ hrevision₁
  have hpatch₂ := World.patch_of_revision hj₂.le hz hx hhost₂ hrevision₂
  refine ⟨e, binding, he, ⟨tool, kind, token, operationId, id, htool, hreplaces, htag, hconfirmed.minted⟩, ?_,
    j₂, hj₂, z, hz, harchives, hsame₂, hpatch₂⟩
  rw [← hpatch₁, hfingerprint, fingerprint_of_liveRefusal hlive]

/-! ### A clear on the bench -/

def statusFrame : Json := okFrame "0000000000000016" (some (.object [("saved", .bool true)]))

/-- A rack that tells its status. -/
def benchStatus : RackReadings := { benchReadings with frame := fun _ => .ok (compactText statusFrame) }

/-- The answer to a request, and what would replace it. -/
def answerValues (id method : String) (payload : Json) (mutating : Bool) : List Json :=
  [okFrame id (some payload), .object (resError id .resultTooLarge
    (tooLargeMessage (compactText (okFrame id (some payload))) method limitBridgeFrameBytes) false mutating)]

def clearValues : List Json :=
  [statusFrame, leaseFrame "0000000000000023"] ++
  answerValues "0000000000000017" "patch.fingerprint" (fingerprintPayload "1 2 3|10" 0) false ++
  answerValues "0000000000000022" "patch.fingerprint" (fingerprintPayload "1 2 3|10" 0) false ++
  answerValues "0000000000000028" "patchfile.saveCopy"
    (buildResult siteRack benchReadings false (saveWarnings benchHost) benchHost) true

/-- A clear is previewed and confirmed, its recovery copy saved, and the clear itself requested. -/
def clearEvents : List WorldEvent :=
  connects .previewClearPatch ++ [.execute 3 ⟨6, 7⟩ benchStatus, .server (.deliver 3)] ++ resumes 0 6 ++
  executes 4 ++ resumes 0 6 ++
  [.call (.commitClearPatch "AAAAAAAAA.mac" "11111111-1111-4111-8111-111111111111")] ++ resumes 1 5 ++
  executes 5 ++ resumes 1 7 ++ leases 6 "0000000000000023" ++ resumes 1 7 ++ executes 7 ++ resumes 1 7

def clearedEvents : List WorldEvent := clearEvents ++ [.execute 8 ⟨8, 9⟩ benchReadings]

/-- The handler of a clear ran. -/
def Executed.clears (x : Executed) : Bool := x.cmd.method == "patchfile.clear" && x.execution.handlerRan

def Executed.isReplay (x : Executed) : Bool :=
  match x.execution with
  | .replayed _ => true
  | _ => false

/-- What a fingerprint or a copy answers is read, and no copy is a replay. -/
def Executed.wellAnswered (N : Node) (x : Executed) : Bool :=
  if x.cmd.method = "patch.fingerprint" ∨ x.cmd.method = "patchfile.saveCopy" then
    decide (x.Legible N siteRack benchJansson) && !x.isReplay
  else true

theorem answersLegible_of_all {values : List Json} {es : List WorldEvent}
    (h : (benchExecuted values es).all (Executed.wellAnswered (benchNode values)) = true) :
    AnswersLegible (benchNode values) siteRack benchJansson [⟨benchHost, 0⟩] es := by
  intro k x hx hmethod
  have hwell := List.all_eq_true.mp h x (World.executed_at_end hx)
  unfold Executed.wellAnswered at hwell
  rw [if_pos hmethod, Bool.and_eq_true] at hwell
  exact of_decide_eq_true hwell.1

theorem randomIdsFresh_of_all {values : List Json} {es : List WorldEvent}
    (h : (benchExecuted values es).all (Executed.wellAnswered (benchNode values)) = true) :
    RandomIdsFresh (benchNode values) siteRack benchJansson [⟨benchHost, 0⟩] es := by
  intro k x d hx hmethod _ frame hreplayed
  have hwell := List.all_eq_true.mp h x (World.executed_at_end hx)
  unfold Executed.wellAnswered at hwell
  rw [if_pos (.inr hmethod), Bool.and_eq_true] at hwell
  unfold Executed.isReplay at hwell
  rw [hreplayed] at hwell
  cases hwell.2

theorem discards_of_clears {x : Executed} (h : x.clears = true) : x.Discards := by
  unfold Executed.clears at h
  rw [Bool.and_eq_true, beq_iff_eq] at h
  exact ⟨.inr h.1, h.2⟩

theorem cleared_run :
    (benchExecuted clearValues clearedEvents).all (Executed.wellAnswered (benchNode clearValues)) = true ∧
      (benchExecuted clearValues clearedEvents).all (fun x => x.host == 0 && x.site.revision == 0) = true ∧
      (benchNext clearValues clearEvents (.execute 8 ⟨8, 9⟩ benchReadings)).any Executed.clears = true := by
  decide +kernel

/-- The bench clear discards the patch that its recovery copy holds. -/
theorem cleared_patch_is_held : ∃ x, x.Discards ∧ HeldByRecovery (benchNode clearValues) siteRack benchJansson
    [⟨benchHost, 0⟩] clearedEvents clearEvents.length x := by
  obtain ⟨hwell, hstill, hclears⟩ := cleared_run
  obtain ⟨x, hx, hclears⟩ := List.any_eq_true.mp hclears
  have hsite : ∀ {j y}, World.Executes (benchNode clearValues) siteRack benchJansson [⟨benchHost, 0⟩] clearedEvents
      j y → y.host = 0 ∧ y.site.revision = 0 := by
    intro j y hy
    simpa using List.all_eq_true.mp hstill y (World.executed_at_end hy)
  refine ⟨x, discards_of_clears hclears, ?_⟩
  refine recovery_holds (benchNode clearValues) siteRack benchJansson [⟨benchHost, 0⟩] clearedEvents
    (answersLegible_of_all hwell) (randomIdsFresh_of_all hwell) (fun j k y x _ hy hx _ _ _ => ?_) _ x
    (executes_benchNext hx []) (discards_of_clears hclears)
  exact ⟨(hsite hy).1.trans (hsite hx).1.symm, (hsite hy).2.trans (hsite hx).2.symm⟩

/-- The user takes the cables away before the clear is executed. -/
def editedEvents : List WorldEvent := clearEvents ++ [.host 0 (.edit { benchPatch with cables := [] } [] 0)]

def editedClearEvents : List WorldEvent := editedEvents ++ [.execute 8 ⟨8, 9⟩ benchReadings]

theorem edited_run :
    (benchExecuted clearValues editedClearEvents).all (Executed.wellAnswered (benchNode clearValues)) = true ∧
      (benchExecuted clearValues editedClearEvents).all (fun z => z.cmd.method != "patchfile.saveCopy" ||
        z.site.host.rack.patch == benchPatch) = true ∧
      (benchNext clearValues editedEvents (.execute 8 ⟨8, 9⟩ benchReadings)).any
        (fun x => x.clears && x.site.host.rack.patch != benchPatch) = true := by
  decide +kernel

/-- An edit between the recovery copy and the clear is discarded, and the copy does not hold it. -/
theorem edit_is_lost :
    ¬ ∀ (N : Node) (rack : Rack) (J : Jansson) (sites : List Site) (es : List WorldEvent),
      AnswersLegible N rack J sites es → RandomIdsFresh N rack J sites es →
      ∀ k x, World.Executes N rack J sites es k x → x.Discards → HeldByRecovery N rack J sites es k x := by
  intro hall
  obtain ⟨hwell, hcopies, hclears⟩ := edited_run
  obtain ⟨x, hx, hclears⟩ := List.any_eq_true.mp hclears
  rw [Bool.and_eq_true] at hclears
  obtain ⟨e, binding, -, -, -, j, -, z, hz, harchives, -, hsame⟩ :=
    hall (benchNode clearValues) siteRack benchJansson [⟨benchHost, 0⟩] editedClearEvents
      (answersLegible_of_all hwell) (randomIdsFresh_of_all hwell) _ x (executes_benchNext hx [])
      (discards_of_clears hclears.1)
  have hcopy := List.all_eq_true.mp hcopies z (World.executed_at_end hz)
  rw [harchives.method, hsame] at hcopy
  have hpatch : x.site.host.rack.patch = benchPatch := by simpa using hcopy
  rw [hpatch] at hclears
  exact absurd hclears.2 (by decide)

end RackMcp.Server
