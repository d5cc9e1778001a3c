import RackMcp.Proof.RecoveryHolds

/-!
# Errors that deny a mutation

The error of a tool call says whether a mutation may have occurred, and takes that from whichever error surfaces
last. Up to its destructive request a tool call has changed nothing; a rejection of that request says no mutation only
where the plugin ran no handler, or one that left the patch or put it back. What fails after a success says it too:
a result over the limit, and what `commit_attach_probe` does after its commit.
-/

namespace RackMcp.Server

open Gen Cooperative

variable {N : Node} {rack : Rack} {J : Jansson}

/-! ### Tool calls that are done -/

variable (N) in
/-- Every tool call that is done owns its outcome. -/
def World.Accounted (w : World) : Prop := PoolHeading (conduct N) OwnsOutcome w.tasks w.server

theorem ownsOutcome_rely (i : ℕ) (outcome : Except ErrorPayload Json) (s s' : Shared)
    (hrely : (conduct N).Rely i s s') (h : OwnsOutcome i outcome s) : OwnsOutcome i outcome s' :=
  fun p hp hmayHave => (later_of_rely hrely).owns (h p hp hmayHave)

namespace World

variable {w : World}

theorem accounted_call (h : w.Sound N) (haccounted : w.Accounted N) (tool : ToolCall) :
    (w.step N rack J (.call tool)).1.Accounted N := by
  have hcalled : Step N w.server { w.server with tools := w.server.tools ++ [tool] } :=
    .decision (.tool w.server tool)
  have hheading : PoolHeading (conduct N) OwnsOutcome w.tasks { w.server with tools := w.server.tools ++ [tool] } := by
    refine haccounted.env ownsOutcome_rely trivial hcalled.grows fun i hi => ⟨.refl _, fun _ _ he _ =>
      (List.getElem?_eq_some_iff.mp he).1, fun hle => ?_⟩
    rw [h.tools] at hle
    omega
  have hcallers : ∀ e ∈ w.server.exchanges, e.caller < w.tasks.length := h.tools ▸ h.callers
  have howns := @callTool_owns N w.tasks.length
    { w.server with tools := w.server.tools ++ [tool] } tool (h.reachable.tail hcalled)
    (fun e he hcaller => absurd (hcallers e he) (by omega))
    (by rw [← h.tools]; exact List.getElem?_concat_length ..)
  exact (hheading.start ownsOutcome_rely howns).2

theorem accounted_env (haccounted : w.Accounted N) {s' : Shared} (hstep : Step N w.server s')
    (hcounts : s'.counts = w.server.counts) : PoolHeading (conduct N) OwnsOutcome w.tasks s' :=
  haccounted.env ownsOutcome_rely trivial hstep.grows
    fun _ _ => untouched_of_counts hstep.persists.exchanges hcounts

theorem accounted_step (h : w.Sound N) (haccounted : w.Accounted N) (e : WorldEvent) :
    (w.step N rack J e).1.Accounted N := by
  rcases e with tool | i | e | ⟨n, t, r⟩ | ⟨k, e⟩
  · exact accounted_call h haccounted tool
  · unfold step
    dsimp only
    split
    · exact haccounted
    · next task htask => exact (haccounted.resume ownsOutcome_rely htask).2
  · exact accounted_env haccounted (.link (.react w.server e)) (counts_reaction (reaction_react _ e))
  · unfold step
    dsimp only
    split
    · exact haccounted
    · exact accounted_env haccounted (.link (.response ..)) (counts_setResponse _ _ _)
  · exact haccounted

/-- In every world of a run the tool calls that are done own their outcomes. -/
theorem accounted_stateAt (rack : Rack) (J : Jansson) (sites : List Site) (es : List WorldEvent) (k : ℕ) :
    (stateAt N rack J sites es k).Accounted N := by
  have hboth : (stateAt N rack J sites es k).Sound N ∧ (stateAt N rack J sites es k).Accounted N :=
    Trace.invariant (P := fun w : World => w.Sound N ∧ w.Accounted N)
      ⟨sound_start sites, trivial, fun _ _ h => by cases h⟩
      (fun _ e hw => ⟨(sound_step hw.1 e).1, accounted_step hw.1 hw.2 e⟩) k
  exact hboth.2

end World

/-! ### What a handler leaves when it denies a mutation -/

/-- The patch is the same, or it was restored as far as its fingerprint tells. -/
def SamePatch (rack : Rack) (p q : Patch) : Prop :=
  q = p ∨ ∃ fingerprint, rack.computePatchFingerprint p = some fingerprint ∧
    rack.computePatchFingerprint q = some fingerprint

/-- A transaction that failed and says that no mutation occurred. -/
def Denies (outcome : TxnOutcome) : Prop := outcome.errorCode ≠ none ∧ outcome.mutationMayHaveOccurred = false

theorem not_denies_finishCommit (request : Json) (durationMs : Double) (s : Applier) (rs : RackState) :
    ¬ Denies (finishCommit rack request durationMs s rs).1 := by
  rintro ⟨hcode, hflag⟩
  unfold finishCommit at hcode hflag
  dsimp only at hcode hflag
  rcases hfingerprint : rack.computePatchFingerprint s.patch with _ | fingerprint
  · rw [hfingerprint] at hflag
    cases hflag
  · rw [hfingerprint] at hcode
    exact hcode rfl

/-- A rollback that denies a mutation has the fingerprint of the patch before. -/
theorem samePatch_of_rollBack {failedIndex : Nat} {failMessage : String} {s : Applier} {rs : RackState}
    (hdenies : Denies (rollBack rack failedIndex failMessage s rs).1) :
    SamePatch rack rs.patch (rollBack rack failedIndex failMessage s rs).2.patch := by
  obtain ⟨-, fingerprint, hpost, hbefore⟩ := restores_of_rollBack hdenies.2
  exact .inr ⟨fingerprint, hbefore, hpost⟩

/-- A commit that denies a mutation was refused, or was rolled back. -/
theorem samePatch_of_txnCommit {request : Json} {durationMs : Double} {rs : RackState}
    (hdenies : Denies (txnCommit rack request durationMs rs).1) :
    SamePatch rack rs.patch (txnCommit rack request durationMs rs).2.patch := by
  unfold txnCommit at hdenies ⊢
  rcases hgate : commitGate rack request rs with _ | refusal
  · rw [hgate] at hdenies
    dsimp only at hdenies ⊢
    rcases happly : Applier.apply rack (planOperations (Json.get request "plan")) rs.patch with
      s | ⟨⟨failedIndex, failMessage⟩, s⟩
    · rw [happly] at hdenies
      exact absurd hdenies (not_denies_finishCommit request durationMs s rs)
    · rw [happly] at hdenies
      exact samePatch_of_rollBack hdenies
  · exact .inl rfl

/-- An undo that denies a mutation was refused. -/
theorem samePatch_of_txnUndoLast {request : Json} {rs : RackState} {outcome : TxnOutcome}
    (houtcome : (txnUndoLast rack request rs).1 = .ok outcome) (hdenies : Denies outcome) :
    SamePatch rack rs.patch (txnUndoLast rack request rs).2.patch := by
  unfold txnUndoLast at houtcome ⊢
  rcases hgate : undoGate rack request rs with _ | refusal
  · rw [hgate] at houtcome
    dsimp only at houtcome ⊢
    rcases hundo : undoHistory rack rs with rs' | ⟨what, rs'⟩
    · rw [hundo] at houtcome
      rw [← Except.ok.inj houtcome] at hdenies
      obtain ⟨hcode, hflag⟩ := hdenies
      unfold undoOutcome at hcode hflag
      dsimp only at hcode hflag
      rcases hfingerprint : rack.computePatchFingerprint rs'.patch with _ | fingerprint
      · rw [hfingerprint] at hflag
        cases hflag
      · rw [hfingerprint] at hcode
        exact absurd rfl hcode
    · rw [hundo] at houtcome
      cases houtcome
  · exact .inl rfl

section patchFile
variable {r : RackReadings} {h : Host} {outcome : PatchFileOutcome}

theorem errorCode_finishReplacement {saved : Bool} (houtcome : (finishReplacement rack r saved h).1 = .ok outcome) :
    outcome.errorCode = none := by
  unfold finishReplacement at houtcome
  split at houtcome
  · cases houtcome
  · rw [← Except.ok.inj houtcome]

theorem errorCode_loadFailed {what : String} (houtcome : (loadFailed r what h).1 = .ok outcome) :
    outcome.errorCode = some .internal := by
  unfold loadFailed at houtcome
  split at houtcome
  · cases houtcome
  · rw [← Except.ok.inj houtcome]
    rfl

/-- A load that fails with another error than INTERNAL was refused. -/
theorem patch_of_patchLoad {request : Json} {code : ErrorCode}
    (houtcome : (patchLoad rack r request h).1 = .ok outcome) (hcode : outcome.errorCode = some code)
    (hinternal : code ≠ .internal) : (patchLoad rack r request h).2.rack.patch = h.rack.patch := by
  unfold patchLoad at houtcome ⊢
  dsimp only at houtcome ⊢
  by_cases hpath : jstr request "path" = ""
  · rw [if_pos hpath]
  rw [if_neg hpath] at houtcome
  exfalso
  split at houtcome
  · rw [errorCode_loadFailed houtcome] at hcode
    exact hinternal (Option.some.inj hcode).symm
  · cases houtcome
  · rw [errorCode_finishReplacement houtcome] at hcode
    cases hcode

/-- A clear fails with INTERNAL only. -/
theorem errorCode_patchClear {code : ErrorCode} (houtcome : (patchClear rack r h).1 = .ok outcome)
    (hcode : outcome.errorCode = some code) : code = .internal := by
  unfold patchClear at houtcome
  dsimp only at houtcome
  split at houtcome
  · rw [← Except.ok.inj houtcome] at hcode
    exact (Option.some.inj hcode).symm
  · cases houtcome
  · rw [errorCode_finishReplacement houtcome] at hcode
    cases hcode

end patchFile

/-- A commit or an undo that denies a mutation left the patch, or put it back. -/
theorem samePatch_of_txn {r : RackReadings} {method : String} {request : Json} {h : Host} {outcome : TxnOutcome}
    (hmethod : method ∈ ["txn.commit", "txn.undoLast"]) (houtcome : (h.txn rack r method request).1 = .ok outcome)
    (hdenies : Denies outcome) : SamePatch rack h.rack.patch (h.txn rack r method request).2.rack.patch := by
  rcases List.mem_cons.mp hmethod with rfl | hmethod
  · rw [← Except.ok.inj houtcome] at hdenies
    exact samePatch_of_txnCommit hdenies
  · obtain rfl := List.mem_singleton.mp hmethod
    have houtcome : (txnUndoLast rack request h.rack).1.mapError HandlerThrow.standard = .ok outcome := houtcome
    refine samePatch_of_txnUndoLast ?_ hdenies
    rcases hundone : (txnUndoLast rack request h.rack).1 with what | undone
    · rw [hundone] at houtcome
      cases houtcome
    · rw [hundone] at houtcome
      exact congrArg Except.ok (Except.ok.inj houtcome)

/-- A load or a clear that fails with another error than INTERNAL left the patch. -/
theorem samePatch_of_patchFile {r : RackReadings} {method : String} {request : Json} {h : Host}
    {outcome : PatchFileOutcome} {code : ErrorCode} (hmethod : method ∈ ["patchfile.load", "patchfile.clear"])
    (houtcome : (h.patchFile rack r method request).1 = .ok outcome) (hcode : outcome.errorCode = some code)
    (hinternal : code ≠ .internal) : SamePatch rack h.rack.patch (h.patchFile rack r method request).2.rack.patch := by
  rcases List.mem_cons.mp hmethod with rfl | hmethod
  · exact .inl (patch_of_patchLoad houtcome hcode hinternal)
  · obtain rfl := List.mem_singleton.mp hmethod
    exact absurd (errorCode_patchClear houtcome hcode) hinternal

/-- Only a destructive method changes the patch. -/
theorem patch_after_of_not_destructive {r : RackReadings} {cmd : BridgeCommand} {h : Host}
    (hmethod : cmd.method ∉ destructiveMethods) : (h.after rack r cmd).rack.patch = h.rack.patch := by
  simp only [destructiveMethods, List.mem_cons, List.not_mem_nil, or_false, not_or] at hmethod
  obtain ⟨hcommit, hundo, hload, hclear⟩ := hmethod
  unfold Host.after
  split
  · next htxn =>
    simp only [Host.txnMethods, List.mem_cons, List.not_mem_nil, or_false, hcommit, hundo] at htxn
    unfold Host.txn
    rw [if_pos htxn]
  split
  · next hfile =>
    simp only [patchFileMethods, List.mem_cons, List.not_mem_nil, or_false, hload, hclear] at hfile
    unfold Host.patchFile
    rcases hfile with hsave | hcopy
    · rw [if_pos hsave]
      unfold patchSave
      dsimp only
      split
      · rfl
      split <;> rfl
    · rw [if_neg (by rw [hcopy]; decide), if_pos hcopy]
      unfold patchSaveCopy
      dsimp only
      split
      · rfl
      split <;> rfl
  · rfl

/-! ### What the server reads -/

theorem readRpcError_flag {error : Option Json} {mayHave : Bool}
    (h : Json.get error "mutationMayHaveOccurred" = some (.bool mayHave)) :
    (readRpcError error).mutationMayHaveOccurred = mayHave := by
  unfold readRpcError
  split
  · cases h
  · cases h
  · next e _ =>
    show jbool (some e) "mutationMayHaveOccurred" false = mayHave
    unfold jbool
    rw [h]

/-- A failed response fails its request, with the flag it has. -/
theorem readResponse_of_failsSaying {mayHave : Bool} {root : List (String × Json)} (h : FailsSaying mayHave root) :
    ∃ e, readResponse (.object root) = .failed e ∧ e.mayHave = mayHave := by
  obtain ⟨hok, hflag⟩ := h
  have hok : Json.get (some (.object root)) "ok" = some (.bool false) := hok
  have hnot : ¬ jbool (some (.object root)) "ok" false = true := by
    unfold jbool
    rw [hok]
    simp
  unfold readResponse
  rw [if_neg hnot]
  exact ⟨_, rfl, readRpcError_flag hflag⟩

theorem readResponse_resOk (id : String) (payload : Option Json) :
    readResponse (.object (resOk id payload)) = .payload (payload.getD (.object [])) := rfl

variable (J) in
/-- jansson reads back nothing else than it encoded. -/
def ReadsBack (root : List (String × Json)) : Prop :=
  ∀ text, J.dumps (.object root) = some text → ∀ v, J.loads text = some v → v = .object root

variable (N) in
/-- A rejection that denies a mutation is read of this frame. -/
def ReadsDenial (frame : String) : Prop :=
  ∃ root, N.parse frame = some root ∧ ∃ e, readResponse root = .failed e ∧ e.mayHave = false

/-- The frame of a transaction is one of its responses. -/
theorem txnOutcomeToFrame_eq {cmd : BridgeCommand} {outcome : TxnOutcome}
    (hreads : ∀ root ∈ txnResponses cmd outcome, Reads N J root)
    (hback : ∀ root ∈ txnResponses cmd outcome, ReadsBack J root) :
    ∃ root ∈ txnResponses cmd outcome, ∃ fallback,
      txnOutcomeToFrame J cmd outcome = (J.dumps (.object root)).getD fallback := by
  unfold txnResponses at hreads hback ⊢
  unfold txnOutcomeToFrame
  rcases hcode : outcome.errorCode with _ | code
  · exact ⟨_, List.mem_singleton_self _, _, rfl⟩
  rw [hcode] at hreads hback
  dsimp only at hreads hback ⊢
  obtain ⟨text, htext, -⟩ := Option.bind_eq_some_iff.mp (hreads _ List.mem_cons_self)
  have hframe : ∀ mayHave, (J.dumps (.object (resError cmd.requestId code outcome.errorMessage outcome.retrySafe
      outcome.mutationMayHaveOccurred))).getD (resInternalError cmd.requestId mayHave) = text := by
    intro mayHave
    rw [htext]
    rfl
  split
  · unfold attachErrorExtras buildResError
    split
    · exact ⟨_, List.mem_cons_self, _, rfl⟩
    rw [hframe]
    split
    · next root hloads =>
      obtain rfl := Json.object.inj (hback _ List.mem_cons_self text htext _ hloads)
      split
      · next root hextras =>
        exact ⟨root, List.mem_cons_of_mem _ (by rw [hextras]; exact List.mem_singleton_self _), text, rfl⟩
      · exact ⟨_, List.mem_cons_self, "", by rw [htext]; rfl⟩
    · exact ⟨_, List.mem_cons_self, "", by rw [htext]; rfl⟩
  · exact ⟨_, List.mem_cons_self, _, rfl⟩

theorem runHandler_ran {answers : RackAnswers} {recordMs : Int} {cmd : BridgeCommand} {fingerprint : String}
    {cache : OpCache} {result : HandlerResult} (hdispatch : dispatch J answers cmd = .ok result) :
    ∃ recorded, (runHandler J answers recordMs cmd fingerprint cache).1 = .ran result recorded := by
  unfold runHandler
  rw [hdispatch]
  dsimp only
  split
  · exact ⟨true, rfl⟩
  · exact ⟨false, rfl⟩

namespace Executed

variable (N rack J) in
/-- The server reads what the plugin encodes to answer the execution, and jansson reads back what it encoded. -/
structure Readable (x : Executed) : Prop where
  legible : x.Legible N rack J
  back : ∀ root ∈ x.responses rack J, ReadsBack J root

variable (rack) in
/-- The execution left the patch it found. -/
def Unchanged (x : Executed) : Prop := SamePatch rack x.site.host.rack.patch x.left.rack.patch

variable {x : Executed}

/-- What is read as a denial is a response that denies. -/
theorem Legible.denial (h : x.Legible N rack J) (hmutating : x.cmd.mutating = true) {root : List (String × Json)}
    (hroot : Reads N J root) (fallback : String)
    (hanswer : x.execution.answer J x.cmd = (J.dumps (.object root)).getD fallback)
    (hdenial : ReadsDenial N (sentFrame J limitBridgeFrameBytes x.cmd x.execution)) :
    ∃ e, readResponse (.object root) = .failed e ∧ e.mayHave = false := by
  obtain ⟨read, hread, e, hfailed, hflag⟩ := hdenial
  rcases h.sent hroot fallback hanswer with hsent | hsent
  · rw [hread] at hsent
    rw [← Option.some.inj hsent]
    exact ⟨e, hfailed, hflag⟩
  · rw [hread] at hsent
    obtain ⟨e', hfailed', hflag'⟩ := readResponse_of_failsSaying (failsSaying_resError x.cmd.requestId
      .resultTooLarge (tooLargeMessage (x.execution.answer J x.cmd) x.cmd.method limitBridgeFrameBytes) false
      x.cmd.mutating)
    rw [Option.some.inj hsent, tooLarge, hfailed'] at hfailed
    rw [← Reply.failed.inj hfailed, hflag', hmutating] at hflag
    cases hflag

/-- The barrier does not deny a mutation. -/
theorem Legible.not_denial_of_threw (h : x.Legible N rack J) (hmutating : x.cmd.mutating = true)
    {thrown : HandlerThrow} (hthrew : x.execution = .threw thrown) :
    ¬ ReadsDenial N (sentFrame J limitBridgeFrameBytes x.cmd x.execution) := by
  intro hdenial
  obtain ⟨e, hfailed, hflag⟩ := h.denial hmutating (h.of_threw hthrew) (resInternalError x.cmd.requestId
    x.cmd.mutating) (by rw [hthrew, answer_threw]; rfl) hdenial
  obtain ⟨e', hfailed', hflag'⟩ := readResponse_of_failsSaying
    (failsSaying_resError x.cmd.requestId .internal thrown.message false x.cmd.mutating)
  rw [barrier, hfailed'] at hfailed
  rw [← Reply.failed.inj hfailed, hflag', hmutating] at hflag
  cases hflag

/-- A transaction whose frame is read as a denial denies. -/
theorem Readable.denies (h : x.Readable N rack J) (hmutating : x.cmd.mutating = true) {outcome : TxnOutcome}
    (hresponses : x.responses rack J = txnResponses x.cmd outcome) {result : HandlerResult} {recorded : Bool}
    (hran : x.execution = .ran result recorded) (hframe : result.frame = txnOutcomeToFrame J x.cmd outcome)
    (hdenial : ReadsDenial N (sentFrame J limitBridgeFrameBytes x.cmd x.execution)) : Denies outcome := by
  have hreads := h.legible.of_ran hran
  have hback := h.back
  rw [hresponses] at hreads hback
  obtain ⟨root, hroot, fallback, hencoded⟩ := txnOutcomeToFrame_eq hreads hback
  obtain ⟨e, hfailed, hflag⟩ := h.legible.denial hmutating (hreads root hroot) fallback
    (by rw [hran]; exact hframe.trans hencoded) hdenial
  rcases hcode : outcome.errorCode with _ | code
  · unfold txnResponses at hroot
    rw [hcode] at hroot
    rw [List.mem_singleton.mp hroot, readResponse_resOk] at hfailed
    cases hfailed
  · obtain ⟨e', hfailed', hflag'⟩ := readResponse_of_failsSaying (failsSaying_txnResponses hcode hroot)
    rw [hfailed'] at hfailed
    rw [← Reply.failed.inj hfailed, hflag'] at hflag
    exact ⟨by rw [hcode]; exact Option.some_ne_none _, hflag⟩

/-- A patch file operation whose frame is read as a denial failed with another error than INTERNAL. -/
theorem Legible.patchFile_denies (h : x.Legible N rack J) (hmutating : x.cmd.mutating = true)
    {outcome : PatchFileOutcome} (hresponses : x.responses rack J = patchFileResponses x.cmd outcome)
    {result : HandlerResult} {recorded : Bool} (hran : x.execution = .ran result recorded)
    (hframe : result.frame = patchFileOutcomeToFrame J x.cmd outcome)
    (hdenial : ReadsDenial N (sentFrame J limitBridgeFrameBytes x.cmd x.execution)) :
    ∃ code, outcome.errorCode = some code ∧ code ≠ .internal := by
  have hreads := h.of_ran hran
  rw [hresponses] at hreads
  unfold patchFileResponses at hreads
  unfold patchFileOutcomeToFrame at hframe
  rcases hcode : outcome.errorCode with _ | code
  · rw [hcode] at hreads hframe
    obtain ⟨e, hfailed, -⟩ := h.denial hmutating (hreads _ (List.mem_singleton_self _)) _
      (by rw [hran]; exact hframe) hdenial
    rw [readResponse_resOk] at hfailed
    cases hfailed
  · rw [hcode] at hreads hframe
    obtain ⟨e, hfailed, hflag⟩ := h.denial hmutating (hreads _ (List.mem_singleton_self _)) _
      (by rw [hran]; exact hframe) hdenial
    obtain ⟨e', hfailed', hflag'⟩ := readResponse_of_failsSaying
      (failsSaying_resError x.cmd.requestId code outcome.errorMessage false (code == .internal))
    rw [hfailed'] at hfailed
    rw [← Reply.failed.inj hfailed, hflag'] at hflag
    exact ⟨code, rfl, by simpa using hflag⟩

theorem responses_txn (hmethod : x.cmd.method ∈ ["txn.commit", "txn.undoLast"]) {outcome : TxnOutcome}
    (houtcome : (x.site.host.txn rack x.readings x.cmd.method x.cmd.payload).1 = .ok outcome) :
    x.responses rack J = txnResponses x.cmd outcome := by
  have hother : x.cmd.method ≠ "patch.fingerprint" := by
    have hall : ∀ method ∈ ["txn.commit", "txn.undoLast"], method ≠ "patch.fingerprint" := by decide
    exact hall _ hmethod
  have hcall : (x.site.host.call rack J ⟨0, 0⟩ x.readings x.cmd).answers.txn
      (x.site.host.call rack J ⟨0, 0⟩ x.readings x.cmd).cmd.method = .ok outcome := houtcome
  unfold responses RackMcp.Call.responses
  rw [if_neg hother]
  refine (if_pos hmethod).trans ?_
  rw [hcall]
  rfl

/-- What a commit or an undo that did not throw came to. -/
theorem outcome_of_txn (hmethod : x.cmd.method ∈ ["txn.commit", "txn.undoLast"]) {result : HandlerResult}
    (hdispatch : dispatch J (x.site.host.answers rack J x.readings x.cmd) x.cmd = .ok result) :
    ∃ outcome, (x.site.host.txn rack x.readings x.cmd.method x.cmd.payload).1 = .ok outcome ∧
      result.frame = txnOutcomeToFrame J x.cmd outcome := by
  rcases List.mem_cons.mp hmethod with hcommit | hundo
  · rw [dispatch_commit hcommit] at hdispatch
    obtain ⟨outcome, houtcome, rfl⟩ := map_eq_ok hdispatch
    exact ⟨outcome, houtcome, rfl⟩
  · rw [dispatch_undoLast (List.mem_singleton.mp hundo)] at hdispatch
    obtain ⟨outcome, houtcome, rfl⟩ := map_eq_ok hdispatch
    exact ⟨outcome, houtcome, rfl⟩

section executed
variable {t : ExecutionReadings}
  (hexecuted : x.site.host.execute rack J t x.readings x.cmd = (x.execution, x.left))
include hexecuted

/-- The patch an execution leaves is the one its handler leaves, if it ran. -/
theorem patch_left : x.left.rack.patch =
    if x.execution.handlerRan then (x.site.host.after rack x.readings x.cmd).rack.patch
    else x.site.host.rack.patch := by
  obtain ⟨hexecution, hleft⟩ := Prod.mk.inj hexecuted
  rw [← hleft, hexecution]
  split <;> rfl

theorem unchanged_of_not_ran (hran : x.execution.handlerRan = false) : x.Unchanged rack := by
  refine .inl ?_
  rw [patch_left hexecuted, hran]
  rfl

theorem unchanged_of_not_destructive (hmethod : x.cmd.method ∉ destructiveMethods) : x.Unchanged rack := by
  refine .inl ?_
  rw [patch_left hexecuted, patch_after_of_not_destructive hmethod, ite_self]

theorem unchanged_of_ran (hran : x.execution.handlerRan = true)
    (hsame : SamePatch rack x.site.host.rack.patch (x.site.host.after rack x.readings x.cmd).rack.patch) :
    x.Unchanged rack := by
  unfold Unchanged
  rw [patch_left hexecuted, if_pos hran]
  exact hsame

/-- An execution whose frame is read as a denial left the patch it found. -/
theorem Readable.unchanged (h : x.Readable N rack J) (hmutating : x.cmd.mutating = true)
    (hmethod : x.cmd.method ∈ destructiveMethods)
    (hdenial : ReadsDenial N (sentFrame J limitBridgeFrameBytes x.cmd x.execution)) : x.Unchanged rack := by
  rcases execution_cases hexecuted with hmismatched | ⟨frame, hreplayed⟩ | ⟨fingerprint, hhandled⟩
  · exact unchanged_of_not_ran hexecuted (by rw [hmismatched]; rfl)
  · exact unchanged_of_not_ran hexecuted (by rw [hreplayed]; rfl)
  -- the handler came to its end, for the barrier would not deny a mutation
  rcases hdispatch : dispatch J (x.site.host.answers rack J x.readings x.cmd) x.cmd with thrown | result
  · rw [runHandler_threw hdispatch] at hhandled
    exact absurd hdenial (h.legible.not_denial_of_threw hmutating hhandled)
  obtain ⟨recorded, hran⟩ := @runHandler_ran J (x.site.host.answers rack J x.readings x.cmd) t.recordMs x.cmd
    fingerprint x.site.host.opCache result hdispatch
  rw [hran] at hhandled
  refine unchanged_of_ran hexecuted (by rw [hhandled]; rfl) ?_
  unfold Host.after
  have hkinds : ∀ method ∈ destructiveMethods, method ∈ ["txn.commit", "txn.undoLast"] ∧ method ∈ Host.txnMethods ∨
      method ∈ ["patchfile.load", "patchfile.clear"] ∧ method ∉ Host.txnMethods ∧ method ∈ patchFileMethods := by decide
  rcases hkinds _ hmethod with ⟨htxn, hpos⟩ | ⟨hfile, hneg, hpos⟩
  · obtain ⟨outcome, houtcome, hframe⟩ := outcome_of_txn htxn hdispatch
    rw [if_pos hpos]
    exact samePatch_of_txn htxn houtcome (h.denies hmutating (responses_txn htxn houtcome) hhandled hframe hdenial)
  · rw [dispatch_patchFile hpos] at hdispatch
    obtain ⟨outcome, houtcome, rfl⟩ := map_eq_ok hdispatch
    obtain ⟨code, hcode, hinternal⟩ :=
      h.legible.patchFile_denies hmutating (responses_patchFile hpos houtcome) hhandled rfl hdenial
    rw [if_neg hneg, if_pos hpos]
    exact samePatch_of_patchFile hfile houtcome hcode hinternal

end executed

end Executed

/-! ### Runs -/

namespace Shared

/-- The execution is of a request of tool call `i`. -/
def Issued (s : Shared) (i : ℕ) (x : Executed) : Prop := ∃ e, s.exchanges[x.exchange]? = some e ∧ e.caller = i

/-- A destructive request of tool call `i` was answered with success. -/
def Succeeded (s : Shared) (i : ℕ) : Prop :=
  ∃ e ∈ s.exchanges, e.caller = i ∧ e.Destructive ∧ ∃ v, e.reply = some (.payload v)

end Shared

namespace World

/-- Tool call `i` has returned this error, and it says that no mutation occurred. -/
def DeniesMutation (w : World) (i : ℕ) (p : ErrorPayload) : Prop :=
  w.tasks[i]? = some (.done (.error p)) ∧ p.mutationMayHaveOccurred = false

/-- Tool call `i` has failed although its destructive request had succeeded. -/
def FailsLate (w : World) (i : ℕ) : Prop := (∃ p, w.tasks[i]? = some (.done (.error p))) ∧ w.server.Succeeded i

section run
variable {sites : List Site} {es : List WorldEvent}

/-- The response to a request that was executed is the frame of its execution. -/
theorem responseAt_executed {j k : ℕ} {x : Executed} (h : Executes N rack J sites es j x) (hjk : j < k) :
    (stateAt N rack J sites es k).server.responseAt x.exchange =
      some (sentFrame J limitBridgeFrameBytes x.cmd x.execution) := by
  obtain ⟨hruns, hsucc⟩ := runs_of_executes h
  obtain ⟨e, r, he, -, hunanswered, -⟩ := hruns.request
  refine (grows_stateAt (N := N) rack J sites es hjk).responseAt ?_
  rw [hsucc]
  show ((stateAt N rack J sites es j).server.exchanges.modify _ _)[x.exchange]?.bind _ = _
  rw [List.getElem?_modify, he]
  simp [hunanswered]

/-- A rejection of an executed request that denies a mutation was read of the frame of the execution. -/
theorem readsDenial_of_reply {j k : ℕ} {x : Executed} (h : Executes N rack J sites es j x) (hjk : j < k)
    {e : Exchange} (he : (stateAt N rack J sites es k).server.exchanges[x.exchange]? = some e) {r : Request}
    (hcall : e.call = .request r) {reply : Reply} (hreply : e.reply = some reply) (hdefinite : reply.Definite)
    (hnot : ∀ v, reply ≠ .payload v) : ReadsDenial N (sentFrame J limitBridgeFrameBytes x.cmd x.execution) := by
  have hreach := reachable_stateAt (N := N) rack J sites es k
  rcases explained_of_reachable hreach e (List.mem_of_getElem? he) r hcall reply hreply with
    ⟨frame, root, hframe, hroot⟩ | ⟨code, message⟩
  · have hresponse : (stateAt N rack J sites es k).server.responseAt x.exchange = some frame :=
      Option.bind_eq_some_iff.mpr ⟨e, he, hframe⟩
    rw [responseAt_executed h hjk, Option.some.injEq] at hresponse
    rw [← hresponse] at hroot
    refine ⟨root, hroot, ?_⟩
    unfold readResponse at hnot hdefinite ⊢
    split at hnot
    · exact absurd rfl (hnot _)
    · next hok =>
      rw [if_neg hok] at hdefinite ⊢
      exact ⟨_, rfl, hdefinite _ rfl⟩
  · have hflag : true = false := hdefinite _ rfl
    cases hflag

end run

end World

/-- A call that denies a mutation after its destructive request has succeeded returns the error of the result limit,
or is of a tool that goes on after its commit. -/
theorem late_denial {sites : List Site} {es : List WorldEvent} {i : ℕ} {p : ErrorPayload}
    (hdenies : (World.stateAt N rack J sites es es.length).DeniesMutation i p)
    (hlate : (World.stateAt N rack J sites es es.length).FailsLate i) :
    p = resultLimitError ∨
      ∃ tool, (World.stateAt N rack J sites es es.length).server.tools[i]? = some tool ∧ tool.ReadsOn := by
  obtain ⟨-, e, hmem, hcaller, hdestructive, v, hreply⟩ := hlate
  rcases (World.accounted_stateAt (N := N) rack J sites es es.length).2 i _ hdenies.1 p rfl hdenies.2 with
    hrejected | ⟨-, hkind⟩
  · obtain ⟨reply, hreply', -, hnot⟩ := hrejected e hmem hcaller hdestructive
    rw [hreply] at hreply'
    exact absurd (Option.some.inj hreply').symm (hnot v)
  · exact hkind

/-- In every run an error that says that no mutation occurred is true, unless its call failed after its destructive
request had succeeded: nothing that was executed for the call has changed the patch. A call that fails so late and
says it all the same returns the error of the result limit, or is of a tool that goes on after its commit. -/
theorem denial_is_true (N : Node) (rack : Rack) (J : Jansson) (sites : List Site) (es : List WorldEvent)
    (hreadable : ∀ k x, World.Executes N rack J sites es k x → x.cmd.method ∈ destructiveMethods →
      x.Readable N rack J) :
    ∀ i p, (World.stateAt N rack J sites es es.length).DeniesMutation i p →
      (¬ (World.stateAt N rack J sites es es.length).FailsLate i → ∀ k x, World.Executes N rack J sites es k x →
        (World.stateAt N rack J sites es es.length).server.Issued i x → x.Unchanged rack) ∧
      ((World.stateAt N rack J sites es es.length).FailsLate i → p = resultLimitError ∨
        ∃ tool, (World.stateAt N rack J sites es es.length).server.tools[i]? = some tool ∧ tool.ReadsOn) := by
  intro i p hdenies
  refine ⟨fun hearly k x hexecutes hissued => ?_, late_denial hdenies⟩
  obtain ⟨t, hexecuted⟩ := (World.runs_of_executes hexecutes).1.executed
  by_cases hmethod : x.cmd.method ∈ destructiveMethods
  swap
  · exact Executed.unchanged_of_not_destructive hexecuted hmethod
  obtain ⟨e, he, hcaller⟩ := hissued
  obtain ⟨e', r, he', hcall, hcmd⟩ := World.exchange_of_executes hexecutes
  rw [he] at he'
  obtain rfl := Option.some.inj he'
  have hmem := List.mem_of_getElem? he
  have hdestructive : e.Destructive := ⟨r, hcall, by rw [hcmd] at hmethod; exact hmethod⟩
  -- the call has its reply, and it is no success
  have howns := (World.accounted_stateAt (N := N) rack J sites es es.length).2 i _ hdenies.1 p rfl hdenies.2
  obtain ⟨reply, hreply, hdefinite⟩ := howns.settled e hmem hcaller hdestructive
  have hnot : ∀ v, reply ≠ .payload v := by
    rintro v rfl
    exact hearly ⟨⟨p, hdenies.1⟩, e, hmem, hcaller, hdestructive, v, hreply⟩
  have hlt : k < es.length := by
    obtain ⟨event, hevent, -⟩ := id hexecutes
    exact (List.getElem?_eq_some_iff.mp hevent).1
  have hmutating : x.cmd.mutating = true := by
    have hall : ∀ method ∈ destructiveMethods, method ∈ mutatingMethods := by decide
    rw [hcmd] at hmethod ⊢
    exact decide_eq_true (hall _ hmethod)
  exact (hreadable k x hexecutes hmethod).unchanged hexecuted hmutating hmethod
    (World.readsDenial_of_reply hexecutes hlt he hcall hreply hdefinite hnot)

/-! ### A refused and a denied commit on the bench -/

/-- The world at the end of a bench run whose server reads these values. -/
def benchWorld (values : List Json) (es : List WorldEvent) : World :=
  World.stateAt (benchNode values) siteRack benchJansson [⟨benchHost, 0⟩] es es.length

/-- Tool call `i` has returned an error that says that no mutation occurred. -/
def World.denies (w : World) (i : ℕ) : Bool :=
  match w.tasks[i]? with
  | some (.done (.error p)) => !p.mutationMayHaveOccurred
  | _ => false

/-- What a destructive request is answered is read, and jansson reads nothing back. -/
def Executed.readable (N : Node) (x : Executed) : Bool :=
  if x.cmd.method ∈ destructiveMethods then
    decide (x.Legible N siteRack benchJansson) &&
      (x.responses siteRack benchJansson).all fun root => (benchJansson.loads (compactText (.object root))).isNone
  else true

/-- A destructive request was answered with success. -/
def Exchange.succeeded (e : Exchange) : Bool :=
  match e.call, e.reply with
  | .request r, some (.payload _) => r.method ∈ destructiveMethods
  | _, _ => false

/-- A commit of tool call 1 that was executed for exchange `n`, and left another fingerprint or not. -/
def Executed.commitsFor (n : ℕ) (changes : Bool) (x : Executed) : Bool :=
  x.cmd.method == "txn.commit" && x.exchange == n &&
    (siteRack.computePatchFingerprint x.site.host.rack.patch != siteRack.computePatchFingerprint x.left.rack.patch)
      == changes

theorem exists_of_denies {w : World} {i : ℕ} (h : w.denies i = true) : ∃ p, w.DeniesMutation i p := by
  unfold World.denies at h
  split at h
  · next p hp => exact ⟨p, hp, by simpa using h⟩
  · cases h

theorem issued_of_caller {s : Shared} {x : Executed} {i n : ℕ} (hn : x.exchange = n)
    (h : (s.exchanges[n]?).map (·.caller) = some i) : s.Issued i x := by
  obtain ⟨e, he, hcaller⟩ := Option.map_eq_some_iff.mp h
  exact ⟨e, hn ▸ he, hcaller⟩

theorem readable_of_all {values : List Json} {es : List WorldEvent}
    (h : (benchWorld values es).executed.all (Executed.readable (benchNode values)) = true) {k : ℕ} {x : Executed}
    (hx : World.Executes (benchNode values) siteRack benchJansson [⟨benchHost, 0⟩] es k x)
    (hmethod : x.cmd.method ∈ destructiveMethods) : x.Readable (benchNode values) siteRack benchJansson := by
  have hreadable := List.all_eq_true.mp h x (World.executed_at_end hx)
  unfold Executed.readable at hreadable
  rw [if_pos hmethod, Bool.and_eq_true] at hreadable
  refine ⟨of_decide_eq_true hreadable.1, fun root hroot text htext v hv => ?_⟩
  have hnone := List.all_eq_true.mp hreadable.2 root hroot
  obtain rfl := Option.some.inj htext
  rw [hv] at hnone
  cases hnone

theorem not_succeeded_of_all {s : Shared} {i : ℕ} (h : s.exchanges.all (fun e => !e.succeeded) = true) :
    ¬ s.Succeeded i := by
  rintro ⟨e, he, -, ⟨r, hcall, hmethod⟩, v, hreply⟩
  have hnot := List.all_eq_true.mp h e he
  unfold Exchange.succeeded at hnot
  rw [hcall, hreply] at hnot
  simp [hmethod] at hnot

def conflictFrame : Json :=
  .object (resError "0000000000000022" .patchConflict "patch changed since preview; re-preview required" false false)

def conflictValues : List Json :=
  removalValues ++ [conflictFrame, .object (resError "0000000000000022" .resultTooLarge
    (tooLargeMessage (compactText conflictFrame) "txn.commit" limitBridgeFrameBytes) false true)]

/-- The user takes the cable away before the removal is committed. -/
def conflictStart : List WorldEvent := removalEvents ++ [.host 0 (.edit { benchPatch with cables := [] } [] 0)]

def conflictEvents : List WorldEvent :=
  conflictStart ++ .execute 5 ⟨8, 9⟩ benchReadings :: (.server (.deliver 5) :: resumes 1 7)

theorem conflict_run :
    (benchWorld conflictValues conflictEvents).denies 1 = true ∧
      (benchWorld conflictValues conflictEvents).executed.all (Executed.readable (benchNode conflictValues)) = true ∧
      (benchWorld conflictValues conflictEvents).server.exchanges.all (fun e => !e.succeeded) = true ∧
      ((benchWorld conflictValues conflictEvents).server.exchanges[5]?).map (·.caller) = some 1 ∧
      (benchNext conflictValues conflictStart (.execute 5 ⟨8, 9⟩ benchReadings)).any
        (Executed.commitsFor 5 false) = true := by
  decide +kernel

/-- The bench commit that finds another patch is denied, and has left the patch. -/
theorem conflict_denial_is_true : ∃ p x, (benchWorld conflictValues conflictEvents).DeniesMutation 1 p ∧
    x.cmd.method = "txn.commit" ∧ (benchWorld conflictValues conflictEvents).server.Issued 1 x ∧
    x.Unchanged siteRack := by
  obtain ⟨hdenies, hreadable, hnone, hcaller, hcommits⟩ := conflict_run
  obtain ⟨p, hp⟩ := exists_of_denies hdenies
  obtain ⟨x, hx, hcommit⟩ := List.any_eq_true.mp hcommits
  unfold Executed.commitsFor at hcommit
  rw [Bool.and_eq_true, Bool.and_eq_true, beq_iff_eq, beq_iff_eq] at hcommit
  have hissued := issued_of_caller hcommit.1.2 hcaller
  refine ⟨p, x, hp, hcommit.1.1, hissued, ?_⟩
  refine (denial_is_true (benchNode conflictValues) siteRack benchJansson [⟨benchHost, 0⟩] conflictEvents
    (fun k x hx hmethod => readable_of_all hreadable hx hmethod) 1 p hp).1
    (fun ⟨_, hsucceeded⟩ => not_succeeded_of_all hnone hsucceeded) conflictStart.length x ?_ hissued
  exact executes_benchNext hx _

/-- The answers of the plugin when a probe is attached at an input of the filter. -/
def attachOps : List Json := attachOperations ⟨some "2", none, 1, false⟩ "1" 1

def attachAnswer : Json :=
  ((txnPreview siteRack (.object [("scope", scopeOf "A" "a" 0), ("label", .string "Attach probe"),
    ("operations", .array attachOps)]) benchHost.rack).payload).getD .null

def attachCommit : CommitArgs := ⟨"op-1", "plan", "1 2 3|10", none⟩

def attached : TxnOutcome × RackState :=
  txnCommit siteRack (commitRequest attachCommit ⟨"A", "a", "", "", 0, 0⟩ (cachedPlan attachAnswer attachOps "A" "a" 0))
    benchReadings.durationMs benchHost.rack

def snapshotFrame : Json :=
  okFrame "0000000000000016" (some (.object [("modules", .array []), ("cables", .array [])]))

def benchSnapshot : RackReadings := { benchReadings with frame := fun _ => .ok (compactText snapshotFrame) }

def attachValues : List Json :=
  [snapshotFrame, okFrame "0000000000000018" attachAnswer, leaseFrame "0000000000000021",
    okFrame "0000000000000022" attached.1.payload, .object (resError "0000000000000022" .resultTooLarge
      (tooLargeMessage (compactText (okFrame "0000000000000022" attached.1.payload)) "txn.commit"
        limitBridgeFrameBytes) false true)]

/-- A probe is previewed, and its commit requested. -/
def attachStart : List WorldEvent :=
  connects (.previewAttachProbe "1" 1 (some ("2", 1)) none) ++
  [.execute 3 ⟨6, 7⟩ benchSnapshot, .server (.deliver 3)] ++ resumes 0 6 ++ executes 4 ++ resumes 0 6 ++
  [.call (.commitAttachProbe attachCommit)] ++ resumes 1 5 ++ leases 5 "0000000000000021" ++ resumes 1 7

/-- The commit is answered; then Rack quits, and the closing snapshot finds nobody to connect to. -/
def attachEnd : List WorldEvent :=
  [.server (.deliver 6), .server (.close 0 "bridge closed the connection")] ++ resumes 1 6 ++
  [.server (.handshake 7 (.failed (.error "connect ECONNREFUSED 127.0.0.1:7001")))] ++ resumes 1 9

def attachEvents : List WorldEvent := attachStart ++ .execute 6 ⟨6, 7⟩ benchReadings :: attachEnd

theorem attach_run :
    (benchWorld attachValues attachEvents).denies 1 = true ∧
      (benchWorld attachValues attachEvents).executed.all (Executed.readable (benchNode attachValues)) = true ∧
      ((benchWorld attachValues attachEvents).server.exchanges[6]?).map (·.caller) = some 1 ∧
      (benchNext attachValues attachStart (.execute 6 ⟨6, 7⟩ benchReadings)).any (Executed.commitsFor 6 true) = true := by
  decide +kernel

/-- A probe is attached, and the error of the tool call says that no mutation occurred. -/
theorem attached_probe_is_denied :
    ¬ ∀ (N : Node) (rack : Rack) (J : Jansson) (sites : List Site) (es : List WorldEvent),
      (∀ k x, World.Executes N rack J sites es k x → x.cmd.method ∈ destructiveMethods → x.Readable N rack J) →
      ∀ i p, (World.stateAt N rack J sites es es.length).DeniesMutation i p → ∀ k x,
        World.Executes N rack J sites es k x → (World.stateAt N rack J sites es es.length).server.Issued i x →
        x.Unchanged rack := by
  intro hall
  obtain ⟨hdenies, hreadable, hcaller, hcommits⟩ := attach_run
  obtain ⟨p, hp⟩ := exists_of_denies hdenies
  obtain ⟨x, hx, hcommit⟩ := List.any_eq_true.mp hcommits
  unfold Executed.commitsFor at hcommit
  rw [Bool.and_eq_true, Bool.and_eq_true, beq_iff_eq, beq_iff_eq, beq_iff_eq, bne_iff_ne] at hcommit
  have hexecutes : World.Executes (benchNode attachValues) siteRack benchJansson [⟨benchHost, 0⟩] attachEvents
      attachStart.length x := executes_benchNext hx attachEnd
  have hissued := issued_of_caller hcommit.1.2 hcaller
  have hunchanged := hall (benchNode attachValues) siteRack benchJansson [⟨benchHost, 0⟩] attachEvents
    (fun k x hx hmethod => readable_of_all hreadable hx hmethod) 1 p hp attachStart.length x hexecutes hissued
  rcases hunchanged with hsame | ⟨fingerprint, hbefore, hafter⟩
  · exact hcommit.2 (congrArg _ hsame.symm)
  · exact hcommit.2 (hbefore.trans hafter.symm)

end RackMcp.Server
