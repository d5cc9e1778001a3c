import RackMcp.Proof.Idempotency
import RackMcp.Proof.Lockstep
import RackMcp.Rackside.Handlers

/-!
# What is remembered

A handler decides whether its result is recorded, and the frame says whether the patch may have changed; the
two are computed apart. `LosesTrack` is when a mutating handler ends without knowing what it left: there the
frame says that a mutation may have occurred, and nothing is recorded. A `Refusal` is not recorded either, and says
that nothing occurred as long as it fits one frame. `remembered_iff` is exactly when a frame that reports a mutation
answers the retries of its request.
-/

namespace RackMcp

open Gen Outcomes

variable {rack : Rack} {J : Jansson} {r : RackReadings} {cmd : BridgeCommand} {h : Host}

/-! ### What a frame says -/

/-- The frame says ok, or that a mutation may have occurred. -/
def ReportsMutation (J : Jansson) (frame : String) : Prop :=
  Json.get (J.loads frame) "ok" = some (.bool true) ∨
    Json.get (Json.get (J.loads frame) "error") "mutationMayHaveOccurred" = some (.bool true)

/-- A failed response whose flag is `mayHave`. -/
def FailsSaying (mayHave : Bool) (root : List (String × Json)) : Prop :=
  root.lookup "ok" = some (.bool false) ∧
    Json.get (root.lookup "error") "mutationMayHaveOccurred" = some (.bool mayHave)

theorem failsSaying_resError (id : String) (code : ErrorCode) (message : String) (retrySafe mayHave : Bool) :
    FailsSaying mayHave (resError id code message retrySafe mayHave) := ⟨rfl, rfl⟩

theorem lookup_withExtras (extras : Option Json) (members : List (String × Json)) {key : String}
    (hkey : key ∉ ["rollback", "details"]) : (withExtras extras members).lookup key = members.lookup key := by
  rw [List.mem_cons, List.mem_singleton, not_or] at hkey
  unfold withExtras
  rw [List.foldl_cons, List.foldl_cons, List.foldl_nil]
  rcases Json.get extras "details" with _ | details
  · rcases Json.get extras "rollback" with _ | rollback
    · rfl
    · exact lookup_setMember_of_ne hkey.1 _ _
  · rcases Json.get extras "rollback" with _ | rollback
    · exact lookup_setMember_of_ne hkey.2 _ _
    · exact (lookup_setMember_of_ne hkey.2 _ _).trans (lookup_setMember_of_ne hkey.1 _ _)

/-- The extras leave the flag of the error object. -/
theorem FailsSaying.extras {mayHave : Bool} {extras : Option Json} {base root : List (String × Json)}
    (h : FailsSaying mayHave base) (hroot : errorWithExtras extras base = some root) :
    FailsSaying mayHave root := by
  unfold errorWithExtras at hroot
  split at hroot
  · next members herror =>
    split at hroot
    · rw [Option.some.injEq] at hroot
      rw [← hroot]
      refine ⟨?_, ?_⟩
      · rw [lookup_setMember_of_ne (by decide)]
        exact h.1
      · rw [lookup_setMember_self]
        have hflag := h.2
        rw [herror] at hflag
        show (withExtras extras members).lookup "mutationMayHaveOccurred" = _
        rw [lookup_withExtras extras members (by decide)]
        exact hflag
    · cases hroot
  · cases hroot

theorem failsSaying_txnResponses {outcome : TxnOutcome} {code : ErrorCode} (hcode : outcome.errorCode = some code)
    {root : List (String × Json)} (hroot : root ∈ txnResponses cmd outcome) :
    FailsSaying outcome.mutationMayHaveOccurred root := by
  unfold txnResponses at hroot
  rw [hcode] at hroot
  dsimp only at hroot
  rcases List.mem_cons.mp hroot with rfl | hroot
  · exact failsSaying_resError _ _ _ _ _
  · exact (failsSaying_resError _ _ _ _ _).extras (Option.mem_toList.mp hroot)

theorem failsSaying_patchFileResponses {outcome : PatchFileOutcome} {code : ErrorCode}
    (hcode : outcome.errorCode = some code) {root : List (String × Json)}
    (hroot : root ∈ patchFileResponses cmd outcome) : FailsSaying (code == .internal) root := by
  unfold patchFileResponses at hroot
  rw [hcode] at hroot
  rw [List.mem_singleton.mp hroot]
  exact failsSaying_resError _ _ _ _ _

theorem reportsMutation_iff {frame : String} {mayHave : Bool} {root : List (String × Json)}
    (hloads : J.loads frame = some (.object root)) (h : FailsSaying mayHave root) :
    ReportsMutation J frame ↔ mayHave = true := by
  have hok : Json.get (J.loads frame) "ok" = some (.bool false) := by
    rw [hloads]
    exact h.1
  have hflag : Json.get (Json.get (J.loads frame) "error") "mutationMayHaveOccurred" = some (.bool mayHave) := by
    rw [hloads]
    exact h.2
  unfold ReportsMutation
  rw [hok, hflag]
  simp

/-! ### Losing track of the patch -/

/-- The save throws, or its file cannot be moved over the target. -/
def SaveFails (r : RackReadings) : Prop := r.saveThrew ≠ none ∨ r.moved = false

/-- The patch that was loaded or cleared has no Bridge module, and inserting one throws. -/
def BridgeFails (r : RackReadings) : Prop :=
  (r.replacement.patch.modules.any fun m => isBridgeModule (toWorldModule m)) = false ∧
    ∃ e patch, r.insertion = .threw e patch

/-- The patch manager throws, or the Bridge module cannot be put back. -/
def ReplaceFails (r : RackReadings) : Prop := r.replacement.threw ≠ none ∨ BridgeFails r

/-- The undo passes its gate, and throws or leaves a patch without a fingerprint. -/
def UndoFails (rack : Rack) (request : Json) (rs : RackState) : Prop :=
  undoGate rack request rs = none ∧
    ∀ rs', undoHistory rack rs = .done rs' → rack.computePatchFingerprint rs'.patch = none

/-- The handler ends without knowing what it left. -/
def LosesTrack (rack : Rack) (r : RackReadings) (cmd : BridgeCommand) (h : Host) : Prop :=
  if cmd.method = "txn.undoLast" then UndoFails rack cmd.payload h.rack
  else if cmd.method = "patchfile.save" then saveTarget cmd.payload h ≠ "" ∧ SaveFails r
  else if cmd.method = "patchfile.saveCopy" then jstr cmd.payload "path" ≠ "" ∧ SaveFails r
  else if cmd.method = "patchfile.load" then jstr cmd.payload "path" ≠ "" ∧ ReplaceFails r
  else cmd.method = "patchfile.clear" ∧ ReplaceFails r

/-- The rollback of a failed transaction puts the patch back, as its fingerprint tells. -/
def Restores (rack : Rack) (s : Applier) (rs : RackState) : Prop :=
  (runInverses rack.undo s.actions s.patch).1.threw = false ∧
    ∃ fingerprint, rack.computePatchFingerprint (runInverses rack.undo s.actions s.patch).2 = some fingerprint ∧
      rack.computePatchFingerprint rs.patch = some fingerprint

/-- The frame of a mutating command that is refused, or whose transaction is rolled back. -/
inductive Refusal (rack : Rack) (J : Jansson) (cmd : BridgeCommand) (h : Host) : String → Prop
  | undo (refusal : TxnOutcome) (method : cmd.method = "txn.undoLast")
    (gate : undoGate rack cmd.payload h.rack = some refusal) : Refusal rack J cmd h (txnOutcomeToFrame J cmd refusal)
  | commit (refusal : TxnOutcome) (method : cmd.method = "txn.commit")
    (gate : commitGate rack cmd.payload h.rack = some refusal) :
    Refusal rack J cmd h (txnOutcomeToFrame J cmd refusal)
  | rollback (failedIndex : ℕ) (failMessage : String) (s : Applier) (method : cmd.method = "txn.commit")
    (gate : commitGate rack cmd.payload h.rack = none)
    (failed : Applier.apply rack (planOperations (Json.get cmd.payload "plan")) h.rack.patch =
      .thrown (failedIndex, failMessage) s)
    (restored : Restores rack s h.rack) :
    Refusal rack J cmd h (txnOutcomeToFrame J cmd
      (rollbackOutcome failedIndex failMessage (runInverses rack.undo s.actions s.patch).1 true ""))
  | save (method : cmd.method = "patchfile.save") (target : saveTarget cmd.payload h = "") :
    Refusal rack J cmd h (patchFileOutcomeToFrame J cmd
      (.failed .pathNotAllowed "current patch has no path; provide one"))
  | saveCopy (method : cmd.method = "patchfile.saveCopy") (path : jstr cmd.payload "path" = "") :
    Refusal rack J cmd h (patchFileOutcomeToFrame J cmd (.failed .pathNotAllowed "save copy requires a path"))
  | load (method : cmd.method = "patchfile.load") (path : jstr cmd.payload "path" = "") :
    Refusal rack J cmd h (patchFileOutcomeToFrame J cmd (.failed .pathNotAllowed "load requires a path"))

theorem savePatchAtomic_cases (path : String) :
    (¬ SaveFails r ∧ savePatchAtomic r path = none) ∨ (SaveFails r ∧ ∃ e, savePatchAtomic r path = some e) := by
  unfold savePatchAtomic SaveFails
  rcases r.saveThrew with _ | e
  · rcases r.moved with _ | _
    · exact .inr ⟨.inr rfl, _, rfl⟩
    · exact .inl ⟨by simp, rfl⟩
  · exact .inr ⟨.inl (by simp), e, rfl⟩

/-- The Bridge module is put back, or not missing, unless inserting it throws. -/
theorem ensureBridge_cases (hpatch : h.rack.patch = r.replacement.patch) :
    (¬ BridgeFails r ∧ ∃ warnings left, ensureBridge r h = (.ok warnings, left)) ∨
      (BridgeFails r ∧ ∃ e left, ensureBridge r h = (.error e, left)) := by
  unfold ensureBridge BridgeFails
  rw [← hpatch]
  split
  · next hbridge =>
    refine .inl ⟨fun hfails => ?_, _, _, rfl⟩
    have hmissing : h.hasBridge = false := hfails.1
    rw [hmissing] at hbridge
    cases hbridge
  · next hmissing =>
    have hmissing : h.hasBridge = false := Bool.eq_false_iff.mpr hmissing
    rcases r.insertion with _ | _ | _ | ⟨m, panels⟩ | ⟨e, patch⟩
    · exact .inl ⟨by simp, _, _, rfl⟩
    · exact .inl ⟨by simp, _, _, rfl⟩
    · exact .inl ⟨by simp, _, _, rfl⟩
    · exact .inl ⟨by simp, _, _, rfl⟩
    · exact .inr ⟨⟨hmissing, e, patch, rfl⟩, _, _, rfl⟩

/-! ### How the handlers end -/

/-- How a patch file operation ends that may be refused with certain messages. -/
inductive PatchFileEnding (lost : Prop) (refusal : String → Prop) : Except HandlerThrow PatchFileOutcome → Prop
  | threw (e : HandlerThrow) (hlost : lost) : PatchFileEnding lost refusal (.error e)
  | failed (message : String) (hlost : lost) : PatchFileEnding lost refusal (.ok (.failed .internal message))
  | refused (message : String) (hnot : ¬ lost) (hrefusal : refusal message) :
    PatchFileEnding lost refusal (.ok (.failed .pathNotAllowed message))
  | done (payload : Json) (hnot : ¬ lost) : PatchFileEnding lost refusal (.ok { payload := some payload })

section patchFile
variable {refusal : String → Prop}

theorem patchSaveCopy_ending (request : Json)
    (hrefusal : jstr request "path" = "" → refusal "save copy requires a path") :
    PatchFileEnding (jstr request "path" ≠ "" ∧ SaveFails r) refusal (patchSaveCopy rack r request h).1 := by
  unfold patchSaveCopy
  dsimp only
  split
  · next hempty => exact .refused _ (fun hlost => hlost.1 hempty) (hrefusal hempty)
  · next hpath =>
    obtain ⟨hsaves, hnone⟩ | ⟨hfails, e, he⟩ := savePatchAtomic_cases (r := r) (jstr request "path")
    · rw [hnone]
      exact .done _ fun hlost => hsaves hlost.2
    · rw [he]
      rcases e with what | what | _
      · exact .failed _ ⟨hpath, hfails⟩
      · exact .threw _ ⟨hpath, hfails⟩
      · exact .threw _ ⟨hpath, hfails⟩

theorem patchSave_ending (request : Json)
    (hrefusal : saveTarget request h = "" → refusal "current patch has no path; provide one") :
    PatchFileEnding (saveTarget request h ≠ "" ∧ SaveFails r) refusal (patchSave rack r request h).1 := by
  unfold patchSave
  dsimp only
  split
  · next hempty => exact .refused _ (fun hlost => hlost.1 hempty) (hrefusal hempty)
  · next hpath =>
    obtain ⟨hsaves, hnone⟩ | ⟨hfails, e, he⟩ := savePatchAtomic_cases (r := r) (saveTarget request h)
    · rw [hnone]
      exact .done _ fun hlost => hsaves hlost.2
    · rw [he]
      rcases e with what | what | _
      · exact .failed _ ⟨hpath, hfails⟩
      · exact .threw _ ⟨hpath, hfails⟩
      · exact .threw _ ⟨hpath, hfails⟩

theorem finishReplacement_ending (saved : Bool) (hpatch : h.rack.patch = r.replacement.patch) :
    PatchFileEnding (BridgeFails r) refusal (finishReplacement rack r saved h).1 := by
  unfold finishReplacement
  obtain ⟨hnot, warnings, left, heq⟩ | ⟨hfails, e, left, heq⟩ :=
    ensureBridge_cases (r := r) (h := h.bumpEpoch) hpatch
  · rw [heq]
    exact .done _ hnot
  · rw [heq]
    exact .threw _ hfails

theorem PatchFileEnding.congr {lost lost' : Prop} {x : Except HandlerThrow PatchFileOutcome}
    (h : PatchFileEnding lost refusal x) (hiff : lost ↔ lost') : PatchFileEnding lost' refusal x := by
  rw [← propext hiff]
  exact h

theorem patchLoad_ending (request : Json) (hrefusal : jstr request "path" = "" → refusal "load requires a path") :
    PatchFileEnding (jstr request "path" ≠ "" ∧ ReplaceFails r) refusal (patchLoad rack r request h).1 := by
  unfold patchLoad
  dsimp only
  split
  · next hempty => exact .refused _ (fun hlost => hlost.1 hempty) (hrefusal hempty)
  · next hpath =>
    rcases hthrew : r.replacement.threw with _ | e
    · refine (finishReplacement_ending true rfl).congr ?_
      simp [ReplaceFails, hthrew, hpath]
    · have hfails : ReplaceFails r := .inl (by simp [hthrew])
      rcases e with what | what | _
      · show PatchFileEnding _ _ (loadFailed r what _).1
        unfold loadFailed
        obtain ⟨-, warnings, left, heq⟩ | ⟨-, e, left, heq⟩ :=
          ensureBridge_cases (r := r) (h := (h.replacePatch r.replacement).bumpEpoch) rfl
        · rw [heq]
          exact .failed _ ⟨hpath, hfails⟩
        · rw [heq]
          exact .threw _ ⟨hpath, hfails⟩
      · exact .threw _ ⟨hpath, hfails⟩
      · exact .threw _ ⟨hpath, hfails⟩

theorem patchClear_ending : PatchFileEnding (ReplaceFails r) refusal (patchClear rack r h).1 := by
  unfold patchClear
  dsimp only
  rcases hthrew : r.replacement.threw with _ | e
  · refine (finishReplacement_ending false rfl).congr ?_
    simp [ReplaceFails, hthrew]
  · have hfails : ReplaceFails r := .inl (by simp [hthrew])
    rcases e with what | what | _
    · exact .failed _ hfails
    · exact .threw _ hfails
    · exact .threw _ hfails

end patchFile

theorem patchFile_ending (hmethod : cmd.method ∈ patchFileMethods) :
    PatchFileEnding (LosesTrack rack r cmd h)
      (fun message => Refusal rack J cmd h (patchFileOutcomeToFrame J cmd (.failed .pathNotAllowed message)))
      (h.patchFile rack r cmd.method cmd.payload).1 := by
  unfold patchFileMethods at hmethod
  unfold LosesTrack Host.patchFile
  simp only [List.mem_cons, List.not_mem_nil, or_false] at hmethod
  have hsave := @Refusal.save rack J cmd h
  have hsaveCopy := @Refusal.saveCopy rack J cmd h
  have hload := @Refusal.load rack J cmd h
  rcases hmethod with hm | hm | hm | hm <;> rw [hm]
  · exact patchSave_ending cmd.payload (hsave hm)
  · exact patchSaveCopy_ending cmd.payload (hsaveCopy hm)
  · exact patchLoad_ending cmd.payload (hload hm)
  · exact patchClear_ending.congr (by simp)

/-- How an undo ends. -/
inductive UndoEnding (rack : Rack) (request : Json) (rs : RackState) : Except HandlerThrow TxnOutcome → Prop
  | threw (e : HandlerThrow) (hlost : UndoFails rack request rs) : UndoEnding rack request rs (.error e)
  | unknown (message : String) (hlost : UndoFails rack request rs) :
    UndoEnding rack request rs
      (.ok { errorCode := some .internal, errorMessage := message, mutationMayHaveOccurred := true })
  | refused (code : ErrorCode) (message : String) (hgate : undoGate rack request rs = some (.refused code message)) :
    UndoEnding rack request rs (.ok (.refused code message))
  | done (payload : Json) (hnot : ¬ UndoFails rack request rs) :
    UndoEnding rack request rs (.ok { payload := some payload })

theorem undoGate_refused {request : Json} {rs : RackState} {outcome : TxnOutcome}
    (hgate : undoGate rack request rs = some outcome) : ∃ code message, outcome = .refused code message := by
  unfold undoGate at hgate
  dsimp only at hgate
  split at hgate
  · exact ⟨_, _, (Option.some.inj hgate).symm⟩
  split at hgate
  · exact ⟨_, _, (Option.some.inj hgate).symm⟩
  split at hgate
  · exact ⟨_, _, (Option.some.inj hgate).symm⟩
  split at hgate
  · exact ⟨_, _, (Option.some.inj hgate).symm⟩
  split at hgate
  · exact ⟨_, _, (Option.some.inj hgate).symm⟩
  split at hgate
  · exact ⟨_, _, (Option.some.inj hgate).symm⟩
  · cases hgate

theorem undoLast_ending (request : Json) :
    UndoEnding rack request h.rack (h.undoLast rack request).1 := by
  unfold Host.undoLast txnUndoLast
  dsimp only
  rcases hgate : undoGate rack request h.rack with _ | outcome
  · rcases hundo : undoHistory rack h.rack with rs | ⟨what, rs⟩
    · show UndoEnding _ _ _ (.ok (undoOutcome rack { rs with lastMcpTransaction := none }))
      unfold undoOutcome
      rcases hfp : rack.computePatchFingerprint rs.patch with _ | fingerprint
      · refine .unknown _ ⟨hgate, fun rs' hrs' => ?_⟩
        rw [hundo] at hrs'
        cases hrs'
        exact hfp
      · refine .done _ fun hlost => ?_
        rw [hlost.2 rs hundo] at hfp
        cases hfp
    · refine .threw _ ⟨hgate, fun rs' hrs' => ?_⟩
      rw [hundo] at hrs'
      cases hrs'
  · obtain ⟨code, message, rfl⟩ := undoGate_refused hgate
    exact .refused _ _ hgate

theorem rollBack_of_restores {failedIndex : ℕ} {failMessage : String} {s : Applier} {rs : RackState}
    (hrestores : Restores rack s rs) : (rollBack rack failedIndex failMessage s rs).1 =
      rollbackOutcome failedIndex failMessage (runInverses rack.undo s.actions s.patch).1 true "" := by
  obtain ⟨hran, fingerprint, hpost, hpre⟩ := hrestores
  unfold rollBack
  dsimp only
  rw [hran, hpre, if_neg Bool.false_ne_true, hpost, Option.isSome_some, Bool.true_and, beq_self_eq_true]
  rfl

theorem restores_of_rollBack {failedIndex : ℕ} {failMessage : String} {s : Applier} {rs : RackState}
    (hflag : (rollBack rack failedIndex failMessage s rs).1.mutationMayHaveOccurred = false) :
    Restores rack s rs := by
  unfold rollBack rollbackOutcome at hflag
  dsimp only at hflag
  rw [Bool.not_eq_false', Bool.and_eq_true, beq_iff_eq, Option.isSome_iff_exists] at hflag
  obtain ⟨⟨fingerprint, hpost⟩, hsame⟩ := hflag
  rw [hpost] at hsame
  rcases hthrew : (runInverses rack.undo s.actions s.patch).1.threw with _ | _
  · rw [hthrew, if_neg Bool.false_ne_true] at hpost
    exact ⟨hthrew, fingerprint, hpost, hsame.symm⟩
  · rw [hthrew, if_pos rfl] at hpost
    cases hpost

/-- What a commit answers without a record is a refusal. -/
theorem refusal_of_commit {outcome : TxnOutcome} (hmethod : cmd.method = "txn.commit")
    (houtcome : (txnCommit rack cmd.payload r.durationMs h.rack).1 = outcome)
    (hforgotten : (outcome.errorCode.isNone || outcome.mutationMayHaveOccurred) = false) :
    Refusal rack J cmd h (txnOutcomeToFrame J cmd outcome) := by
  subst houtcome
  rcases hgate : commitGate rack cmd.payload h.rack with _ | refusal
  · unfold txnCommit at hforgotten ⊢
    rw [hgate] at hforgotten ⊢
    dsimp only at hforgotten ⊢
    split at hforgotten
    · exfalso
      unfold finishCommit at hforgotten
      dsimp only at hforgotten
      split at hforgotten <;> simp at hforgotten
    · next failedIndex failMessage s hfailed =>
      have hrestores := restores_of_rollBack (Bool.or_eq_false_iff.mp hforgotten).2
      rw [rollBack_of_restores hrestores]
      exact .rollback failedIndex failMessage s hmethod hgate hfailed hrestores
  · unfold txnCommit
    rw [hgate]
    exact .commit refusal hmethod hgate

/-- How a handler ends: what it throws, or whether its result is recorded and what its frame says. -/
inductive HandlerEnding (J : Jansson) (lost : Prop) (refusal : String → Prop) : Except HandlerThrow HandlerResult → Prop
  | threw (e : HandlerThrow) (hlost : lost) : HandlerEnding J lost refusal (.error e)
  | recorded (result : HandlerResult) (hcacheable : result.cacheable = true) (hnot : ¬ lost) :
    HandlerEnding J lost refusal (.ok result)
  | forgotten (result : HandlerResult) (mayHave : Bool) (root : List (String × Json))
    (hcacheable : result.cacheable = false) (hloads : J.loads result.frame = some (.object root))
    (hfailing : FailsSaying mayHave root) (hiff : lost ↔ mayHave = true) (hrefusal : ¬ lost → refusal result.frame) :
    HandlerEnding J lost refusal (.ok result)

theorem dispatch_patchFile {answers : RackAnswers} (hmethod : cmd.method ∈ patchFileMethods) :
    dispatch J answers cmd = (answers.patchFile cmd.method).map fun outcome =>
      { frame := patchFileOutcomeToFrame J cmd outcome, cacheable := outcome.errorCode.isNone } := by
  have hothers : cmd.method ∉ frameMethods ∧ cmd.method ≠ "txn.preview" ∧ cmd.method ≠ "txn.commit" ∧
      cmd.method ≠ "txn.undoLast" := by
    have hall : ∀ method ∈ patchFileMethods, method ∉ frameMethods ∧ method ≠ "txn.preview" ∧
        method ≠ "txn.commit" ∧ method ≠ "txn.undoLast" := by decide
    exact hall _ hmethod
  unfold dispatch
  rw [if_neg hothers.1, if_neg hothers.2.1, if_neg hothers.2.2.1, if_neg hothers.2.2.2, if_pos hmethod]

theorem dispatch_commit {answers : RackAnswers} (hmethod : cmd.method = "txn.commit") :
    dispatch J answers cmd = (answers.txn cmd.method).map fun outcome =>
      { frame := txnOutcomeToFrame J cmd outcome
        cacheable := outcome.errorCode.isNone || outcome.mutationMayHaveOccurred } := by
  unfold dispatch
  rw [if_neg (by rw [hmethod]; decide), if_neg (by rw [hmethod]; decide), if_pos hmethod]

theorem dispatch_undoLast {answers : RackAnswers} (hmethod : cmd.method = "txn.undoLast") :
    dispatch J answers cmd = (answers.txn cmd.method).map fun outcome =>
      { frame := txnOutcomeToFrame J cmd outcome, cacheable := outcome.errorCode.isNone } := by
  unfold dispatch
  rw [if_neg (by rw [hmethod]; decide), if_neg (by rw [hmethod]; decide), if_neg (by rw [hmethod]; decide),
    if_pos hmethod]

theorem loads_of_responses {c : Call} (hpatchFile : c.cmd.method ∉ ["txn.commit", "txn.undoLast"])
    {outcome : PatchFileOutcome} (houtcome : c.answers.patchFile c.cmd.method = .ok outcome)
    (h : ∀ root ∈ c.responses, J.RoundTrips (.object root)) :
    ∃ root ∈ patchFileResponses c.cmd outcome,
      J.loads (patchFileOutcomeToFrame J c.cmd outcome) = some (.object root) := by
  unfold Call.responses at h
  rw [if_neg hpatchFile, houtcome] at h
  exact loads_patchFileOutcomeToFrame h

theorem loads_of_txnResponses {c : Call} (htxn : c.cmd.method ∈ ["txn.commit", "txn.undoLast"])
    {outcome : TxnOutcome} (houtcome : c.answers.txn c.cmd.method = .ok outcome)
    (h : ∀ root ∈ c.responses, J.RoundTrips (.object root)) :
    ∃ root ∈ txnResponses c.cmd outcome,
      J.loads (txnOutcomeToFrame J c.cmd outcome) = some (.object root) := by
  unfold Call.responses at h
  rw [if_pos htxn, houtcome] at h
  exact loads_txnOutcomeToFrame h

/-- The call of a command on the host. -/
def Host.call (rack : Rack) (J : Jansson) (t : ExecutionReadings) (r : RackReadings) (cmd : BridgeCommand)
    (h : Host) : Call := ⟨cmd, t, h.answers rack J r cmd⟩

theorem not_losesTrack_commit (hmethod : cmd.method = "txn.commit") : ¬ LosesTrack rack r cmd h := by
  unfold LosesTrack
  rw [hmethod]
  simp

theorem losesTrack_undoLast (hmethod : cmd.method = "txn.undoLast") :
    LosesTrack rack r cmd h ↔ UndoFails rack cmd.payload h.rack := by
  unfold LosesTrack
  rw [if_pos hmethod]

section ending
variable {t : ExecutionReadings}
  (hresponses : ∀ root ∈ (h.call rack J t r cmd).responses, J.RoundTrips (.object root))
include hresponses

theorem commit_handlerEnding (hmethod : cmd.method = "txn.commit") :
    HandlerEnding J (LosesTrack rack r cmd h) (Refusal rack J cmd h) (dispatch J (h.answers rack J r cmd) cmd) := by
  have hnot := @not_losesTrack_commit rack r cmd h hmethod
  obtain ⟨outcome, hcommit⟩ : ∃ outcome, (txnCommit rack cmd.payload r.durationMs h.rack).1 = outcome := ⟨_, rfl⟩
  have houtcome : (h.answers rack J r cmd).txn cmd.method = .ok outcome := by
    rw [hmethod, ← hcommit]
    rfl
  obtain ⟨root, hroot, hloads⟩ :=
    loads_of_txnResponses (c := h.call rack J t r cmd) (by show cmd.method ∈ _; simp [hmethod]) houtcome hresponses
  rw [dispatch_commit hmethod, houtcome]
  rcases hcacheable : (outcome.errorCode.isNone || outcome.mutationMayHaveOccurred) with _ | _
  · have hrefusal := refusal_of_commit (J := J) hmethod hcommit hcacheable
    rw [Bool.or_eq_false_iff, Option.isNone_eq_false_iff, Option.isSome_iff_exists] at hcacheable
    obtain ⟨⟨code, hcode⟩, hflag⟩ := hcacheable
    refine .forgotten _ outcome.mutationMayHaveOccurred root ?_ hloads (failsSaying_txnResponses hcode hroot) ?_
      fun _ => hrefusal
    · simp [hcode, hflag]
    · simp [hnot, hflag]
  · exact .recorded _ hcacheable hnot

theorem undoLast_handlerEnding (hmethod : cmd.method = "txn.undoLast") :
    HandlerEnding J (LosesTrack rack r cmd h) (Refusal rack J cmd h) (dispatch J (h.answers rack J r cmd) cmd) := by
  have hlost := @losesTrack_undoLast rack r cmd h hmethod
  have hanswer : (h.answers rack J r cmd).txn cmd.method = (h.undoLast rack cmd.payload).1 := by
    rw [hmethod]
    rfl
  have hloads := fun outcome =>
    @loads_of_txnResponses J (h.call rack J t r cmd) (by show cmd.method ∈ _; simp [hmethod]) outcome
  have hending := @undoLast_ending rack h cmd.payload
  rw [← hanswer] at hending
  rw [dispatch_undoLast hmethod]
  generalize hx : (h.answers rack J r cmd).txn cmd.method = x at hending
  rcases hending with ⟨e, hundone⟩ | ⟨message, hundone⟩ | ⟨code, message, hgate⟩ | ⟨payload, hnot⟩
  · exact .threw _ (hlost.mpr hundone)
  · obtain ⟨root, hroot, hloads⟩ := hloads _ hx hresponses
    exact .forgotten _ true root rfl hloads (failsSaying_txnResponses rfl hroot) (by simp [hlost, hundone])
      fun hnot => absurd (hlost.mpr hundone) hnot
  · obtain ⟨root, hroot, hloads⟩ := hloads _ hx hresponses
    have hnot : ¬ UndoFails rack cmd.payload h.rack := fun hundone => by
      rw [hundone.1] at hgate
      cases hgate
    exact .forgotten _ false root rfl hloads (failsSaying_txnResponses rfl hroot) (by simp [hlost, hnot])
      fun _ => .undo _ hmethod hgate
  · exact .recorded _ rfl (mt hlost.mp hnot)

theorem patchFile_handlerEnding (hmethod : cmd.method ∈ patchFileMethods) :
    HandlerEnding J (LosesTrack rack r cmd h) (Refusal rack J cmd h) (dispatch J (h.answers rack J r cmd) cmd) := by
  have hother : cmd.method ∉ ["txn.commit", "txn.undoLast"] := by
    have hall : ∀ method ∈ patchFileMethods, method ∉ ["txn.commit", "txn.undoLast"] := by decide
    exact hall _ hmethod
  have hloads := fun outcome => @loads_of_responses J (h.call rack J t r cmd) hother outcome
  have hending := @patchFile_ending rack J r cmd h hmethod
  rw [dispatch_patchFile hmethod]
  change PatchFileEnding _ _ ((h.answers rack J r cmd).patchFile cmd.method) at hending
  generalize hx : (h.answers rack J r cmd).patchFile cmd.method = x at hending
  rcases hending with ⟨e, hlost⟩ | ⟨message, hlost⟩ | ⟨message, hnot, hrefusal⟩ | ⟨payload, hnot⟩
  · exact .threw _ hlost
  · obtain ⟨root, hroot, hloads⟩ := hloads _ hx hresponses
    have hfailing : FailsSaying true root := @failsSaying_patchFileResponses _ _ .internal rfl _ hroot
    exact .forgotten _ true root rfl hloads hfailing (by simp [hlost]) fun hnot => absurd hlost hnot
  · obtain ⟨root, hroot, hloads⟩ := hloads _ hx hresponses
    have hfailing : FailsSaying false root := @failsSaying_patchFileResponses _ _ .pathNotAllowed rfl _ hroot
    exact .forgotten _ false root rfl hloads hfailing (by simp [hnot]) fun _ => hrefusal
  · exact .recorded _ rfl hnot

theorem handlerEnding (hmethod : cmd.method ∈ mutatingMethods) :
    HandlerEnding J (LosesTrack rack r cmd h) (Refusal rack J cmd h) (dispatch J (h.answers rack J r cmd) cmd) := by
  have hcases : ∀ method ∈ mutatingMethods,
      method = "txn.commit" ∨ method = "txn.undoLast" ∨ method ∈ patchFileMethods := by decide
  obtain hcommit | hundo | hpatchFile := hcases _ hmethod
  · exact commit_handlerEnding hresponses hcommit
  · exact undoLast_handlerEnding hresponses hundo
  · exact patchFile_handlerEnding hresponses hpatchFile

end ending

/-! ### Retries -/

/-- The commands ask for the same. -/
def SameRequest (d c : BridgeCommand) : Prop :=
  d.method = c.method ∧ d.operationId = c.operationId ∧ d.payload = c.payload

theorem SameRequest.requestFingerprint_eq {d c : BridgeCommand} (h : SameRequest d c) :
    requestFingerprint J d = requestFingerprint J c := by
  unfold requestFingerprint requestIdentity
  rw [h.1, h.2.2]

/-- After the calls `pre`, what `c` did answers every retry of its request from the cache, while its lifetime
lasts and before 512 further records. -/
def Remembered (J : Jansson) (pre : List Call) (c : Call) : Prop :=
  ∀ (rest : List Call) (j : ℕ) (d : Call), CallsInOrder (pre ++ c :: rest) →
    (pre ++ c :: rest)[j]? = some d → pre.length < j → SameRequest d.cmd c.cmd →
    d.readings.lookupMs < c.readings.recordMs + limitIdempotencyCacheMs →
    recordsBetween J (pre ++ c :: rest) pre.length j < 512 →
    ∃ text, executionAt J (pre ++ c :: rest) j = some (.replayed text)

section retry
variable {pre : List Call} {c : Call}

theorem cacheAt_append (rest : List Call) : cacheAt J (pre ++ rest) pre.length = cacheAt J pre pre.length := by
  unfold cacheAt Trace.stateAt
  rw [List.take_left, List.take_length]

theorem getElem?_at (rest : List Call) : (pre ++ c :: rest)[pre.length]? = some c := by simp

/-- A recorded result is remembered. -/
theorem remembered_of_recorded {result : HandlerResult}
    (hran : (executeCommand J c.answers c.readings c.cmd (cacheAt J pre pre.length)).1 = .ran result true) :
    Remembered J pre c := by
  intro rest j d hclock hd hj hsame hlife hcount
  have hc := @getElem?_at pre c rest
  have hran : executionAt J (pre ++ c :: rest) pre.length = some (.ran result true) := by
    rw [executionAt_eq hc, cacheAt_append, hran]
  have hne : c.cmd.operationId ≠ "" := (entry_of_recorded hc hran).2.2.1
  have hlookup := lookup_of_recorded hclock hc hran hj hd hsame.2.1 hlife hcount
  rw [hsame.requestFingerprint_eq, if_neg (not_not.mpr rfl), ← hsame.requestFingerprint_eq] at hlookup
  rw [executionAt_eq hd, executeCommand_replay (hsame.2.1 ▸ hne) hlookup]
  exact ⟨_, rfl⟩

/-- What misses now misses later. -/
theorem lookup_miss_later {cache : OpCache} {operationId fingerprint : String} {nowMs laterMs : Int}
    (hle : nowMs ≤ laterMs) (hmiss : lookupOperation cache operationId fingerprint nowMs = .miss) :
    lookupOperation cache operationId fingerprint laterMs = .miss := by
  induction cache with
  | nil => rfl
  | cons e rest ih =>
    unfold lookupOperation at hmiss ⊢
    split at hmiss
    · next hskip =>
      have hskip' : e.operationId ≠ operationId ∨ e.stale laterMs = true := by
        rcases hskip with hid | hstale
        · exact .inl hid
        · rw [stale_iff] at hstale
          exact .inr (stale_iff.mpr (by omega))
      rw [if_pos hskip']
      exact ih hmiss
    · split at hmiss <;> cases hmiss

/-- The command at once again. -/
def Call.again (c : Call) : Call := { c with readings := ⟨c.readings.recordMs, c.readings.recordMs⟩ }

theorem callsInOrder_again (hclock : CallsInOrder (pre ++ [c])) : CallsInOrder (pre ++ [c, c.again]) := by
  unfold CallsInOrder at *
  have hle := CallsInOrder.lookup_le_record hclock (getElem?_at (c := c) [])
  rw [show pre ++ [c, c.again] = (pre ++ [c]) ++ [c.again] by simp, List.flatMap_append]
  refine List.pairwise_append.mpr ⟨hclock, by simp [Call.again], ?_⟩
  intro a ha b hb
  have hb : b = c.readings.recordMs := by simpa [Call.again] using hb
  rw [hb]
  rw [List.flatMap_append] at ha hclock
  rcases List.mem_append.mp ha with ha | ha
  · exact (List.pairwise_append.mp hclock).2.2 a ha c.readings.recordMs (by simp)
  · have ha : a = c.readings.lookupMs ∨ a = c.readings.recordMs := by simpa using ha
    omega

/-- What a handler that ran left unrecorded is not remembered: the retry runs the handler again. -/
theorem not_remembered (hclock : CallsInOrder (pre ++ [c])) (hne : c.cmd.operationId ≠ "")
    (hmiss : lookupOperation (cacheAt J pre pre.length) c.cmd.operationId (requestFingerprint J c.cmd)
      c.readings.lookupMs = .miss)
    (hsame : (executeCommand J c.answers c.readings c.cmd (cacheAt J pre pre.length)).2 =
      cacheAt J pre pre.length) : ¬ Remembered J pre c := by
  intro hremembered
  have hc : (pre ++ [c, c.again])[pre.length]? = some c := getElem?_at [c.again]
  have hd : (pre ++ [c, c.again])[pre.length + 1]? = some c.again := by simp
  have hle := CallsInOrder.lookup_le_record hclock (getElem?_at (c := c) [])
  have hcache : cacheAt J (pre ++ [c, c.again]) (pre.length + 1) = cacheAt J pre pre.length := by
    rw [cacheAt_succ hc, cacheAt_append, hsame]
  have hcount : recordsBetween J (pre ++ [c, c.again]) pre.length (pre.length + 1) < 512 := by
    have hnone : recordsBetween J (pre ++ [c, c.again]) pre.length (pre.length + 1) = 0 := by
      unfold recordsBetween
      rw [List.countP_eq_zero]
      intro k hk
      have hlt : k < pre.length + 1 := List.mem_range.mp hk
      simp [show ¬ pre.length < k by omega]
    omega
  obtain ⟨text, hreplayed⟩ := hremembered [c.again] (pre.length + 1) c.again (callsInOrder_again hclock) hd
    (by omega) ⟨rfl, rfl, rfl⟩
    (by show c.readings.recordMs < c.readings.recordMs + limitIdempotencyCacheMs; simp [limitIdempotencyCacheMs])
    hcount
  rw [executionAt_eq hd, hcache, Option.some.injEq] at hreplayed
  have hagain : lookupOperation (cacheAt J pre pre.length) c.again.cmd.operationId
      (requestFingerprint J c.again.cmd) c.again.readings.lookupMs = .miss := lookup_miss_later hle hmiss
  rw [executeCommand_miss (show c.again.cmd.operationId ≠ _ from hne) hagain] at hreplayed
  unfold runHandler at hreplayed
  split at hreplayed
  · cases hreplayed
  · split at hreplayed <;> cases hreplayed

end retry

/-! ### The frame that is sent -/

/-- The message of a result that does not fit one frame. -/
def tooLargeMessage (frame : String) (method : String) (maxFrameBytes : Nat) : String :=
  truncateUtf8 method 64 ++ " result is " ++ toString frame.utf8ByteSize ++ " bytes, over the " ++
    toString maxFrameBytes ++ "-byte bridge frame limit"

/-- The message of the barrier. -/
def HandlerThrow.message : HandlerThrow → String
  | .standard what => "handler threw: " ++ what
  | .nonStandard => "handler threw a non-standard exception"

/-- jansson reads back what the plugin encodes for this call: the handler's response, the barrier's, and the
one that replaces a frame over the limit. -/
structure Encodes (J : Jansson) (maxFrameBytes : Nat) (c : Call) (e : Execution) : Prop where
  responses : ∀ root ∈ c.responses, J.RoundTrips (.object root)
  barrier : ∀ thrown, e = .threw thrown →
    J.RoundTrips (.object (resError c.cmd.requestId .internal thrown.message false c.cmd.mutating))
  tooLarge : J.RoundTrips (.object (resError c.cmd.requestId .resultTooLarge
    (tooLargeMessage (e.answer J c.cmd) c.cmd.method maxFrameBytes) false c.cmd.mutating))

/-- A frame over the limit is replaced by one that reports a mutation. -/
theorem sentFrame_too_large {maxFrameBytes : Nat} {c : Call} {e : Execution} (hencodes : Encodes J maxFrameBytes c e)
    (hmutating : c.cmd.mutating = true) (hlarge : ¬ (e.answer J c.cmd).utf8ByteSize ≤ maxFrameBytes) :
    ReportsMutation J (sentFrame J maxFrameBytes c.cmd e) := by
  unfold sentFrame capResponseFrame
  rw [if_neg hlarge]
  have hloads := hencodes.tooLarge.loads (resInternalError c.cmd.requestId c.cmd.mutating)
  rw [hmutating] at hloads ⊢
  exact (reportsMutation_iff hloads (failsSaying_resError _ _ _ _ _)).mpr rfl

theorem sentFrame_fits {maxFrameBytes : Nat} {e : Execution}
    (hfits : (e.answer J cmd).utf8ByteSize ≤ maxFrameBytes) :
    sentFrame J maxFrameBytes cmd e = e.answer J cmd := by
  unfold sentFrame capResponseFrame
  rw [if_pos hfits]

theorem answer_threw (e : HandlerThrow) :
    (Execution.threw e).answer J cmd = buildResError J cmd.requestId .internal e.message false cmd.mutating := by
  rcases e with what | _
  · rfl
  · rfl

/-- The handler keeps track of the patch, and the frame of a refusal fits. -/
def KeepsTrack (rack : Rack) (J : Jansson) (maxFrameBytes : Nat) (r : RackReadings) (cmd : BridgeCommand)
    (h : Host) : Prop :=
  ¬ LosesTrack rack r cmd h ∧ ∀ frame, Refusal rack J cmd h frame → frame.utf8ByteSize ≤ maxFrameBytes

/-- A refusal is what the handler answers, without a record. -/
theorem dispatch_of_refusal {frame : String} (hrefusal : Refusal rack J cmd h frame) :
    dispatch J (h.answers rack J r cmd) cmd = .ok { frame, cacheable := false } := by
  cases hrefusal with
  | undo refusal method gate =>
    obtain ⟨code, message, rfl⟩ := undoGate_refused gate
    have hundone : (h.answers rack J r cmd).txn cmd.method = .ok (.refused code message) := by
      rw [method]
      show (h.undoLast rack cmd.payload).1 = _
      unfold Host.undoLast txnUndoLast
      rw [gate]
      rfl
    rw [dispatch_undoLast method, hundone]
    rfl
  | commit refusal method gate =>
    have hcommit : (h.answers rack J r cmd).txn cmd.method = .ok refusal := by
      rw [method]
      show Except.ok (txnCommit rack cmd.payload r.durationMs h.rack).1 = _
      unfold txnCommit
      rw [gate]
    obtain ⟨code, message, rfl⟩ := commitGate_refused gate
    rw [dispatch_commit method, hcommit]
    rfl
  | rollback failedIndex failMessage s method gate failed restored =>
    have hcommit : (h.answers rack J r cmd).txn cmd.method = .ok (rollbackOutcome failedIndex failMessage
        (runInverses rack.undo s.actions s.patch).1 true "") := by
      rw [method, ← rollBack_of_restores restored]
      show Except.ok (txnCommit rack cmd.payload r.durationMs h.rack).1 = _
      unfold txnCommit
      rw [gate]
      dsimp only
      rw [failed]
    rw [dispatch_commit method, hcommit]
    rfl
  | save method target =>
    have hsave : (h.answers rack J r cmd).patchFile cmd.method =
        .ok (.failed .pathNotAllowed "current patch has no path; provide one") := by
      rw [method]
      show (patchSave rack r cmd.payload h).1 = _
      unfold patchSave
      dsimp only
      rw [if_pos target]
    rw [dispatch_patchFile (by rw [method]; decide), hsave]
    rfl
  | saveCopy method path =>
    have hsave : (h.answers rack J r cmd).patchFile cmd.method =
        .ok (.failed .pathNotAllowed "save copy requires a path") := by
      rw [method]
      show (patchSaveCopy rack r cmd.payload h).1 = _
      unfold patchSaveCopy
      dsimp only
      rw [if_pos path]
    rw [dispatch_patchFile (by rw [method]; decide), hsave]
    rfl
  | load method path =>
    have hload : (h.answers rack J r cmd).patchFile cmd.method =
        .ok (.failed .pathNotAllowed "load requires a path") := by
      rw [method]
      show (patchLoad rack r cmd.payload h).1 = _
      unfold patchLoad
      dsimp only
      rw [if_pos path]
    rw [dispatch_patchFile (by rw [method]; decide), hload]
    rfl

section sent
variable {maxFrameBytes : Nat} {t : ExecutionReadings} {e : Execution}

/-- What the handler threw, the frame reports. -/
theorem reports_of_threw {c : Call} {thrown : HandlerThrow} (hencodes : Encodes J maxFrameBytes c (.threw thrown))
    (hmutating : c.cmd.mutating = true) :
    ReportsMutation J (sentFrame J maxFrameBytes c.cmd (.threw thrown)) := by
  by_cases hfits : ((Execution.threw thrown).answer J c.cmd).utf8ByteSize ≤ maxFrameBytes
  · rw [sentFrame_fits hfits, answer_threw]
    have hloads := (hencodes.barrier thrown rfl).loads (resInternalError c.cmd.requestId c.cmd.mutating)
    rw [hmutating] at hloads ⊢
    exact (reportsMutation_iff hloads (failsSaying_resError _ _ _ _ _)).mpr rfl
  · exact sentFrame_too_large hencodes hmutating hfits

/-- What a failure that is not recorded says, the frame says, if it fits. -/
theorem reports_of_forgotten {c : Call} {result : HandlerResult} {mayHave recorded : Bool}
    {root : List (String × Json)} (hencodes : Encodes J maxFrameBytes c (.ran result recorded))
    (hmutating : c.cmd.mutating = true) (hloads : J.loads result.frame = some (.object root))
    (hfailing : FailsSaying mayHave root) :
    ReportsMutation J (sentFrame J maxFrameBytes c.cmd (.ran result recorded)) ↔
      mayHave = true ∨ ¬ result.frame.utf8ByteSize ≤ maxFrameBytes := by
  by_cases hfits : result.frame.utf8ByteSize ≤ maxFrameBytes
  · have hsent : sentFrame J maxFrameBytes c.cmd (.ran result recorded) = result.frame :=
      sentFrame_fits (e := .ran result recorded) hfits
    rw [hsent, reportsMutation_iff hloads hfailing]
    simp [hfits]
  · have hlarge := sentFrame_too_large (e := .ran result recorded) hencodes hmutating hfits
    simp [hlarge, hfits]

theorem runHandler_threw {answers : RackAnswers} {recordMs : Int} {fingerprint : String} {cache : OpCache}
    {thrown : HandlerThrow} (hdispatch : dispatch J answers cmd = .error thrown) :
    runHandler J answers recordMs cmd fingerprint cache = (.threw thrown, cache) := by
  unfold runHandler
  rw [hdispatch]

theorem runHandler_recorded {answers : RackAnswers} {recordMs : Int} {fingerprint : String} {cache : OpCache}
    {result : HandlerResult} (hdispatch : dispatch J answers cmd = .ok result) (hid : cmd.operationId ≠ "")
    (hcacheable : result.cacheable = true) :
    (runHandler J answers recordMs cmd fingerprint cache).1 = .ran result true := by
  unfold runHandler
  rw [hdispatch]
  dsimp only
  rw [if_pos ⟨hid, hcacheable⟩]

theorem runHandler_forgotten {answers : RackAnswers} {recordMs : Int} {fingerprint : String} {cache : OpCache}
    {result : HandlerResult} (hdispatch : dispatch J answers cmd = .ok result)
    (hcacheable : result.cacheable = false) :
    runHandler J answers recordMs cmd fingerprint cache = (.ran result false, cache) := by
  unfold runHandler
  rw [hdispatch]
  dsimp only
  rw [if_neg (by simp [hcacheable])]

end sent

/-- A mutating command under a fresh operation id is executed on the host after the calls `pre`. What its frame
reports as a mutation, or as a possible one, answers every retry exactly when the handler keeps track of the
patch: no save, load, clear or undo fails after its checks, nothing escapes, and a refusal fits one frame. -/
theorem remembered_iff (rack : Rack) (J : Jansson) (maxFrameBytes : Nat) (t : ExecutionReadings)
    (r : RackReadings) (cmd : BridgeCommand) (h : Host) (pre : List Call)
    (hmethod : cmd.method ∈ mutatingMethods) (hmutating : cmd.mutating = true) (hid : cmd.operationId ≠ "")
    (hcache : h.opCache = cacheAt J pre pre.length)
    (hclock : CallsInOrder (pre ++ [h.call rack J t r cmd]))
    (hmiss : lookupOperation h.opCache cmd.operationId (requestFingerprint J cmd) t.lookupMs = .miss)
    (hencodes : Encodes J maxFrameBytes (h.call rack J t r cmd) (h.execute rack J t r cmd).1) :
    (ReportsMutation J (sentFrame J maxFrameBytes cmd (h.execute rack J t r cmd).1) →
        Remembered J pre (h.call rack J t r cmd)) ↔
      KeepsTrack rack J maxFrameBytes r cmd h := by
  have hexecute : executeCommand J (h.answers rack J r cmd) t cmd (cacheAt J pre pre.length) =
      runHandler J (h.answers rack J r cmd) t.recordMs cmd (requestFingerprint J cmd)
        (cacheAt J pre pre.length) := executeCommand_miss hid (hcache ▸ hmiss)
  have hexecution : (h.execute rack J t r cmd).1 = (runHandler J (h.answers rack J r cmd) t.recordMs cmd
      (requestFingerprint J cmd) (cacheAt J pre pre.length)).1 := by
    unfold Host.execute
    rw [hcache, hexecute]
  have hforgotten (hsame : (runHandler J (h.answers rack J r cmd) t.recordMs cmd (requestFingerprint J cmd)
      (cacheAt J pre pre.length)).2 = cacheAt J pre pre.length) :
      ¬ Remembered J pre (h.call rack J t r cmd) :=
    not_remembered hclock hid (hcache ▸ hmiss) (by rw [← hexecute] at hsame; exact hsame)
  have hending := handlerEnding (h := h) hencodes.responses hmethod
  unfold KeepsTrack
  rw [hexecution] at hencodes ⊢
  generalize hdispatch : dispatch J (h.answers rack J r cmd) cmd = x at hending
  rcases hending with ⟨thrown, hlost⟩ | ⟨result, hcacheable, hnot⟩ |
    ⟨result, mayHave, root, hcacheable, hloads, hfailing, hiff, hrefuses⟩
  · rw [runHandler_threw hdispatch] at hencodes hforgotten ⊢
    have hreports := reports_of_threw hencodes hmutating
    exact ⟨fun hremembers => absurd (hremembers hreports) (hforgotten rfl), fun hkeeps => absurd hlost hkeeps.1⟩
  · have hremembered : Remembered J pre (h.call rack J t r cmd) := by
      refine @remembered_of_recorded _ _ _ result ?_
      show (executeCommand J (h.answers rack J r cmd) t cmd _).1 = _
      rw [hexecute, runHandler_recorded hdispatch hid hcacheable]
    refine ⟨fun _ => ⟨hnot, fun frame hrefusal => ?_⟩, fun _ _ => hremembered⟩
    obtain rfl := Except.ok.inj (hdispatch.symm.trans (dispatch_of_refusal hrefusal))
    cases hcacheable
  · rw [runHandler_forgotten hdispatch hcacheable] at hencodes hforgotten ⊢
    have hreports := reports_of_forgotten hencodes hmutating hloads hfailing
    have hnot := hforgotten rfl
    rw [show sentFrame J maxFrameBytes cmd (.ran result false) =
      sentFrame J maxFrameBytes (h.call rack J t r cmd).cmd (.ran result false) from rfl, hreports, hiff]
    constructor
    · intro hremembers
      refine ⟨fun hmay => hnot (hremembers (.inl hmay)), fun frame hrefusal => ?_⟩
      obtain rfl := Except.ok.inj (hdispatch.symm.trans (dispatch_of_refusal hrefusal))
      by_contra hlarge
      exact hnot (hremembers (.inr hlarge))
    · intro hkeeps hsaid
      rcases hsaid with hmay | hlarge
      · exact absurd hmay hkeeps.1
      · exact absurd (hkeeps.2 _ (hrefuses (mt hiff.mp hkeeps.1))) hlarge

/-! ### A bench host -/

/-- The bench patch without a file. -/
def benchHost : Host := { rack := { patch := benchPatch } }

/-- A rack whose patch manager fails at nothing and leaves an empty patch. -/
def benchReadings : RackReadings where
  frame _ := .ok ""
  replacement := { patch := ⟨[], [], []⟩ }
  getStem path := path

/-- A patch file command. -/
def benchFileCommand (method path : String) : BridgeCommand where
  connectionId := 1
  requestId := "00000000000000b1"
  method := method
  operationId := "11111111-1111-4111-8111-111111111111"
  payload := .object [("path", .string path), ("scope", .object [])]
  deadlineAtMs := 5000
  mutating := true
  leaseId := "00000000-0000-4000-8000-000000000000"

/-- The values encoded for a command on the bench host. -/
def benchHostValues (r : RackReadings) (cmd : BridgeCommand) : List Json :=
  (benchHost.call benchRack benchJansson ⟨6, 7⟩ r cmd).responses.map .object ++
    [.object (resError cmd.requestId .resultTooLarge
      (tooLargeMessage ((benchHost.execute benchRack benchJansson ⟨6, 7⟩ r cmd).1.answer benchJansson cmd)
        cmd.method limitBridgeFrameBytes) false cmd.mutating)]

/-- Encodes as jansson does, and decodes the given values. -/
def codecOf (values : List Json) : Jansson :=
  { benchJansson with loads := fun text => values.find? (compactText · == text) }

theorem codecOf_roundTrips {values : List Json} (hnodup : (values.map compactText).Nodup) {v : Json}
    (hv : v ∈ values) : (codecOf values).RoundTrips v :=
  ⟨compactText v, rfl, Keyed.find?_eq_some hnodup hv⟩

/-- jansson, as far as a command on the bench host needs it. -/
def benchHostCodec (r : RackReadings) (cmd : BridgeCommand) : Jansson := codecOf (benchHostValues r cmd)

theorem benchHost_encodes {r : RackReadings} {cmd : BridgeCommand}
    (hnodup : ((benchHostValues r cmd).map compactText).Nodup)
    (hran : ∀ thrown, (benchHost.execute benchRack (benchHostCodec r cmd) ⟨6, 7⟩ r cmd).1 ≠ .threw thrown)
    (hanswer : (benchHost.execute benchRack (benchHostCodec r cmd) ⟨6, 7⟩ r cmd).1.answer (benchHostCodec r cmd) cmd =
      (benchHost.execute benchRack benchJansson ⟨6, 7⟩ r cmd).1.answer benchJansson cmd) :
    Encodes (benchHostCodec r cmd) limitBridgeFrameBytes
      (benchHost.call benchRack (benchHostCodec r cmd) ⟨6, 7⟩ r cmd)
      (benchHost.execute benchRack (benchHostCodec r cmd) ⟨6, 7⟩ r cmd).1 := by
  refine ⟨fun root hroot => codecOf_roundTrips hnodup ?_, fun thrown hthrown => absurd hthrown (hran thrown), ?_⟩
  · exact List.mem_append_left _ (List.mem_map_of_mem hroot)
  · refine codecOf_roundTrips hnodup (List.mem_append_right _ (List.mem_singleton.mpr ?_))
    show Json.object (resError _ _ (tooLargeMessage
      ((benchHost.execute benchRack (benchHostCodec r cmd) ⟨6, 7⟩ r cmd).1.answer _ cmd) _ _) _ _) = _
    rw [hanswer]
    rfl

def benchSave : BridgeCommand := benchFileCommand "patchfile.save" "/patches/bench.vcv"

theorem benchSave_encodes : Encodes (benchHostCodec benchReadings benchSave) limitBridgeFrameBytes
    (benchHost.call benchRack (benchHostCodec benchReadings benchSave) ⟨6, 7⟩ benchReadings benchSave)
    (benchHost.execute benchRack (benchHostCodec benchReadings benchSave) ⟨6, 7⟩ benchReadings benchSave).1 :=
  benchHost_encodes (by decide) (fun _ h => by cases h) rfl

/-- The save of the bench patch under a path is remembered. -/
theorem remembered_bench :
    ((ReportsMutation (benchHostCodec benchReadings benchSave)
          (sentFrame (benchHostCodec benchReadings benchSave) limitBridgeFrameBytes benchSave
            (benchHost.execute benchRack (benchHostCodec benchReadings benchSave) ⟨6, 7⟩ benchReadings benchSave).1) →
        Remembered (benchHostCodec benchReadings benchSave) []
          (benchHost.call benchRack (benchHostCodec benchReadings benchSave) ⟨6, 7⟩ benchReadings benchSave)) ↔
      KeepsTrack benchRack (benchHostCodec benchReadings benchSave) limitBridgeFrameBytes benchReadings benchSave
        benchHost) ∧
      KeepsTrack benchRack (benchHostCodec benchReadings benchSave) limitBridgeFrameBytes benchReadings benchSave
        benchHost := by
  refine ⟨remembered_iff _ _ _ _ _ _ _ [] (by decide) rfl (by decide) rfl ?_ rfl benchSave_encodes, ?_, ?_⟩
  · show List.Pairwise (· ≤ ·) [(6 : Int), 7]
    decide
  · simp [LosesTrack, SaveFails, benchSave, benchFileCommand, benchReadings]
  · intro frame hrefusal
    have hdispatch := dispatch_of_refusal (r := benchReadings) hrefusal
    cases Except.ok.inj hdispatch

/-- A rack whose patch manager throws when it has cleared the patch. -/
def benchClearThrows : RackReadings :=
  { benchReadings with replacement := { patch := ⟨[], [], []⟩, threw := some (.exception "bad panel") } }

def benchClear : BridgeCommand := benchFileCommand "patchfile.clear" ""

theorem benchClear_encodes : Encodes (benchHostCodec benchClearThrows benchClear) limitBridgeFrameBytes
    (benchHost.call benchRack (benchHostCodec benchClearThrows benchClear) ⟨6, 7⟩ benchClearThrows benchClear)
    (benchHost.execute benchRack (benchHostCodec benchClearThrows benchClear) ⟨6, 7⟩ benchClearThrows
      benchClear).1 :=
  benchHost_encodes (by decide) (fun _ h => by cases h) rfl

/-- A clear that fails after it emptied the patch says that a mutation may have occurred, and is not remembered:
its retry clears the patch again. -/
theorem failed_clear_is_forgotten :
    ¬ ∀ (rack : Rack) (J : Jansson) (maxFrameBytes : Nat) (t : ExecutionReadings) (r : RackReadings)
      (cmd : BridgeCommand) (h : Host) (pre : List Call), cmd.method ∈ mutatingMethods → cmd.mutating = true →
      cmd.operationId ≠ "" → h.opCache = cacheAt J pre pre.length →
      CallsInOrder (pre ++ [h.call rack J t r cmd]) →
      lookupOperation h.opCache cmd.operationId (requestFingerprint J cmd) t.lookupMs = .miss →
      Encodes J maxFrameBytes (h.call rack J t r cmd) (h.execute rack J t r cmd).1 →
      ReportsMutation J (sentFrame J maxFrameBytes cmd (h.execute rack J t r cmd).1) →
      Remembered J pre (h.call rack J t r cmd) := by
  intro hall
  have hclock : CallsInOrder ([] ++ [benchHost.call benchRack (benchHostCodec benchClearThrows benchClear) ⟨6, 7⟩
      benchClearThrows benchClear]) := by
    show List.Pairwise (· ≤ ·) [(6 : Int), 7]
    decide
  have hreports := (@reports_of_forgotten _ _ _ _ true _ (resError benchClear.requestId .internal
    (clearFailedMessage "bad panel" 1) false true) benchClear_encodes rfl
    ((benchClear_encodes.responses _ List.mem_cons_self).loads "") (failsSaying_resError _ _ _ _ _)).mpr (.inl rfl)
  exact not_remembered hclock (by decide) rfl rfl
    (hall _ _ _ _ _ _ _ [] (by decide) rfl (by decide) rfl hclock rfl benchClear_encodes hreports)

end RackMcp
