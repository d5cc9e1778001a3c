import RackMcp.Proof.Conduct

/-!
# What the tools send

Every tool keeps to the steps and requests of `ServerStep`: first the ones that only read, preview or save, then the
ones with a destructive request, which is their last and comes only after all that `Sanctioned` lists. The wrapper
around them writes what is known about that request into the audit log.
-/

namespace RackMcp.Server

open Gen Cooperative

variable {N : Node} {i : ℕ} {s s' : Shared}

/-! ### Tools that send nothing destructive -/

theorem quiet_previewPatchTransaction (label : String) (operations : List Json)
    (expectedFingerprint : Option String) (expectedPatchEpoch : Option Int) :
    Quiet N i (previewPatchTransaction N label operations expectedFingerprint expectedPatchEpoch) := by
  intro s
  unfold previewPatchTransaction
  refine (quiet_ensureConnected.await s).bind fun selected s₁ _ _ => ?_
  exact (calmly_await (calmly_preview _ _ _ _ _) lasting_tokenMinted).bind fun p s₂ _ _ => calmly_pure trivial

theorem not_mutating_of_reading {method : String} (h : method ∈ readingMethods) : method ∉ mutatingMethods := by
  have hall : ∀ m ∈ readingMethods, m ∉ mutatingMethods := by decide
  exact hall method h

theorem quiet_readAll (requests : List (String × Json)) : Quiet N i (readAll N requests) := by
  induction requests with
  | nil => exact quiet_pure _
  | cons head rest ih =>
    obtain ⟨method, payload⟩ := head
    intro s
    unfold readAll
    split
    · next hmethod =>
      refine (quiet_reads (not_mutating_of_reading hmethod) payload s).bind fun res s₁ _ _ => ?_
      exact (ih s₁).bind fun _ s₂ _ _ => calmly_pure trivial
    · exact ih s

theorem quiet_selectRackInstance (instanceId : String) : Quiet N i (selectRackInstance N instanceId) := by
  intro s
  unfold selectRackInstance
  refine ((quiet_select instanceId).await s).bind fun _ s₁ _ _ => ?_
  exact (quiet_reads (by decide) _ s₁).bind fun status s₂ _ _ => calmly_pure trivial

theorem quiet_acquireWriterLease : Quiet N i (acquireWriterLease N) := by
  intro s
  unfold acquireWriterLease
  exact (quiet_acquireLease.await s).bind fun res s₁ _ _ => calmly_pure trivial

theorem quiet_releaseWriterLease : Quiet N i (releaseWriterLease N) := by
  intro s
  unfold releaseWriterLease
  exact (quiet_releaseLease.await s).bind fun released s₁ _ _ => calmly_pure trivial

theorem quiet_snapshot : Quiet N i (snapshot N) := quiet_reads (by decide) _

theorem quiet_previewAttachProbe (sourceModuleId : String) (sourcePortId : Int) (explicit : Option (String × Int))
    (expectedPatchEpoch : Option Int) :
    Quiet N i (previewAttachProbe N sourceModuleId sourcePortId explicit expectedPatchEpoch) := by
  intro s
  unfold previewAttachProbe
  refine (quiet_ensureConnected.await s).bind fun selected s₁ _ _ => ?_
  refine (quiet_snapshot.await s₁).bind fun snap s₂ _ _ => ?_
  dsimp only
  split
  · exact calmly_throwTool _ _ _
  · refine (calmly_await (calmly_preview _ _ _ _ _) lasting_tokenMinted).bind fun p s₃ _ _ => ?_
    exact (calmly_modify (Q := fun _ _ => True) (.link (.attachMeta s₃ _)) rfl trivial).bind
      fun _ s₄ _ _ => calmly_pure trivial

theorem quiet_scanInstalledModels (cursor : Option String) (pages : ℕ) :
    Quiet N i (scanInstalledModels N cursor pages) := by
  induction pages generalizing cursor with
  | zero => exact quiet_pure _
  | succ pages ih =>
    intro s
    unfold scanInstalledModels
    refine (quiet_reads (by decide) _ s).bind fun res s₁ _ _ => ?_
    split
    · exact calmly_pure trivial
    · exact (ih _ s₁).bind fun rest s₂ _ _ => calmly_pure trivial

/-! ### Saving -/

theorem calmly_resolveNow (requested : String) (mustExist : Bool) :
    Calmly N i (fun resolved _ => ∃ m, resolvePatchPath N.config N.cwd (N.files m) requested mustExist = .ok resolved)
      (resolveNow N requested mustExist) s := by
  unfold resolveNow
  refine (calmly_draw N.files).bind fun fs s₁ _ hfs => ?_
  obtain ⟨m, rfl⟩ := hfs
  exact calmly_ofExcept fun resolved h => ⟨m, h⟩

theorem calmly_reserveNow (label : Option String) :
    Calmly N i (fun reserved _ => ∃ n m, reserved.1 = N.now n ∧
        reserveCheckpointPath N.config (N.files m) label (N.toISOString (N.now n)) = .ok reserved.2)
      (reserveNow N label) s := by
  unfold reserveNow
  refine (calmly_draw N.now).bind fun stampMs s₁ _ hstamp => ?_
  obtain ⟨n, rfl⟩ := hstamp
  refine (calmly_draw N.files).bind fun fs s₂ _ hfs => ?_
  obtain ⟨m, rfl⟩ := hfs
  refine (calmly_ofExcept (Q := fun path _ =>
    reserveCheckpointPath N.config (N.files m) label (N.toISOString (N.now n)) = .ok path) fun _ h => h).bind
    fun path s₃ _ hpath => ?_
  exact calmly_pure ⟨n, m, rfl, hpath⟩

theorem not_destructive_saveCopy : "patchfile.saveCopy" ∉ destructiveMethods := by decide

theorem calmly_createCheckpoint {label : Option String} {operationId : String}
    (htool : s.tools[i]? = some (.createCheckpoint label operationId)) :
    Calmly N i (fun _ _ => True) (createCheckpoint N label operationId) s := by
  unfold createCheckpoint
  refine (quiet_ensureConnected.await s).bind fun selected s₁ hlater₁ _ => ?_
  refine (quiet_ensureLease.await s₁).bind fun _ s₂ hlater₂ _ => ?_
  refine (calmly_reserveNow label).bind fun reserved s₃ hlater₃ hreserved => ?_
  obtain ⟨n, m, hstamp, hpath⟩ := hreserved
  obtain ⟨stampMs, path⟩ := reserved
  have hlater := hlater₁.trans (hlater₂.trans hlater₃)
  refine (calmly_request not_destructive_saveCopy fun s₄ r hlater₄ hmethod hpayload hid => ?_).bind
    fun res s₄ _ _ => calmly_pure trivial
  exact .checkpoint label operationId path selected m n ((hlater.trans hlater₄).grows.tool htool) hpath hmethod
    hpayload hid

theorem calmly_saveTargetPath (path : Option String) :
    Calmly N i (fun target _ => ResolvesTo N path (target.getD "")) (saveTargetPath N path) s := by
  unfold saveTargetPath
  split
  · exact calmly_pure (.inl ⟨.inl rfl, rfl⟩)
  · exact calmly_pure (.inl ⟨.inr rfl, rfl⟩)
  · next requested _ =>
    refine (calmly_resolveNow requested false).bind fun resolved s₁ _ hresolved => ?_
    obtain ⟨m, hresolved⟩ := hresolved
    refine (calmly_ofExcept (Q := fun _ _ => resolved.root = .patches) fun _ h => ?_).bind
      fun _ s₂ _ hroot => calmly_pure ?_
    · unfold requireRoot at h
      split at h
      · assumption
      · cases h
    · obtain ⟨absolute, root, present⟩ := resolved
      obtain rfl : root = .patches := hroot
      exact .inr ⟨requested, present, m, rfl, hresolved⟩

theorem calmly_savePatch {path : Option String} {operationId : String}
    (htool : s.tools[i]? = some (.savePatch path operationId)) :
    Calmly N i (fun _ _ => True) (savePatch N path operationId) s := by
  unfold savePatch
  refine (quiet_ensureConnected.await s).bind fun selected s₁ hlater₁ _ => ?_
  refine (quiet_ensureLease.await s₁).bind fun _ s₂ hlater₂ _ => ?_
  refine (calmly_saveTargetPath path).bind fun target s₃ hlater₃ htarget => ?_
  have hlater := hlater₁.trans (hlater₂.trans hlater₃)
  refine (calmly_request (by decide) fun s₄ r hlater₄ hmethod hpayload hid => ?_).bind
    fun res s₄ _ _ => calmly_pure trivial
  exact .save path _ operationId selected ((hlater.trans hlater₄).grows.tool htool) htarget hmethod hpayload hid

/-! ### Load previews -/

theorem quiet_liveState : Quiet N i (liveState N) := by
  intro s
  unfold liveState
  refine (quiet_reads (by decide) _ s).bind fun status s₁ _ _ => ?_
  exact (quiet_reads (by decide) _ s₁).bind fun live s₂ _ _ => calmly_pure trivial

theorem quiet_buildLoadPreview (kind : LoadKind) (targetPath : Option String) :
    Quiet N i (buildLoadPreview N kind targetPath) := by
  intro s
  unfold buildLoadPreview
  refine (quiet_ensureConnected.await s).bind fun selected s₁ _ _ => ?_
  refine (quiet_liveState s₁).bind fun live s₂ _ _ => ?_
  obtain ⟨saved, live⟩ := live
  dsimp only
  split
  · refine (quiet_mintLoadToken _ _ _ _ _ s₂).bind fun token s₃ _ _ => ?_
    exact (quiet_draw N.now s₃).bind fun now s₄ _ _ => calmly_pure trivial
  · refine (calmly_resolveNow _ true).bind fun resolved s₃ _ _ => ?_
    refine (quiet_draw N.files s₃).bind fun fs s₄ _ _ => ?_
    refine (quiet_mintLoadToken _ _ _ _ _ s₄).bind fun token s₅ _ _ => ?_
    exact (quiet_draw N.now s₅).bind fun now s₆ _ _ => calmly_pure trivial

theorem quiet_previewLoadPatch (path : String) : Quiet N i (previewLoadPatch N path) := by
  intro s
  unfold previewLoadPatch
  refine (calmly_resolveNow path true).bind fun resolved s₁ _ _ => ?_
  refine (quiet_ofExcept _ s₁).bind fun _ s₂ _ _ => ?_
  exact (quiet_buildLoadPreview _ _).await s₂

theorem quiet_previewClearPatch : Quiet N i (previewClearPatch N) := (quiet_buildLoadPreview _ _).await

/-! ### Replacing the patch -/

theorem calmly_recoveryCheckpoint (selected : SelectedInstance) :
    Calmly N i (fun path s' => ∃ payloadId v,
        s'.Answered i "patchfile.saveCopy" (saveRequest selected path payloadId) v)
      (recoveryCheckpoint N selected) s := by
  unfold recoveryCheckpoint
  refine (calmly_reserveNow (some "recovery")).bind fun reserved s₁ _ _ => ?_
  obtain ⟨_, path⟩ := reserved
  refine (calmly_draw N.randomUUID).bind fun payloadId s₂ _ _ => ?_
  refine (calmly_draw N.randomUUID).bind fun operationId s₃ _ hdrawn => ?_
  refine (calmly_request not_destructive_saveCopy fun s₄ r _ hmethod hpayload hid => ?_).bind
    fun v s₄ _ hanswered => calmly_pure ⟨payloadId, v, hanswered⟩
  exact .recovery selected path payloadId operationId hdrawn hmethod hpayload hid

theorem Grows.confirmed (h : Grows N s s') {selected : SelectedInstance} {kind : LoadKind}
    {operationId id : String} {binding : LoadBinding}
    (hconfirmed : Confirmed N s i selected kind operationId id binding) :
    Confirmed N s' i selected kind operationId id binding := by
  obtain ⟨⟨tool, token, htool, htag⟩, hminted, ⟨b, hburned⟩, hbound, ⟨v, hv, hlive⟩, path, payloadId, w, hw⟩ :=
    hconfirmed
  exact ⟨⟨tool, token, h.tool htool, htag⟩, h.mark hminted, ⟨b, h.mark hburned⟩, hbound,
    ⟨v, h.answered hv, hlive⟩, path, payloadId, w, h.answered hw⟩

theorem concludes_replacePatch {selected : SelectedInstance} {kind : LoadKind} {binding : LoadBinding}
    {operationId id : String} (hidle : s.Idle i)
    (hconfirmed : Confirmed N s i selected kind operationId id binding) :
    Concludes N i (replacePatch N selected kind binding operationId) s := by
  unfold replacePatch
  split
  · refine concludes_request hidle fun s₁ r hlater₁ hmethod hpayload hid => ?_
    exact .clear selected operationId id binding (hlater₁.idle hidle) (hlater₁.grows.confirmed hconfirmed) hmethod
      hpayload hid
  · next hkind =>
    refine (calmly_resolveNow _ true).bind_concludes (rejected_of_idle hidle) fun resolved s₁ hlater₁ _ => ?_
    refine (quiet_ofExcept _ s₁).bind_concludes (rejected_of_idle (hlater₁.idle hidle)) fun _ s₂ hlater₂ _ => ?_
    have hlater := hlater₁.trans hlater₂
    refine concludes_request (hlater.idle hidle) fun s₃ r hlater₃ hmethod hpayload hid => ?_
    have hlater := hlater.trans hlater₃
    exact .load selected kind operationId resolved.absolute id binding (hlater.idle hidle)
      (hlater.grows.confirmed hconfirmed) (fun h => hkind h) hmethod hpayload hid

theorem concludes_commitLoadOrClear {kind : LoadKind} {token operationId : String} (expectedPath : Option String)
    (hreach : Reachable N s) (hidle : s.Idle i)
    (htool : ∃ tool, s.tools[i]? = some tool ∧ tool.Replaces kind token operationId) :
    Concludes N i (commitLoadOrClear N kind token operationId expectedPath) s := by
  obtain ⟨tool, htool, hreplaces⟩ := htool
  unfold commitLoadOrClear
  refine (quiet_ensureConnected.await s).bind_concludes (rejected_of_idle hidle) fun selected s₁ hlater₁ _ => ?_
  refine (calmly_verifyLoadToken (hreach.trans hlater₁.grows) token).bind_concludes
    (rejected_of_idle (hlater₁.idle hidle)) fun binding s₂ hlater₂ hnames => ?_
  obtain ⟨id, htag, hminted⟩ := hnames
  have hlater := hlater₁.trans hlater₂
  split
  · exact (calmly_fail (Q := fun _ _ => True) _).concludes (rejected_of_idle (hlater.idle hidle))
  next hbinding =>
  have hbound : binding.kind = kind ∧ binding.instanceId = selected.instanceId ∧
      binding.sessionId = selected.sessionId := by
    unfold bindingRefusal at hbinding
    split at hbinding
    · cases hbinding
    · next h => simpa only [not_or, Decidable.not_not] using h
  refine (calmly_reads (by decide)).bind_concludes (rejected_of_idle (hlater.idle hidle))
    fun live s₃ hlater₃ hanswered => ?_
  have hlater := hlater.trans hlater₃
  split
  · exact (calmly_fail (Q := fun _ _ => True) _).concludes (rejected_of_idle (hlater.idle hidle))
  next hlive =>
  refine (quiet_ensureLease.await s₃).bind_concludes (rejected_of_idle (hlater.idle hidle)) fun _ s₄ hlater₄ _ => ?_
  have hlater := hlater.trans hlater₄
  refine (calmly_attempt (calmly_recoveryCheckpoint selected)).bind_concludes (rejected_of_idle (hlater.idle hidle))
    fun recovery s₅ hlater₅ hrecovery => ?_
  have hlater := hlater.trans hlater₅
  rcases recovery with e | recoveryPath
  · exact (calmly_fail (Q := fun _ _ => True) _).concludes (rejected_of_idle (hlater.idle hidle))
  obtain ⟨payloadId, v, hsaved⟩ := hrecovery recoveryPath rfl
  refine (calmly_consumeLoadToken token).bind_concludes (rejected_of_idle (hlater.idle hidle))
    fun _ s₆ hlater₆ hburned => ?_
  have hlater := hlater.trans hlater₆
  obtain ⟨id', b, htag', hburned⟩ := hburned
  obtain rfl : id = id' := Except.ok.inj (htag.symm.trans htag')
  refine (concludes_replacePatch (hlater.idle hidle) ⟨⟨tool, token, hlater.grows.tool htool, hreplaces, htag⟩,
    ?_, ⟨b, hburned⟩, hbound, ⟨live, ?_, hlive⟩, recoveryPath, payloadId, v, hlater₆.grows.answered hsaved⟩).bind
    fun res s₇ hsettled => concludes_pure _ hsettled
  · exact (hlater₃.trans (hlater₄.trans (hlater₅.trans hlater₆))).grows.mark hminted
  · exact (hlater₄.trans (hlater₅.trans hlater₆)).grows.answered hanswered

theorem concludes_restoreCheckpoint {checkpointPath : String} {token : Option String} {operationId : String}
    (hreach : Reachable N s) (hidle : s.Idle i)
    (htool : s.tools[i]? = some (.restoreCheckpoint checkpointPath token operationId)) :
    Concludes N i (restoreCheckpoint N checkpointPath token operationId) s := by
  unfold restoreCheckpoint
  refine (calmly_resolveNow checkpointPath true).bind_concludes (rejected_of_idle hidle) fun checkpoint s₁ hlater₁ _ => ?_
  split
  · exact (calmly_throwTool (Q := fun _ _ => True) _ _ _).concludes (rejected_of_idle (hlater₁.idle hidle))
  refine (quiet_ensureConnected.await s₁).bind_concludes (rejected_of_idle (hlater₁.idle hidle))
    fun selected s₂ hlater₂ _ => ?_
  have hlater := hlater₁.trans hlater₂
  have hpreview : Calmly N i (fun _ _ => True) (do
      let live ← liveState N
      let token ← mintLoadToken N selected .restore (some checkpoint.absolute) (jint live.2 "patchEpoch")
        (jstr live.2 "fingerprint")
      let fs ← draw N.files
      let now ← dateNow N
      pure (Json.object [("phase", .string "preview"),
        ("preview", loadPreviewInfo (some checkpoint.absolute) true (some (fs.size checkpoint.absolute)) live.1
          "replaces_patch" ["restoring a checkpoint replaces the entire current patch"]),
        ("confirmation", loadConfirmation N token now)])) s₂ := by
    refine (quiet_liveState s₂).bind fun live s₃ _ _ => ?_
    refine (quiet_mintLoadToken _ _ _ _ _ s₃).bind fun token s₄ _ _ => ?_
    refine (quiet_draw N.files s₄).bind fun fs s₅ _ _ => ?_
    exact (quiet_draw N.now s₅).bind fun now s₆ _ _ => calmly_pure trivial
  split
  · exact hpreview.concludes (rejected_of_idle (hlater.idle hidle))
  · exact hpreview.concludes (rejected_of_idle (hlater.idle hidle))
  · next token' _ =>
    refine (concludes_commitLoadOrClear (some checkpoint.absolute) (hreach.trans hlater.grows) (hlater.idle hidle)
      ⟨_, hlater.grows.tool htool, rfl, rfl, rfl⟩).await.bind fun result s₃ hsettled => concludes_pure _ hsettled

/-! ### Committing and undoing -/

theorem concludes_commitPatchTransaction {args : CommitArgs} (hidle : s.Idle i)
    (htool : s.tools[i]? = some (.commitPatchTransaction args)) :
    Concludes N i (commitPatchTransaction N args) s := by
  unfold commitPatchTransaction
  refine (quiet_ensureConnected.await s).bind_concludes (rejected_of_idle hidle) fun selected s₁ hlater₁ _ => ?_
  have htool := hlater₁.grows.tool htool
  refine (concludes_commit args selected (hlater₁.idle hidle) ⟨_, htool, rfl⟩ fun token htoken => ?_).await
  exact .inl ⟨_, htool, Option.mem_toList.mpr htoken⟩

theorem concludes_undoLastMcpTransaction (operationId : String) (hidle : s.Idle i) :
    Concludes N i (undoLastMcpTransaction N operationId) s := by
  unfold undoLastMcpTransaction
  refine (quiet_ensureConnected.await s).bind_concludes (rejected_of_idle hidle) fun selected s₁ hlater₁ _ => ?_
  refine (quiet_ensureLease.await s₁).bind_concludes (rejected_of_idle (hlater₁.idle hidle)) fun _ s₂ hlater₂ _ => ?_
  have hlater := hlater₁.trans hlater₂
  refine (quiet_draw N.randomUUID s₂).bind_concludes (rejected_of_idle (hlater.idle hidle))
    fun undoOperationId s₃ hlater₃ _ => ?_
  have hidle := (hlater.trans hlater₃).idle hidle
  refine (concludes_request hidle fun s₄ r hlater₄ hmethod hpayload hid => ?_).bind
    fun res s₄ hsettled => concludes_pure _ hsettled
  exact .undo selected operationId undoOperationId (hlater₄.idle hidle) hmethod hpayload hid

theorem concludes_previewAndMaybeCommit (selected : SelectedInstance) (label : String) (operations : List Json)
    (autoCommit : Bool) (operationId : String) (expectedPatchEpoch : Option Int) (hidle : s.Idle i)
    (htool : ∃ tool, s.tools[i]? = some tool ∧ ∀ args, args.operationId = operationId → tool.Commits args) :
    Concludes N i (previewAndMaybeCommit N selected label operations autoCommit operationId expectedPatchEpoch) s := by
  obtain ⟨tool, htool, hcommits⟩ := htool
  unfold previewAndMaybeCommit
  refine (calmly_await (calmly_preview _ _ _ _ _) lasting_tokenMinted).bind_concludes (rejected_of_idle hidle)
    fun p s₁ hlater₁ _ => ?_
  split
  · exact concludes_pure _ (settled_of_idle (hlater₁.idle hidle))
  · refine (concludes_commit _ selected (hlater₁.idle hidle) ⟨tool, hlater₁.grows.tool htool, hcommits _ rfl⟩
      fun token htoken => ?_).await.bind fun committed s₂ hsettled => concludes_pure _ hsettled
    cases htoken

theorem concludes_buildPatch {label : String} {operations : List Json} {autoCommit : Bool} {operationId : String}
    {expectedPatchEpoch : Option Int} (hidle : s.Idle i)
    (htool : s.tools[i]? = some (.buildPatch label operations autoCommit operationId expectedPatchEpoch)) :
    Concludes N i (buildPatch N label operations autoCommit operationId expectedPatchEpoch) s := by
  unfold buildPatch
  refine (quiet_ensureConnected.await s).bind_concludes (rejected_of_idle hidle) fun selected s₁ hlater₁ _ => ?_
  exact (concludes_previewAndMaybeCommit selected label operations autoCommit operationId expectedPatchEpoch
    (hlater₁.idle hidle) ⟨_, hlater₁.grows.tool htool, fun _ h => h⟩).await.bind
    fun members s₂ hsettled => concludes_pure _ hsettled

theorem concludes_buildRecipe {recipeId : String} {label : Option String} {autoCommit : Bool} {operationId : String}
    {expectedPatchEpoch : Option Int} (hidle : s.Idle i)
    (htool : s.tools[i]? = some (.buildRecipe recipeId label autoCommit operationId expectedPatchEpoch)) :
    Concludes N i (buildRecipe N recipeId label autoCommit operationId expectedPatchEpoch) s := by
  unfold buildRecipe
  split
  · exact (calmly_throwTool (Q := fun _ _ => True) _ _ _).concludes (rejected_of_idle hidle)
  next recipe _ =>
  refine (quiet_ensureConnected.await s).bind_concludes (rejected_of_idle hidle) fun selected s₁ hlater₁ _ => ?_
  refine ((quiet_scanInstalledModels none maxCatalogPages).await s₁).bind_concludes
    (rejected_of_idle (hlater₁.idle hidle)) fun scanned s₂ hlater₂ _ => ?_
  have hlater := hlater₁.trans hlater₂
  obtain ⟨installed, complete⟩ := scanned
  dsimp only
  split
  · exact concludes_pure _ (settled_of_idle (hlater.idle hidle))
  · exact (concludes_previewAndMaybeCommit selected _ _ autoCommit operationId expectedPatchEpoch
      (hlater.idle hidle) ⟨_, hlater.grows.tool htool, fun _ h => h⟩).await.bind
      fun members s₃ hsettled => concludes_pure _ hsettled

/-! ### Probes -/

theorem ends_commitAttachProbe {args : CommitArgs} (hidle : s.Idle i)
    (htool : s.tools[i]? = some (.commitAttachProbe args)) : Ends N i (commitAttachProbe N args) s := by
  unfold commitAttachProbe
  refine (quiet_ensureConnected.await s).bind_ends (settled_of_idle hidle) fun selected s₁ hlater₁ _ => ?_
  refine (calmly_read (Q := fun _ _ => True) trivial).bind_ends (settled_of_idle (hlater₁.idle hidle))
    fun s₀ s₂ hlater₂ _ => ?_
  have hlater := hlater₁.trans hlater₂
  have htool := hlater.grows.tool htool
  refine (concludes_commit args selected (hlater.idle hidle) ⟨_, htool, rfl⟩ fun token htoken => ?_).await.ends.bind_calmly
    (R := fun _ _ => True) fun committed s₃ => ?_
  · exact .inl ⟨_, htool, Option.mem_toList.mpr htoken⟩
  refine (quiet_ofExcept _ s₃).bind fun probeModuleId s₄ _ _ => ?_
  refine (calmly_modify (Q := fun _ _ => True) (.link (.attachMeta s₄ _)) rfl trivial).bind fun _ s₅ _ _ => ?_
  split
  · exact calmly_pure trivial
  · exact (quiet_snapshot.await s₅).bind fun snap s₆ _ _ => calmly_pure trivial

theorem concludes_detachProbe {probeModuleId : String} {probeInputId : Int} {operationId : String}
    {expectedPatchEpoch : Int} (hidle : s.Idle i)
    (htool : s.tools[i]? = some (.detachProbe probeModuleId probeInputId operationId expectedPatchEpoch)) :
    Concludes N i (detachProbe N probeModuleId probeInputId operationId expectedPatchEpoch) s := by
  unfold detachProbe
  refine (quiet_ensureConnected.await s).bind_concludes (rejected_of_idle hidle) fun selected s₁ hlater₁ _ => ?_
  refine (quiet_snapshot.await s₁).bind_concludes (rejected_of_idle (hlater₁.idle hidle)) fun before s₂ hlater₂ _ => ?_
  have hlater := hlater₁.trans hlater₂
  refine (calmly_await (calmly_preview _ _ _ _ _) lasting_tokenMinted).bind_concludes
    (rejected_of_idle (hlater.idle hidle)) fun p s₃ hlater₃ hminted => ?_
  have hlater := hlater.trans hlater₃
  obtain ⟨b, hb, hp⟩ := hminted
  refine (concludes_commit (commitPreviewed p operationId (some p.confirmationToken)) selected (hlater.idle hidle)
    ⟨_, hlater.grows.tool htool, rfl⟩ fun token htoken => .inr ⟨b, hb, ?_⟩).await.bind
    fun committed s₄ hsettled => concludes_pure _ hsettled
  obtain rfl := Option.some.inj htoken
  exact hp

/-! ### Tool calls -/

/-- The tool goes on after its commit has succeeded, in steps that can fail. -/
def ToolCall.ReadsOn (tool : ToolCall) : Prop := ∃ args, tool = .commitAttachProbe args

theorem concludes_handler {tool : ToolCall} (hreach : Reachable N s) (hidle : s.Idle i)
    (htool : s.tools[i]? = some tool) (hnot : ¬ tool.ReadsOn) : Concludes N i (handler N tool) s := by
  have hrejected := rejected_of_idle hidle
  unfold handler
  split
  case h_1 requests => exact (quiet_readAll requests s).concludes hrejected
  case h_2 instanceId => exact (quiet_selectRackInstance instanceId s).concludes hrejected
  case h_3 => exact (quiet_acquireWriterLease s).concludes hrejected
  case h_4 => exact (quiet_releaseWriterLease s).concludes hrejected
  case h_5 => exact (quiet_previewPatchTransaction _ _ _ _ s).concludes hrejected
  case h_6 => exact concludes_commitPatchTransaction hidle htool
  case h_7 => exact concludes_undoLastMcpTransaction _ hidle
  case h_8 => exact concludes_buildPatch hidle htool
  case h_9 => exact concludes_buildRecipe hidle htool
  case h_10 => exact (calmly_createCheckpoint htool).concludes hrejected
  case h_11 => exact (calmly_savePatch htool).concludes hrejected
  case h_12 => exact (quiet_previewLoadPatch _ s).concludes hrejected
  case h_13 => exact (concludes_commitLoadOrClear none hreach hidle ⟨_, htool, rfl, rfl, rfl⟩).await
  case h_14 => exact (quiet_previewClearPatch s).concludes hrejected
  case h_15 => exact (concludes_commitLoadOrClear none hreach hidle ⟨_, htool, rfl, rfl, rfl⟩).await
  case h_16 => exact concludes_restoreCheckpoint hreach hidle htool
  case h_17 => exact (quiet_previewAttachProbe _ _ _ _ s).concludes hrejected
  case h_18 args => exact absurd ⟨args, rfl⟩ hnot
  case h_19 => exact concludes_detachProbe hidle htool

/-- The error of a result over the limit. -/
def resultLimitError : ErrorPayload :=
  toErrorPayload (.error ("result exceeds " ++ toString mcpResultBytes ++ " bytes"))

/-- Tool call `i` may end with this error: its destructive request did not succeed; or its outcome is known, and the
error is that of the result limit or of a tool that goes on after its commit. -/
def Shared.Owns (s : Shared) (i : ℕ) (p : ErrorPayload) : Prop :=
  s.Rejected i ∨ s.Settled i ∧ (p = resultLimitError ∨ ∃ tool, s.tools[i]? = some tool ∧ tool.ReadsOn)

theorem Shared.Owns.settled {p : ErrorPayload} (h : s.Owns i p) : s.Settled i :=
  h.elim Shared.Rejected.settled And.left

theorem Later.owns (h : Later N i s s') {p : ErrorPayload} (howns : s.Owns i p) : s'.Owns i p := by
  rcases howns with hrejected | ⟨hsettled, hkind⟩
  · exact .inl (h.rejected hrejected)
  · exact .inr ⟨h.settled hsettled, hkind.imp id fun ⟨tool, htool, hreads⟩ => ⟨tool, h.grows.tool htool, hreads⟩⟩

/-- An error that does not say that a mutation may have occurred is one that tool call `i` may end with. -/
def OwnsOutcome (i : ℕ) (outcome : Except ErrorPayload Json) (s : Shared) : Prop :=
  ∀ p, outcome = .error p → p.mutationMayHaveOccurred = false → s.Owns i p

/-- A handler returns or fails with what its destructive request, if any, came to. -/
theorem handler_owns {tool : ToolCall} (hreach : Reachable N s) (hidle : s.Idle i)
    (htool : s.tools[i]? = some tool) :
    Safe (conduct N) i (fun _ s' => s'.Settled i) (fun e s' => e.mayHave = false → s'.Owns i (toErrorPayload e))
      (handler N tool) s := by
  by_cases hreads : tool.ReadsOn
  · obtain ⟨args, rfl⟩ := hreads
    have hended := Safe.frame (P := fun s' => s'.tools[i]? = some (.commitAttachProbe args))
      (fun _ _ hgrows h => Grows.tool hgrows h) trivial htool (ends_commitAttachProbe (N := N) hidle htool)
    exact Safe.mono (fun _ _ h => h.2.2)
      (fun _ _ h hmayHave => .inr ⟨h.2.2 hmayHave, .inr ⟨_, h.2.1, args, rfl⟩⟩) hended
  · exact Safe.mono (fun _ _ hsettled => hsettled) (fun _ _ hrejected hmayHave => .inl (hrejected hmayHave))
      (concludes_handler hreach hidle htool hreads)

/-- A tool call keeps the discipline, and owns its outcome. -/
theorem callTool_owns {tool : ToolCall} (hreach : Reachable N s) (hidle : s.Idle i)
    (htool : s.tools[i]? = some tool) :
    Safe (conduct N) i (OwnsOutcome i) (fun _ _ => True) (callTool N tool) s := by
  have hawaited : Safe (conduct N) i (fun _ s' => s'.Settled i)
      (fun e s' => e.mayHave = false → s'.Owns i (toErrorPayload e)) (handler N tool).await s :=
    (handler_owns hreach hidle htool).await (fun _ _ _ hrely hsettled => (later_of_rely hrely).settled hsettled)
      fun _ _ _ hrely howns hmayHave => (later_of_rely hrely).owns (howns hmayHave)
  unfold callTool
  refine safe_bind.mpr (safe_attempt.mpr ?_)
  refine Safe.mono (fun result s' hsettled => ?_) (fun e s' howns => ?_) hawaited
  · -- the result is returned, or is over the limit
    have hstep := fun outcome =>
      own_step (N := N) (i := i) (.decision (.audit s' i outcome fun _ _ _ => hsettled)) rfl
    refine ⟨(hstep _).1, fun p hp _ => .inr ⟨(hstep _).2.settled hsettled, .inl ?_⟩⟩
    dsimp only at hp
    split at hp
    · exact (Except.error.inj hp).symm
    · cases hp
  · have hstep := own_step (N := N) (i := i) (.decision (.audit s' i (some (toErrorPayload e)) fun p hp hmayHave => ?_)) rfl
    · refine ⟨hstep.1, fun p hp hmayHave => hstep.2.owns ?_⟩
      obtain rfl := Except.error.inj hp
      exact howns hmayHave
    · obtain rfl := Option.some.inj hp
      exact (howns hmayHave).settled

/-- A tool call keeps the discipline. -/
theorem safe_callTool {tool : ToolCall} (hreach : Reachable N s) (hidle : s.Idle i)
    (htool : s.tools[i]? = some tool) :
    Safe (conduct N) i (fun _ _ => True) (fun _ _ => True) (callTool N tool) s :=
  Safe.mono (fun _ _ _ => trivial) (fun _ _ _ => trivial) (callTool_owns hreach hidle htool)

end RackMcp.Server
