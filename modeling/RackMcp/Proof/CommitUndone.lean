import RackMcp.Proof.Rollback
import RackMcp.Proof.UndoLast

/-!
# Undoing a commit

A commit that reports success leaves its entry on top of the history, with the actions that `Journaled` takes back. An
`undo_last_mcp_transaction` that follows it is not refused, and leaves the patch and the history of before the commit
(`undo_restores_commit`).
-/

namespace RackMcp

open Outcomes Journal

variable {rack : Rack} {request undoRequest : Json} {durationMs : Double} {rs : RackState}

/-- What a commit that reports success did. -/
theorem txnCommit_of_success (h : (txnCommit rack request durationMs rs).1.errorCode = none) :
    ∃ s fp, Applier.apply rack (planOperations (Json.get request "plan")) rs.patch = .done s ∧
      rack.computePatchFingerprint s.patch = some fp ∧
      (txnCommit rack request durationMs rs).2 = { rs with
        patch := s.patch
        history := rs.history ++ [(stringBytes ("Rack MCP: " ++ jstr (Json.get request "plan") "label" "transaction" ++
          " ") ++ opMark (jstr request "operationId"), s.actions)]
        lastMcpTransaction := some (jstr request "operationId", fp) } := by
  unfold txnCommit at h ⊢
  rcases hgate : commitGate rack request rs with _ | refusal
  · rw [hgate] at h
    dsimp only at h ⊢
    rcases happly : Applier.apply rack (planOperations (Json.get request "plan")) rs.patch with s | ⟨⟨i, message⟩, s⟩
    · rw [happly] at h
      dsimp only at h ⊢
      unfold finishCommit at h ⊢
      rcases hfp : rack.computePatchFingerprint s.patch with _ | fp
      · rw [hfp] at h
        cases h
      · exact ⟨s, fp, rfl, hfp, rfl⟩
    · rw [happly] at h
      cases h
  · rw [hgate] at h
    exact absurd h (errorCode_of_commitGate hgate)

/-- The name of a commit's entry has its operation id in brackets. -/
theorem containsText_entry (front mark : List UInt8) : containsText (front ++ mark) mark = true :=
  decide_eq_true (List.suffix_append front mark).isInfix

/-- The state that an undo of a commit leaves: the patch that its actions give back, and the rest as before. -/
def undoneState (rack : Rack) (s : Applier) (rs : RackState) : RackState :=
  { rs with patch := undoAll (Action.invert rack.relist) s.actions s.patch, lastMcpTransaction := none }

/-- An undo of the transaction that a commit has just recorded runs its actions back. -/
theorem txnUndoLast_of_success (hundo : ∀ a p, rack.undo a p = .done (a.invert rack.relist p))
    (hsuccess : (txnCommit rack request durationMs rs).1.errorCode = none)
    (hid : jstr undoRequest "expectedOperationId" = jstr request "operationId") :
    ∃ s, Applier.apply rack (planOperations (Json.get request "plan")) rs.patch = .done s ∧
      txnUndoLast rack undoRequest (txnCommit rack request durationMs rs).2 =
        (.ok (undoOutcome rack (undoneState rack s rs)), undoneState rack s rs) := by
  obtain ⟨s, fp, happly, hfp, hafter⟩ := txnCommit_of_success hsuccess
  refine ⟨s, happly, ?_⟩
  rw [hafter]
  generalize jstr (Json.get request "plan") "label" "transaction" = label
  have hgate : undoGate rack undoRequest { rs with
      patch := s.patch
      history := rs.history ++ [(stringBytes ("Rack MCP: " ++ label ++ " ") ++ opMark (jstr request "operationId"),
        s.actions)]
      lastMcpTransaction := some (jstr request "operationId", fp) } = none := by
    refine undoGate_eq_none_iff.mpr ⟨fp, _, ?_, List.getLast?_concat, ?_, hfp⟩
    · rw [hid]
    · rw [hid]
      exact containsText_entry _ _
  unfold txnUndoLast
  rw [hgate]
  unfold undoHistory
  simp only [List.getLast?_concat, runFrom_reverse (Action.invert rack.relist) hundo, List.dropLast_concat]
  rfl

/-- A plan that was applied can be taken back. -/
theorem Journaled.of_apply {w : PanelPatch} {ops : List Json} {s : Applier}
    (h : Applier.apply w.rack ops w.patch = .done s) : Journaled w s := by
  refine (runFrom_done_iff.mp h).invariant (I := Journaled w) (fun op _ t t' ht hstep => ?_) (.start w)
  have hnext := ht.applyOne (not_strands_of_done hstep)
  rwa [hstep] at hnext

/-- An undo of the transaction that a commit has just recorded is not refused, and gives back the patch of before the
commit, up to the order in which it is listed, with its history. -/
theorem undo_restores_commit (w : PanelPatch) (hundo : ∀ a p, w.rack.undo a p = .done (a.invert w.rack.relist p))
    (hpatch : rs.patch = w.patch) (hsuccess : (txnCommit w.rack request durationMs rs).1.errorCode = none)
    (hid : jstr undoRequest "expectedOperationId" = jstr request "operationId") :
    ∃ rs', txnUndoLast w.rack undoRequest (txnCommit w.rack request durationMs rs).2 =
        (.ok (undoOutcome w.rack rs'), rs') ∧
      rs'.patch.Same rs.patch ∧ rs'.history = rs.history ∧ rs'.lastMcpTransaction = none ∧
      rs'.patchEpoch = rs.patchEpoch := by
  obtain ⟨s, happly, hundone⟩ := txnUndoLast_of_success hundo hsuccess hid
  rw [hpatch] at happly
  refine ⟨_, hundone, ?_, rfl, rfl, rfl⟩
  rw [hpatch]
  exact (Journaled.of_apply happly).undone

def undoBenchCommit : Json := .object [("expectedOperationId", .string "11111111-a")]

/-- The removal of the oscillator is committed and undone. -/
theorem undo_restores_commit_bench : ∃ rs', txnUndoLast benchRack undoBenchCommit
    (txnCommit benchRack (benchCommitRequest "11111111-a" "1 2 3" removeOscillator) .nan { patch := benchPatch }).2 =
      (.ok (undoOutcome benchRack rs'), rs') ∧ rs'.patch.Same benchPatch := by
  have hsuccess : (txnCommit benchPanels.rack (benchCommitRequest "11111111-a" "1 2 3" removeOscillator) .nan
      { patch := benchPatch }).1.errorCode = none := by
    rw [← Option.isNone_iff_eq_none]
    decide +kernel
  have hid : jstr undoBenchCommit "expectedOperationId" =
      jstr (benchCommitRequest "11111111-a" "1 2 3" removeOscillator) "operationId" := rfl
  obtain ⟨rs', hundone, hsame, -⟩ := undo_restores_commit benchPanels (fun _ _ => rfl) rfl hsuccess hid
  exact ⟨rs', hundone, hsame⟩

end RackMcp
