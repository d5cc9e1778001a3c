import RackMcp.Proof.Lockstep
import RackMcp.Rackside.History

/-!
# What `txn.undoLast` undoes

`txnUndoLast` recognises the recorded transaction by eight bytes of its operation id in the name of the action on
top and by the fingerprint of the patch. It undoes what that transaction pushed, with nothing pushed or undone since,
exactly in the runs that never come back to such a name at such a patch once the history was touched
(`undo_identified_iff`).
-/

namespace RackMcp

open Outcomes

variable {rack : Rack} {p : Patch} {es : List HistoryEvent}

/-! ### Commits and undos -/

/-- A commit pushes one entry or none, and records itself only when it pushed. -/
theorem txnCommit_history (rack : Rack) (request : Json) (durationMs : Double) (rs : RackState) :
    let rs' := (txnCommit rack request durationMs rs).2
    (rs'.history = rs.history ∧ rs'.lastMcpTransaction = rs.lastMcpTransaction) ∨
      (rs'.history.length = rs.history.length + 1 ∧
        (rs'.lastMcpTransaction = rs.lastMcpTransaction ∨
          ∃ fp, rs'.lastMcpTransaction = some (jstr request "operationId", fp))) := by
  dsimp only
  unfold txnCommit
  split
  · exact .inl ⟨rfl, rfl⟩
  · split
    · right
      unfold finishCommit
      dsimp only
      split
      · exact ⟨List.length_append, .inl rfl⟩
      · next fp _ => exact ⟨List.length_append, .inr ⟨fp, rfl⟩⟩
    · exact .inl ⟨rfl, rfl⟩

/-- An undo takes the newest entry off, whether or not its actions throw. -/
theorem undoState_history (rack : Rack) (rs : RackState) :
    (HistoryWorld.undoState rack rs).history = rs.history.dropLast ∧
      (HistoryWorld.undoState rack rs).lastMcpTransaction = rs.lastMcpTransaction := by
  unfold HistoryWorld.undoState undoHistory
  rcases hlast : rs.history.getLast? with _ | ⟨name, actions⟩
  · have hnil := List.getLast?_eq_none_iff.mp hlast
    simp [hnil]
  · dsimp only
    rcases runFrom rack.undo 0 actions.reverse rs.patch with patch | ⟨what, patch⟩
    · exact ⟨rfl, rfl⟩
    · exact ⟨rfl, rfl⟩

/-- What the gate of `txnUndoLast` sees when it lets a request pass. -/
theorem undoGate_eq_none_iff {request : Json} {rs : RackState} :
    undoGate rack request rs = none ↔ ∃ fp entry,
      rs.lastMcpTransaction = some (jstr request "expectedOperationId", fp) ∧ rs.history.getLast? = some entry ∧
        containsText entry.1 (opMark (jstr request "expectedOperationId")) = true ∧
          rack.computePatchFingerprint rs.patch = some fp := by
  unfold undoGate
  dsimp only
  rcases rs.lastMcpTransaction with _ | ⟨lastOp, fp⟩
  · simp
  · dsimp only
    by_cases hop : lastOp = jstr request "expectedOperationId"
    · rw [if_neg (not_not.mpr hop)]
      rcases rs.history.getLast? with _ | ⟨name, actions⟩
      · simp
      · dsimp only
        by_cases hname : containsText name (opMark (jstr request "expectedOperationId")) = true
        · rw [if_neg (not_not.mpr hname)]
          rcases rack.computePatchFingerprint rs.patch with _ | live
          · simp
          · by_cases hlive : live = fp
            · simp [hop, hname, hlive]
            · simp [hlive, Ne.symm hlive]
        · rw [if_pos hname]
          simp [hname]
    · rw [if_pos hop]
      simp [hop]

theorem txnUndoLast_history (rack : Rack) (request : Json) (rs : RackState) :
    let rs' := (txnUndoLast rack request rs).2
    (undoGate rack request rs ≠ none ∧ rs' = rs) ∨
      (undoGate rack request rs = none ∧ rs'.history = rs.history.dropLast ∧
        (rs'.lastMcpTransaction = rs.lastMcpTransaction ∨ rs'.lastMcpTransaction = none)) := by
  dsimp only
  unfold txnUndoLast
  rcases hgate : undoGate rack request rs with _ | refusal
  · right
    have hundo := undoState_history rack rs
    unfold HistoryWorld.undoState at hundo
    dsimp only
    rcases h : undoHistory rack rs with rs' | ⟨what, rs'⟩
    · rw [h] at hundo
      exact ⟨rfl, hundo.1, .inr rfl⟩
    · rw [h] at hundo
      exact ⟨rfl, hundo.1, .inl hundo.2⟩
  · exact .inl ⟨by simp, rfl⟩

namespace HistoryWorld

/-! ### Steps -/

/-- What an event can do to the history. -/
inductive Step (rack : Rack) (w : HistoryWorld) : HistoryEvent → HistoryWorld → List HistoryMove → Prop
  | still {e : HistoryEvent} (rs : RackState) (history : rs.history = w.rs.history)
      (last : rs.lastMcpTransaction = w.rs.lastMcpTransaction) : Step rack w e (w.staying rs) []
  | committed (request : Json) (durationMs : Double) (rs : RackState)
      (history : rs.history.length = w.rs.history.length + 1)
      (last : rs.lastMcpTransaction = w.rs.lastMcpTransaction ∨
        ∃ fp, rs.lastMcpTransaction = some (jstr request "operationId", fp)) :
      Step rack w (.commit request durationMs)
        (w.pushing rs (rs.lastMcpTransaction.map Prod.fst ≠ some (jstr request "operationId"))) [.pushed]
  | pushed (name : List UInt8) (actions : List Action) (patch : Patch) :
      Step rack w (.manual name actions patch)
        (w.pushing { w.rs with patch, history := w.rs.history ++ [(name, actions)] } true) [.pushed]
  | undone {e : HistoryEvent} (rs : RackState) (nonempty : w.rs.history ≠ [])
      (history : rs.history = w.rs.history.dropLast)
      (last : rs.lastMcpTransaction = w.rs.lastMcpTransaction ∨ rs.lastMcpTransaction = none) :
      Step rack w e (w.popping rs) [.undone]
  | redone (patch : Patch) (entry : HistoryEntry) (mark : ℕ) (rest : List (HistoryEntry × ℕ))
      (redoable : w.redoable = (entry, mark) :: rest) :
      Step rack w (.redo patch)
        { rs := { w.rs with patch, history := w.rs.history ++ [entry] }, redoable := rest, time := w.time + 1,
          pushedAt := w.pushedAt ++ [mark], moved := true } [.redone]

theorem step_cases (rack : Rack) (w : HistoryWorld) (e : HistoryEvent) :
    Step rack w e (w.step rack e).1 (w.step rack e).2 := by
  rcases e with ⟨request, durationMs⟩ | ⟨name, actions, patch⟩ | _ | patch | patch | request
  · unfold step
    dsimp only
    obtain ⟨hhistory, hlast⟩ | ⟨hlength, hlast⟩ := txnCommit_history rack request durationMs w.rs
    · rw [if_neg (by rw [hhistory]; omega)]
      exact .still _ hhistory hlast
    · rw [if_pos (by omega)]
      exact .committed request durationMs _ hlength hlast
  · exact .pushed name actions patch
  · unfold step
    dsimp only
    by_cases hnil : w.rs.history = []
    · rw [if_pos hnil]
      exact .still _ rfl rfl
    · rw [if_neg hnil]
      have hundo := undoState_history rack w.rs
      exact .undone _ hnil hundo.1 (.inl hundo.2)
  · unfold step
    rcases hredo : w.redoable with _ | ⟨⟨entry, mark⟩, rest⟩
    · exact .still _ rfl rfl
    · exact .redone patch entry mark rest hredo
  · exact .still _ rfl rfl
  · unfold step
    dsimp only
    obtain ⟨-, heq⟩ | ⟨hgate, hhistory, hlast⟩ := txnUndoLast_history rack request w.rs
    · rw [heq, if_neg (lt_irrefl _)]
      exact .still _ rfl rfl
    · obtain ⟨fp, entry, -, htop, -⟩ := undoGate_eq_none_iff.mp hgate
      have hnonempty : w.rs.history ≠ [] := by
        intro hnil
        rw [hnil] at htop
        exact absurd htop (by simp)
      have hpos := List.length_pos_iff.mpr hnonempty
      rw [hhistory, if_pos (by rw [List.length_dropLast]; omega)]
      exact .undone _ hnonempty hhistory hlast

theorem worldAt_succ {k : ℕ} {e : HistoryEvent} (he : es[k]? = some e) :
    worldAt rack p es (k + 1) = ((worldAt rack p es k).step rack e).1 := Trace.stateAt_succ he

/-- The step of the run at index `k`. -/
theorem step_at (rack : Rack) (p : Patch) {k : ℕ} {e : HistoryEvent} (he : es[k]? = some e) :
    ∃ acts, Step rack (worldAt rack p es k) e (worldAt rack p es (k + 1)) acts ∧
      ∀ move, Moves rack p es k move ↔ move ∈ acts := by
  refine ⟨((worldAt rack p es k).step rack e).2, ?_, fun move => ⟨fun ⟨e', he', hmem⟩ => ?_, fun h => ⟨e, he, h⟩⟩⟩
  · rw [worldAt_succ he]
    exact step_cases rack _ e
  · obtain rfl : e = e' := Option.some.inj (he.symm.trans he')
    exact hmem

/-! ### The transaction that is meant -/

/-- The event at index `m` is a commit with the operation id that pushed its action, and up to the event at index `k`
no action was pushed or undone after it. -/
structure PushedBy (rack : Rack) (p : Patch) (es : List HistoryEvent) (k m : ℕ) (operationId : String) : Prop where
  commit : ∃ request durationMs, es[m]? = some (.commit request durationMs) ∧
    jstr request "operationId" = operationId
  pushed : Moves rack p es m .pushed
  quiet : ∀ i, m < i → i < k → ¬ Moves rack p es i .pushed ∧ ¬ Moves rack p es i .undone

/-- `txnUndoLast` calls `History::undo` on this request, while the entry that the event `m` pushed is on top. -/
def Undoes (rack : Rack) (w : HistoryWorld) (request : Json) (m : ℕ) : Prop :=
  undoGate rack request w.rs = none ∧ w.pushedAt.getLast? = some m

/-- The action on top looks like the one of the recorded transaction: its name contains the first eight bytes of
the operation id in brackets, and the patch has the recorded fingerprint. -/
def LooksRecorded (rack : Rack) (w : HistoryWorld) : Prop :=
  ∃ operationId fp entry, w.rs.lastMcpTransaction = some (operationId, fp) ∧ w.rs.history.getLast? = some entry ∧
    containsText entry.1 (opMark operationId) = true ∧
      rack.computePatchFingerprint w.rs.patch = some fp

/-- The history was pushed to, undone or redone since a commit of the recorded transaction pushed its action, and it
has come to an action and a patch that look like that commit's. -/
def Misread (rack : Rack) (w : HistoryWorld) : Prop := w.moved = true ∧ w.LooksRecorded rack

/-! ### Runs -/

/-- The marks tell which event pushed an entry, and `moved` whether the recorded one is still on top. -/
structure Tracked (rack : Rack) (p : Patch) (es : List HistoryEvent) (k : ℕ) (w : HistoryWorld) : Prop where
  length : w.pushedAt.length = w.rs.history.length
  onTop : w.moved = false → ∀ operationId fp, w.rs.lastMcpTransaction = some (operationId, fp) →
    ∃ m, m < k ∧ w.pushedAt.getLast? = some m ∧ PushedBy rack p es k m operationId

theorem Step.time {w t : HistoryWorld} {e : HistoryEvent} {acts : List HistoryMove} (h : Step rack w e t acts) :
    t.time = w.time + 1 := by
  rcases h with _ | _ | _ | _ | _ <;> rfl

theorem time_eq (rack : Rack) (p : Patch) {k : ℕ} (hk : k ≤ es.length) : (worldAt rack p es k).time = k := by
  induction k with
  | zero => rfl
  | succ k ih =>
    obtain ⟨acts, hstep, -⟩ := step_at rack p (List.getElem?_eq_getElem hk)
    rw [hstep.time, ih (by omega)]

/-- What no later event pushed or undid was still not pushed or undone after one that did neither. -/
theorem PushedBy.next {k m : ℕ} {operationId : String} (h : PushedBy rack p es k m operationId)
    (hk : ¬ Moves rack p es k .pushed ∧ ¬ Moves rack p es k .undone) : PushedBy rack p es (k + 1) m operationId := by
  refine ⟨h.commit, h.pushed, fun i hm hi => ?_⟩
  by_cases heq : i = k
  · rw [heq]
    exact hk
  · exact h.quiet i hm (by omega)

theorem tracked_next {k : ℕ} {e : HistoryEvent} (he : es[k]? = some e)
    (ih : Tracked rack p es k (worldAt rack p es k)) : Tracked rack p es (k + 1) (worldAt rack p es (k + 1)) := by
  obtain ⟨acts, hstep, hacts⟩ := step_at rack p he
  have hlt := (List.getElem?_eq_some_iff.mp he).1
  have htime := time_eq rack p hlt.le
  generalize worldAt rack p es k = w at hstep ih htime
  generalize worldAt rack p es (k + 1) = t at hstep
  rcases hstep with ⟨rs, hhistory, hlast⟩ | ⟨request, durationMs, rs, hhistory, hlast⟩ | ⟨name, actions, patch⟩ |
    ⟨rs, hnonempty, hhistory, hlast⟩ | ⟨patch, entry, mark, rest, hredo⟩
  · refine ⟨ih.length.trans (congrArg List.length hhistory.symm), fun hmoved operationId fp h => ?_⟩
    obtain ⟨m, hm, htop, hpushed⟩ := ih.onTop hmoved operationId fp (hlast.symm.trans h)
    refine ⟨m, by omega, htop, hpushed.next ?_⟩
    rw [hacts, hacts]
    simp
  · have hlength : (w.pushedAt ++ [w.time]).length = rs.history.length := by
      rw [List.length_append, ih.length, hhistory]
      rfl
    refine ⟨hlength, fun hmoved operationId fp h => ?_⟩
    have hop : rs.lastMcpTransaction.map Prod.fst = some (jstr request "operationId") := by
      simpa [pushing] using hmoved
    have hsome : rs.lastMcpTransaction = some (operationId, fp) := h
    rw [hsome] at hop
    refine ⟨k, by omega, ?_, ⟨request, durationMs, he, (Option.some.inj hop).symm⟩, ?_, fun i _ _ => by omega⟩
    · show (w.pushedAt ++ [w.time]).getLast? = some k
      rw [List.getLast?_concat, htime]
    · rw [hacts]
      exact List.mem_singleton_self _
  · have hlength : (w.pushedAt ++ [w.time]).length = (w.rs.history ++ [(name, actions)]).length := by
      rw [List.length_append, List.length_append, ih.length]
      rfl
    exact ⟨hlength, nofun⟩
  · have hlength : w.pushedAt.dropLast.length = rs.history.length := by
      rw [hhistory, List.length_dropLast, List.length_dropLast, ih.length]
    exact ⟨hlength, nofun⟩
  · have hlength : (w.pushedAt ++ [mark]).length = (w.rs.history ++ [entry]).length := by
      rw [List.length_append, List.length_append, ih.length]
      rfl
    exact ⟨hlength, nofun⟩

theorem tracked_run (rack : Rack) (p : Patch) {k : ℕ} (hk : k ≤ es.length) : Tracked rack p es k (worldAt rack p es k) := by
  induction k with
  | zero => exact ⟨rfl, nofun⟩
  | succ k ih => exact tracked_next (List.getElem?_eq_getElem hk) (ih (by omega))

/-! ### What an undo finds -/

/-- After a commit with the recorded operation id, nothing can be redone and the history counts as untouched. -/
def Untouched (operationId : String) (w : HistoryWorld) : Prop :=
  w.redoable = [] ∧ ∀ recorded fp, w.rs.lastMcpTransaction = some (recorded, fp) → recorded = operationId →
    w.moved = false

/-- An event that pushes and undoes nothing leaves the history untouched and the record as it is. -/
theorem Untouched.next {k : ℕ} {e : HistoryEvent} {operationId : String} (he : es[k]? = some e)
    (hquiet : ¬ Moves rack p es k .pushed ∧ ¬ Moves rack p es k .undone)
    (h : Untouched operationId (worldAt rack p es k)) : Untouched operationId (worldAt rack p es (k + 1)) := by
  obtain ⟨acts, hstep, hacts⟩ := step_at rack p he
  rw [hacts, hacts] at hquiet
  generalize worldAt rack p es k = w at hstep h
  generalize worldAt rack p es (k + 1) = t at hstep ⊢
  rcases hstep with ⟨rs, hhistory, hlast⟩ | ⟨request, durationMs, rs, hhistory, hlast⟩ | ⟨name, actions, patch⟩ |
    ⟨rs, hnonempty, hhistory, hlast⟩ | ⟨patch, entry, mark, rest, hredo⟩
  · exact ⟨h.1, fun recorded fp hrecorded => h.2 recorded fp (hlast.symm.trans hrecorded)⟩
  · exact absurd (List.mem_singleton_self _) hquiet.1
  · exact absurd (List.mem_singleton_self _) hquiet.1
  · exact absurd (List.mem_singleton_self _) hquiet.2
  · rw [h.1] at hredo
    exact absurd hredo (by simp)

/-- Right after it, the history is untouched. -/
theorem Untouched.start {m : ℕ} {request : Json} {durationMs : Double}
    (he : es[m]? = some (.commit request durationMs)) (hpushed : Moves rack p es m .pushed) :
    Untouched (jstr request "operationId") (worldAt rack p es (m + 1)) := by
  obtain ⟨acts, hstep, hacts⟩ := step_at rack p he
  rw [hacts] at hpushed
  generalize worldAt rack p es m = w at hstep
  generalize worldAt rack p es (m + 1) = t at hstep ⊢
  rcases hstep with ⟨rs, hhistory, hlast⟩ | ⟨request, durationMs, rs, hhistory, hlast⟩ | _ |
    ⟨rs, hnonempty, hhistory, hlast⟩ | _
  · exact absurd hpushed (by simp)
  · refine ⟨rfl, fun recorded fp hrecorded heq => ?_⟩
    have hrecorded : rs.lastMcpTransaction = some (recorded, fp) := hrecorded
    show decide (rs.lastMcpTransaction.map Prod.fst ≠ some (jstr request "operationId")) = false
    rw [hrecorded, heq]
    simp
  · exact absurd hpushed (by simp)

/-- While no action was pushed or undone after the recorded commit, the history was not touched. -/
theorem PushedBy.moved_eq_false {k m : ℕ} {operationId fp : String} (h : PushedBy rack p es k m operationId)
    (hm : m < k) (hk : k ≤ es.length) (hlast : (worldAt rack p es k).rs.lastMcpTransaction = some (operationId, fp)) :
    (worldAt rack p es k).moved = false := by
  obtain ⟨request, durationMs, he, rfl⟩ := h.commit
  have huntouched : ∀ i, m + 1 ≤ i → i ≤ k → Untouched (jstr request "operationId") (worldAt rack p es i) := by
    intro i hi
    induction i, hi using Nat.le_induction with
    | base => exact fun _ => .start he h.pushed
    | succ i hi ih =>
      intro hle
      exact (ih (by omega)).next (List.getElem?_eq_getElem (by omega)) (h.quiet i hi (by omega))
  exact (huntouched k hm le_rfl).2 _ fp hlast rfl

end HistoryWorld

open HistoryWorld

/-- In every run of commits, manual actions, manual undos and redos and `txn.undoLast` requests: whenever
`txnUndoLast` calls `History::undo`, the action on top is the one that a commit with the expected operation id pushed,
and no action was pushed or undone after it, exactly if the run never comes to a state that is misread. -/
theorem undo_identified_iff (rack : Rack) (p : Patch) (es : List HistoryEvent) :
    (∀ k ≤ es.length, ∀ request m, (worldAt rack p es k).Undoes rack request m →
      m < k ∧ PushedBy rack p es k m (jstr (some request) "expectedOperationId")) ↔
      ∀ k ≤ es.length, ¬ (worldAt rack p es k).Misread rack := by
  refine ⟨fun hundoes k hk => ?_, fun hclear k hk request m hundo => ?_⟩
  · rintro ⟨hmoved, operationId, fp, entry, hlast, htop, hname, hfp⟩
    -- a request for the recorded transaction passes the gate
    let request : Json := .object [("expectedOperationId", .string operationId)]
    have hrequest : jstr (some request) "expectedOperationId" = operationId := rfl
    have hgate : undoGate rack request (worldAt rack p es k).rs = none :=
      undoGate_eq_none_iff.mpr ⟨fp, entry, hlast, htop, hname, hfp⟩
    have hpos : (worldAt rack p es k).pushedAt ≠ [] := by
      intro hnil
      have hlength := (tracked_run rack p hk).length
      rw [hnil, List.length_nil] at hlength
      rw [List.length_eq_zero_iff.mp hlength.symm] at htop
      exact absurd htop (by simp)
    obtain ⟨hm, hpushed⟩ := hundoes k hk request _ ⟨hgate, List.getLast?_eq_some_getLast hpos⟩
    rw [hrequest] at hpushed
    rw [hpushed.moved_eq_false hm hk hlast] at hmoved
    exact absurd hmoved Bool.false_ne_true
  · obtain ⟨fp, entry, hlast, htop, hname, hfp⟩ := undoGate_eq_none_iff.mp hundo.1
    have hmoved : (worldAt rack p es k).moved = false := by
      by_contra hmoved
      exact hclear k hk ⟨eq_true_of_ne_false hmoved, _, fp, entry, hlast, htop, hname, hfp⟩
    obtain ⟨m', hm', htop', hpushed⟩ := (tracked_run rack p hk).onTop hmoved _ fp hlast
    obtain rfl : m' = m := Option.some.inj (htop'.symm.trans hundo.2)
    exact ⟨hm', hpushed⟩

/-- A commit request of the bench. -/
def benchCommitRequest (operationId fingerprint : String) (ops : List Json) : Json :=
  .object [("operationId", .string operationId), ("planHash", .string "plan"),
    ("expectedFingerprint", .string fingerprint), ("plan", .object [("operations", .array ops)])]

/-- The oscillator is removed, a second commit whose id begins with the same eight bytes changes nothing, and the
user undoes it. -/
def benchUndoEvents : List HistoryEvent :=
  [.commit (benchCommitRequest "11111111-a" "1 2 3" removeOscillator) .nan,
   .commit (benchCommitRequest "11111111-b" "2 3"
     [operation "set_bypass" [("module", moduleById "2"), ("bypassed", .bool false)]]) .nan,
   .undo]

/-- Then an undo of the second commit undoes the first. -/
theorem other_commit_undone :
    ¬ ∀ (rack : Rack) (p : Patch) (es : List HistoryEvent), ∀ k ≤ es.length, ∀ request m,
      (worldAt rack p es k).Undoes rack request m →
        m < k ∧ PushedBy rack p es k m (jstr (some request) "expectedOperationId") := by
  intro hall
  have hundoes : (worldAt benchRack benchPatch benchUndoEvents 3).Undoes benchRack
      (.object [("expectedOperationId", .string "11111111-b")]) 0 := by
    refine ⟨?_, ?_⟩
    · rw [← Option.isNone_iff_eq_none]
      decide +kernel
    · decide +kernel
  obtain ⟨-, hpushed⟩ := hall benchRack benchPatch benchUndoEvents 3 (by decide) _ 0 hundoes
  obtain ⟨request, durationMs, he, hop⟩ := hpushed.commit
  obtain ⟨rfl, -⟩ := HistoryEvent.commit.inj (Option.some.inj he)
  revert hop
  decide

end RackMcp
