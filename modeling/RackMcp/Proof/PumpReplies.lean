import RackMcp.Proof.Idempotency
import RackMcp.Proof.Replies

/-!
# The replies of the pump

Whatever ends a command's turn (its deadline, its lease, a replay, its handler or what the handler threw), the frame the
pump comes to is a reply to the command's own request (`written_processCommand`), and the cap lets it fit a frame
(`fits_capResponseFrame`).
-/

namespace RackMcp

open Gen

variable {cfg : ServiceConfig} {J : Jansson} {rng : Entropy} {numeral : Double → String} {id frame : String}

/-! ### Members of a reply -/

theorem setMember_id (k i value : Json) (m : String × Json) (rest : List (String × Json)) :
    ∃ m' rest', setMember "id" value (("kind", k) :: ("id", i) :: m :: rest) = ("kind", k) :: ("id", value) :: m' :: rest' := by
  unfold setMember
  rw [if_pos (by simp)]
  exact ⟨_, _, rfl⟩

theorem setMember_other (key : String) (hkind : key ≠ "kind") (hid : key ≠ "id") (k i value : Json) (m : String × Json)
    (rest : List (String × Json)) :
    ∃ m' rest', setMember key value (("kind", k) :: ("id", i) :: m :: rest) = ("kind", k) :: ("id", i) :: m' :: rest' := by
  unfold setMember
  split
  · simp only [List.map_cons, if_neg hkind.symm, if_neg hid.symm]
    exact ⟨_, _, rfl⟩
  · exact ⟨_, _, rfl⟩

/-! ### Frames of an outcome -/

/-- The extras leave a reply a reply. -/
theorem written_attachErrorExtras (hJ : J.Prints numeral) (h : Written J id frame) (extras : Option Json) :
    Written J id (attachErrorExtras J frame extras) := by
  have hwritten := h
  obtain ⟨m, rest, hdumps⟩ := h
  unfold attachErrorExtras
  split
  · exact hwritten
  · split
    · next root hloads =>
      have hroot := hJ.reads _ _ _ hdumps hloads
      split
      · next root' hextras =>
        rcases hagain : J.dumps (.object root') with _ | text
        · exact hwritten
        · obtain ⟨value, hvalue⟩ : ∃ value, root' = setMember "error" value root := by
            unfold errorWithExtras at hextras
            split at hextras
            · split_ifs at hextras
              exact ⟨_, (Option.some.inj hextras).symm⟩
            · exact absurd hextras (by simp)
          rw [Json.object.inj hroot] at hvalue
          obtain ⟨m', rest', heq⟩ := setMember_other "error" (by decide) (by decide) (.string "res") (.string id)
            value m rest
          rw [hvalue, heq] at hagain
          exact ⟨m', rest', hagain⟩
      · exact hwritten
    · exact hwritten

theorem written_txnOutcomeToFrame (hJ : J.Prints numeral) {cmd : BridgeCommand} (hid : isHex cmd.requestId 16 = true)
    (outcome : TxnOutcome) : Written J cmd.requestId (txnOutcomeToFrame J cmd outcome) := by
  unfold txnOutcomeToFrame
  split
  · dsimp only
    split
    · exact written_attachErrorExtras hJ (written_buildResError hJ hid _ _ _ _) _
    · exact written_buildResError hJ hid _ _ _ _
  · exact written_buildResOk hJ hid _

theorem written_patchFileOutcomeToFrame (hJ : J.Prints numeral) {cmd : BridgeCommand} (hid : isHex cmd.requestId 16 = true)
    (outcome : PatchFileOutcome) : Written J cmd.requestId (patchFileOutcomeToFrame J cmd outcome) := by
  unfold patchFileOutcomeToFrame
  split
  · exact written_buildResError hJ hid _ _ _ _
  · exact written_buildResOk hJ hid _

/-! ### Handlers and the cache -/

/-- The handlers that answer with a frame build it for their request, and jansson reads back and rewrites what may be
recorded of the others. -/
structure Call.Honest (J : Jansson) (c : Call) : Prop where
  frame : c.cmd.method ∈ frameMethods → ∀ frame, c.answers.frame c.cmd.method = .ok frame →
    (∃ payload, frame = buildResOk J c.cmd.requestId payload) ∨
      ∃ code message retrySafe mayHave, frame = buildResError J c.cmd.requestId code message retrySafe mayHave
  recorded : ∀ root ∈ c.responses, J.RoundTrips (.object root) ∧
    ∀ id, isHex id 16 = true → (J.dumps (asReplay id (.object root))).isSome

/-- A recorded frame can be rewritten for another request. -/
def Replayable (J : Jansson) (frame : String) : Prop :=
  ∃ recorded m rest, J.loads frame = some (.object (("kind", .string "res") :: ("id", .string recorded) :: m :: rest)) ∧
    ∀ id, isHex id 16 = true →
      (J.dumps (asReplay id (.object (("kind", .string "res") :: ("id", .string recorded) :: m :: rest)))).isSome

/-- A replay answers the request it is for, whatever request was recorded. -/
theorem written_replayFrame (hid : isHex id 16 = true) {cached : String} (h : Replayable J cached) :
    Written J id (replayFrame J id cached) := by
  obtain ⟨recorded, m, rest, hloads, hdumps⟩ := h
  obtain ⟨text, htext⟩ := Option.isSome_iff_exists.mp (hdumps id hid)
  have hreply : ∃ m' rest', asReplay id (.object (("kind", .string "res") :: ("id", .string recorded) :: m :: rest)) =
      .object (("kind", .string "res") :: ("id", .string id) :: m' :: rest') := by
    obtain ⟨m', rest', hrenamed⟩ := setMember_id (.string "res") (.string recorded) (.string id) m rest
    unfold asReplay
    dsimp only
    rw [hrenamed]
    split
    · obtain ⟨m', rest', hflagged⟩ := setMember_other "payload" (by decide) (by decide) (.string "res")
        (.string id) _ m' rest'
      exact ⟨m', rest', congrArg Json.object hflagged⟩
    · exact ⟨m', rest', rfl⟩
  obtain ⟨m', rest', hreply⟩ := hreply
  unfold replayFrame
  rw [hloads]
  dsimp only
  rw [htext, Option.getD_some]
  rw [hreply] at htext
  exact ⟨m', rest', htext⟩

/-- What a call encodes is a reply to its request. -/
theorem reply_of_mem_responses {c : Call} {root : List (String × Json)} (h : root ∈ c.responses) :
    ∃ m rest, root = ("kind", .string "res") :: ("id", .string c.cmd.requestId) :: m :: rest := by
  have hextras : ∀ (code : ErrorCode) (message : String) (retrySafe mayHave : Bool) (extras : Option Json),
      root ∈ (errorWithExtras extras (resError c.cmd.requestId code message retrySafe mayHave)).toList →
      ∃ m rest, root = ("kind", .string "res") :: ("id", .string c.cmd.requestId) :: m :: rest := by
    intro code message retrySafe mayHave extras hroot
    have hroot := Option.mem_toList.mp hroot
    unfold errorWithExtras at hroot
    split at hroot
    · split_ifs at hroot
      rw [← Option.some.inj hroot]
      exact setMember_other "error" (by decide) (by decide) _ _ _ _ _
    · exact absurd hroot (by simp)
  unfold Call.responses at h
  split at h
  · split at h
    · unfold txnResponses at h
      split at h
      · rw [List.mem_singleton.mp h]
        exact ⟨_, _, rfl⟩
      · rcases List.mem_cons.mp h with rfl | h
        · exact ⟨_, _, rfl⟩
        · exact hextras _ _ _ _ _ h
    · exact absurd h (List.not_mem_nil)
  · split at h
    · unfold patchFileResponses at h
      split at h
      · rw [List.mem_singleton.mp h]
        exact ⟨_, _, rfl⟩
      · rw [List.mem_singleton.mp h]
        exact ⟨_, _, rfl⟩
    · exact absurd h (List.not_mem_nil)

section dispatch
variable {c : Call} {result : HandlerResult} {cache : OpCache}

theorem Call.Honest.replayable (hc : c.Honest J) (hresult : dispatch J c.answers c.cmd = .ok result)
    (hcacheable : result.cacheable = true) : Replayable J result.frame := by
  obtain ⟨root, hroot, hloads⟩ := loads_dispatch hresult hcacheable fun root hroot => (hc.recorded root hroot).1
  have hdumps := (hc.recorded root hroot).2
  obtain ⟨m, rest, rfl⟩ := reply_of_mem_responses hroot
  exact ⟨_, m, rest, hloads, hdumps⟩

/-- Every handler answers its own request. -/
theorem Call.Honest.written (hJ : J.Prints numeral) (hid : isHex c.cmd.requestId 16 = true) (hc : c.Honest J)
    (hresult : dispatch J c.answers c.cmd = .ok result) : Written J c.cmd.requestId result.frame := by
  unfold dispatch at hresult
  split at hresult
  · next hmethod =>
    obtain ⟨frame, hframe, rfl⟩ := map_eq_ok hresult
    obtain ⟨payload, rfl⟩ | ⟨code, message, retrySafe, mayHave, rfl⟩ := hc.frame hmethod frame hframe
    · exact written_buildResOk hJ hid payload
    · exact written_buildResError hJ hid code message retrySafe mayHave
  split at hresult
  · obtain ⟨outcome, -, rfl⟩ := map_eq_ok hresult
    exact written_txnOutcomeToFrame hJ hid outcome
  split at hresult
  · obtain ⟨outcome, -, rfl⟩ := map_eq_ok hresult
    exact written_txnOutcomeToFrame hJ hid outcome
  split at hresult
  · obtain ⟨outcome, -, rfl⟩ := map_eq_ok hresult
    exact written_txnOutcomeToFrame hJ hid outcome
  split at hresult
  · obtain ⟨outcome, -, rfl⟩ := map_eq_ok hresult
    exact written_patchFileOutcomeToFrame hJ hid outcome
  · rw [← Except.ok.inj hresult]
    exact written_buildResError hJ hid _ _ _ _

theorem mem_recordOperation {e : OpEntry} {operationId fingerprint frame : String} {nowMs : ℤ}
    (h : e ∈ recordOperation cache operationId fingerprint frame nowMs) : e ∈ cache ∨ e.frame = frame := by
  unfold recordOperation at h
  dsimp only at h
  rcases List.mem_append.mp h with h | h
  · left
    split at h
    · exact List.mem_of_mem_filter (List.mem_of_mem_tail h)
    · exact List.mem_of_mem_filter h
  · right
    rw [List.mem_singleton.mp h]

/-- The cache keeps frames that can be rewritten. -/
theorem replayable_executeCommand (hc : c.Honest J) (hcache : ∀ e ∈ cache, Replayable J e.frame) :
    ∀ e ∈ (executeCommand J c.answers c.readings c.cmd cache).2, Replayable J e.frame := by
  intro e he
  obtain ⟨-, hsame⟩ | ⟨result, hresult, hcacheable, -, -, hrecorded⟩ := executeCommand_cases (J := J) c cache
  · rw [hsame] at he
    exact hcache e he
  · rw [hrecorded] at he
    rcases mem_recordOperation he with he | hframe
    · exact hcache e he
    · rw [hframe]
      exact hc.replayable hresult hcacheable

/-- A replay is of a recorded frame. -/
theorem mem_of_lookupOperation {operationId fingerprint cached : String} {nowMs : ℤ}
    (h : lookupOperation cache operationId fingerprint nowMs = .replay cached) : ∃ e ∈ cache, e.frame = cached := by
  induction cache with
  | nil => exact absurd h (by simp [lookupOperation])
  | cons first rest ih =>
    unfold lookupOperation at h
    split_ifs at h
    · obtain ⟨e, he, hframe⟩ := ih h
      exact ⟨e, List.mem_cons_of_mem first he, hframe⟩
    · exact ⟨first, List.mem_cons_self, OpLookup.replay.inj h⟩

theorem written_runHandler (hJ : J.Prints numeral) (hid : isHex c.cmd.requestId 16 = true) (hc : c.Honest J)
    (fingerprint : String) :
    Written J c.cmd.requestId
      ((runHandler J c.answers c.readings.recordMs c.cmd fingerprint cache).1.answer J c.cmd) := by
  unfold runHandler
  split
  · next e _ =>
    rcases e with what | _
    · exact written_buildResError hJ hid _ _ _ _
    · exact written_buildResError hJ hid _ _ _ _
  · next result hresult =>
    split
    · exact hc.written hJ hid hresult
    · exact hc.written hJ hid hresult

/-- A command that is executed is answered. -/
theorem written_executeCommand (hJ : J.Prints numeral) (hid : isHex c.cmd.requestId 16 = true) (hc : c.Honest J)
    (hcache : ∀ e ∈ cache, Replayable J e.frame) :
    Written J c.cmd.requestId ((executeCommand J c.answers c.readings c.cmd cache).1.answer J c.cmd) := by
  unfold executeCommand
  split
  · exact written_runHandler hJ hid hc _
  · dsimp only
    split
    · exact written_buildResError hJ hid _ _ _ _
    · next cached hcached =>
      obtain ⟨e, he, rfl⟩ := mem_of_lookupOperation hcached
      exact written_replayFrame hid (hcache e he)
    · exact written_runHandler hJ hid hc _

end dispatch

/-! ### The turn of a command -/

section turn
variable {leases : LeaseHolder} {cache : OpCache} {t : DrainReadings} {answers : RackAnswers} {cmd : BridgeCommand}

/-- However a command's turn ends, the answer is a reply to its request. -/
theorem written_processCommand (hJ : J.Prints numeral) (hid : isHex cmd.requestId 16 = true)
    (hc : (Call.mk cmd t.execution answers).Honest J) (hcache : ∀ e ∈ cache, Replayable J e.frame) :
    Written J cmd.requestId (processCommand J leases cache t answers cmd).2.2 := by
  unfold processCommand
  split
  · exact written_buildResError hJ hid _ _ _ _
  · split
    · exact written_buildResError hJ hid _ _ _ _
    · exact written_executeCommand (c := Call.mk cmd t.execution answers) hJ hid hc hcache

theorem replayable_processCommand (hc : (Call.mk cmd t.execution answers).Honest J)
    (hcache : ∀ e ∈ cache, Replayable J e.frame) :
    ∀ e ∈ (processCommand J leases cache t answers cmd).1, Replayable J e.frame := by
  unfold processCommand
  split
  · exact hcache
  · split
    · exact hcache
    · exact replayable_executeCommand (c := Call.mk cmd t.execution answers) hc hcache

/-- Past the cap a reply fits a frame. -/
theorem fits_capResponseFrame (hJ : J.Prints numeral) (hroom : Roomy cfg rng) (hid : isHex id 16 = true)
    (hframe : Written J id frame) (hword : frame.utf8ByteSize < 10 ^ 20) (method : String) (mutating : Bool) :
    Fits cfg J id (capResponseFrame J frame id method cfg.maxFrameBytes mutating) := by
  unfold capResponseFrame
  split
  · next hfits => exact ⟨hframe, hfits⟩
  · apply fits_buildResError hJ hroom hid
    have hmethod := size_truncateUtf8 method 64
    have hsize : (toString frame.utf8ByteSize).utf8ByteSize ≤ 20 := size_repr (by decide) hword
    have hlimit : (toString cfg.maxFrameBytes).utf8ByteSize ≤ 20 := size_repr (by decide) hroom.word
    have h₁ : " result is ".utf8ByteSize = 11 := by decide
    have h₂ : " bytes, over the ".utf8ByteSize = 17 := by decide
    have h₃ : "-byte bridge frame limit".utf8ByteSize = 24 := by decide
    simp only [String.utf8ByteSize_append, h₁, h₂, h₃]
    omega

end turn

end RackMcp
