import RackMcp.Proof.Remembered
import RackMcp.Proof.WorldRun

/-!
# Where replies come from

A request is answered by the frame of its response or by losing its client or its deadline, and but for the lease
requests a response is a refusal or the frame of an execution. So what a tool call has read off a reply was true of
the Rack that executed the request, when it did.
-/

namespace RackMcp.Server

open Gen Cooperative

variable {N : Node} {rack : Rack} {J : Jansson} {s s' : Shared}

/-! ### Replies -/

theorem Exchange.Explains.extend {e e' : Exchange} (hext : e.Extends e') {reply : Reply} (h : e.Explains N reply) :
    e'.Explains N reply := by
  rcases h with ⟨frame, root, hframe, hroot⟩ | ⟨code, message⟩
  · exact .response frame root (hext.response frame hframe) hroot
  · exact .lost code message

variable (N) in
/-- Every reply to a request is explained. -/
def Shared.Explained (s : Shared) : Prop :=
  ∀ e ∈ s.exchanges, ∀ r, e.call = .request r → ∀ reply, e.reply = some reply → e.Explains N reply

theorem Shared.Explained.teardown (hs : s.Explained N) (c : ℕ) (reason : String) :
    (s.teardown c reason).Explained N := by
  unfold Shared.teardown
  split
  · intro e' he' r hcall reply hreply
    obtain ⟨e, he, rfl⟩ := List.mem_map.mp he'
    have hext := Exchange.extends_lose c reason e
    rcases Option.eq_none_or_eq_some e.reply with hbefore | ⟨before, hbefore⟩
    · unfold Exchange.lose at hcall hreply
      split at hreply
      · next hlost =>
        rw [if_pos hlost] at hcall
        have hcall : e.call = .request r := hcall
        have hreply : some (lostReply reason e.call) = some reply := hreply
        rw [hcall] at hreply
        rw [← Option.some.inj hreply]
        exact .lost _ _
      · rw [hbefore] at hreply
        cases hreply
    · have hsame := hext.reply before hbefore
      rw [hreply] at hsame
      obtain rfl := Option.some.inj hsame
      exact (hs e he r (hext.call.symm.trans hcall) reply hbefore).extend hext
  · exact hs

theorem Shared.Explained.of_exchanges (hs : s.Explained N) (h : s'.exchanges = s.exchanges) : s'.Explained N := by
  unfold Shared.Explained
  rw [h]
  exact hs

theorem Shared.Explained.disconnect (hs : s.Explained N) : s.disconnect.Explained N := by
  unfold Shared.disconnect
  split
  · exact hs.of_exchanges rfl
  · next c _ =>
    have hunleased : s.unleased.Explained N := hs.of_exchanges rfl
    exact (hunleased.teardown c "client closed").of_exchanges rfl

theorem Shared.Explained.post (hs : s.Explained N) (i : ℕ) (call : Call) :
    Shared.Explained N (bridgeComm.post i call s) := by
  intro e he r hcall reply hreply
  rcases List.mem_append.mp he with he | he
  · exact hs e he r hcall reply hreply
  · rw [List.mem_singleton.mp he] at hreply
    cases hreply

/-- A reply to exchange `n` is explained if it is one of its request. -/
theorem Shared.Explained.setReply (hs : s.Explained N) {n : ℕ} {reply : Reply}
    (h : ∀ e r, s.exchanges[n]? = some e → e.call = .request r → e.Explains N reply) :
    (s.setReply n reply).Explained N := by
  intro e' he' r hcall reply' hreply'
  obtain ⟨m, hm⟩ := List.getElem?_of_mem he'
  have hm : (s.exchanges.modify n fun e => { e with reply := some (e.reply.getD reply) })[m]? = some e' := hm
  rw [List.getElem?_modify] at hm
  obtain ⟨e, he, rfl⟩ := Option.map_eq_some_iff.mp hm
  split at hcall
  · next hnm =>
    subst hnm
    rw [if_pos rfl] at hreply' ⊢
    have hcall : e.call = .request r := hcall
    have hext := Exchange.extends_reply reply e
    rcases Option.eq_none_or_eq_some e.reply with hbefore | ⟨before, hbefore⟩
    · have hreply' : some (e.reply.getD reply) = some reply' := hreply'
      rw [hbefore] at hreply'
      rw [← Option.some.inj hreply']
      exact (h e r he hcall).extend hext
    · have hsame := hext.reply before hbefore
      rw [hreply'] at hsame
      obtain rfl := Option.some.inj hsame
      exact (hs e (List.mem_of_getElem? he) r hcall _ hbefore).extend hext
  · next hnm =>
    rw [if_neg hnm] at hreply' ⊢
    exact hs e (List.mem_of_getElem? he) r hcall reply' hreply'

theorem Shared.Explained.setResponse (hs : s.Explained N) (n : ℕ) (frame : String) :
    (s.setResponse n frame).Explained N := by
  intro e' he' r hcall reply hreply
  obtain ⟨m, hm⟩ := List.getElem?_of_mem he'
  have hm : (s.exchanges.modify n fun e => { e with response := some (e.response.getD frame) })[m]? = some e' := hm
  rw [List.getElem?_modify] at hm
  obtain ⟨e, he, rfl⟩ := Option.map_eq_some_iff.mp hm
  split at hcall
  · next hnm =>
    rw [if_pos hnm] at hreply ⊢
    exact (hs e (List.mem_of_getElem? he) r hcall reply hreply).extend (Exchange.extends_response frame e)
  · next hnm =>
    rw [if_neg hnm] at hreply ⊢
    exact hs e (List.mem_of_getElem? he) r hcall reply hreply

theorem Shared.Explained.reaction (hs : s.Explained N) (h : Reaction N s s') : s'.Explained N := by
  rcases h with _ | ⟨n, reply, -, hexplained⟩ | ⟨n, frame⟩ | ⟨n, host, c, w, e, conn, he, hcall⟩ | ⟨c, reason⟩ | _
  · exact hs
  · exact hs.setReply hexplained
  · exact hs.setResponse n frame
  · refine (@Shared.Explained.setReply _ _ hs n (.connected w) fun e' r he' hcall' => ?_).of_exchanges rfl
    rw [he] at he'
    obtain rfl := Option.some.inj he'
    rw [hcall] at hcall'
    cases hcall'
  · exact hs.teardown c reason
  · exact hs.disconnect

theorem Shared.Explained.step (hs : s.Explained N) (h : Step N s s') : s'.Explained N := by
  rcases h with hlink | hdecision
  · rcases hlink
    case teardown c reason => exact hs.teardown c reason
    case disconnect => exact hs.disconnect
    case deselect => exact hs.disconnect.of_exchanges rfl
    case post i call _ => exact hs.post i call
    case react e => exact hs.reaction (reaction_react s e)
    case response n frame => exact hs.setResponse n frame
    all_goals exact hs.of_exchanges rfl
  · exact hs.of_exchanges hdecision.sameLinks.exchanges

theorem explained_of_reachable (hreach : Reachable N s) : s.Explained N :=
  hreach.induction (fun _ he => by cases he) fun _ _ hstep hs => hs.step hstep

/-! ### Responses -/

theorem unanswered_iff {n : ℕ} {r : Request} : s.unanswered n = some r ↔
    ∃ e, s.exchanges[n]? = some e ∧ e.call = .request r ∧ e.response = none := by
  unfold Shared.unanswered
  constructor
  · intro h
    split at h
    · next he =>
      obtain rfl := Option.some.inj h
      exact ⟨_, he, rfl, rfl⟩
    · cases h
  · rintro ⟨⟨caller, call, selected, response, reply⟩, he, hcall, hresponse⟩
    obtain rfl : call = .request r := hcall
    obtain rfl : response = none := hresponse
    rw [he]

theorem Grows.responseAt (h : Grows N s s') {n : ℕ} {frame : String} (hframe : s.responseAt n = some frame) :
    s'.responseAt n = some frame := by
  obtain ⟨e, he, hresponse⟩ := Option.bind_eq_some_iff.mp hframe
  obtain ⟨e', he', hext⟩ := h.persists.exchanges n e he
  exact Option.bind_eq_some_iff.mpr ⟨e', he', hext.response _ hresponse⟩

theorem unanswered_setReply (n : ℕ) (reply : Reply) (s : Shared) : Unanswered s (s.setReply n reply) := by
  intro m frame h
  have h : (s.exchanges.modify n fun e => { e with reply := some (e.reply.getD reply) })[m]?.bind (·.response) =
    some frame := h
  rw [List.getElem?_modify] at h
  obtain ⟨e', he', hresponse⟩ := Option.bind_eq_some_iff.mp h
  obtain ⟨e, he, rfl⟩ := Option.map_eq_some_iff.mp he'
  refine Option.bind_eq_some_iff.mpr ⟨e, he, ?_⟩
  split at hresponse <;> exact hresponse

theorem responseAt_setResponse {n m : ℕ} {frame frame' : String}
    (h : (s.setResponse n frame).responseAt m = some frame') :
    s.responseAt m = some frame' ∨ m = n ∧ frame' = frame := by
  have h : (s.exchanges.modify n fun e => { e with response := some (e.response.getD frame) })[m]?.bind (·.response) =
    some frame' := h
  rw [List.getElem?_modify] at h
  obtain ⟨e', he', hresponse⟩ := Option.bind_eq_some_iff.mp h
  obtain ⟨e, he, rfl⟩ := Option.map_eq_some_iff.mp he'
  split at hresponse
  · next hnm =>
    have hresponse : some (e.response.getD frame) = some frame' := hresponse
    rcases hbefore : e.response with _ | before
    · rw [hbefore] at hresponse
      exact .inr ⟨hnm.symm, (Option.some.inj hresponse).symm⟩
    · rw [hbefore] at hresponse
      refine .inl (Option.bind_eq_some_iff.mpr ⟨e, he, ?_⟩)
      rw [hbefore]
      exact hresponse
  · exact .inl (Option.bind_eq_some_iff.mpr ⟨e, he, hresponse⟩)

/-- What happens to the server answers nothing, but for a lease request or with a refusal. -/
theorem responseAt_reaction (h : Reaction N s s') {n : ℕ} {frame : String} (hframe : s'.responseAt n = some frame) :
    s.responseAt n = some frame ∨
      ∃ r, s.unanswered n = some r ∧ (r.method ∈ leaseMethods ∨ isRefusal N frame = true) := by
  rcases h with _ | ⟨m, reply, -, -⟩ | ⟨m, answer, r, hr, hrefusal⟩ | ⟨m, host, c, w⟩ | ⟨c, reason⟩ | _
  · exact .inl hframe
  · exact .inl (unanswered_setReply m reply s n frame hframe)
  · rcases responseAt_setResponse hframe with hbefore | ⟨rfl, rfl⟩
    · exact .inl hbefore
    · exact .inr ⟨r, hr, hrefusal⟩
  · exact .inl (unanswered_setReply m (.connected w) s n frame hframe)
  · exact .inl (unanswered_of_traffic (traffic_teardown c reason s) n frame hframe)
  · exact .inl (unanswered_of_traffic (traffic_disconnect s) n frame hframe)

namespace World

/-- A response that was not there before is that of an execution, or the plugin answered without one. -/
theorem responseAt_step {w : World} (h : w.Sound N) (e : WorldEvent) {n : ℕ} {frame : String}
    (hframe : (w.step N rack J e).1.server.responseAt n = some frame) :
    w.server.responseAt n = some frame ∨
      (∃ x ∈ (w.step N rack J e).2, x.exchange = n ∧
        frame = sentFrame J limitBridgeFrameBytes x.cmd x.execution) ∨
      ∃ r, w.server.unanswered n = some r ∧ (r.method ∈ leaseMethods ∨ isRefusal N frame = true) := by
  rcases e with tool | i | e | ⟨m, t, r⟩ | ⟨k, e⟩
  · exact .inl ((sound_call h tool).2.2 n frame hframe)
  · exact .inl ((sound_resume h i).2.2 n frame hframe)
  · rcases responseAt_reaction (reaction_react w.server e) hframe with hbefore | hanswered
    · exact .inl hbefore
    · exact .inr (.inr hanswered)
  · unfold step at hframe ⊢
    dsimp only at hframe ⊢
    rcases hexecution : w.execution rack J m t r with _ | x
    · rw [hexecution] at hframe
      exact .inl hframe
    · rw [hexecution] at hframe
      rcases responseAt_setResponse (s := w.server) hframe with hbefore | ⟨rfl, hsent⟩
      · exact .inl hbefore
      · exact .inr (.inl ⟨x, List.mem_singleton_self x, rfl, hsent⟩)
  · exact .inl hframe

section run
variable {sites : List Site} {es : List WorldEvent}

/-- Where a response of a run comes from. -/
theorem response_source {k n : ℕ} {frame : String}
    (h : (stateAt N rack J sites es k).server.responseAt n = some frame) :
    (∃ j < k, ∃ x, Executes N rack J sites es j x ∧ x.exchange = n ∧
        frame = sentFrame J limitBridgeFrameBytes x.cmd x.execution) ∨
      ∃ j < k, (stateAt N rack J sites es (j + 1)).server.responseAt n = some frame ∧
        ∃ r, (stateAt N rack J sites es j).server.unanswered n = some r ∧
          (r.method ∈ leaseMethods ∨ isRefusal N frame = true) := by
  obtain ⟨j, e, hj, he, hnot, hnow⟩ := Trace.exists_change
    (P := fun w : World => w.server.responseAt n = some frame) (fun h => by cases h) h
  have hsound := sound_stateAt rack J sites es (N := N) j
  rcases @responseAt_step N rack J _ hsound e _ _ hnow with hbefore | ⟨x, hx, hn, hsent⟩ | hanswered
  · exact absurd hbefore hnot
  · exact .inl ⟨j, hj, x, ⟨e, he, hx⟩, hn, hsent⟩
  · refine .inr ⟨j, hj, ?_, hanswered⟩
    have hsucc : stateAt N rack J sites es (j + 1) = (step N rack J (stateAt N rack J sites es j) e).1 :=
      Trace.stateAt_succ he
    rw [hsucc]
    exact hnow

theorem responseAt_of_executes {j : ℕ} {x : Executed} (h : Executes N rack J sites es j x) :
    (∃ r, (stateAt N rack J sites es j).server.unanswered x.exchange = some r ∧ x.cmd = commandOf r) ∧
      ((stateAt N rack J sites es (j + 1)).server.responseAt x.exchange).isSome := by
  obtain ⟨hruns, hsucc⟩ := runs_of_executes h
  obtain ⟨e, r, he, hcall, hresponse, -, hcmd, -⟩ := hruns.request
  refine ⟨⟨r, unanswered_iff.mpr ⟨e, he, hcall, hresponse⟩, hcmd⟩, ?_⟩
  rw [hsucc]
  show (((stateAt N rack J sites es j).server.exchanges.modify _ _)[x.exchange]?.bind _).isSome = true
  rw [List.getElem?_modify, he]
  simp

/-- Where the reply to a request of a run comes from. -/
inductive Source (N : Node) (rack : Rack) (J : Jansson) (sites : List Site) (es : List WorldEvent) (k n : ℕ)
    (r : Request) : Reply → Prop
  | executed (j : ℕ) (x : Executed) (root : Json) (hj : j < k) (hx : Executes N rack J sites es j x)
    (hn : x.exchange = n) (hcmd : x.cmd = commandOf r)
    (hroot : N.parse (sentFrame J limitBridgeFrameBytes x.cmd x.execution) = some root) :
    Source N rack J sites es k n r (readResponse root)
  | refused (root : Json) (hok : jbool root "ok" false = false) : Source N rack J sites es k n r (readResponse root)
  | lost (code message : String) :
    Source N rack J sites es k n r (.failed (.bridge ⟨code, message, false, true, none, none⟩))

theorem reply_source {k n : ℕ} {e : Exchange} (he : (stateAt N rack J sites es k).server.exchanges[n]? = some e)
    {r : Request} (hcall : e.call = .request r) (hmethod : r.method ∉ leaseMethods) {reply : Reply}
    (hreply : e.reply = some reply) : Source N rack J sites es k n r reply := by
  have hreach := reachable_stateAt (N := N) rack J sites es k
  rcases explained_of_reachable hreach e (List.mem_of_getElem? he) r hcall reply hreply with
    ⟨frame, root, hframe, hroot⟩ | ⟨code, message⟩
  case lost => exact .lost code message
  have hresponse : (stateAt N rack J sites es k).server.responseAt n = some frame :=
    Option.bind_eq_some_iff.mpr ⟨e, he, hframe⟩
  have hsame : ∀ {j r'}, j < k → (stateAt N rack J sites es j).server.unanswered n = some r' → r' = r := by
    intro j r' hj hr'
    obtain ⟨e₀, he₀, hcall₀, -⟩ := unanswered_iff.mp hr'
    obtain ⟨e', he', hext⟩ := (grows_stateAt (N := N) rack J sites es hj.le).persists.exchanges n e₀ he₀
    rw [he] at he'
    obtain rfl := Option.some.inj he'
    rw [hext.call, hcall₀] at hcall
    exact Call.request.inj hcall
  rcases response_source hresponse with ⟨j, hj, x, hx, hn, rfl⟩ | ⟨j, hj, -, r', hr', hlease | hrefusal⟩
  · obtain ⟨⟨r', hr', hcmd⟩, -⟩ := responseAt_of_executes hx
    obtain rfl := hsame hj (hn ▸ hr')
    exact .executed j x root hj hx hn hcmd hroot
  · exact absurd (hsame hj hr' ▸ hlease) hmethod
  · refine .refused root ?_
    unfold isRefusal at hrefusal
    rw [hroot] at hrefusal
    simpa using hrefusal

/-- What a request was answered with success was executed for it. -/
theorem payload_source {k n : ℕ} {e : Exchange} (he : (stateAt N rack J sites es k).server.exchanges[n]? = some e)
    {r : Request} (hcall : e.call = .request r) (hmethod : r.method ∉ leaseMethods) {v : Json}
    (hreply : e.reply = some (.payload v)) :
    ∃ j < k, ∃ x root, Executes N rack J sites es j x ∧ x.exchange = n ∧ x.cmd = commandOf r ∧
      N.parse (sentFrame J limitBridgeFrameBytes x.cmd x.execution) = some root ∧
      jbool root "ok" false = true ∧ v = (Json.get root "payload").getD .null := by
  have hread : ∀ {root}, readResponse root = .payload v →
      jbool root "ok" false = true ∧ v = (Json.get root "payload").getD .null := by
    intro root h
    unfold readResponse at h
    split at h
    · next hok => exact ⟨hok, (Reply.payload.inj h).symm⟩
    · cases h
  have hsource := reply_source he hcall hmethod hreply
  generalize hwhat : Reply.payload v = reply at hsource
  rcases hsource with ⟨j, x, root, hj, hx, hn, hcmd, hroot⟩ | ⟨root, hok⟩ | ⟨code, message⟩
  · exact ⟨j, hj, x, root, hx, hn, hcmd, hroot, hread hwhat.symm⟩
  · rw [(hread hwhat.symm).1] at hok
    cases hok
  · cases hwhat

end run

end World

/-! ### What the server reads of a response -/

variable (N J) in
/-- The server reads what the plugin encodes. -/
def Reads (root : List (String × Json)) : Prop := (J.dumps (.object root)).bind N.parse = some (.object root)

instance (root : List (String × Json)) : Decidable (Reads N J root) := inferInstanceAs (Decidable (_ = _))

theorem Reads.parse {root : List (String × Json)} (h : Reads N J root) (fallback : String) :
    N.parse ((J.dumps (.object root)).getD fallback) = some (.object root) := by
  obtain ⟨text, hdumps, hparse⟩ := Option.bind_eq_some_iff.mp h
  rw [hdumps]
  exact hparse

theorem not_ok_resError (id : String) (code : ErrorCode) (message : String) (retrySafe mayHave : Bool) :
    jbool (some (.object (resError id code message retrySafe mayHave))) "ok" false = false := rfl

/-- What `handlePatchFingerprint` answers. -/
def fingerprintPayload (fingerprint : String) (patchEpoch : Int) : Json :=
  .object [("fingerprint", .string fingerprint), ("patchEpoch", .integer patchEpoch)]

namespace Executed

variable (rack J) in
/-- The objects the handler of a fingerprint or of a mutating command encodes. -/
def responses (x : Executed) : List (List (String × Json)) :=
  if x.cmd.method = "patch.fingerprint" then
    ((rack.computePatchFingerprint x.site.host.rack.patch).map fun fingerprint =>
      resOk x.cmd.requestId (some (fingerprintPayload fingerprint x.site.host.rack.patchEpoch))).toList
  else (x.site.host.call rack J ⟨0, 0⟩ x.readings x.cmd).responses

variable (J) in
/-- The object that replaces a frame over the limit. -/
def tooLarge (x : Executed) : List (String × Json) :=
  resError x.cmd.requestId .resultTooLarge
    (tooLargeMessage (x.execution.answer J x.cmd) x.cmd.method limitBridgeFrameBytes) false x.cmd.mutating

/-- The object that refuses an operation id that was used for something else. -/
def reused (x : Executed) : List (String × Json) :=
  resError x.cmd.requestId .badRequest
    ("operationId was already used for a different request; " ++
      "retry the original request or use a fresh operationId") false false

/-- The object of the barrier. -/
def barrier (x : Executed) (e : HandlerThrow) : List (String × Json) :=
  resError x.cmd.requestId .internal e.message false x.cmd.mutating

variable (rack J) in
/-- The objects the plugin may encode to answer the execution. -/
def written (x : Executed) : List (List (String × Json)) :=
  (match x.execution with
    | .mismatched _ => [x.reused]
    | .replayed _ => []
    | .ran _ _ => x.responses rack J
    | .threw e => [x.barrier e]) ++ [x.tooLarge J]

variable (N rack J) in
/-- The server reads what the plugin encodes to answer the execution. -/
def Legible (x : Executed) : Prop := ∀ root ∈ x.written rack J, Reads N J root

instance (x : Executed) : Decidable (x.Legible N rack J) := inferInstanceAs (Decidable (∀ root ∈ _, _))

variable {x : Executed}

theorem Legible.of_ran (h : x.Legible N rack J) {result : HandlerResult} {recorded : Bool}
    (hran : x.execution = .ran result recorded) : ∀ root ∈ x.responses rack J, Reads N J root := by
  unfold Legible written at h
  rw [hran] at h
  exact fun root hroot => h root (List.mem_append_left _ hroot)

theorem Legible.of_threw (h : x.Legible N rack J) {e : HandlerThrow} (hthrew : x.execution = .threw e) :
    Reads N J (x.barrier e) := by
  unfold Legible written at h
  rw [hthrew] at h
  exact h _ (List.mem_append_left _ (List.mem_singleton_self _))

theorem Legible.of_mismatched (h : x.Legible N rack J) {frame : String}
    (hmismatched : x.execution = .mismatched frame) : Reads N J x.reused := by
  unfold Legible written at h
  rw [hmismatched] at h
  exact h _ (List.mem_append_left _ (List.mem_singleton_self _))

/-- The server reads what the plugin answered, or that it was too large. -/
theorem Legible.sent (h : x.Legible N rack J) {root : List (String × Json)} (hroot : Reads N J root)
    (fallback : String) (hanswer : x.execution.answer J x.cmd = (J.dumps (.object root)).getD fallback) :
    N.parse (sentFrame J limitBridgeFrameBytes x.cmd x.execution) = some (.object root) ∨
      N.parse (sentFrame J limitBridgeFrameBytes x.cmd x.execution) = some (.object (x.tooLarge J)) := by
  by_cases hfits : (x.execution.answer J x.cmd).utf8ByteSize ≤ limitBridgeFrameBytes
  · rw [sentFrame_fits hfits, hanswer]
    exact .inl (hroot.parse fallback)
  · unfold sentFrame capResponseFrame
    rw [if_neg hfits]
    exact .inr ((h _ (List.mem_append_right _ (List.mem_singleton_self _))).parse _)

/-- What reads as a success is what the plugin answered. -/
theorem Legible.sent_ok (h : x.Legible N rack J) {root : List (String × Json)} (hroot : Reads N J root)
    (fallback : String) (hanswer : x.execution.answer J x.cmd = (J.dumps (.object root)).getD fallback) {read : Json}
    (hread : N.parse (sentFrame J limitBridgeFrameBytes x.cmd x.execution) = some read)
    (hok : jbool read "ok" false = true) : read = .object root := by
  rcases h.sent hroot fallback hanswer with hsent | hsent
  · rw [hread] at hsent
    exact Option.some.inj hsent
  · rw [hread] at hsent
    rw [Option.some.inj hsent, Executed.tooLarge, not_ok_resError] at hok
    cases hok

/-- What an execution comes to: a refusal, a replay, or what the handler comes to. -/
theorem execution_cases {t : ExecutionReadings}
    (hexecuted : x.site.host.execute rack J t x.readings x.cmd = (x.execution, x.left)) :
    x.execution = .mismatched ((J.dumps (.object x.reused)).getD (resInternalError x.cmd.requestId false)) ∨
      (∃ frame, x.execution = .replayed frame) ∨
      ∃ fingerprint, x.execution = (runHandler J (x.site.host.answers rack J x.readings x.cmd) t.recordMs x.cmd
        fingerprint x.site.host.opCache).1 := by
  have h := congrArg Prod.fst hexecuted
  unfold Host.execute executeCommand at h
  dsimp only at h
  split at h
  · exact .inr (.inr ⟨_, h.symm⟩)
  split at h
  · exact .inl h.symm
  · exact .inr (.inl ⟨_, h.symm⟩)
  · exact .inr (.inr ⟨_, h.symm⟩)

theorem responses_patchFile (hmethod : x.cmd.method ∈ patchFileMethods) {outcome : PatchFileOutcome}
    (houtcome : (x.site.host.patchFile rack x.readings x.cmd.method x.cmd.payload).1 = .ok outcome) :
    x.responses rack J = patchFileResponses x.cmd outcome := by
  have hother : x.cmd.method ∉ ["txn.commit", "txn.undoLast"] ∧ x.cmd.method ≠ "patch.fingerprint" := by
    have hall : ∀ method ∈ patchFileMethods,
        method ∉ ["txn.commit", "txn.undoLast"] ∧ method ≠ "patch.fingerprint" := by decide
    exact hall _ hmethod
  unfold responses RackMcp.Call.responses
  rw [if_neg hother.2]
  refine (if_neg hother.1).trans ?_
  have hcall : (x.site.host.call rack J ⟨0, 0⟩ x.readings x.cmd).answers.patchFile
      (x.site.host.call rack J ⟨0, 0⟩ x.readings x.cmd).cmd.method = .ok outcome := houtcome
  rw [hcall]
  rfl

/-- A patch file operation that was not replayed and reads as a success ran and came to one. -/
theorem Legible.patchFile_ok (h : x.Legible N rack J) {t : ExecutionReadings}
    (hexecuted : x.site.host.execute rack J t x.readings x.cmd = (x.execution, x.left))
    (hmethod : x.cmd.method ∈ patchFileMethods) (hnew : ∀ frame, x.execution ≠ .replayed frame) {root : Json}
    (hroot : N.parse (sentFrame J limitBridgeFrameBytes x.cmd x.execution) = some root)
    (hok : jbool root "ok" false = true) :
    x.execution.handlerRan = true ∧ ∃ outcome,
      (x.site.host.patchFile rack x.readings x.cmd.method x.cmd.payload).1 = .ok outcome ∧
        outcome.errorCode = none := by
  rcases execution_cases hexecuted with hmismatched | ⟨frame, hreplayed⟩ | ⟨fingerprint, hran⟩
  · have hread := h.sent_ok (h.of_mismatched hmismatched) (resInternalError x.cmd.requestId false)
      (by rw [hmismatched]; rfl) hroot hok
    rw [hread, Executed.reused, not_ok_resError] at hok
    cases hok
  · exact absurd hreplayed (hnew frame)
  have hdispatch := @dispatch_patchFile J x.cmd (x.site.host.answers rack J x.readings x.cmd) hmethod
  change _ = (x.site.host.patchFile rack x.readings x.cmd.method x.cmd.payload).1.map _ at hdispatch
  rcases houtcome : (x.site.host.patchFile rack x.readings x.cmd.method x.cmd.payload).1 with e | outcome
  · rw [houtcome] at hdispatch
    rw [runHandler_threw hdispatch] at hran
    have hread := h.sent_ok (h.of_threw hran) (resInternalError x.cmd.requestId x.cmd.mutating)
      (by rw [hran, answer_threw]; rfl) hroot hok
    rw [hread, Executed.barrier, not_ok_resError] at hok
    cases hok
  rw [houtcome] at hdispatch
  rcases hcode : outcome.errorCode with _ | code
  · refine ⟨?_, outcome, rfl, hcode⟩
    rw [hran]
    unfold runHandler
    rw [hdispatch]
    dsimp only [Except.map]
    split <;> rfl
  · have hcacheable : outcome.errorCode.isNone = false := by
      rw [hcode]
      rfl
    rw [runHandler_forgotten hdispatch hcacheable] at hran
    have hresponse : resError x.cmd.requestId code outcome.errorMessage false (code == .internal) ∈
        x.responses rack J := by
      rw [responses_patchFile hmethod houtcome]
      unfold patchFileResponses
      rw [hcode]
      exact List.mem_singleton_self _
    have hframe : patchFileOutcomeToFrame J x.cmd outcome = buildResError J x.cmd.requestId code outcome.errorMessage
        false (code == .internal) := by
      unfold patchFileOutcomeToFrame
      rw [hcode]
    have hread := h.sent_ok (h.of_ran hran _ hresponse) (resInternalError x.cmd.requestId
      (code == .internal)) (by rw [hran]; exact hframe) hroot hok
    rw [hread, not_ok_resError] at hok
    cases hok

end Executed

end RackMcp.Server
