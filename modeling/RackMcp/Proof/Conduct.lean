import RackMcp.Proof.ServerStep

/-!
# How a tool call behaves

Every tool changes the shared state by `Step`s only and sends only `Sanctioned` requests, whatever the other tool
calls do in between. A task is `Calmly` run when it sends no destructive request, and it `Ends` when the
destructive request it sends, if any, is its last and its outcome is known unless the task fails with an error
that says so. It `Concludes` when an error that does not say so also means that the request did not succeed.
-/

namespace RackMcp.Server

open Gen Cooperative

/-! ### The discipline of the tool calls -/

/-- The exchanges are kept, tool call `i` has made no new one, and it is not this step that starts it. -/
structure Untouched (i : ℕ) (s s' : Shared) : Prop where
  kept : Kept s.exchanges s'.exchanges
  quiet : ∀ n e', s'.exchanges[n]? = some e' → e'.caller = i → n < s.exchanges.length
  unstarted : s.tools.length ≤ i → s'.tools.length ≤ i

theorem Untouched.refl (i : ℕ) (s : Shared) : Untouched i s s :=
  ⟨.refl _, fun _ _ he _ => (List.getElem?_eq_some_iff.mp he).1, id⟩

theorem Untouched.trans {i : ℕ} {s s' s'' : Shared} (h : Untouched i s s') (h' : Untouched i s' s'') :
    Untouched i s s'' := by
  refine ⟨h.kept.trans h'.kept, fun n e'' he'' hcaller => ?_, fun hle => h'.unstarted (h.unstarted hle)⟩
  have hlt := h'.quiet n e'' he'' hcaller
  obtain ⟨e, he, hext⟩ := h'.kept n _ (List.getElem?_eq_getElem hlt)
  rw [he''] at he
  obtain rfl := Option.some.inj he
  exact h.quiet n _ (List.getElem?_eq_getElem hlt) (hext.caller.symm.trans hcaller)

theorem untouched_post {i j : ℕ} (hne : j ≠ i) (call : Call) (s : Shared) :
    Untouched j s (bridgeComm.post i call s) := by
  refine ⟨kept_append _ _, fun n e' he' hcaller => ?_, id⟩
  by_contra hge
  rw [show (bridgeComm.post i call s).exchanges = s.exchanges ++ [{ caller := i, call, selected := s.selected }]
    from rfl, List.getElem?_append_right (by omega)] at he'
  have hmem := List.mem_singleton.mp (List.mem_of_getElem? he')
  rw [hmem] at hcaller
  exact hne hcaller.symm

/-- No call is made and no tool called. -/
theorem untouched_of_counts {i : ℕ} {s s' : Shared} (hkept : Kept s.exchanges s'.exchanges)
    (hcounts : s'.counts = s.counts) : Untouched i s s' := by
  obtain ⟨hexchanges, htools⟩ := Prod.mk.injEq .. ▸ hcounts
  exact ⟨hkept, fun _ _ he' _ => hexchanges ▸ (List.getElem?_eq_some_iff.mp he').1, fun hle => htools ▸ hle⟩

/-- No response comes. -/
def Unanswered (s s' : Shared) : Prop := ∀ n frame, s'.responseAt n = some frame → s.responseAt n = some frame

theorem unanswered_post (i : ℕ) (call : Call) (s : Shared) : Unanswered s (bridgeComm.post i call s) := by
  intro n frame h
  have h : (s.exchanges ++ [{ caller := i, call, selected := s.selected }])[n]?.bind (·.response) = some frame := h
  rcases Nat.lt_or_ge n s.exchanges.length with hn | hn
  · rwa [List.getElem?_append_left hn] at h
  · rw [List.getElem?_append_right hn] at h
    obtain ⟨e, he, hresponse⟩ := Option.bind_eq_some_iff.mp h
    rw [List.mem_singleton.mp (List.mem_of_getElem? he)] at hresponse
    cases hresponse

theorem responseAt_eq (s : Shared) (n : ℕ) : s.responseAt n = (s.exchanges.map (·.response))[n]?.join := by
  unfold Shared.responseAt
  rw [List.getElem?_map]
  rcases s.exchanges[n]? with _ | e <;> rfl

theorem unanswered_of_traffic {s s' : Shared} (htraffic : s'.traffic = s.traffic) : Unanswered s s' := by
  intro n frame h
  have hresponses : s'.exchanges.map (·.response) = s.exchanges.map (·.response) := congrArg Prod.fst htraffic
  rwa [responseAt_eq, hresponses, ← responseAt_eq] at h

theorem counts_of_traffic {s s' : Shared} (htraffic : s'.traffic = s.traffic) : s'.counts = s.counts := by
  obtain ⟨hresponses, htools⟩ := Prod.mk.injEq .. ▸ htraffic
  have hlength : s'.exchanges.length = s.exchanges.length := by simpa using congrArg List.length hresponses
  exact Prod.ext hlength htools

variable (N : Node)

/-- What every tool call keeps to and relies on. -/
def conduct : Discipline bridgeComm where
  Inv _ := True
  Grows := Grows N
  Works := Unanswered
  Untouched := Untouched
  Allowed := Allowed N
  grows_refl _ := .refl
  grows_trans := .trans
  works_refl _ _ _ h := h
  works_trans h h' n frame hframe := h n frame (h' n frame hframe)
  untouched_refl := .refl
  untouched_trans := .trans
  post_ok _ hallowed :=
    ⟨trivial, (Step.link (.post _ _ _ hallowed)).grows, unanswered_post _ _ _, fun _ hne => untouched_post hne _ _⟩

/-- Time passes for tool call `i`, in which it sends no destructive request. -/
structure Later (i : ℕ) (s s' : Shared) : Prop where
  grows : Grows N s s'
  calm : ∀ e' ∈ s'.exchanges, e'.caller = i → e'.Destructive → ∃ e ∈ s.exchanges, e.Extends e'

variable {N} {i : ℕ} {s s' s'' : Shared}

theorem Later.refl (i : ℕ) (s : Shared) : Later N i s s := ⟨.refl, fun e' he' _ _ => ⟨e', he', .refl e'⟩⟩

theorem Later.trans (h : Later N i s s') (h' : Later N i s' s'') : Later N i s s'' := by
  refine ⟨h.grows.trans h'.grows, fun e'' he'' hcaller hdestructive => ?_⟩
  obtain ⟨e', he', hext'⟩ := h'.calm e'' he'' hcaller hdestructive
  obtain ⟨e, he, hext⟩ :=
    h.calm e' he' (hext'.caller.symm.trans hcaller) (hext'.destructive.mp hdestructive)
  exact ⟨e, he, hext.trans hext'⟩

theorem later_of_untouched (hgrows : Grows N s s') (h : Untouched i s s') : Later N i s s' := by
  refine ⟨hgrows, fun e' he' hcaller _ => ?_⟩
  obtain ⟨n, hn⟩ := List.getElem?_of_mem he'
  have hlt := h.quiet n e' hn hcaller
  obtain ⟨e, he, hext⟩ := h.kept n _ (List.getElem?_eq_getElem hlt)
  rw [hn] at he
  obtain rfl := Option.some.inj he
  exact ⟨_, List.getElem_mem hlt, hext⟩

theorem later_of_rely (h : (conduct N).Rely i s s') : Later N i s s' := later_of_untouched h.2.1 h.2.2

theorem own_step (h : Step N s s') (htraffic : s'.traffic = s.traffic) :
    (conduct N).Step i s s' ∧ Later N i s s' := by
  have huntouched : ∀ j, Untouched j s s' := fun _ =>
    untouched_of_counts h.persists.exchanges (counts_of_traffic htraffic)
  exact ⟨⟨trivial, h.grows, unanswered_of_traffic htraffic, fun j _ => huntouched j⟩,
    later_of_untouched h.grows (huntouched i)⟩

theorem Later.idle (h : Later N i s s') (hidle : s.Idle i) : s'.Idle i := by
  intro e' he' hcaller hdestructive
  obtain ⟨e, he, hext⟩ := h.calm e' he' hcaller hdestructive
  exact hidle e he (hext.caller.symm.trans hcaller) (hext.destructive.mp hdestructive)

theorem Later.settled (h : Later N i s s') (hsettled : s.Settled i) : s'.Settled i := by
  intro e' he' hcaller hdestructive
  obtain ⟨e, he, hext⟩ := h.calm e' he' hcaller hdestructive
  obtain ⟨reply, hreply, hdefinite⟩ :=
    hsettled e he (hext.caller.symm.trans hcaller) (hext.destructive.mp hdestructive)
  exact ⟨reply, hext.reply reply hreply, hdefinite⟩

theorem settled_of_idle (h : s.Idle i) : s.Settled i := fun e he hcaller hdestructive =>
  absurd hdestructive (h e he hcaller)

/-- Tool call `i` knows that its destructive requests did not succeed. -/
def Shared.Rejected (s : Shared) (i : ℕ) : Prop :=
  ∀ e ∈ s.exchanges, e.caller = i → e.Destructive →
    ∃ reply, e.reply = some reply ∧ reply.Definite ∧ ∀ v, reply ≠ .payload v

theorem rejected_of_idle (h : s.Idle i) : s.Rejected i := fun e he hcaller hdestructive =>
  absurd hdestructive (h e he hcaller)

theorem Shared.Rejected.settled (h : s.Rejected i) : s.Settled i := fun e he hcaller hdestructive =>
  let ⟨reply, hreply, hdefinite, _⟩ := h e he hcaller hdestructive
  ⟨reply, hreply, hdefinite⟩

theorem Later.rejected (h : Later N i s s') (hrejected : s.Rejected i) : s'.Rejected i := by
  intro e' he' hcaller hdestructive
  obtain ⟨e, he, hext⟩ := h.calm e' he' hcaller hdestructive
  obtain ⟨reply, hreply, hknown⟩ :=
    hrejected e he (hext.caller.symm.trans hcaller) (hext.destructive.mp hdestructive)
  exact ⟨reply, hext.reply reply hreply, hknown⟩

theorem Grows.answered (h : Grows N s s') {j : ℕ} {method : String} {payload v : Json}
    (hanswered : s.Answered j method payload v) : s'.Answered j method payload v := by
  obtain ⟨e, he, hcaller, hreply, r, hcall, hr⟩ := hanswered
  obtain ⟨n, hn⟩ := List.getElem?_of_mem he
  obtain ⟨e', he', hext⟩ := h.persists.exchanges n e hn
  exact ⟨e', List.mem_of_getElem? he', hext.caller.trans hcaller, hext.reply _ hreply, r, hext.call.trans hcall, hr⟩

theorem Grows.mark (h : Grows N s s') {mark : Mark} (hmark : mark ∈ s.trail) : mark ∈ s'.trail :=
  h.persists.trail.subset hmark

theorem Grows.tool (h : Grows N s s') {j : ℕ} {tool : ToolCall} (htool : s.tools[j]? = some tool) :
    s'.tools[j]? = some tool := by
  obtain ⟨rest, hrest⟩ := h.persists.tools
  rw [← hrest, List.getElem?_append_left (List.getElem?_eq_some_iff.mp htool).1]
  exact htool

/-! ### Calm tasks -/

section rules
variable {α β : Type} {Q : α → Shared → Prop} {R : β → Shared → Prop} {t : Async α}

variable (N) in
/-- From `s`, tool call `i` runs the task without a destructive request, to a result with `Q`. -/
def Calmly (i : ℕ) (Q : α → Shared → Prop) (t : Async α) (s : Shared) : Prop :=
  Safe (conduct N) i (fun a s' => Later N i s s' ∧ Q a s') (fun _ s' => Later N i s s') t s

theorem Calmly.mono {R : α → Shared → Prop} (h : Calmly N i Q t s) (hQ : ∀ a s', Later N i s s' → Q a s' → R a s') :
    Calmly N i R t s :=
  Safe.mono (fun a s' ha => ⟨ha.1, hQ a s' ha.1 ha.2⟩) (fun _ _ he => he) h

theorem Calmly.bind {f : α → Async β} (h : Calmly N i Q t s)
    (hf : ∀ a s', Later N i s s' → Q a s' → Calmly N i R (f a) s') : Calmly N i R (t >>= f) s := by
  refine safe_bind.mpr (Safe.mono (fun a s' ha => ?_) (fun _ _ he => he) h)
  exact Safe.mono (fun b s'' hb => ⟨ha.1.trans hb.1, hb.2⟩) (fun _ s'' he => ha.1.trans he) (hf a s' ha.1 ha.2)

theorem calmly_pure {a : α} (h : Q a s) : Calmly N i Q (pure a) s := ⟨.refl i s, h⟩

theorem calmly_fail (e : Thrown) : Calmly N i Q (Task.fail e) s := Later.refl i s

theorem calmly_throwTool (code : ErrorCode) (message : String) (retrySafe : Bool) :
    Calmly N i Q (throwTool code message retrySafe) s := calmly_fail _

theorem calmly_ofExcept {x : Except Thrown α} (h : ∀ a, x = .ok a → Q a s) :
    Calmly N i Q (Task.ofExcept x) s := by
  rcases x with e | a
  · exact calmly_fail e
  · exact calmly_pure (h a rfl)

theorem calmly_read {Q : Shared → Shared → Prop} (h : Q s s) : Calmly N i Q Task.read s :=
  ⟨.refl trivial, .refl i s, h⟩

theorem calmly_modify {Q : Unit → Shared → Prop} {f : Shared → Shared} (h : Step N s (f s))
    (htraffic : (f s).traffic = s.traffic) (hQ : Q () (f s)) :
    Calmly N i Q (Task.modify f) s :=
  ⟨(own_step h htraffic).1, (own_step h htraffic).2, hQ⟩

theorem calmly_record {Q : Unit → Shared → Prop} {f : ℕ → Shared → Shared} (h : Step N s (f i s))
    (htraffic : (f i s).traffic = s.traffic) (hQ : Q () (f i s)) :
    Calmly N i Q (Task.record f) s :=
  ⟨(own_step h htraffic).1, (own_step h htraffic).2, hQ⟩

theorem calmly_update {f : Shared → α × Shared} (h : Step N s (f s).2)
    (htraffic : (f s).2.traffic = s.traffic) (hQ : Q (f s).1 (f s).2) :
    Calmly N i Q (Task.update f) s :=
  ⟨(own_step h htraffic).1, (own_step h htraffic).2, hQ⟩

theorem calmly_waitFor {Q : Unit → Shared → Prop} {ready : Shared → Bool} (h : ∀ s', Later N i s s' → Q () s') :
    Calmly N i Q (Task.waitFor ready) s :=
  fun _ hrely _ => ⟨later_of_rely hrely, h _ (later_of_rely hrely)⟩

theorem calmly_pause {Q : Unit → Shared → Prop} (h : ∀ s', Later N i s s' → Q () s') :
    Calmly N i Q Task.pause s := calmly_waitFor h

theorem calmly_stuck (e : Thrown) : Calmly N i Q (Task.stuck e) s := fun _ _ hready => by cases hready

theorem calmly_attempt (h : Calmly N i Q t s) :
    Calmly N i (fun x s' => ∀ a, x = .ok a → Q a s') t.attempt s := by
  refine safe_attempt.mpr (Safe.mono (fun a s' ha => ⟨ha.1, fun b hb => ?_⟩) (fun _ s' he => ⟨he, ?_⟩) h)
  · obtain rfl := Except.ok.inj hb
    exact ha.2
  · intro a ha
    cases ha

/-- What is still true later. -/
def Lasting (Q : α → Shared → Prop) : Prop := ∀ a s s', Grows N s s' → Q a s → Q a s'

theorem lasting_trivial : Lasting (N := N) fun (_ : α) _ => True := fun _ _ _ _ _ => trivial

theorem calmly_await (h : Calmly N i Q t s) (hQ : Lasting (N := N) Q) : Calmly N i Q t.await s := by
  refine (calmly_attempt h).bind fun x s' _ hx => ?_
  refine (calmly_pause (Q := fun _ s' => ∀ a, x = .ok a → Q a s') fun s'' hlater a ha =>
    hQ a _ _ hlater.grows (hx a ha)).bind fun _ s'' _ hx => ?_
  exact calmly_ofExcept hx

end rules

/-- What a tool call does, if nothing is asked of it. -/
abbrev Quiet (N : Node) (i : ℕ) {α : Type} (t : Async α) : Prop := ∀ s, Calmly N i (fun _ _ => True) t s

section quiet
variable {α β : Type} {t : Async α}

theorem Quiet.await (h : Quiet N i t) : Quiet N i t.await := fun s => calmly_await (h s) lasting_trivial

theorem Quiet.attempt (h : Quiet N i t) : Quiet N i t.attempt := fun s => (calmly_attempt (h s)).mono fun _ _ _ _ => trivial

theorem quiet_pure (a : α) : Quiet N i (pure a) := fun _ => calmly_pure trivial

theorem quiet_ofExcept (x : Except Thrown α) : Quiet N i (Task.ofExcept x) := fun _ => calmly_ofExcept fun _ _ => trivial

theorem quiet_modify {f : Shared → Shared} (h : ∀ s, Step N s (f s))
    (htraffic : ∀ s, (f s).traffic = s.traffic) : Quiet N i (Task.modify f) :=
  fun s => calmly_modify (h s) (htraffic s) trivial

theorem quiet_draw (source : ℕ → α) : Quiet N i (draw source) := fun s => calmly_update (.decision (.draws s)) rfl trivial

end quiet

/-- A drawn value is one of the source. -/
theorem calmly_draw {α : Type} (source : ℕ → α) : Calmly N i (fun a _ => ∃ d, a = source d) (draw source) s :=
  calmly_update (.decision (.draws s)) rfl ⟨s.draws, rfl⟩

/-! ### Calls -/

theorem find?_last {l : List Exchange} {p : Exchange → Bool} {n : ℕ} {e : Exchange} (he : l[n]? = some e)
    (hp : p e = true) (hlast : ∀ m e', n < m → l[m]? = some e' → p e' = false) :
    l.reverse.find? p = some e := by
  have hlt : n < l.length := (List.getElem?_eq_some_iff.mp he).1
  have hsplit : l = l.take n ++ e :: l.drop (n + 1) := by
    have hdrop : l.drop n = e :: l.drop (n + 1) := by
      rw [List.drop_eq_getElem_cons hlt]
      rw [(List.getElem?_eq_some_iff.mp he).2]
    rw [← hdrop, List.take_append_drop]
  have hnone : (l.drop (n + 1)).reverse.find? p = none := by
    rw [List.find?_eq_none]
    intro e' he'
    obtain ⟨m, hm⟩ := List.getElem?_of_mem (List.mem_reverse.mp he')
    rw [List.getElem?_drop] at hm
    simp [hlast (n + 1 + m) e' (by omega) hm]
  rw [hsplit, List.reverse_append, List.reverse_cons, List.append_assoc, List.find?_append, hnone]
  simp [hp]

/-- The reply a tool call gets is to the call it made last. -/
theorem answer_of_rely {call : Call} (hrely : (conduct N).Rely i (bridgeComm.post i call s) s') {reply : Reply}
    (hanswer : bridgeComm.answer i s' = some reply) :
    ∃ e, s'.exchanges[s.exchanges.length]? = some e ∧ e.caller = i ∧ e.call = call ∧ e.reply = some reply := by
  obtain ⟨-, hgrows, huntouched⟩ := hrely
  have hposted : (bridgeComm.post i call s).exchanges[s.exchanges.length]? =
      some { caller := i, call, selected := s.selected } := List.getElem?_concat_length ..
  have hlength : (bridgeComm.post i call s).exchanges.length = s.exchanges.length + 1 := List.length_append
  obtain ⟨e, he, hext⟩ := hgrows.persists.exchanges _ _ hposted
  refine ⟨e, he, hext.caller, hext.call, ?_⟩
  have hlast : s'.exchanges.reverse.find? (·.caller == i) = some e := by
    refine find?_last he (by simpa using hext.caller) fun m e' hm he' => ?_
    by_contra hcaller
    have hlt := huntouched.quiet m e' he' (by simpa using hcaller)
    omega
  have hreply : bridgeComm.answer i s' = e.reply := by
    show (s'.exchanges.reverse.find? (·.caller == i)).bind (·.reply) = _
    rw [hlast]
    rfl
  rw [← hreply, hanswer]

/-- A reply of this kind to such a call of tool call `i`. -/
def Replied (i : ℕ) (call : Call) (reply : Reply) (s : Shared) : Prop :=
  ∃ e ∈ s.exchanges, e.caller = i ∧ e.call = call ∧ e.reply = some reply

theorem lasting_replied (call : Call) : Lasting (N := N) fun reply s => Replied i call reply s := by
  intro reply s s' hgrows ⟨e, he, hcaller, hcall, hreply⟩
  obtain ⟨n, hn⟩ := List.getElem?_of_mem he
  obtain ⟨e', he', hext⟩ := hgrows.persists.exchanges n e hn
  exact ⟨e', List.mem_of_getElem? he', hext.caller.trans hcaller, hext.call.trans hcall, hext.reply _ hreply⟩

theorem later_post {call : Call} (hallowed : Allowed N i call s)
    (hcalm : ∀ r, call = .request r → r.method ∉ destructiveMethods) :
    Later N i s (bridgeComm.post i call s) := by
  refine ⟨(Step.link (.post _ _ _ hallowed)).grows, fun e' he' _ hdestructive => ?_⟩
  rcases List.mem_append.mp he' with he' | he'
  · exact ⟨e', he', .refl e'⟩
  · rw [List.mem_singleton.mp he'] at hdestructive
    obtain ⟨r, hcall, hmethod⟩ := hdestructive
    exact absurd hmethod (hcalm r hcall)

theorem calmly_ask {call : Call} (hallowed : Allowed N i call s)
    (hcalm : ∀ r, call = .request r → r.method ∉ destructiveMethods) :
    Calmly N i (fun reply s' => Replied i call reply s') (Task.ask call) s := by
  refine ⟨hallowed, fun s' reply hrely hanswer => ?_⟩
  obtain ⟨e, he, hcaller, hcall, hreply⟩ := answer_of_rely hrely hanswer
  exact ⟨(later_post hallowed hcalm).trans (later_of_rely hrely),
    e, List.mem_of_getElem? he, hcaller, hcall, hreply⟩

/-! ### Connecting -/

theorem response_lose (c : ℕ) (reason : String) (e : Exchange) : (e.lose c reason).response = e.response := by
  unfold Exchange.lose
  split <;> rfl

theorem traffic_teardown (c : ℕ) (reason : String) (s : Shared) : (s.teardown c reason).traffic = s.traffic := by
  unfold Shared.teardown
  split
  · refine congrArg (·, s.tools.length) ((List.map_map ..).trans ?_)
    exact List.map_congr_left fun e _ => response_lose c reason e
  · rfl

theorem quiet_teardown (c : ℕ) (reason : String) : Quiet N i (Task.modify (Shared.teardown c reason)) :=
  quiet_modify (fun s => .link (.teardown s c reason)) (traffic_teardown c reason)

theorem calmly_handshakeFailed {α : Type} {Q : α → Shared → Prop} (c : ℕ) (reply : Reply) :
    Calmly N i Q (handshakeFailed c reply : Async α) s := by
  rcases reply with w | _ | e | v | e
  case refused => exact (quiet_teardown c _ s).bind fun _ _ _ _ => calmly_fail _
  all_goals exact calmly_fail _

theorem allowed_handshake {call : Call} (h : ∀ r, call ≠ .request r) : Allowed N i call s :=
  fun r hr => absurd hr (h r)

theorem calmly_bridgeConnect (c : ℕ) :
    Calmly N i (fun w s' => Replied i (.connect c) (.connected w) s') (bridgeConnect c) s := by
  unfold bridgeConnect
  refine (calmly_ask (allowed_handshake fun _ h => by cases h) fun _ h => by cases h).bind fun reply s' _ hreply => ?_
  rcases reply with w | _ | e | v | e
  · dsimp only
    split
    · exact calmly_pure hreply
    · exact (quiet_teardown c _ s').bind fun _ _ _ _ => calmly_fail _
  all_goals exact calmly_handshakeFailed c _

theorem quiet_bridgeAuthenticate (c : ℕ) : Quiet N i (bridgeAuthenticate c) := by
  intro s
  unfold bridgeAuthenticate
  refine (calmly_ask (allowed_handshake fun _ h => by cases h) fun _ h => by cases h).bind fun reply s' _ _ => ?_
  rcases reply with w | _ | e | v | e
  case authenticated => exact calmly_pure trivial
  all_goals exact calmly_handshakeFailed c _

theorem traffic_disconnect (s : Shared) : s.disconnect.traffic = s.traffic := by
  unfold Shared.disconnect
  split
  · rfl
  · next c _ => exact traffic_teardown c "client closed" s.unleased

theorem quiet_connectTo (instanceId : String) : Quiet N i (connectTo N instanceId) := by
  intro s
  unfold connectTo
  refine (calmly_read (Q := fun _ _ => True) trivial).bind fun s₀ s _ _ => ?_
  split
  · exact calmly_pure trivial
  · refine (quiet_draw N.instances s).bind fun instances s _ _ => ?_
    split
    · exact calmly_fail _
    · next found _ =>
      split
      · exact calmly_fail _
      · refine (calmly_modify (Q := fun _ _ => True) (f := fun s => { s.disconnect with selected := none })
          (.link (.deselect s)) (traffic_disconnect s) trivial).bind fun _ s _ _ => ?_
        refine (quiet_draw N.pairingSecret s).bind fun unreadable s _ _ => ?_
        split
        · exact calmly_fail _
        · refine (calmly_update (Q := fun _ _ => True) (.link (.newClient s found.port)) rfl trivial).bind
            fun c s _ _ => ?_
          refine (calmly_await (calmly_bridgeConnect c) ?_).bind fun w s _ hwelcome => ?_
          · exact fun w s s' hgrows h => lasting_replied (.connect c) _ s s' hgrows h
          refine (calmly_await ((quiet_bridgeAuthenticate c s).mono (R := fun _ s =>
            Replied i (.connect c) (.connected w) s) fun _ s' hlater _ => ?_) ?_).bind fun _ s _ hwelcome => ?_
          · exact lasting_replied _ _ _ _ hlater.grows hwelcome
          · exact fun _ s s' hgrows h => lasting_replied (.connect c) _ s s' hgrows h
          obtain ⟨e, he, -, hcall, hreply⟩ := hwelcome
          unfold install
          refine (calmly_modify (Q := fun _ _ => True) (.link (.install s c found w ⟨e, he, hcall, hreply⟩)) rfl
            trivial).bind fun _ s _ _ => ?_
          exact calmly_pure trivial

theorem quiet_runExclusive {α : Type} {fn : Async α} (h : Quiet N i fn) : Quiet N i (runExclusive fn) := by
  intro s
  unfold runExclusive
  refine (calmly_waitFor (Q := fun _ _ => True) fun _ _ => trivial).bind fun _ s _ _ => ?_
  refine (calmly_modify (Q := fun _ _ => True) (.link (.connecting s true)) rfl trivial).bind fun _ s _ _ => ?_
  refine (h.attempt s).bind fun result s _ _ => ?_
  refine (calmly_modify (Q := fun _ _ => True) (.link (.connecting s false)) rfl trivial).bind fun _ s _ _ => ?_
  exact calmly_ofExcept fun _ _ => trivial

/-! ### Requests -/

theorem calmly_clientRequest {c : ℕ} {method : String} {payload : Json} {operationId : Option String}
    {deadlineMs : Int} (hclient : s.client = some c) (hmethod : method ∉ destructiveMethods)
    (hs : ∀ s' r, Later N i s s' → r.method = method → r.payload = payload → r.operationId = operationId →
      Sanctioned N s' i r) :
    Calmly N i (fun v s' => s'.Answered i method payload v)
      (clientRequest N c method payload operationId deadlineMs) s := by
  unfold clientRequest
  refine (calmly_read (Q := fun _ s' => s'.client = some c) hclient).bind fun s₀ s₁ hlater₁ hclient => ?_
  split
  · exact calmly_fail _
  · refine (calmly_update (Q := fun _ s' => s'.client = some c) (.decision (.draws s₁)) rfl hclient).bind
      fun id s₂ hlater₂ hclient => ?_
    dsimp only
    split
    · exact calmly_fail _
    · refine (calmly_ask ?_ ?_).bind fun reply s₃ _ hreply => ?_
      · intro r hr
        obtain rfl := Call.request.inj hr
        exact ⟨hclient, hs _ _ (hlater₁.trans hlater₂) rfl rfl rfl⟩
      · intro r hr
        obtain rfl := Call.request.inj hr
        exact hmethod
      · refine calmly_ofExcept fun v hv => ?_
        obtain ⟨e, he, hcaller, hcall, hreply⟩ := hreply
        rcases reply with w | _ | e' | v' | e'
        case payload =>
          obtain rfl := Except.ok.inj hv
          exact ⟨e, he, hcaller, hreply, _, hcall, rfl, rfl⟩
        all_goals cases hv

/-- Whatever else happens, a request of this shape is sanctioned. -/
abbrev SanctionedFrom (N : Node) (i : ℕ) (method : String) (payload : Json) (operationId : Option String)
    (s : Shared) : Prop :=
  ∀ s' r, Later N i s s' → r.method = method → r.payload = payload → r.operationId = operationId →
    Sanctioned N s' i r

theorem SanctionedFrom.later {method : String} {payload : Json} {operationId : Option String}
    (h : SanctionedFrom N i method payload operationId s) (hlater : Later N i s s') :
    SanctionedFrom N i method payload operationId s' := fun s'' r hlater' => h s'' r (hlater.trans hlater')

theorem calmly_requestVia {ensure : Async SelectedInstance} (hensure : Quiet N i ensure) {method : String}
    {payload : Json} {operationId : Option String} {deadlineMs : Int} (hmethod : method ∉ destructiveMethods)
    (hs : SanctionedFrom N i method payload operationId s) :
    Calmly N i (fun v s' => s'.Answered i method payload v)
      (requestVia N ensure method payload operationId deadlineMs) s := by
  unfold requestVia
  refine (hensure.await s).bind fun _ s₁ hlater₁ _ => ?_
  refine (calmly_read (Q := fun a s' => a = s') rfl).bind fun s₂ s₂' hlater₂ heq => ?_
  obtain rfl := heq
  split
  · exact calmly_fail _
  · next c hclient => exact calmly_clientRequest hclient hmethod (hs.later (hlater₁.trans hlater₂))

/-- A request that mutates nothing is sanctioned. -/
theorem sanctioned_reads {method : String} (hmethod : method ∉ mutatingMethods) (payload : Json) :
    SanctionedFrom N i method payload none s :=
  fun _ _ _ hr _ hid => .reads (hr ▸ hmethod) hid

theorem calm_of_reads {method : String} (hmethod : method ∉ mutatingMethods) : method ∉ destructiveMethods := by
  have hall : ∀ m ∈ destructiveMethods, m ∈ mutatingMethods := by decide
  exact fun h => hmethod (hall _ h)

theorem quiet_waitForReady {statusGet : Async Json} (h : Quiet N i statusGet) (deadline : Int) (polls : ℕ) :
    Quiet N i (waitForReady N statusGet deadline polls) := by
  induction polls with
  | zero => exact fun s => calmly_stuck _
  | succ polls ih =>
    intro s
    unfold waitForReady
    refine (h.await.attempt s).bind fun polled s _ _ => ?_
    split
    · exact calmly_pure trivial
    · refine (quiet_draw N.now s).bind fun now s _ _ => ?_
      split
      · exact calmly_fail _
      · exact (calmly_pause (Q := fun _ _ => True) fun _ _ => trivial).bind fun _ s _ _ => ih s

theorem quiet_selectVia {ensure : Async SelectedInstance} (hensure : Quiet N i ensure) (instanceId : String) :
    Quiet N i (selectVia N ensure instanceId) := by
  intro s
  unfold selectVia
  refine ((quiet_runExclusive (quiet_connectTo instanceId)).await s).bind fun selected s _ _ => ?_
  refine (quiet_draw N.now s).bind fun now s _ _ => ?_
  have hstatus : Quiet N i (requestVia N ensure "status.get" (.object []) none N.config.requestDeadlineMs) :=
    fun s => (calmly_requestVia hensure (by decide) (sanctioned_reads (by decide) _)).mono
      fun _ _ _ _ => trivial
  exact ((quiet_waitForReady hstatus _ _).await.attempt s).bind fun _ s _ _ => calmly_pure trivial

theorem quiet_ensureConnectedTo (depth : ℕ) : Quiet N i (ensureConnectedTo N depth) := by
  induction depth with
  | zero => exact fun s => calmly_stuck _
  | succ depth ih =>
    intro s
    unfold ensureConnectedTo ensureConnectedVia
    refine (calmly_read (Q := fun _ _ => True) trivial).bind fun s₀ s _ _ => ?_
    split
    · split
      · exact calmly_pure trivial
      · exact quiet_selectVia ih _ s
    · refine (quiet_draw N.instances s).bind fun instances s _ _ => ?_
      split
      · exact calmly_fail _
      · exact quiet_selectVia ih _ s
      · exact calmly_fail _

theorem quiet_ensureConnected : Quiet N i (ensureConnected N) := quiet_ensureConnectedTo _

/-- The spec of a request that destroys nothing: its payload, when it succeeds, is an answer to it. -/
theorem calmly_request {method : String} {payload : Json} {operationId : Option String} {deadlineMs : Int}
    (hmethod : method ∉ destructiveMethods) (hs : SanctionedFrom N i method payload operationId s) :
    Calmly N i (fun v s' => s'.Answered i method payload v)
      (request N method payload operationId deadlineMs).await s :=
  calmly_await (calmly_requestVia quiet_ensureConnected hmethod hs) fun _ _ _ hgrows h => hgrows.answered h

theorem calmly_reads {method : String} {payload : Json} (hmethod : method ∉ mutatingMethods) :
    Calmly N i (fun v s' => s'.Answered i method payload v) (request N method payload).await s :=
  calmly_request (calm_of_reads hmethod) (sanctioned_reads hmethod _)

theorem quiet_reads {method : String} (hmethod : method ∉ mutatingMethods) (payload : Json) :
    Quiet N i (request N method payload).await := fun _ => (calmly_reads hmethod).mono fun _ _ _ _ => trivial

theorem quiet_select (instanceId : String) : Quiet N i (select N instanceId) :=
  quiet_selectVia quiet_ensureConnected instanceId

/-! ### The lease -/

theorem quiet_setLease (f : Option String) : Quiet N i (Task.modify fun s => { s with leaseId := f }) :=
  fun s => calmly_modify (.link (.leaseId s f)) rfl trivial

theorem quiet_acquireLease : Quiet N i (acquireLease N) := by
  intro s
  unfold acquireLease
  refine (quiet_reads (by decide) _ s).bind fun res s _ _ => ?_
  exact (quiet_setLease _ s).bind fun _ s _ _ => calmly_pure trivial

theorem quiet_releaseLease : Quiet N i (releaseLease N) := by
  intro s
  unfold releaseLease
  refine (calmly_read (Q := fun _ _ => True) trivial).bind fun s₀ s _ _ => ?_
  split
  · exact calmly_pure trivial
  · refine (quiet_reads (by decide) _ s).bind fun _ s _ _ => ?_
    exact (quiet_setLease _ s).bind fun _ s _ _ => calmly_pure trivial

theorem quiet_ensureLease : Quiet N i (ensureLease N) := by
  intro s
  unfold ensureLease
  refine (calmly_read (Q := fun _ _ => True) trivial).bind fun s₀ s _ _ => ?_
  split
  · exact (quiet_acquireLease.await s).bind fun _ s _ _ => calmly_pure trivial
  · refine ((quiet_reads (by decide) _).attempt s).bind fun renewed s _ _ => ?_
    split
    · exact calmly_pure trivial
    · refine (quiet_setLease _ s).bind fun _ s _ _ => ?_
      exact (quiet_acquireLease.await s).bind fun _ s _ _ => calmly_pure trivial

/-! ### Confirmations -/

/-- Nothing is cached or forgotten. -/
abbrev SamePlans {α : Type} (s : Shared) : α → Shared → Prop := fun _ s' => s'.plans = s.plans

theorem calmly_dateNow_same : Calmly N i (SamePlans s) (dateNow N) s := calmly_update (.decision (.draws s)) rfl rfl

theorem calmly_rateLimiterAdmit (count : ℕ) : Calmly N i (SamePlans s) (rateLimiterAdmit N count) s := by
  unfold rateLimiterAdmit
  split
  · exact calmly_pure rfl
  · refine calmly_dateNow_same.bind fun now s₁ _ h₁ => ?_
    refine (calmly_modify (Q := SamePlans s₁) (.link (.hits s₁ _)) rfl rfl).bind fun _ s₂ _ h₂ => ?_
    refine (calmly_read (Q := fun _ => SamePlans s₂ ()) rfl).bind fun s₀ s₃ _ h₃ => ?_
    split
    · split
      · exact calmly_fail _
      · exact (quiet_draw N.now s₃).bind fun _ s _ _ => calmly_fail _
    · refine calmly_dateNow_same.bind fun at_ s₄ _ h₄ => ?_
      refine calmly_modify (.link (.hits s₄ _)) rfl ?_
      exact h₄.trans (h₃.trans (h₂.trans h₁))

/-- What `verifyToken` has checked. -/
structure Verified (N : Node) (token : String) (verified : Json × Int) : Prop where
  decoded : ∃ body, checkTag N token = .ok body ∧ N.decodeBody body = some verified.1
  live : expired verified.1 verified.2 = false

theorem calmly_verifyToken (token : String) :
    Calmly N i (fun verified s' => SamePlans s () s' ∧ Verified N token verified) (verifyToken N token) s := by
  unfold verifyToken
  refine (calmly_ofExcept (Q := fun body s' => SamePlans s () s' ∧ checkTag N token = .ok body)
    fun body h => ⟨rfl, h⟩).bind fun body s₁ _ hbody => ?_
  rcases hdecode : N.decodeBody body with _ | binding
  · exact calmly_fail _
  · refine calmly_dateNow_same.bind fun now s₂ _ h₂ => ?_
    split
    · exact calmly_fail _
    · next hlive => exact calmly_pure ⟨h₂.trans hbody.1, ⟨body, hbody.2, hdecode⟩, by simpa using hlive⟩

/-- The confirmation of a plan that needs one. -/
def Confirms (N : Node) (args : CommitArgs) (selected : SelectedInstance) (tokenAt : Option Int) : Prop :=
  ∃ token verified, args.confirmationToken = some token ∧ Verified N token verified ∧
    bindsCommit verified.1 args selected = true ∧ tokenAt = some verified.2

theorem calmly_checkConfirmation (args : CommitArgs) (selected : SelectedInstance) (cached : CachedPlan) :
    Calmly N i (fun tokenAt s' => SamePlans s () s' ∧
        (cached.confirmationRequired = true → Confirms N args selected tokenAt))
      (checkConfirmation N args selected cached) s := by
  unfold checkConfirmation
  split
  · next hnot => exact calmly_pure ⟨rfl, fun hrequired => absurd hrequired hnot⟩
  · split
    · exact calmly_fail _
    · exact calmly_fail _
    · next token _ htoken =>
      refine (calmly_verifyToken token).bind fun verified s₁ _ hverified => ?_
      split
      · next hbinds => exact calmly_pure ⟨hverified.1, fun _ => ⟨token, verified, htoken, hverified.2, hbinds, rfl⟩⟩
      · exact calmly_fail _

theorem calmly_pruneExpired :
    Calmly N i (fun now s' => ∀ hash p, s'.plans hash = some p → ¬ p.expiresAt < now) (pruneExpired N) s := by
  unfold pruneExpired
  refine (quiet_draw N.now s).bind fun now s _ _ => ?_
  refine (calmly_modify (Q := fun _ s' => ∀ hash p, s'.plans hash = some p → ¬ p.expiresAt < now)
    (.decision (.prune s now)) rfl ?_).bind fun _ s' _ h => calmly_pure h
  intro hash p hp
  have hp : (s.plans hash).filter (fun p => ¬ p.expiresAt < now) = some p := hp
  rw [Option.filter_eq_some_iff] at hp
  simpa using hp.2

theorem calmly_mintToken (binding : TokenBinding) :
    Calmly N i (fun token s' => .minted binding ∈ s'.trail ∧ token = tagged N (N.encodeBody binding.toJson))
      (mintToken N binding) s := by
  unfold mintToken
  exact (calmly_modify (Q := fun _ s' => .minted binding ∈ s'.trail) (.decision (.mint s binding)) rfl (by simp)).bind
    fun _ s' _ h => calmly_pure ⟨h, rfl⟩

/-- The token of a preview is one the process minted. -/
def TokenMinted (N : Node) (p : Previewed) (s : Shared) : Prop :=
  ∃ b, .minted b ∈ s.trail ∧ p.confirmationToken = tagged N (N.encodeBody b.toJson)

theorem lasting_tokenMinted : Lasting (N := N) (TokenMinted N) :=
  fun _ _ _ hgrows ⟨b, hb, htoken⟩ => ⟨b, hgrows.mark hb, htoken⟩

theorem calmly_cachePreview {answer payload : Json} (operations : List Json) {selected : SelectedInstance}
    (hanswered : s.Answered i "txn.preview" payload answer)
    (hscope : Json.get payload "scope" = some (scopeFor selected)) :
    Calmly N i (TokenMinted N) (cachePreview N answer operations selected) s := by
  unfold cachePreview
  refine (quiet_draw N.now s).bind fun now s₁ hlater _ => ?_
  dsimp only
  split
  · exact calmly_fail _
  · exact calmly_fail _
  · refine (calmly_modify (Q := fun _ _ => True) (.decision (.cache s₁ answer operations selected now
      ⟨i, payload, hlater.grows.answered hanswered, hscope⟩)) rfl trivial).bind fun _ s₂ _ _ => ?_
    exact (calmly_mintToken _).bind fun token s₃ _ htoken => calmly_pure ⟨_, htoken⟩

theorem calmly_preview (label : String) (operations : List Json) (selected : SelectedInstance)
    (expectedFingerprint : Option String) (expectedPatchEpoch : Option Int) :
    Calmly N i (TokenMinted N) (preview N label operations selected expectedFingerprint expectedPatchEpoch) s := by
  unfold preview
  refine calmly_pruneExpired.bind fun _ s₁ _ _ => ?_
  dsimp only
  split
  · exact calmly_fail _
  · refine (calmly_reads (by decide)).bind fun answer s₂ _ hanswered => ?_
    split
    · exact calmly_fail _
    · exact calmly_cachePreview operations hanswered rfl

/-! ### Load tokens -/

theorem quiet_mintLoadToken (selected : SelectedInstance) (kind : LoadKind) (path : Option String)
    (patchEpoch : Int) (fingerprint : String) :
    Quiet N i (mintLoadToken N selected kind path patchEpoch fingerprint) := by
  intro s
  unfold mintLoadToken
  refine (quiet_draw N.now s).bind fun now s _ _ => ?_
  exact (calmly_update (Q := fun _ _ => True) (.decision (.mintLoad s now _)) rfl trivial).bind
    fun _ s _ _ => calmly_pure trivial

theorem calmly_lookupLoadToken (token : String) :
    Calmly N i (fun found s' => checkTag N token = .ok found.1 ∧ s'.loadBindings found.1 = some found.2)
      (lookupLoadToken N token) s := by
  unfold lookupLoadToken
  refine (calmly_ofExcept (Q := fun id _ => checkTag N token = .ok id) fun _ h => h).bind fun id s₁ _ hid => ?_
  refine (calmly_read (Q := fun a s' => a = s') rfl).bind fun s₀ s₂ _ heq => ?_
  obtain rfl := heq
  split
  · exact calmly_fail _
  · next binding hbinding =>
    refine (calmly_update (Q := fun _ s' => s'.loadBindings id = some binding) (.decision (.draws s₀)) rfl hbinding).bind
      fun now s₃ _ hbinding => ?_
    split
    · exact (calmly_modify (Q := fun _ _ => True) (.decision (.expire s₃ id)) rfl trivial).bind
        fun _ _ _ _ => calmly_fail _
    · exact calmly_pure ⟨hid, hbinding⟩

/-- A binding that can be looked up was minted. -/
theorem loadBinding_minted (hreach : Reachable N s) {id : String} {binding : LoadBinding}
    (h : s.loadBindings id = some binding) : .loadMinted id binding ∈ s.trail := by
  refine Grows.induction (P := fun s => ∀ id b, s.loadBindings id = some b → Mark.loadMinted id b ∈ s.trail) hreach
    (fun _ _ h => by cases h) (fun s s' hstep ih id b hb => ?_) id binding h
  rcases hstep with hlink | hdecision
  · have hsame := hlink.sameConfirmations
    rw [hsame.loadBindings] at hb
    rw [hsame.trail]
    exact ih id b hb
  · rcases hdecision
    case mintLoad now binding =>
      have hb : Function.update (fun id => (s.loadBindings id).filter fun b => ¬ b.expiresAt < now)
        (N.randomId s.draws) (some binding) id = some b := hb
      by_cases hid : id = N.randomId s.draws
      · rw [hid, Function.update_self] at hb
        rw [hid, ← Option.some.inj hb]
        exact List.mem_append_right _ (List.mem_singleton_self _)
      · rw [Function.update_of_ne hid, Option.filter_eq_some_iff] at hb
        exact List.mem_append_left _ (ih id b hb.1)
    case expire id' =>
      have hb : Function.update s.loadBindings id' none id = some b := hb
      by_cases hid : id = id'
      · rw [hid, Function.update_self] at hb
        cases hb
      · rw [Function.update_of_ne hid] at hb
        exact ih id b hb
    case burn i id' binding _ =>
      have hb : Function.update s.loadBindings id' none id = some b := hb
      by_cases hid : id = id'
      · rw [hid, Function.update_self] at hb
        cases hb
      · rw [Function.update_of_ne hid] at hb
        exact List.mem_append_left _ (ih id b hb)
    all_goals first | exact ih id b hb | exact List.mem_append_left _ (ih id b hb)

/-- The token names a binding that was minted. -/
def Names (N : Node) (token : String) (binding : LoadBinding) (s : Shared) : Prop :=
  ∃ id, checkTag N token = .ok id ∧ .loadMinted id binding ∈ s.trail

theorem calmly_verifyLoadToken (hreach : Reachable N s) (token : String) :
    Calmly N i (Names N token) (verifyLoadToken N token) s := by
  refine (calmly_lookupLoadToken token).bind fun found s' hlater hfound => calmly_pure ?_
  exact ⟨found.1, hfound.1, loadBinding_minted (hreach.trans hlater.grows) hfound.2⟩

theorem calmly_consumeLoadToken (token : String) :
    Calmly N i (fun _ s' => ∃ id b, checkTag N token = .ok id ∧ .burned i id b ∈ s'.trail)
      (consumeLoadToken N token) s := by
  unfold consumeLoadToken
  refine (calmly_lookupLoadToken token).bind fun found s₁ _ hfound => ?_
  refine (calmly_record (Q := fun _ s' => .burned i found.1 found.2 ∈ s'.trail)
    (.decision (.burn s₁ i found.1 found.2 hfound.2)) rfl (by simp)).bind fun _ s₂ _ hburned => ?_
  exact calmly_pure ⟨found.1, found.2, hfound.1, hburned⟩

/-! ### Tasks with a destructive request -/

section ends
variable {α β : Type} {Q : α → Shared → Prop} {t : Async α}

variable (N) in
/-- From `s`, tool call `i` runs the task to a point where the outcome of its destructive request is known, unless
it fails with an error that says a mutation may have occurred. -/
def Ends (i : ℕ) (t : Async α) (s : Shared) : Prop :=
  Safe (conduct N) i (fun _ s' => s'.Settled i) (fun e s' => e.mayHave = false → s'.Settled i) t s

theorem Calmly.bind_ends {f : α → Async β} (h : Calmly N i Q t s) (hsettled : s.Settled i)
    (hf : ∀ a s', Later N i s s' → Q a s' → Ends N i (f a) s') : Ends N i (t >>= f) s :=
  safe_bind.mpr (Safe.mono (fun a s' ha => hf a s' ha.1 ha.2) (fun _ _ he _ => he.settled hsettled) h)

/-- What comes after the destructive request changes nothing about it. -/
theorem Ends.bind_calmly {R : β → Shared → Prop} {f : α → Async β} (h : Ends N i t s)
    (hf : ∀ a s', Calmly N i R (f a) s') : Ends N i (t >>= f) s := by
  refine safe_bind.mpr (Safe.mono (fun a s' hsettled => ?_) (fun _ _ he => he) h)
  exact Safe.mono (fun _ _ hb => hb.1.settled hsettled) (fun _ _ he _ => he.settled hsettled) (hf a s')

variable (N) in
/-- The task `Ends`, and where it fails with an error that does not say that a mutation may have occurred, its
destructive request did not succeed. -/
def Concludes (i : ℕ) (t : Async α) (s : Shared) : Prop :=
  Safe (conduct N) i (fun _ s' => s'.Settled i) (fun e s' => e.mayHave = false → s'.Rejected i) t s

theorem Concludes.ends (h : Concludes N i t s) : Ends N i t s :=
  Safe.mono (fun _ _ hsettled => hsettled) (fun _ _ hrejected hmayHave => (hrejected hmayHave).settled) h

theorem Calmly.concludes (h : Calmly N i Q t s) (hrejected : s.Rejected i) : Concludes N i t s :=
  Safe.mono (fun _ _ ha => ha.1.settled hrejected.settled) (fun _ _ he _ => he.rejected hrejected) h

theorem Calmly.bind_concludes {f : α → Async β} (h : Calmly N i Q t s) (hrejected : s.Rejected i)
    (hf : ∀ a s', Later N i s s' → Q a s' → Concludes N i (f a) s') : Concludes N i (t >>= f) s :=
  safe_bind.mpr (Safe.mono (fun a s' ha => hf a s' ha.1 ha.2) (fun _ _ he _ => he.rejected hrejected) h)

theorem Concludes.bind {f : α → Async β} (h : Concludes N i t s)
    (hf : ∀ a s', s'.Settled i → Concludes N i (f a) s') : Concludes N i (t >>= f) s :=
  safe_bind.mpr (Safe.mono hf (fun _ _ he => he) h)

theorem concludes_pure (a : α) (hsettled : s.Settled i) : Concludes N i (pure a) s := hsettled

theorem concludes_modify {f : Shared → Shared} (h : Step N s (f s)) (htraffic : (f s).traffic = s.traffic)
    (hsettled : s.Settled i) : Concludes N i (Task.modify f) s :=
  ⟨(own_step h htraffic).1, (own_step (i := i) h htraffic).2.settled hsettled⟩

theorem Concludes.await (h : Concludes N i t s) : Concludes N i t.await s :=
  Safe.await (fun _ _ _ hrely hsettled => (later_of_rely hrely).settled hsettled)
    (fun _ _ _ hrely hrejected hmayHave => (later_of_rely hrely).rejected (hrejected hmayHave)) h

end ends

/-- The one destructive request of a tool call: what its error says is what is known. -/
theorem concludes_clientRequest {c : ℕ} {method : String} {payload : Json} {operationId : Option String}
    {deadlineMs : Int} (hclient : s.client = some c) (hidle : s.Idle i)
    (hs : SanctionedFrom N i method payload operationId s) :
    Concludes N i (clientRequest N c method payload operationId deadlineMs) s := by
  unfold clientRequest
  refine (calmly_read (Q := fun _ s' => s'.client = some c) hclient).bind_concludes (rejected_of_idle hidle)
    fun s₀ s₁ hlater₁ hclient => ?_
  split
  · exact (calmly_fail (Q := fun _ _ => True) _).concludes (rejected_of_idle (hlater₁.idle hidle))
  refine (calmly_update (Q := fun _ s' => s'.client = some c) (.decision (.draws s₁)) rfl hclient).bind_concludes
    (rejected_of_idle (hlater₁.idle hidle)) fun id s₂ hlater₂ hclient => ?_
  have hlater := hlater₁.trans hlater₂
  dsimp only
  split
  · exact (calmly_fail (Q := fun _ _ => True) _).concludes (rejected_of_idle (hlater.idle hidle))
  refine ⟨fun r hr => ?_, fun s' reply hrely hanswer => ?_⟩
  · obtain rfl := Call.request.inj hr
    exact ⟨hclient, hs _ _ hlater rfl rfl rfl⟩
  obtain ⟨e₀, he₀, -, -, hreply⟩ := answer_of_rely hrely hanswer
  -- All that tool call `i` has sent is this request; before it, it was idle.
  have hlast : ∀ e' ∈ s'.exchanges, e'.caller = i → e'.Destructive → e'.reply = some reply := by
    intro e' he' hcaller hdestructive
    obtain ⟨n, hn⟩ := List.getElem?_of_mem he'
    have hlt := hrely.2.2.quiet n e' hn hcaller
    rw [show (bridgeComm.post i _ s₂).exchanges.length = s₂.exchanges.length + 1 from List.length_append] at hlt
    rcases Nat.lt_succ_iff_lt_or_eq.mp hlt with hbefore | rfl
    · have hposted := List.getElem?_eq_getElem hbefore
      obtain ⟨e₁, he₁, hext₁⟩ := kept_append s₂.exchanges _ n _ hposted
      obtain ⟨e₂, he₂, hext₂⟩ := hrely.2.1.persists.exchanges n _ he₁
      rw [hn] at he₂
      obtain rfl := Option.some.inj he₂
      have hext := hext₁.trans hext₂
      exact absurd (hext.destructive.mp hdestructive)
        (hlater.idle hidle _ (List.getElem_mem hbefore) (hext.caller.symm.trans hcaller))
    · rw [he₀] at hn
      obtain rfl := Option.some.inj hn
      exact hreply
  have hrejected : reply.Definite → (∀ v, reply ≠ .payload v) → s'.Rejected i :=
    fun hdefinite hnot e' he' hcaller hdestructive => ⟨reply, hlast e' he' hcaller hdestructive, hdefinite, hnot⟩
  rcases reply with w | _ | e | v | e
  case failed =>
    refine fun hmayHave => hrejected (fun e' he' => ?_) fun _ h => by cases h
    rw [← Reply.failed.inj he']
    exact hmayHave
  case payload =>
    exact fun e' he' hcaller hdestructive =>
      ⟨_, hlast e' he' hcaller hdestructive, fun _ h => by cases h⟩
  all_goals exact fun _ => hrejected (fun _ h => by cases h) fun _ h => by cases h

theorem concludes_request {method : String} {payload : Json} {operationId : Option String} {deadlineMs : Int}
    (hidle : s.Idle i) (hs : SanctionedFrom N i method payload operationId s) :
    Concludes N i (request N method payload operationId deadlineMs).await s := by
  refine Concludes.await ?_
  unfold request requestVia
  refine (quiet_ensureConnected.await s).bind_concludes (rejected_of_idle hidle) fun _ s₁ hlater₁ _ => ?_
  refine (calmly_read (Q := fun a s' => a = s') rfl).bind_concludes (rejected_of_idle (hlater₁.idle hidle))
    fun s₂ s₂' hlater₂ heq => ?_
  obtain rfl := heq
  have hlater := hlater₁.trans hlater₂
  split
  · exact (calmly_fail (Q := fun _ _ => True) _).concludes (rejected_of_idle (hlater.idle hidle))
  · next c hclient => exact concludes_clientRequest hclient (hlater.idle hidle) (hs.later hlater)

/-! ### Commits -/

theorem Grows.presented (h : Grows N s s') {token : String} (hpresented : Presented N s i token) :
    Presented N s' i token := by
  rcases hpresented with ⟨tool, htool, htoken⟩ | ⟨b, hb, htoken⟩
  · exact .inl ⟨tool, h.tool htool, htoken⟩
  · exact .inr ⟨b, h.mark hb, htoken⟩

theorem concludes_commit (args : CommitArgs) (selected : SelectedInstance) (hidle : s.Idle i)
    (htool : ∃ tool, s.tools[i]? = some tool ∧ tool.Commits args)
    (hpresented : ∀ token, args.confirmationToken = some token → Presented N s i token) :
    Concludes N i (commit N args selected) s := by
  obtain ⟨tool, htool, hcommits⟩ := htool
  unfold commit
  refine calmly_pruneExpired.bind_concludes (rejected_of_idle hidle) fun now s₁ hlater₁ hlive => ?_
  refine (calmly_read (Q := fun a s' => a = s' ∧ a = s₁) ⟨rfl, rfl⟩).bind_concludes
    (rejected_of_idle (hlater₁.idle hidle)) fun s₂ s₂' hlater₂ heq => ?_
  obtain ⟨rfl, rfl⟩ := heq
  have hidle := hlater₁.idle hidle
  split
  · exact (calmly_throwTool (Q := fun _ _ => True) _ _ _).concludes (rejected_of_idle hidle)
  next cached hcached =>
  split
  · exact (calmly_throwTool (Q := fun _ _ => True) _ _ _).concludes (rejected_of_idle hidle)
  next hsame =>
  split
  · exact (calmly_throwTool (Q := fun _ _ => True) _ _ _).concludes (rejected_of_idle hidle)
  next hbase =>
  refine (calmly_checkConfirmation args selected cached).bind_concludes (rejected_of_idle hidle)
    fun tokenAt s₃ hlater₃ hconfirms => ?_
  refine (calmly_rateLimiterAdmit cached.paramChanges).bind_concludes (rejected_of_idle (hlater₃.idle hidle))
    fun _ s₄ hlater₄ hplans => ?_
  have hlater := hlater₁.trans (hlater₃.trans hlater₄)
  have hinstance : cached.instanceId = selected.instanceId ∧ cached.sessionId = selected.sessionId := by
    simpa [not_or] using hsame
  have hadmissible : Admissible N s₄ i args selected cached now tokenAt := by
    refine ⟨?_, hlive _ _ hcached, hinstance, by simpa using hbase, fun hrequired => ?_⟩
    · rw [hplans, hconfirms.1]
      exact hcached
    · obtain ⟨token, verified, htoken, ⟨⟨body, hbody, hdecoded⟩, hunexpired⟩, hbinds, hat⟩ :=
        hconfirms.2 hrequired
      exact ⟨token, body, verified.1, verified.2, htoken, hlater.grows.presented (hpresented token htoken), hbody,
        hdecoded, hbinds, hat, hunexpired⟩
  have hidle := (hlater₃.trans hlater₄).idle hidle
  refine (calmly_record (Q := fun _ s' => .admitted i args cached now tokenAt ∈ s'.trail)
    (.decision (.admitted s₄ i args selected cached now tokenAt hadmissible)) rfl (by simp)).bind_concludes
    (rejected_of_idle hidle) fun _ s₅ hlater₅ hadmitted => ?_
  refine (quiet_ensureLease.await s₅).bind_concludes (rejected_of_idle (hlater₅.idle hidle)) fun _ s₆ hlater₆ _ => ?_
  have hidle := (hlater₅.trans hlater₆).idle hidle
  have hlater := hlater.trans (hlater₅.trans hlater₆)
  refine (concludes_request hidle fun s₇ r hlater₇ hmethod hpayload hid => ?_).bind fun result s₈ hsettled => ?_
  · exact .commit args selected cached now tokenAt (hlater₇.idle hidle)
      ⟨tool, (hlater.trans hlater₇).grows.tool htool, hcommits⟩ ((hlater₆.trans hlater₇).grows.mark hadmitted)
      hinstance hmethod hpayload hid
  · exact (concludes_modify (.decision (.forget s₈ args.planHash)) rfl hsettled).bind
      fun _ s₉ hsettled => concludes_pure result hsettled

end RackMcp.Server
