import Mathlib.Logic.Relation
import RackMcp.Server.World

/-!
# What can happen to the server

`Link` and `Decision` list every change of the state the tool calls share, each with what holds when a tool call
makes it; `Sanctioned` lists the requests a tool call sends. That the tools keep to these lists is proved once, and
every invariant of the server is then a case analysis. `Grows` is any number of steps: exchanges and the trail are
only added to, and what an exchange has got stays.
-/

namespace RackMcp.Server

open Gen Cooperative Relation

/-! ### Evidence -/

/-- The methods that may replace or edit the live patch. -/
def destructiveMethods : List String := ["txn.commit", "txn.undoLast", "patchfile.load", "patchfile.clear"]

/-- A request of such a method. -/
def Exchange.Destructive (e : Exchange) : Prop := ∃ r, e.call = .request r ∧ r.method ∈ destructiveMethods

/-- The reply is no rejection that leaves it open whether the patch changed. -/
def Reply.Definite (reply : Reply) : Prop := ∀ e, reply = .failed e → e.mayHave = false

namespace Shared

/-- How many calls were made and how many tools called. -/
def counts (s : Shared) : ℕ × ℕ := (s.exchanges.length, s.tools.length)

/-- The responses to the calls, and how many tools were called. -/
def traffic (s : Shared) : List (Option String) × ℕ := (s.exchanges.map (·.response), s.tools.length)

/-- The frame the plugin answered exchange `n` with. -/
def responseAt (s : Shared) (n : ℕ) : Option String := s.exchanges[n]?.bind (·.response)

/-- Tool call `i` has sent no destructive request. -/
def Idle (s : Shared) (i : ℕ) : Prop := ∀ e ∈ s.exchanges, e.caller = i → ¬ e.Destructive

/-- Tool call `i` knows what became of its destructive requests. -/
def Settled (s : Shared) (i : ℕ) : Prop :=
  ∀ e ∈ s.exchanges, e.caller = i → e.Destructive → ∃ reply, e.reply = some reply ∧ reply.Definite

/-- Tool call `i` has got this payload for such a request. -/
def Answered (s : Shared) (i : ℕ) (method : String) (payload v : Json) : Prop :=
  ∃ e ∈ s.exchanges, e.caller = i ∧ e.reply = some (.payload v) ∧
    ∃ r, e.call = .request r ∧ r.method = method ∧ r.payload = payload

end Shared

/-- The tool commits with these arguments. -/
def ToolCall.Commits : ToolCall → CommitArgs → Prop
  | .commitPatchTransaction args, args' | .commitAttachProbe args, args' => args' = args
  | .buildPatch _ _ _ operationId _, args' | .buildRecipe _ _ _ operationId _, args'
  | .detachProbe _ _ operationId _, args' => args'.operationId = operationId
  | _, _ => False

/-- The tool replaces the patch, under this token and operation id. -/
def ToolCall.Replaces : ToolCall → LoadKind → String → String → Prop
  | .commitLoadPatch token operationId, kind, token', operationId' =>
    kind = .load ∧ token' = token ∧ operationId' = operationId
  | .commitClearPatch token operationId, kind, token', operationId' =>
    kind = .clear ∧ token' = token ∧ operationId' = operationId
  | .restoreCheckpoint _ token operationId, kind, token', operationId' =>
    kind = .restore ∧ some token' = token ∧ operationId' = operationId
  | _, _, _, _ => False

/-- The tokens a tool call presents. -/
def ToolCall.tokens : ToolCall → List String
  | .commitPatchTransaction args | .commitAttachProbe args => args.confirmationToken.toList
  | .commitLoadPatch token _ | .commitClearPatch token _ => [token]
  | .restoreCheckpoint _ token _ => token.toList
  | _ => []

variable (N : Node)

/-- The path a save asks for resolves to this target. -/
def ResolvesTo (path : Option String) (target : String) : Prop :=
  ((path = none ∨ path = some "") ∧ target = "") ∨
    ∃ requested present m, path = some requested ∧
      resolvePatchPath N.config N.cwd (N.files m) requested false = .ok ⟨target, .patches, present⟩

/-- What tool call `i` has done before it replaces the patch: it read the fingerprint the confirmation describes,
saved a recovery checkpoint, and burned the confirmation. -/
structure Confirmed (s : Shared) (i : ℕ) (selected : SelectedInstance) (kind : LoadKind) (operationId id : String)
    (binding : LoadBinding) : Prop where
  tool : ∃ tool token, s.tools[i]? = some tool ∧ tool.Replaces kind token operationId ∧ checkTag N token = .ok id
  minted : .loadMinted id binding ∈ s.trail
  burned : ∃ b, .burned i id b ∈ s.trail
  bound : binding.kind = kind ∧ binding.instanceId = selected.instanceId ∧ binding.sessionId = selected.sessionId
  fingerprint : ∃ v, s.Answered i "patch.fingerprint" (.object []) v ∧ liveRefusal binding v = none
  checkpoint : ∃ path payloadId v, s.Answered i "patchfile.saveCopy" (saveRequest selected path payloadId) v

/-- The requests tool call `i` sends, with what holds when it does. -/
inductive Sanctioned (s : Shared) (i : ℕ) (r : Request) : Prop
  | reads (hmethod : r.method ∉ mutatingMethods) (hid : r.operationId = none)
  | checkpoint (label : Option String) (operationId path : String) (selected : SelectedInstance) (m n : ℕ)
    (htool : s.tools[i]? = some (.createCheckpoint label operationId))
    (hpath : reserveCheckpointPath N.config (N.files m) label (N.toISOString (N.now n)) = .ok path)
    (hmethod : r.method = "patchfile.saveCopy") (hpayload : r.payload = saveRequest selected path operationId)
    (hid : r.operationId = some operationId)
  | recovery (selected : SelectedInstance) (path payloadId operationId : String)
    (hdrawn : ∃ d, operationId = N.randomUUID d) (hmethod : r.method = "patchfile.saveCopy")
    (hpayload : r.payload = saveRequest selected path payloadId) (hid : r.operationId = some operationId)
  | save (path : Option String) (target operationId : String) (selected : SelectedInstance)
    (htool : s.tools[i]? = some (.savePatch path operationId)) (htarget : ResolvesTo N path target)
    (hmethod : r.method = "patchfile.save") (hpayload : r.payload = saveRequest selected target operationId)
    (hid : r.operationId = some operationId)
  | commit (args : CommitArgs) (selected : SelectedInstance) (plan : CachedPlan) (checkedAt : Int)
    (tokenAt : Option Int) (hidle : s.Idle i)
    (htool : ∃ tool, s.tools[i]? = some tool ∧ tool.Commits args)
    (hadmitted : .admitted i args plan checkedAt tokenAt ∈ s.trail)
    (hinstance : plan.instanceId = selected.instanceId ∧ plan.sessionId = selected.sessionId)
    (hmethod : r.method = "txn.commit") (hpayload : r.payload = commitRequest args selected plan)
    (hid : r.operationId = some args.operationId)
  | undo (selected : SelectedInstance) (expectedOperationId operationId : String) (hidle : s.Idle i)
    (hmethod : r.method = "txn.undoLast")
    (hpayload : r.payload = undoRequest selected expectedOperationId operationId)
    (hid : r.operationId = some operationId)
  | load (selected : SelectedInstance) (kind : LoadKind) (operationId path id : String) (binding : LoadBinding)
    (hidle : s.Idle i) (hconfirmed : Confirmed N s i selected kind operationId id binding)
    (hkind : kind ≠ .clear) (hmethod : r.method = "patchfile.load")
    (hpayload : r.payload = loadRequest selected kind path operationId) (hid : r.operationId = some operationId)
  | clear (selected : SelectedInstance) (operationId id : String) (binding : LoadBinding) (hidle : s.Idle i)
    (hconfirmed : Confirmed N s i selected .clear operationId id binding)
    (hmethod : r.method = "patchfile.clear") (hpayload : r.payload = clearRequest selected operationId)
    (hid : r.operationId = some operationId)

/-- A call is made on the client in use, for a sanctioned request; a handshake on any. -/
def Allowed (i : ℕ) (call : Call) (s : Shared) : Prop :=
  ∀ r, call = .request r → s.client = some r.conn ∧ Sanctioned N s i r

/-- A token that the caller of tool call `i` presented, or that the process minted. -/
def Presented (s : Shared) (i : ℕ) (token : String) : Prop :=
  (∃ tool, s.tools[i]? = some tool ∧ token ∈ tool.tokens) ∨
    ∃ b, .minted b ∈ s.trail ∧ token = tagged N (N.encodeBody b.toJson)

/-- What `commit` has checked when it goes on. -/
structure Admissible (s : Shared) (i : ℕ) (args : CommitArgs) (selected : SelectedInstance) (plan : CachedPlan)
    (checkedAt : Int) (tokenAt : Option Int) : Prop where
  cached : s.plans args.planHash = some plan
  live : ¬ plan.expiresAt < checkedAt
  sameInstance : plan.instanceId = selected.instanceId ∧ plan.sessionId = selected.sessionId
  sameBase : args.expectedFingerprint = plan.baseFingerprint
  confirmed : plan.confirmationRequired = true → ∃ token body binding at_,
    args.confirmationToken = some token ∧ Presented N s i token ∧ checkTag N token = .ok body ∧
      N.decodeBody body = some binding ∧ bindsCommit binding args selected = true ∧ tokenAt = some at_ ∧
      expired binding at_ = false

/-! ### Steps -/

/-- Every change of the connections, by a tool call or by what happens to the server. -/
inductive Link : Shared → Shared → Prop
  | connecting (s : Shared) (b : Bool) : Link s { s with connecting := b }
  | leaseId (s : Shared) (lease : Option String) : Link s { s with leaseId := lease }
  | hits (s : Shared) (hits : List Int) : Link s { s with hits }
  | attachMeta (s : Shared) (slots : String → Option AttachMeta) : Link s { s with attachMeta := slots }
  | teardown (s : Shared) (c : ℕ) (reason : String) : Link s (s.teardown c reason)
  | disconnect (s : Shared) : Link s s.disconnect
  | deselect (s : Shared) : Link s { s.disconnect with selected := none }
  | newClient (s : Shared) (port : Int) : Link s { s with conns := s.conns ++ [{ port }] }
  | install (s : Shared) (c : ℕ) (found : Discovered) (w : Welcome)
    (h : ∃ e ∈ s.exchanges, e.call = .connect c ∧ e.reply = some (.connected w)) :
    Link s { s with
      client := some c
      selected := some ⟨w.instanceId, w.sessionId, w.rackVersion, w.rackEdition, found.port, found.pid⟩ }
  | post (s : Shared) (i : ℕ) (call : Call) (h : Allowed N i call s) : Link s (bridgeComm.post i call s)
  | react (s : Shared) (e : ServerEvent) : Link s (s.react N e)
  | response (s : Shared) (n : ℕ) (frame : String) : Link s (s.setResponse n frame)

/-- Every change of what the process keeps for confirmations, and of its record. -/
inductive Decision : Shared → Shared → Prop
  | draws (s : Shared) : Decision s { s with draws := s.draws + 1 }
  | audit (s : Shared) (i : ℕ) (outcome : Option ErrorPayload)
    (h : ∀ p, outcome = some p → p.mutationMayHaveOccurred = false → s.Settled i) :
    Decision s { s with audit := s.audit ++ [(i, outcome)] }
  | tool (s : Shared) (tool : ToolCall) : Decision s { s with tools := s.tools ++ [tool] }
  | prune (s : Shared) (now : Int) :
    Decision s { s with plans := fun hash => (s.plans hash).filter fun p => ¬ p.expiresAt < now }
  | cache (s : Shared) (answer : Json) (operations : List Json) (selected : SelectedInstance) (now : Int)
    (h : ∃ i payload, s.Answered i "txn.preview" payload answer ∧
      Json.get payload "scope" = some (scopeFor selected)) :
    Decision s { s with
      plans := Function.update s.plans (jstr answer "planHash")
        (some (cachedPlan answer operations selected.instanceId selected.sessionId (now + confirmationLifetimeMs)))
      trail := s.trail ++ [.previewed answer selected.instanceId selected.sessionId now] }
  | mint (s : Shared) (b : TokenBinding) : Decision s { s with trail := s.trail ++ [.minted b] }
  | admitted (s : Shared) (i : ℕ) (args : CommitArgs) (selected : SelectedInstance) (plan : CachedPlan)
    (checkedAt : Int) (tokenAt : Option Int) (h : Admissible N s i args selected plan checkedAt tokenAt) :
    Decision s { s with trail := s.trail ++ [.admitted i args plan checkedAt tokenAt] }
  | forget (s : Shared) (planHash : String) :
    Decision s { s with plans := Function.update s.plans planHash none }
  | mintLoad (s : Shared) (now : Int) (binding : LoadBinding) :
    Decision s { s with
      draws := s.draws + 1
      loadBindings := Function.update (fun id => (s.loadBindings id).filter fun b => ¬ b.expiresAt < now)
        (N.randomId s.draws) (some binding)
      trail := s.trail ++ [.loadMinted (N.randomId s.draws) binding] }
  | expire (s : Shared) (id : String) :
    Decision s { s with loadBindings := Function.update s.loadBindings id none }
  | burn (s : Shared) (i : ℕ) (id : String) (binding : LoadBinding) (h : s.loadBindings id = some binding) :
    Decision s { s with
      loadBindings := Function.update s.loadBindings id none
      trail := s.trail ++ [.burned i id binding] }

/-- Every change of the shared state. -/
inductive Step (s s' : Shared) : Prop
  | link (h : Link N s s')
  | decision (h : Decision N s s')

/-- Any number of steps. -/
def Grows : Shared → Shared → Prop := ReflTransGen (Step N)

/-- A server that was started gets to this state. -/
abbrev Reachable (s : Shared) : Prop := Grows N {} s

variable {N}

theorem Step.grows {s s' : Shared} (h : Step N s s') : Grows N s s' := .single h

/-- What every step keeps, a run of the server keeps. -/
theorem Grows.induction {P : Shared → Prop} {s s' : Shared} (h : Grows N s s') (hs : P s)
    (hstep : ∀ s s', Step N s s' → P s → P s') : P s' := by
  induction h with
  | refl => exact hs
  | tail _ hlast ih => exact hstep _ _ hlast ih

/-- What every step relates, a run of the server relates. -/
theorem Grows.relates {R : Shared → Shared → Prop} {s s' : Shared} (h : Grows N s s') (hrefl : ∀ s, R s s)
    (htrans : ∀ {s s' s''}, R s s' → R s' s'' → R s s'') (hstep : ∀ s s', Step N s s' → R s s') : R s s' := by
  induction h with
  | refl => exact hrefl s
  | tail _ hlast ih => exact htrans ih (hstep _ _ hlast)

/-! ### What stays -/

/-- A later state of the same exchange. -/
structure Exchange.Extends (e e' : Exchange) : Prop where
  caller : e'.caller = e.caller
  call : e'.call = e.call
  selected : e'.selected = e.selected
  response : ∀ frame, e.response = some frame → e'.response = some frame
  reply : ∀ reply, e.reply = some reply → e'.reply = some reply

theorem Exchange.Extends.refl (e : Exchange) : e.Extends e :=
  ⟨rfl, rfl, rfl, fun _ h => h, fun _ h => h⟩

theorem Exchange.Extends.trans {e e' e'' : Exchange} (h : e.Extends e') (h' : e'.Extends e'') : e.Extends e'' :=
  ⟨h'.caller.trans h.caller, h'.call.trans h.call, h'.selected.trans h.selected,
    fun frame hframe => h'.response frame (h.response frame hframe),
    fun reply hreply => h'.reply reply (h.reply reply hreply)⟩

theorem Exchange.Extends.destructive {e e' : Exchange} (h : e.Extends e') : e'.Destructive ↔ e.Destructive := by
  unfold Exchange.Destructive
  rw [h.call]

/-- The exchanges are still there, at the same places. -/
def Kept (l l' : List Exchange) : Prop :=
  ∀ (n : ℕ) (e : Exchange), l[n]? = some e → ∃ e', l'[n]? = some e' ∧ e.Extends e'

theorem Kept.refl (l : List Exchange) : Kept l l := fun _ e he => ⟨e, he, .refl e⟩

theorem Kept.trans {l l' l'' : List Exchange} (h : Kept l l') (h' : Kept l' l'') : Kept l l'' := by
  intro n e he
  obtain ⟨e', he', hext⟩ := h n e he
  obtain ⟨e'', he'', hext'⟩ := h' n e' he'
  exact ⟨e'', he'', hext.trans hext'⟩

theorem kept_append (l m : List Exchange) : Kept l (l ++ m) := by
  intro n e he
  have hlt : n < l.length := (List.getElem?_eq_some_iff.mp he).1
  exact ⟨e, by rw [List.getElem?_append_left hlt]; exact he, .refl e⟩

theorem kept_map {f : Exchange → Exchange} (hf : ∀ e : Exchange, e.Extends (f e)) (l : List Exchange) : Kept l (l.map f) := by
  intro n e he
  exact ⟨f e, by rw [List.getElem?_map, he]; rfl, hf e⟩

theorem kept_modify {f : Exchange → Exchange} (hf : ∀ e : Exchange, e.Extends (f e)) (l : List Exchange) (n : ℕ) :
    Kept l (l.modify n f) := by
  intro m e he
  rw [List.getElem?_modify, he]
  by_cases hnm : n = m
  · exact ⟨f e, congrArg some (if_pos hnm), hf e⟩
  · exact ⟨e, congrArg some (if_neg hnm), .refl e⟩

theorem Exchange.extends_lose (c : ℕ) (reason : String) (e : Exchange) : e.Extends (e.lose c reason) := by
  unfold Exchange.lose
  split
  · next h => exact ⟨rfl, rfl, rfl, fun _ h => h, fun reply hreply => by rw [hreply] at h; simp at h⟩
  · exact .refl e

theorem Exchange.extends_reply (reply : Reply) (e : Exchange) :
    e.Extends { e with reply := some (e.reply.getD reply) } :=
  ⟨rfl, rfl, rfl, fun _ h => h, fun reply h => by simp [h]⟩

theorem Exchange.extends_response (frame : String) (e : Exchange) :
    e.Extends { e with response := some (e.response.getD frame) } :=
  ⟨rfl, rfl, rfl, fun frame h => by simp [h], fun _ h => h⟩

/-- What a step adds to is still there. -/
structure Persists (s s' : Shared) : Prop where
  exchanges : Kept s.exchanges s'.exchanges
  trail : s.trail <+: s'.trail
  tools : s.tools <+: s'.tools

theorem Persists.refl (s : Shared) : Persists s s := ⟨.refl _, List.prefix_rfl, List.prefix_rfl⟩

theorem Persists.trans {s s' s'' : Shared} (h : Persists s s') (h' : Persists s' s'') : Persists s s'' :=
  ⟨h.exchanges.trans h'.exchanges, h.trail.trans h'.trail, h.tools.trans h'.tools⟩

/-- Neither confirmations nor the record of the process are touched. -/
structure SameConfirmations (s s' : Shared) : Prop where
  plans : s'.plans = s.plans
  loadBindings : s'.loadBindings = s.loadBindings
  trail : s'.trail = s.trail
  tools : s'.tools = s.tools
  audit : s'.audit = s.audit
  draws : s'.draws = s.draws

theorem SameConfirmations.refl (s : Shared) : SameConfirmations s s := ⟨rfl, rfl, rfl, rfl, rfl, rfl⟩

theorem sameConfirmations_teardown (c : ℕ) (reason : String) (s : Shared) :
    SameConfirmations s (s.teardown c reason) := by
  unfold Shared.teardown
  split <;> exact ⟨rfl, rfl, rfl, rfl, rfl, rfl⟩

theorem sameConfirmations_disconnect (s : Shared) : SameConfirmations s s.disconnect := by
  unfold Shared.disconnect
  split
  · exact ⟨rfl, rfl, rfl, rfl, rfl, rfl⟩
  · next c _ =>
    have h := sameConfirmations_teardown c "client closed" s.unleased
    exact ⟨h.plans, h.loadBindings, h.trail, h.tools, h.audit, h.draws⟩

theorem sameConfirmations_setReply (n : ℕ) (reply : Reply) (s : Shared) :
    SameConfirmations s (s.setReply n reply) := ⟨rfl, rfl, rfl, rfl, rfl, rfl⟩

theorem sameConfirmations_setResponse (n : ℕ) (frame : String) (s : Shared) :
    SameConfirmations s (s.setResponse n frame) := ⟨rfl, rfl, rfl, rfl, rfl, rfl⟩

/-- Nothing was done to the exchanges, the trail and the tools. -/
theorem persists_of_eq {s s' : Shared} (hexchanges : s'.exchanges = s.exchanges) (htrail : s'.trail = s.trail)
    (htools : s'.tools = s.tools) : Persists s s' :=
  ⟨hexchanges ▸ .refl _, htrail ▸ List.prefix_rfl, htools ▸ List.prefix_rfl⟩

theorem persists_teardown (c : ℕ) (reason : String) (s : Shared) : Persists s (s.teardown c reason) := by
  unfold Shared.teardown
  split
  · exact ⟨kept_map (Exchange.extends_lose c reason) _, List.prefix_rfl, List.prefix_rfl⟩
  · exact .refl s

theorem persists_disconnect (s : Shared) : Persists s s.disconnect := by
  unfold Shared.disconnect
  split
  · exact persists_of_eq rfl rfl rfl
  · next c _ =>
    have hpersists := persists_teardown c "client closed" s.unleased
    exact ⟨hpersists.exchanges, hpersists.trail, hpersists.tools⟩

theorem persists_setReply (n : ℕ) (reply : Reply) (s : Shared) : Persists s (s.setReply n reply) :=
  ⟨kept_modify (Exchange.extends_reply reply) _ _, List.prefix_rfl, List.prefix_rfl⟩

theorem persists_setResponse (n : ℕ) (frame : String) (s : Shared) : Persists s (s.setResponse n frame) :=
  ⟨kept_modify (Exchange.extends_response frame) _ _, List.prefix_rfl, List.prefix_rfl⟩

variable (N) in
/-- The reply to a request is what the frame of its response says, or leaves it open whether the patch changed. -/
inductive Exchange.Explains (e : Exchange) : Reply → Prop
  | response (frame : String) (root : Json) (hframe : e.response = some frame) (hroot : N.parse frame = some root) :
    Explains e (readResponse root)
  | lost (code message : String) : Explains e (.failed (.bridge ⟨code, message, false, true, none, none⟩))

variable (N) in
/-- What an event does to the server: nothing, or a reply, a response or a welcome comes, or one client goes away or
the one in use does. -/
inductive Reaction (s : Shared) : Shared → Prop
  | none : Reaction s s
  | reply (n : ℕ) (reply : Reply) (hconnected : ∀ w, reply ≠ .connected w)
    (hexplained : ∀ e r, s.exchanges[n]? = some e → e.call = .request r → e.Explains N reply) :
    Reaction s (s.setReply n reply)
  | response (n : ℕ) (frame : String) (r : Request) (hr : s.unanswered n = some r)
    (hframe : r.method ∈ leaseMethods ∨ isRefusal N frame = true) : Reaction s (s.setResponse n frame)
  | welcome (n host c : ℕ) (w : Welcome) (e : Exchange) (conn : Conn) (he : s.exchanges[n]? = some e)
    (hcall : e.call = .connect c) (hreply : e.reply = .none) (hconn : s.conns[c]? = some conn)
    (hnone : conn.welcome = .none) :
    Reaction s { s.setReply n (.connected w) with
      conns := s.conns.modify c fun conn => { conn with host, welcome := some w } }
  | teardown (c : ℕ) (reason : String) : Reaction s (s.teardown c reason)
  | disconnect : Reaction s s.disconnect

theorem readResponse_ne_connected (root : Json) (w : Welcome) : readResponse root ≠ .connected w := by
  unfold readResponse
  split
  · exact fun h => by cases h
  · exact fun h => by cases h

theorem reaction_react (s : Shared) (e : ServerEvent) : Reaction N s (s.react N e) := by
  rcases e with ⟨n, host, w⟩ | ⟨n, reply⟩ | ⟨n, frame⟩ | n | n | ⟨c, reason⟩ | c
  · show Reaction N s (s.welcome n host w)
    unfold Shared.welcome
    split
    · split
      · exact .welcome n host _ w _ _ ‹_› rfl rfl ‹_› rfl
      · exact .none
    · exact .none
  · show Reaction N s (s.handshake n reply)
    unfold Shared.handshake
    split
    case h_1 he | h_2 he | h_3 he | h_4 he | h_5 he =>
      refine .reply n _ (fun _ h => by cases h) fun e r he' hcall => ?_
      rw [he] at he'
      obtain rfl := Option.some.inj he'
      cases hcall
    exact .none
  · show Reaction N s (s.answer N n frame)
    unfold Shared.answer
    split
    · next r hr =>
      split
      · next hframe => exact .response n frame r hr hframe
      · exact .none
    · exact .none
  · show Reaction N s (s.deliver N n)
    unfold Shared.deliver
    split
    · next frame _ he =>
      split
      · split
        · exact .teardown _ _
        · next root hroot =>
          split
          · refine .reply n _ (readResponse_ne_connected _) fun e r he' _ => ?_
            rw [he] at he'
            obtain rfl := Option.some.inj he'
            exact .response frame root rfl hroot
          · exact .none
      · exact .none
    · exact .none
  · show Reaction N s (s.timeout n)
    unfold Shared.timeout
    split
    · exact .reply n _ (fun _ h => by cases h) fun _ _ _ _ => .lost _ _
    · exact .none
  · exact .teardown c reason
  · show Reaction N s (if s.isOpen c then s.disconnect else s)
    split
    · exact .disconnect
    · exact .none

theorem Reaction.persists {s s' : Shared} (h : Reaction N s s') : Persists s s' := by
  rcases h with _ | ⟨n, reply, -, -⟩ | ⟨n, frame⟩ | ⟨n, host, c, w⟩ | ⟨c, reason⟩ | _
  · exact .refl s
  · exact persists_setReply n reply s
  · exact persists_setResponse n frame s
  · have hreply := persists_setReply n (.connected w) s
    exact ⟨hreply.exchanges, hreply.trail, hreply.tools⟩
  · exact persists_teardown c reason s
  · exact persists_disconnect s

theorem Reaction.sameConfirmations {s s' : Shared} (h : Reaction N s s') : SameConfirmations s s' := by
  rcases h with _ | ⟨n, reply, -, -⟩ | ⟨n, frame⟩ | ⟨n, host, c, w⟩ | ⟨c, reason⟩ | _
  · exact .refl s
  · exact sameConfirmations_setReply n reply s
  · exact sameConfirmations_setResponse n frame s
  · exact ⟨rfl, rfl, rfl, rfl, rfl, rfl⟩
  · exact sameConfirmations_teardown c reason s
  · exact sameConfirmations_disconnect s

theorem Link.persists {s s' : Shared} (h : Link N s s') : Persists s s' := by
  rcases h
  case teardown c reason => exact persists_teardown c reason s
  case disconnect => exact persists_disconnect s
  case deselect =>
    have hdisconnect := persists_disconnect s
    exact ⟨hdisconnect.exchanges, hdisconnect.trail, hdisconnect.tools⟩
  case post i call _ => exact ⟨kept_append _ _, List.prefix_rfl, List.prefix_rfl⟩
  case react e => exact (reaction_react s e).persists
  case response n frame => exact persists_setResponse n frame s
  all_goals exact persists_of_eq rfl rfl rfl

theorem Link.sameConfirmations {s s' : Shared} (h : Link N s s') : SameConfirmations s s' := by
  rcases h
  case teardown c reason => exact sameConfirmations_teardown c reason s
  case disconnect => exact sameConfirmations_disconnect s
  case deselect =>
    have h := sameConfirmations_disconnect s
    exact ⟨h.plans, h.loadBindings, h.trail, h.tools, h.audit, h.draws⟩
  case react e => exact (reaction_react s e).sameConfirmations
  all_goals exact ⟨rfl, rfl, rfl, rfl, rfl, rfl⟩

/-- The connections and the exchanges are not touched. -/
structure SameLinks (s s' : Shared) : Prop where
  client : s'.client = s.client
  selected : s'.selected = s.selected
  conns : s'.conns = s.conns
  exchanges : s'.exchanges = s.exchanges

theorem Decision.sameLinks {s s' : Shared} (h : Decision N s s') : SameLinks s s' := by
  rcases h <;> exact ⟨rfl, rfl, rfl, rfl⟩

theorem Decision.persists {s s' : Shared} (h : Decision N s s') : Persists s s' := by
  refine ⟨h.sameLinks.exchanges ▸ .refl _, ?_, ?_⟩
  · rcases h <;> first | exact List.prefix_rfl | exact List.prefix_append _ _
  · rcases h <;> first | exact List.prefix_rfl | exact List.prefix_append _ _

theorem Step.persists {s s' : Shared} (h : Step N s s') : Persists s s' := by
  rcases h with h | h
  · exact h.persists
  · exact h.persists

theorem Grows.persists {s s' : Shared} (h : Grows N s s') : Persists s s' :=
  h.relates .refl .trans fun _ _ => Step.persists

end RackMcp.Server
