import RackMcp.Proof.Lockstep
import RackMcp.Proof.SessionStep
import RackMcp.Proof.WorldRun

/-!
# Instance affinity

A request travels on the client in use when it is sent, and that client's session is always the one of the selected
instance. A tool call puts the instance it started with into its scope, so its requests are on the session of their
scope exactly as long as that instance is still the selected one.
-/

namespace RackMcp.Server

open Gen

variable {N : Node} {s s' : Shared}

/-! ### Sessions -/

/-- The client is connected to a session of this instance and session id. -/
def Shared.OnSession (s : Shared) (c : ℕ) (instanceId sessionId : String) : Prop :=
  ∃ conn w, s.conns[c]? = some conn ∧ conn.welcome = some w ∧ w.instanceId = instanceId ∧ w.sessionId = sessionId

/-- The client in use is connected to the selected instance, and every client to the session that welcomed it. -/
structure Linked (s : Shared) : Prop where
  client : ∀ c, s.client = some c →
    ∃ selected, s.selected = some selected ∧ s.OnSession c selected.instanceId selected.sessionId
  welcomes : ∀ e ∈ s.exchanges, ∀ c w, e.call = .connect c → e.reply = some (.connected w) →
    ∃ conn, s.conns[c]? = some conn ∧ conn.welcome = some w

/-- No client is lost, and none is welcomed twice. -/
def SessionsKept (s s' : Shared) : Prop :=
  ∀ (c : ℕ) (conn : Conn) (w : Welcome), s.conns[c]? = some conn → conn.welcome = some w →
    ∃ conn', s'.conns[c]? = some conn' ∧ conn'.welcome = some w

theorem SessionsKept.refl (s : Shared) : SessionsKept s s := fun _ conn _ hconn hw => ⟨conn, hconn, hw⟩

theorem SessionsKept.trans {s'' : Shared} (h : SessionsKept s s') (h' : SessionsKept s' s'') :
    SessionsKept s s'' := by
  intro c conn w hconn hw
  obtain ⟨conn', hconn', hw'⟩ := h c conn w hconn hw
  exact h' c conn' w hconn' hw'

theorem SessionsKept.onSession (h : SessionsKept s s') {c : ℕ} {instanceId sessionId : String}
    (hsession : s.OnSession c instanceId sessionId) : s'.OnSession c instanceId sessionId := by
  obtain ⟨conn, w, hconn, hw, hids⟩ := hsession
  obtain ⟨conn', hconn', hw'⟩ := h c conn w hconn hw
  exact ⟨conn', w, hconn', hw', hids⟩

theorem sessionsKept_modify {f : Conn → Conn} (n : ℕ) (hconns : s'.conns = s.conns.modify n f)
    (hf : ∀ conn w, s.conns[n]? = some conn → conn.welcome = some w → (f conn).welcome = some w) :
    SessionsKept s s' := by
  intro c conn w hconn hw
  rw [hconns, List.getElem?_modify, hconn]
  by_cases hcn : n = c
  · subst hcn
    exact ⟨f conn, congrArg some (if_pos rfl), hf conn w hconn hw⟩
  · exact ⟨conn, congrArg some (if_neg hcn), hw⟩

theorem sessionsKept_of_conns (hconns : s'.conns = s.conns) : SessionsKept s s' :=
  fun _ conn _ hconn hw => ⟨conn, hconns ▸ hconn, hw⟩

theorem sessionsKept_teardown (c : ℕ) (reason : String) (s : Shared) : SessionsKept s (s.teardown c reason) := by
  unfold Shared.teardown
  split
  · exact sessionsKept_modify c rfl fun _ _ _ h => h
  · exact .refl s

theorem sessionsKept_disconnect (s : Shared) : SessionsKept s s.disconnect := by
  unfold Shared.disconnect
  split
  · exact .refl s
  · next c _ => exact sessionsKept_teardown c "client closed" s.unleased

theorem Reaction.sessionsKept (h : Reaction N s s') : SessionsKept s s' := by
  rcases h with _ | ⟨n, reply, -⟩ | ⟨n, frame⟩ | ⟨n, host, c, w, e, conn, he, hcall, hreply, hconn, hnone⟩ |
    ⟨c, reason⟩ | _
  · exact .refl s
  · exact .refl s
  · exact .refl s
  · refine sessionsKept_modify c rfl fun conn' w' hconn' hw' => ?_
    rw [hconn] at hconn'
    obtain rfl := Option.some.inj hconn'
    rw [hnone] at hw'
    cases hw'
  · exact sessionsKept_teardown c reason s
  · exact sessionsKept_disconnect s

theorem Link.sessionsKept (h : Link N s s') : SessionsKept s s' := by
  rcases h
  case teardown c reason => exact sessionsKept_teardown c reason s
  case disconnect => exact sessionsKept_disconnect s
  case deselect => exact (sessionsKept_disconnect s).trans (.refl _)
  case newClient port =>
    intro c conn w hconn hw
    have hlt := (List.getElem?_eq_some_iff.mp hconn).1
    exact ⟨conn, by rw [List.getElem?_append_left hlt]; exact hconn, hw⟩
  case react e => exact (reaction_react s e).sessionsKept
  all_goals exact .refl s

theorem Step.sessionsKept (h : Step N s s') : SessionsKept s s' := by
  rcases h with h | h
  · exact h.sessionsKept
  · exact sessionsKept_of_conns h.sameLinks.conns

theorem Grows.sessionsKept (h : Grows N s s') : SessionsKept s s' :=
  h.relates .refl .trans fun _ _ => Step.sessionsKept

/-! ### The client in use -/

/-- Every welcome an exchange got, one got before. -/
def WelcomesFrom (s s' : Shared) : Prop :=
  ∀ e' ∈ s'.exchanges, ∀ c w, e'.call = .connect c → e'.reply = some (.connected w) →
    ∃ e ∈ s.exchanges, e.call = .connect c ∧ e.reply = some (.connected w)

theorem WelcomesFrom.of_exchanges (h : s'.exchanges = s.exchanges) : WelcomesFrom s s' :=
  fun e' he' _ _ hcall hreply => ⟨e', h ▸ he', hcall, hreply⟩

theorem lostReply_ne_connected (reason : String) (call : Call) (w : Welcome) :
    lostReply reason call ≠ .connected w := by
  rcases call with c | c | r <;> exact fun h => by cases h

theorem welcomesFrom_teardown (c : ℕ) (reason : String) (s : Shared) : WelcomesFrom s (s.teardown c reason) := by
  unfold Shared.teardown
  split
  · intro e' he' c' w hcall hreply
    obtain ⟨e, he, rfl⟩ := List.mem_map.mp he'
    unfold Exchange.lose at hcall hreply
    split at hcall
    · next hlost =>
      rw [if_pos hlost] at hreply
      exact absurd (Option.some.inj hreply) (lostReply_ne_connected _ _ _)
    · next hkept =>
      rw [if_neg hkept] at hreply
      exact ⟨e, he, hcall, hreply⟩
  · exact .of_exchanges rfl

theorem welcomesFrom_disconnect (s : Shared) : WelcomesFrom s s.disconnect := by
  unfold Shared.disconnect
  split
  · exact .of_exchanges rfl
  · next c _ => exact welcomesFrom_teardown c "client closed" s.unleased

theorem mem_modify {l : List Exchange} {n : ℕ} {f : Exchange → Exchange} {e' : Exchange} (h : e' ∈ l.modify n f) :
    e' ∈ l ∨ ∃ e, l[n]? = some e ∧ e' = f e := by
  obtain ⟨m, hm⟩ := List.getElem?_of_mem h
  rw [List.getElem?_modify] at hm
  rcases he : l[m]? with _ | e
  · rw [he] at hm
    cases hm
  · rw [he] at hm
    by_cases hnm : n = m
    · subst hnm
      exact .inr ⟨e, he, (Option.some.inj hm).symm.trans (if_pos rfl)⟩
    · obtain rfl := (Option.some.inj hm).symm.trans (if_neg hnm)
      exact .inl (List.mem_of_getElem? he)

/-- A reply that is set is the one an exchange had, or the one it is given. -/
theorem welcome_of_setReply {n : ℕ} {reply : Reply} {e' : Exchange} (h : e' ∈ (s.setReply n reply).exchanges)
    {c : ℕ} {w : Welcome} (hcall : e'.call = .connect c) (hreply : e'.reply = some (.connected w)) :
    (∃ e ∈ s.exchanges, e.call = .connect c ∧ e.reply = some (.connected w)) ∨
      (reply = .connected w ∧ ∃ e, s.exchanges[n]? = some e ∧ e.call = .connect c) := by
  rcases mem_modify h with h | ⟨e, he, rfl⟩
  · exact .inl ⟨e', h, hcall, hreply⟩
  · rcases hold : e.reply with _ | old
    · have hreply : some (e.reply.getD reply) = some (.connected w) := hreply
      rw [hold] at hreply
      exact .inr ⟨Option.some.inj hreply, e, he, hcall⟩
    · have hreply : some (e.reply.getD reply) = some (.connected w) := hreply
      rw [hold] at hreply
      exact .inl ⟨e, List.mem_of_getElem? he, hcall, hold.trans hreply⟩

theorem welcomesFrom_response (n : ℕ) (frame : String) (s : Shared) : WelcomesFrom s (s.setResponse n frame) := by
  intro e' he' c w hcall hreply
  rcases mem_modify he' with h | ⟨e, he, rfl⟩
  · exact ⟨e', h, hcall, hreply⟩
  · exact ⟨e, List.mem_of_getElem? he, hcall, hreply⟩

theorem Linked.of_kept (h : Linked s) (hsessions : SessionsKept s s') (hwelcomes : WelcomesFrom s s')
    (hclient : s'.client = none ∨ (s'.client = s.client ∧ s'.selected = s.selected)) : Linked s' := by
  refine ⟨fun c hc => ?_, fun e' he' c w hcall hreply => ?_⟩
  · rcases hclient with hnone | ⟨hclient, hselected⟩
    · rw [hnone] at hc
      cases hc
    · obtain ⟨selected, hsome, hsession⟩ := h.client c (hclient ▸ hc)
      exact ⟨selected, hselected.trans hsome, hsessions.onSession hsession⟩
  · obtain ⟨e, he, hcall, hreply⟩ := hwelcomes e' he' c w hcall hreply
    obtain ⟨conn, hconn, hw⟩ := h.welcomes e he c w hcall hreply
    exact hsessions c conn w hconn hw

theorem client_teardown (c : ℕ) (reason : String) (s : Shared) :
    (s.teardown c reason).client = none ∨
      ((s.teardown c reason).client = s.client ∧ (s.teardown c reason).selected = s.selected) := by
  unfold Shared.teardown
  split
  · by_cases hc : s.client = some c
    · exact .inl (if_pos hc)
    · exact .inr ⟨if_neg hc, rfl⟩
  · exact .inr ⟨rfl, rfl⟩

theorem client_disconnect (s : Shared) : s.disconnect.client = none := by
  unfold Shared.disconnect
  split
  · next h => exact h
  · rfl

theorem Linked.reaction (hs : Linked s) (h : Reaction N s s') : Linked s' := by
  have hsessions := h.sessionsKept
  rcases h with _ | ⟨n, reply, hnot⟩ | ⟨n, frame⟩ | ⟨n, host, c, w, e, conn, he, hcall, hreply, hconn, hnone⟩ |
    ⟨c, reason⟩ | _
  · exact hs
  · refine hs.of_kept hsessions (fun e' he' c w hcall hreply => ?_) (.inr ⟨rfl, rfl⟩)
    exact (welcome_of_setReply he' hcall hreply).resolve_right fun h => hnot w h.1
  · exact hs.of_kept hsessions (welcomesFrom_response n frame s) (.inr ⟨rfl, rfl⟩)
  · refine ⟨fun c' hc' => ?_, fun e' he' c' w' hcall' hreply' => ?_⟩
    · obtain ⟨selected, hselected, hsession⟩ := hs.client c' hc'
      exact ⟨selected, hselected, hsessions.onSession hsession⟩
    · rcases welcome_of_setReply he' hcall' hreply' with ⟨e, he, hcall, hreply⟩ | ⟨hw, e'', he'', hcall''⟩
      · obtain ⟨conn, hconn, hw⟩ := hs.welcomes e he c' w' hcall hreply
        exact hsessions c' conn w' hconn hw
      · rw [he] at he''
        obtain rfl := Option.some.inj he''
        obtain rfl := Call.connect.inj (hcall.symm.trans hcall'')
        obtain rfl := Reply.connected.inj hw
        refine ⟨{ conn with host, welcome := some w }, ?_, rfl⟩
        show (s.conns.modify c _)[c]? = _
        rw [List.getElem?_modify, hconn]
        exact congrArg some (if_pos rfl)
  · exact hs.of_kept hsessions (welcomesFrom_teardown c reason s) (client_teardown c reason s)
  · exact hs.of_kept hsessions (welcomesFrom_disconnect s) (.inl (client_disconnect s))

theorem Linked.step (hs : Linked s) (h : Step N s s') : Linked s' := by
  have hsessions := h.sessionsKept
  rcases h with hlink | hdecision
  · rcases hlink
    case teardown c reason =>
      exact hs.of_kept hsessions (welcomesFrom_teardown c reason s) (client_teardown c reason s)
    case disconnect => exact hs.of_kept hsessions (welcomesFrom_disconnect s) (.inl (client_disconnect s))
    case deselect => exact hs.of_kept hsessions (welcomesFrom_disconnect s) (.inl (client_disconnect s))
    case install c found w h =>
      obtain ⟨e, he, hcall, hreply⟩ := h
      obtain ⟨conn, hconn, hw⟩ := hs.welcomes e he c w hcall hreply
      refine ⟨fun c' hc' => ?_, hs.welcomes⟩
      obtain rfl := Option.some.inj hc'
      exact ⟨_, rfl, conn, w, hconn, hw, rfl, rfl⟩
    case post i call _ =>
      refine hs.of_kept hsessions (fun e' he' c w hcall hreply => ?_) (.inr ⟨rfl, rfl⟩)
      rcases List.mem_append.mp he' with he' | he'
      · exact ⟨e', he', hcall, hreply⟩
      · rw [List.mem_singleton.mp he'] at hreply
        cases hreply
    case react e => exact hs.reaction (reaction_react s e)
    case response n frame => exact hs.of_kept hsessions (welcomesFrom_response n frame s) (.inr ⟨rfl, rfl⟩)
    all_goals exact hs.of_kept hsessions (.of_exchanges rfl) (.inr ⟨rfl, rfl⟩)
  · have hsame := hdecision.sameLinks
    exact hs.of_kept hsessions (.of_exchanges hsame.exchanges) (.inr ⟨hsame.client, hsame.selected⟩)

theorem linked_of_reachable (h : Reachable N s) : Linked s :=
  h.induction ⟨fun _ h => (by cases h), fun _ he => (by cases he)⟩ fun _ _ hstep hs => hs.step hstep

/-! ### Mutating requests -/

/-- The exchange asks for a mutation by this request. -/
def Exchange.Mutates (e : Exchange) (r : Request) : Prop := e.call = .request r ∧ r.method ∈ mutatingMethods

/-- The ids in the scope of a payload. -/
def scopeIds (payload : Json) : String × String :=
  let scope := Json.get payload "scope"
  (jstr scope "instanceId", jstr scope "sessionId")

/-- The request travels on a session of its scope. -/
def Shared.OnScope (s : Shared) (r : Request) : Prop :=
  s.OnSession r.conn (scopeIds r.payload).1 (scopeIds r.payload).2

/-- When the exchange was made, the instance of the scope of its request was the selected one. -/
def Exchange.ScopeSelected (e : Exchange) (r : Request) : Prop :=
  ∃ selected, e.selected = some selected ∧ (selected.instanceId, selected.sessionId) = scopeIds r.payload

theorem Shared.OnSession.unique {c : ℕ} {i i' t t' : String} (h : s.OnSession c i t) (h' : s.OnSession c i' t') :
    i = i' ∧ t = t' := by
  obtain ⟨conn, w, hconn, hw, rfl, rfl⟩ := h
  obtain ⟨conn', w', hconn', hw', rfl, rfl⟩ := h'
  rw [hconn] at hconn'
  obtain rfl := Option.some.inj hconn'
  rw [hw] at hw'
  obtain rfl := Option.some.inj hw'
  exact ⟨rfl, rfl⟩

/-- A request is on the session of the instance that was selected when it was made. -/
theorem request_onSession (hreach : Reachable N s) {e : Exchange} (he : e ∈ s.exchanges) {r : Request}
    (hcall : e.call = .request r) :
    ∃ selected, e.selected = some selected ∧ s.OnSession r.conn selected.instanceId selected.sessionId := by
  obtain ⟨n, hn⟩ := List.getElem?_of_mem he
  obtain ⟨s₀, hreach₀, -, hallowed, hselected, hgrows⟩ := origin hreach hn
  obtain ⟨selected, hsome, hsession⟩ := (linked_of_reachable hreach₀).client r.conn (hallowed r hcall).1
  exact ⟨selected, hselected.trans hsome, hgrows.sessionsKept.onSession hsession⟩

/-- The ids in the scope are those the confirmation of the exchange was compared with. -/
structure Shared.ScopeConfirmed (s : Shared) (e : Exchange) (r : Request) : Prop where
  plan : r.method = "txn.commit" → ∃ args plan checkedAt tokenAt,
    .admitted e.caller args plan checkedAt tokenAt ∈ s.trail ∧
      (plan.instanceId, plan.sessionId) = scopeIds r.payload
  binding : r.method = "patchfile.load" ∨ r.method = "patchfile.clear" → ∃ id binding b,
    .loadMinted id binding ∈ s.trail ∧ .burned e.caller id b ∈ s.trail ∧
      (binding.instanceId, binding.sessionId) = scopeIds r.payload

theorem scopeConfirmed_of_sanctioned {e : Exchange} {r : Request} (hmutating : r.method ∈ mutatingMethods)
    (h : Sanctioned N s e.caller r) : s.ScopeConfirmed e r := by
  rcases h
  case reads hreads _ => exact absurd hmutating hreads
  case commit args selected plan checkedAt tokenAt hidle htool hadmitted hinstance hmethod hpayload hid =>
    refine ⟨fun _ => ⟨args, plan, checkedAt, tokenAt, hadmitted, ?_⟩, fun h => ?_⟩
    · rw [hpayload, hinstance.1, hinstance.2]
      rfl
    · rw [hmethod] at h
      exact absurd h (by decide)
  case load selected kind operationId path id binding hidle hconfirmed hkind hmethod hpayload hid =>
    obtain ⟨b, hburned⟩ := hconfirmed.burned
    refine ⟨fun h => ?_, fun _ => ⟨id, binding, b, hconfirmed.minted, hburned, ?_⟩⟩
    · rw [hmethod] at h
      exact absurd h (by decide)
    · rw [hpayload, hconfirmed.bound.2.1, hconfirmed.bound.2.2]
      rfl
  case clear selected operationId id binding hidle hconfirmed hmethod hpayload hid =>
    obtain ⟨b, hburned⟩ := hconfirmed.burned
    refine ⟨fun h => ?_, fun _ => ⟨id, binding, b, hconfirmed.minted, hburned, ?_⟩⟩
    · rw [hmethod] at h
      exact absurd h (by decide)
    · rw [hpayload, hconfirmed.bound.2.1, hconfirmed.bound.2.2]
      rfl
  all_goals
    next hmethod _ _ =>
    refine ⟨fun h => ?_, fun h => ?_⟩ <;> rw [hmethod] at h <;> exact absurd h (by decide)

theorem scopeConfirmed_of_reachable (hreach : Reachable N s) {e : Exchange} (he : e ∈ s.exchanges) {r : Request}
    (hmutates : e.Mutates r) : s.ScopeConfirmed e r := by
  obtain ⟨n, hn⟩ := List.getElem?_of_mem he
  obtain ⟨s₀, hreach₀, -, hallowed, -, hgrows⟩ := origin hreach hn
  have h := scopeConfirmed_of_sanctioned hmutates.2 (hallowed r hmutates.1).2
  refine ⟨fun hmethod => ?_, fun hmethod => ?_⟩
  · obtain ⟨args, plan, checkedAt, tokenAt, hadmitted, hids⟩ := h.plan hmethod
    exact ⟨args, plan, checkedAt, tokenAt, hgrows.mark hadmitted, hids⟩
  · obtain ⟨id, binding, b, hminted, hburned, hids⟩ := h.binding hmethod
    exact ⟨id, binding, b, hgrows.mark hminted, hgrows.mark hburned, hids⟩

/-- Each mutating request of a run is on the session of its scope, the one its confirmation was compared with, if and
only if the instance of the scope was still the selected one when the request was made. -/
theorem affinity_iff (N : Node) (rack : Rack) (J : Jansson) (sites : List Site) (es : List WorldEvent) (k : ℕ) :
    (∀ e ∈ (World.stateAt N rack J sites es k).server.exchanges, ∀ r, e.Mutates r →
        (World.stateAt N rack J sites es k).server.OnScope r ∧
          (World.stateAt N rack J sites es k).server.ScopeConfirmed e r) ↔
      ∀ e ∈ (World.stateAt N rack J sites es k).server.exchanges, ∀ r, e.Mutates r → e.ScopeSelected r := by
  have hreach := World.reachable_stateAt (N := N) rack J sites es k
  refine forall_congr' fun e => forall_congr' fun he => forall_congr' fun r => forall_congr' fun hmutates => ?_
  rw [and_iff_left (scopeConfirmed_of_reachable hreach he hmutates)]
  obtain ⟨selected, hselected, hsession⟩ := request_onSession hreach he hmutates.1
  constructor
  · intro hscope
    obtain ⟨hi, ht⟩ := hsession.unique hscope
    exact ⟨selected, hselected, Prod.ext hi ht⟩
  · rintro ⟨selected', hselected', hids⟩
    rw [hselected] at hselected'
    obtain rfl := Option.some.inj hselected'
    unfold Shared.OnScope
    rw [← hids]
    exact hsession

/-! ### A bench server -/

/-- A file system without links, whose files all hold a patch. -/
def benchFiles : FileSystem where
  realpath path := .ok path
  readlink _ := none
  isFile _ := some true
  size _ := 1
  mkdir _ := none
  create _ := none

/-- Two running Racks. -/
def benchInstances : List Discovered := [⟨"A", 7001, 1, false⟩, ⟨"B", 7002, 2, false⟩]

/-- A node that reads the texts of the given values, and at first finds only the first Rack. -/
def benchNode (values : List Json) : Node where
  config := { checkpointsDir := "/checkpoints", patchesDir := "/patches" }
  cwd := "/"
  now n := n
  randomUUID n := "00000000-0000-4000-8000-0000000000" ++ toString (10 + n)
  requestId n := "00000000000000" ++ toString (10 + n)
  randomId n := String.ofList (List.replicate n 'A')
  files _ := benchFiles
  instances n := if n = 0 then benchInstances.take 1 else benchInstances
  pairingSecret _ := none
  hmac _ := "mac"
  encodeBody := compactText
  decodeBody text := values.find? (compactText · == text)
  parse text := values.find? (compactText · == text)
  byteLength v := (compactText v).utf8ByteSize
  toISOString n := toString n
  getRecipe _ := none
  patience := 3

/-- What the Rack of this instance and session answers to a hello. -/
def benchWelcome (instanceId sessionId : String) : Welcome := ⟨instanceId, sessionId, "2.6.0", "Free", 1⟩

def notReadyFrame (id : String) : Json :=
  .object (resError id .bridgeNotReady "the bridge is still starting" true false)

def leaseFrame (id : String) : Json :=
  .object (resOk id (some (.object [("leaseId", .string "lease"), ("expiresInMs", .integer 30000)])))

/-- A tool call goes on, as far as it can in so many turns. -/
def resumes (i turns : ℕ) : List WorldEvent := List.replicate turns (.resume i)

def switchValues : List Json := [notReadyFrame "0000000000000014", leaseFrame "0000000000000022"]

/-- A save starts on Rack A and waits for it to be ready; meanwhile Rack B is selected; the save goes on. -/
def switchEvents : List WorldEvent :=
  [.call (.savePatch none "11111111-1111-4111-8111-111111111111"), .resume 0,
    .server (.welcome 0 0 (benchWelcome "A" "a"))] ++ resumes 0 2 ++
  [.server (.handshake 1 .authenticated)] ++ resumes 0 6 ++
  [.server (.answer 2 (compactText (notReadyFrame "0000000000000014"))), .server (.deliver 2), .resume 0] ++
  [.call (.selectRackInstance "B"), .resume 1, .server (.welcome 3 1 (benchWelcome "B" "b"))] ++ resumes 1 2 ++
  [.server (.handshake 4 .authenticated)] ++ resumes 1 6 ++ resumes 0 3 ++ [.server (.timeout 6)] ++ resumes 0 9 ++
  [.server (.answer 7 (compactText (leaseFrame "0000000000000022"))), .server (.deliver 7)] ++ resumes 0 6

/-- The server at the end of that run. -/
def switched : Shared :=
  (World.stateAt (benchNode switchValues) benchRack benchJansson [] switchEvents switchEvents.length).server

/-- Exchange `n` asks for a mutation on a session that is not the one of its scope. -/
def Shared.misdirected (s : Shared) (n : ℕ) : Bool :=
  match s.requestAt n with
  | none => false
  | some r =>
    r.method ∈ mutatingMethods &&
      match s.conns[r.conn]? with
      | some { welcome := some w, .. } => (w.instanceId, w.sessionId) ≠ scopeIds r.payload
      | _ => false

theorem switched_misdirected : switched.misdirected 8 = true := by decide +kernel

theorem exists_of_misdirected {n : ℕ} (h : s.misdirected n = true) :
    ∃ e ∈ s.exchanges, ∃ r, e.Mutates r ∧ ¬ s.OnScope r := by
  unfold Shared.misdirected Shared.requestAt at h
  split at h
  · cases h
  · next r hr =>
    split at hr
    · next he =>
      obtain rfl := Option.some.inj hr
      rw [Bool.and_eq_true, decide_eq_true_eq] at h
      refine ⟨_, List.mem_of_getElem? he, _, ⟨rfl, h.1⟩, ?_⟩
      rintro ⟨conn, w, hconn, hw, hids⟩
      obtain ⟨port, host, welcome, isOpen⟩ := conn
      obtain rfl : welcome = some w := hw
      rw [hconn] at h
      simp [hids.1, hids.2] at h
    · cases hr

/-- A save that started on one Rack can go to another that was selected meanwhile. -/
theorem save_goes_to_another_rack :
    ¬ ∀ (N : Node) (rack : Rack) (J : Jansson) (sites : List Site) (es : List WorldEvent) (k : ℕ),
      ∀ e ∈ (World.stateAt N rack J sites es k).server.exchanges, ∀ r, e.Mutates r →
        (World.stateAt N rack J sites es k).server.OnScope r ∧
          (World.stateAt N rack J sites es k).server.ScopeConfirmed e r := by
  intro hall
  obtain ⟨e, he, r, hmutates, hnot⟩ := exists_of_misdirected switched_misdirected
  unfold switched at he hnot
  exact hnot (hall (benchNode switchValues) benchRack benchJansson [] switchEvents switchEvents.length e he r
    hmutates).1

end RackMcp.Server
