import RackMcp.Lib.Keyed
import RackMcp.Lib.Settling
import RackMcp.Lib.Trace
import RackMcp.Server.BridgeRequests

/-!
# Each request settles once

What happens to a client is told from its events alone (`Happened`): the requests that are made, the frames that its
decoder yields, the timers and what closes it. The client keeps the ledger of that history (`Keeps`): its pending map
is what waits there, its timers are theirs, and it has settled what the ledger has. The ids of the requests made so far
have to differ for that, since the pending map is keyed by them.
-/

namespace RackMcp.Server

open Settling

/-! ### What happens -/

/-- What can settle requests. -/
inductive ClientOccurrence where
  /-- A request is made while the client is not connected, or its frame cannot be sent. -/
  | notSent (call : ℕ) (e : String)
  /-- A res frame arrives. -/
  | response (frame : Json)
  /-- The deadline of a request passes. -/
  | timedOut (call : ℕ) (method : String) (deadlineMs : Nat)
  /-- The client is closed, its socket is, or what arrives cannot be read. -/
  | tornDown (reason : String)

/-- What an occurrence settles a request with. -/
def ClientOccurrence.settles (E : ClientSite) (call : ℕ) : ClientOccurrence → Option Settlement
  | .notSent call' e => if call = call' then some (.rejected (.error e)) else none
  | .response frame =>
    if Json.get frame "id" = some (.string (E.randomId call)) then some (responseSettles frame) else none
  | .timedOut call' method deadlineMs =>
    if call = call' then some (.rejected (timeoutError method deadlineMs)) else none
  | .tornDown reason => some (.rejected (disconnectedError reason))

/-- What arrives: a frame, a text that is no JSON, or bytes that are no frame. -/
inductive Arrival where
  | frame (frame : Json)
  | invalid
  | undecodable

/-- What the decoder yields of what it has; null and a text that is no JSON end it. -/
def arrivals (E : ClientSite) {maxFrameBytes : ℕ} (d : FrameDecoder maxFrameBytes) :
    List Arrival × FrameDecoder maxFrameBytes :=
  match _h : d.next with
  | (none, d) => (if d.failed then [.undecodable] else [], d)
  | (some bytes, d) =>
    match E.parse bytes with
    | none => ([.invalid], d)
    | some frame =>
      if frame = .null then ([], d) else (.frame frame :: (arrivals E d).1, (arrivals E d).2)
termination_by d.buffered
decreasing_by all_goals exact FrameDecoder.next_shrinks _h

/-- What has happened to a client. -/
structure Happened where
  connected : Bool := false
  down : Bool := false
  /-- The method and the deadline of each request that was made. -/
  requests : List (String × ℕ) := []
  events : ℕ := 0
  history : List (Entry ClientOccurrence) := []

namespace Happened

def occur (t : Happened) (o : ClientOccurrence) : Happened := { t with history := t.history ++ [.happens o] }

def tearDown (t : Happened) (reason : String) : Happened := { t.occur (.tornDown reason) with down := true }

/-- A request is made. -/
def made (t : Happened) (method : String) (deadlineMs : ℕ) : Happened :=
  { t with requests := t.requests ++ [(method, deadlineMs)], history := t.history ++ [Entry.opens] }

def call (t : Happened) : ClientCall → Happened
  | .request method deadlineMs sendError =>
    if t.connected ∧ ¬ t.down then
      match sendError with
      | none => t.made method deadlineMs
      | some e => (t.made method deadlineMs).occur (.notSent t.requests.length e)
    else (t.made method deadlineMs).occur (.notSent t.requests.length "not connected")
  | .close => t.tearDown "client closed"

def arrive (E : ClientSite) (t : Happened) : Arrival → Happened
  | .frame frame =>
    if Json.get frame "kind" = some (.string "res") then t.occur (.response frame)
    else if Json.get frame "kind" = some (.string "evt") then
      (E.onEvent t.events frame).foldl call { t with events := t.events + 1 }
    else t
  | .invalid => t.tearDown "bridge sent invalid JSON"
  | .undecodable => t.tearDown "bridge frame decode error"

def fire (t : Happened) (call : ℕ) : Happened :=
  match t.requests[call]? with
  | none => t
  | some (method, deadlineMs) => t.occur (.timedOut call method deadlineMs)

/-- What has happened after an event. -/
def step (E : ClientSite) {maxFrameBytes : ℕ} (t : FrameDecoder maxFrameBytes × Happened) (e : ClientEvent) :
    (FrameDecoder maxFrameBytes × Happened) × List Unit :=
  match e with
  | .connected => ((t.1, { t.2 with connected := true }), [])
  | .call c => ((t.1, t.2.call c), [])
  | .data chunk =>
    if (t.1.push chunk).1 then
      (((arrivals E (t.1.push chunk).2).2, (arrivals E (t.1.push chunk).2).1.foldl (arrive E) t.2), [])
    else (((t.1.push chunk).2, t.2.arrive E .undecodable), [])
  | .fire call => ((t.1, t.2.fire call), [])
  | .socketClosed => ((t.1, t.2.tearDown "bridge connection closed"), [])
  | .socketError => ((t.1, t.2.tearDown "bridge connection error"), [])

/-- The ledger of what has happened. -/
def ledger (E : ClientSite) (t : Happened) : Ledger Settlement :=
  Settling.ledger (ClientOccurrence.settles E) t.history

variable {E : ClientSite}

theorem ledger_occur (t : Happened) (o : ClientOccurrence) :
    (t.occur o).ledger E = (t.ledger E).enter (ClientOccurrence.settles E) (.happens o) := ledger_concat _

theorem ledger_made (t : Happened) (method : String) (deadlineMs : ℕ) :
    (t.made method deadlineMs).ledger E = (t.ledger E).enter (ClientOccurrence.settles E) .opens := ledger_concat _

theorem balanced (t : Happened) : (t.ledger E).Balanced := balanced_ledger _ _

end Happened

namespace BridgeClient

variable {E : ClientSite} {t u v : Happened} {s s' s'' : BridgeClient}

/-- The client keeps the ledger of what has happened. -/
structure Keeps (E : ClientSite) (t : Happened) (s : BridgeClient) : Prop where
  requests : s.requests = (t.ledger E).opened
  made : s.requests = t.requests.length
  pending : s.pending = (t.ledger E).waiting.map fun call => ⟨E.randomId call, call⟩
  timers :
    s.timers.map (fun timer => (timer.call, timer.id)) = (t.ledger E).waiting.map fun call => (call, E.randomId call)
  deadlines : ∀ timer ∈ s.timers, t.requests[timer.call]? = some (timer.method, timer.deadlineMs)
  settled : s.settled = (t.ledger E).settled
  down : s.closed = t.down
  closed : t.down = true → (t.ledger E).waiting = []
  socket : s.closed = false → s.socket = t.connected
  events : s.events = t.events

/-- The first so many requests have different ids. -/
def DistinctIds (E : ClientSite) (n : ℕ) : Prop := ∀ i j, i < n → j < n → E.randomId i = E.randomId j → i = j

/-- More requests have happened, and if their ids differ the client goes on keeping the ledger. -/
structure Advances (E : ClientSite) (t : Happened) (s : BridgeClient) (u : Happened) (s' : BridgeClient) : Prop where
  requests : t.requests.length ≤ u.requests.length
  keeps : Keeps E t s → DistinctIds E u.requests.length → Keeps E u s'

theorem DistinctIds.mono {m n : ℕ} (h : DistinctIds E n) (hle : m ≤ n) : DistinctIds E m :=
  fun i j hi hj => h i j (hi.trans_le hle) (hj.trans_le hle)

theorem Advances.refl (t : Happened) (s : BridgeClient) : Advances E t s t s := ⟨le_rfl, fun h _ => h⟩

theorem Advances.trans (h : Advances E t s u s') (h' : Advances E u s' v s'') : Advances E t s v s'' :=
  ⟨h.requests.trans h'.requests, fun hs hids => h'.keeps (h.keeps hs (hids.mono h'.requests)) hids⟩

/-! ### What a client that keeps its ledger has -/

section Keeps
variable (h : Keeps E t s)
include h

theorem Keeps.mem_pending {entry : PendingRequest} (hentry : entry ∈ s.pending) :
    entry.call ∈ (t.ledger E).waiting ∧ entry.id = E.randomId entry.call := by
  rw [h.pending] at hentry
  obtain ⟨call, hcall, rfl⟩ := List.mem_map.mp hentry
  exact ⟨hcall, rfl⟩

theorem Keeps.mem_timers {timer : RequestTimer} (htimer : timer ∈ s.timers) :
    timer.call ∈ (t.ledger E).waiting ∧ timer.id = E.randomId timer.call := by
  have hmem := List.mem_map_of_mem (f := fun timer : RequestTimer => (timer.call, timer.id)) htimer
  rw [h.timers] at hmem
  obtain ⟨call, hcall, heq⟩ := List.mem_map.mp hmem
  obtain ⟨rfl, hid⟩ := Prod.mk.inj heq
  exact ⟨hcall, hid.symm⟩

theorem Keeps.lt_requests {call : ℕ} (hcall : call ∈ (t.ledger E).waiting) : call < t.requests.length := by
  rw [← h.made, h.requests]
  exact ((t.balanced.waits_iff call).mp hcall).1

/-- Entries with one id are entries of one request. -/
theorem Keeps.call_eq (hids : DistinctIds E t.requests.length) {i j : ℕ} (hi : i ∈ (t.ledger E).waiting)
    (hj : j ∈ (t.ledger E).waiting) (hij : E.randomId i = E.randomId j) : i = j :=
  hids i j (h.lt_requests hi) (h.lt_requests hj) hij

/-- What settles no request that waits. -/
theorem Keeps.settle_none {o : ClientOccurrence} (hsettles : ∀ n ∈ (t.ledger E).waiting, o.settles E n = none) :
    Keeps E (t.occur o) s := by
  have hledger : (t.occur o).ledger E = t.ledger E := (t.ledger_occur o).trans (enter_none hsettles)
  exact ⟨h.requests.trans (by rw [hledger]), h.made, h.pending.trans (by rw [hledger]),
    h.timers.trans (by rw [hledger]),
    h.deadlines, h.settled.trans (by rw [hledger]), h.down, fun hdown => hledger ▸ h.closed hdown, h.socket, h.events⟩

/-- What settles one request that waits, and takes its entry and its timer away. -/
theorem Keeps.settle_one (hids : DistinctIds E t.requests.length) {o : ClientOccurrence} {call : ℕ} {value : Settlement}
    (hcall : call ∈ (t.ledger E).waiting)
    (hsettles : ∀ n ∈ (t.ledger E).waiting, o.settles E n = if n = call then some value else none) :
    Keeps E (t.occur o) (((s.drop (E.randomId call)).clearTimer call).settle call value) := by
  have hledger : (t.occur o).ledger E = { t.ledger E with
      waiting := (t.ledger E).waiting.filter (· ≠ call)
      settled := (t.ledger E).settled ++ [(call, value)] } :=
    (t.ledger_occur o).trans (enter_one t.balanced.waiting_nodup hcall hsettles)
  refine ⟨?_, h.made, ?_, ?_, fun timer htimer => h.deadlines timer (List.mem_of_mem_filter htimer), ?_, h.down,
    fun hdown => ?_, h.socket, h.events⟩
  · rw [hledger]
    exact h.requests
  · show s.pending.filter (·.id ≠ E.randomId call) = _
    rw [hledger, h.pending, List.filter_map]
    refine congrArg (List.map _) (List.filter_congr fun n hn => ?_)
    have hiff : E.randomId n = E.randomId call ↔ n = call := ⟨h.call_eq hids hn hcall, fun heq => heq ▸ rfl⟩
    simp [hiff]
  · have hfilter : (s.timers.filter (·.call ≠ call)).map (fun timer => (timer.call, timer.id)) =
        (s.timers.map fun timer => (timer.call, timer.id)).filter (·.1 ≠ call) := by
      rw [List.filter_map]
      rfl
    show (s.timers.filter (·.call ≠ call)).map _ = _
    rw [hledger, hfilter, h.timers, List.filter_map]
    rfl
  · show s.settled ++ _ = _
    rw [hledger, h.settled]
  · rw [hledger, h.closed hdown]
    rfl

/-- What settles every request that waits, and clears the pending map and its timers. -/
theorem Keeps.settle_all (reason : String) : Keeps E (t.tearDown reason) (s.teardown reason) := by
  have hledger : (t.tearDown reason).ledger E = { t.ledger E with
      waiting := []
      settled := (t.ledger E).settled ++ (t.ledger E).waiting.map (·, .rejected (disconnectedError reason)) } :=
    (t.ledger_occur _).trans (enter_all fun n => rfl)
  unfold teardown
  by_cases hclosed : s.closed = true
  · -- nothing waits any more
    have hdown : t.down = true := h.down ▸ hclosed
    have hsame : (t.tearDown reason).ledger E = t.ledger E := by
      rw [hledger]
      have hnone := h.closed hdown
      rcases hl : t.ledger E with ⟨opened, waiting, settled⟩
      rw [hl] at hnone
      obtain rfl : waiting = [] := hnone
      rw [List.map_nil, List.append_nil]
    rw [if_pos hclosed]
    exact ⟨h.requests.trans (by rw [hsame]), h.made, h.pending.trans (by rw [hsame]), h.timers.trans (by rw [hsame]),
      h.deadlines, h.settled.trans (by rw [hsame]), hclosed, fun _ => by rw [hledger],
      fun hopen => absurd (hclosed.symm.trans hopen) (by decide), h.events⟩
  rw [if_neg hclosed]
  have hnone : (s.timers.filter fun timer => timer.call ∉ s.pending.map (·.call)) = [] := by
    refine List.filter_eq_nil_iff.mpr fun timer htimer => ?_
    have hcall : timer.call ∈ s.pending.map (·.call) := by
      rw [h.pending, List.map_map]
      exact List.mem_map.mpr ⟨timer.call, (h.mem_timers htimer).1, rfl⟩
    simpa using hcall
  refine ⟨?_, h.made, ?_, ?_, fun timer htimer => ?_, ?_, rfl, fun _ => by rw [hledger], fun hopen => ?_, h.events⟩
  · rw [hledger]
    exact h.requests
  · rw [hledger]
    rfl
  · dsimp only
    rw [hledger, hnone]
    rfl
  · dsimp only at htimer
    rw [hnone] at htimer
    exact absurd htimer List.not_mem_nil
  · dsimp only
    rw [hledger, h.settled, h.pending, List.map_map]
    rfl
  · cases hopen

/-- No entry has the id of the next request. -/
theorem Keeps.fresh (hids : DistinctIds E (t.requests.length + 1)) :
    s.pending.filter (·.id ≠ E.randomId s.requests) = s.pending ∧ s.timers.filter (·.call ≠ s.requests) = s.timers := by
  have hmade := h.made
  refine ⟨List.filter_eq_self.mpr fun entry hentry => ?_, List.filter_eq_self.mpr fun timer htimer => ?_⟩
  · obtain ⟨hcall, hid⟩ := h.mem_pending hentry
    have hlt := h.lt_requests hcall
    refine decide_eq_true fun heq => ?_
    have hsame := hids entry.call s.requests (by omega) (by omega) (hid.symm.trans heq)
    omega
  · have hlt := h.lt_requests (h.mem_timers htimer).1
    exact decide_eq_true fun heq => by omega

/-- The deadlines of the timers stay those of their requests. -/
theorem Keeps.deadlines_made (method : String) (deadlineMs : ℕ) : ∀ timer ∈ s.timers,
    (t.made method deadlineMs).requests[timer.call]? = some (timer.method, timer.deadlineMs) := by
  intro timer htimer
  have hlt := h.lt_requests (h.mem_timers htimer).1
  show (t.requests ++ [(method, deadlineMs)])[timer.call]? = _
  rw [List.getElem?_append_left hlt]
  exact h.deadlines timer htimer

theorem Keeps.made_concat (method : String) (deadlineMs : ℕ) :
    s.requests + 1 = (t.made method deadlineMs).requests.length := by
  show _ = (t.requests ++ [(method, deadlineMs)]).length
  rw [List.length_append, List.length_singleton, h.made]

/-- A request that is sent waits. -/
theorem Keeps.sent (hids : DistinctIds E (t.requests.length + 1)) (method : String) (deadlineMs : ℕ)
    (hopen : s.closed = false) : Keeps E (t.made method deadlineMs)
      ({ s with requests := s.requests + 1 }.enqueue ⟨s.requests, E.randomId s.requests, method, deadlineMs⟩) := by
  have hwaiting : ((t.made method deadlineMs).ledger E).waiting = (t.ledger E).waiting ++ [s.requests] := by
    rw [t.ledger_made, h.requests]
    rfl
  refine ⟨?_, h.made_concat method deadlineMs, ?_, ?_, fun timer htimer => ?_, ?_, h.down, fun hdown => ?_, h.socket,
    h.events⟩
  · rw [t.ledger_made]
    exact congrArg (· + 1) h.requests
  · show s.pending.filter (·.id ≠ E.randomId s.requests) ++ _ = _
    rw [hwaiting, (h.fresh hids).1, List.map_append, ← h.pending]
    rfl
  · show (s.timers ++ _).map _ = _
    rw [hwaiting, List.map_append, h.timers, List.map_append]
    rfl
  · obtain htimer | htimer := List.mem_append.mp htimer
    · exact h.deadlines_made method deadlineMs timer htimer
    · rw [List.mem_singleton.mp htimer]
      show (t.requests ++ [(method, deadlineMs)])[s.requests]? = _
      rw [h.made, List.getElem?_concat_length]
  · rw [t.ledger_made]
    exact h.settled
  · have hdown : t.down = true := hdown
    rw [← h.down, hopen] at hdown
    exact absurd hdown (by decide)

/-- A request that is not sent is settled at once. -/
theorem Keeps.unsent (method : String) (deadlineMs : ℕ) (e : String) {s' : BridgeClient}
    (hrequests : s'.requests = s.requests + 1) (hpending : s'.pending = s.pending) (htimers : s'.timers = s.timers)
    (hsettled : s'.settled = s.settled ++ [(s.requests, .rejected (.error e))]) (hclosed : s'.closed = s.closed)
    (hsocket : s'.socket = s.socket) (hevents : s'.events = s.events) :
    Keeps E ((t.made method deadlineMs).occur (.notSent t.requests.length e)) s' := by
  have hledger : ((t.made method deadlineMs).occur (.notSent t.requests.length e)).ledger E = { t.ledger E with
      opened := (t.ledger E).opened + 1
      settled := (t.ledger E).settled ++ [((t.ledger E).opened, .rejected (.error e))] } := by
    rw [Happened.ledger_occur, Happened.ledger_made, ← h.made, h.requests]
    exact enter_opened t.balanced fun n => rfl
  refine ⟨?_, ?_, ?_, ?_, fun timer htimer => ?_, ?_, hclosed.trans h.down, fun hdown => ?_, fun hopen => ?_,
    hevents.trans h.events⟩
  · rw [hledger, hrequests, h.requests]
  · rw [hrequests]
    exact h.made_concat method deadlineMs
  · rw [hledger, hpending, h.pending]
  · rw [hledger, htimers, h.timers]
  · exact h.deadlines_made method deadlineMs timer (htimers ▸ htimer)
  · rw [hledger, hsettled, h.settled, h.requests]
  · rw [hledger]
    exact h.closed hdown
  · exact hsocket.trans (h.socket (hclosed ▸ hopen))

end Keeps

/-! ### The steps -/

/-- A res frame finds the entry with its id, if there is one. -/
theorem respond_cases (s : BridgeClient) (frame : Json) :
    (s.respond frame = s ∧ ∀ entry ∈ s.pending, Json.get frame "id" ≠ some (.string entry.id)) ∨
    ∃ entry ∈ s.pending, Json.get frame "id" = some (.string entry.id) ∧
      s.respond frame = ((s.drop entry.id).clearTimer entry.call).settle entry.call (responseSettles frame) := by
  unfold respond
  split
  · next id hid =>
    rcases hentry : s.entry id with _ | entry
    · refine .inl ⟨rfl, fun entry hmem heq => ?_⟩
      have hnone := List.find?_eq_none.mp hentry entry hmem
      rw [hid, Option.some.injEq, Json.string.injEq] at heq
      exact hnone (beq_iff_eq.mpr heq.symm)
    · obtain ⟨hmem, hfound⟩ := Keyed.mem_of_find? hentry
      subst hfound
      exact .inr ⟨entry, hmem, hid, rfl⟩
  · next hid => exact .inl ⟨rfl, fun entry _ heq => hid _ heq⟩

theorem advances_respond (t : Happened) (s : BridgeClient) (frame : Json) :
    Advances E t s (t.occur (.response frame)) (s.respond frame) := by
  refine ⟨le_rfl, fun h hids => ?_⟩
  rcases s.respond_cases frame with ⟨heq, hnone⟩ | ⟨entry, hentry, hid, heq⟩
  · rw [heq]
    refine h.settle_none fun n hn => if_neg (hnone ⟨E.randomId n, n⟩ ?_)
    rw [h.pending]
    exact List.mem_map_of_mem hn
  · obtain ⟨hcall, hentryId⟩ := h.mem_pending hentry
    rw [heq, hentryId]
    rw [hentryId] at hid
    refine h.settle_one hids hcall fun n hn => ?_
    show (if Json.get frame "id" = some (.string (E.randomId n)) then _ else _) = _
    refine if_congr ?_ rfl rfl
    rw [hid, Option.some.injEq, Json.string.injEq]
    exact ⟨fun h' => (h.call_eq hids hcall hn h').symm, fun h' => h' ▸ rfl⟩

/-- The timer of a request that waits is there, and of no other. -/
theorem advances_fire (t : Happened) (s : BridgeClient) (call : ℕ) : Advances E t s (t.fire call) (s.fire call) := by
  refine ⟨?_, fun h hids' => ?_⟩
  · unfold Happened.fire
    split
    · exact le_rfl
    · exact le_rfl
  have hids : DistinctIds E t.requests.length := by
    unfold Happened.fire at hids'
    split at hids'
    · exact hids'
    · exact hids'
  unfold fire
  rcases hfind : s.timers.find? (·.call == call) with _ | timer
  · have hidle : call ∉ (t.ledger E).waiting := by
      intro hcall
      have hmem : (call, E.randomId call) ∈ s.timers.map fun timer => (timer.call, timer.id) := by
        rw [h.timers]
        exact List.mem_map_of_mem hcall
      obtain ⟨timer, htimer, heq⟩ := List.mem_map.mp hmem
      have hnone := List.find?_eq_none.mp hfind timer htimer
      exact hnone (beq_iff_eq.mpr (Prod.mk.inj heq).1)
    rw [hfind]
    unfold Happened.fire
    split
    · exact h
    · next method deadlineMs hmade =>
      refine h.settle_none fun n hn => ?_
      have hne : n ≠ call := by
        rintro rfl
        exact hidle hn
      exact if_neg hne
  · obtain ⟨hmem, rfl⟩ := Keyed.mem_of_find? hfind
    obtain ⟨hcall, hid⟩ := h.mem_timers hmem
    rw [hfind]
    unfold Happened.fire
    rw [h.deadlines timer hmem]
    dsimp only
    rw [hid]
    exact h.settle_one hids hcall fun n _ => rfl

theorem advances_teardown (t : Happened) (s : BridgeClient) (reason : String) :
    Advances E t s (t.tearDown reason) (s.teardown reason) := ⟨le_rfl, fun h _ => h.settle_all reason⟩

/-- A request finds the entry it made. -/
theorem entry_enqueue (s : BridgeClient) (timer : RequestTimer) :
    (s.enqueue timer).entry timer.id = some ⟨timer.id, timer.call⟩ := by
  have hnone : (s.pending.filter (·.id ≠ timer.id)).find? (·.id == timer.id) = none := by
    refine List.find?_eq_none.mpr fun entry hentry => ?_
    have hne := of_decide_eq_true (List.mem_filter.mp hentry).2
    simpa using hne
  unfold entry enqueue
  dsimp only
  rw [List.find?_append, hnone, Option.none_or, List.find?_singleton, beq_self_eq_true]
  rfl

/-- What a request leaves when its frame is not sent. -/
theorem drop_enqueue (s : BridgeClient) (timer : RequestTimer) :
    (((s.enqueue timer).drop timer.id).clearTimer timer.call).pending = s.pending.filter (·.id ≠ timer.id) ∧
      (((s.enqueue timer).drop timer.id).clearTimer timer.call).timers = s.timers.filter (·.call ≠ timer.call) := by
  refine ⟨?_, ?_⟩
  · show (s.pending.filter (fun p : PendingRequest => p.id ≠ timer.id) ++ [(⟨timer.id, timer.call⟩ : PendingRequest)]).filter
      (fun p : PendingRequest => p.id ≠ timer.id) = _
    rw [List.filter_append, List.filter_filter]
    simp
  · show (s.timers ++ [timer]).filter (fun t : RequestTimer => t.call ≠ timer.call) = _
    rw [List.filter_append]
    simp

/-- The client is connected when the events say so. -/
theorem Keeps.connected_iff (h : Keeps E t s) :
    (¬ s.socket = true ∨ s.closed = true) ↔ ¬ (t.connected = true ∧ ¬ t.down = true) := by
  rw [← h.down, not_and_or, not_not]
  rcases hclosed : s.closed with _ | _
  · rw [h.socket hclosed]
  · simp

theorem advances_request (t : Happened) (s : BridgeClient) (method : String) (deadlineMs : Nat)
    (sendError : Option String) :
    Advances E t s (t.call (.request method deadlineMs sendError)) (s.request E method deadlineMs sendError) := by
  have hlength : (t.call (.request method deadlineMs sendError)).requests.length = t.requests.length + 1 := by
    unfold Happened.call
    dsimp only
    split
    · rcases sendError with _ | e <;> exact List.length_append
    · exact List.length_append
  refine ⟨hlength ▸ Nat.le_succ _, fun h hids => ?_⟩
  rw [hlength] at hids
  unfold request Happened.call
  dsimp only
  by_cases hout : ¬ s.socket = true ∨ s.closed = true
  · rw [if_pos hout, if_neg (h.connected_iff.mp hout)]
    exact h.unsent method deadlineMs _ rfl rfl rfl rfl rfl rfl rfl
  · have hopen : s.closed = false := Bool.eq_false_of_not_eq_true fun hc => hout (.inr hc)
    rw [if_neg hout, if_pos (not_not.mp (h.connected_iff.not.mp hout))]
    rcases sendError with _ | e
    · exact h.sent hids method deadlineMs hopen
    · rw [entry_enqueue]
      obtain ⟨hpending, htimers⟩ := h.fresh hids
      obtain ⟨hpending', htimers'⟩ := drop_enqueue { s with requests := s.requests + 1 }
        ⟨s.requests, E.randomId s.requests, method, deadlineMs⟩
      exact h.unsent method deadlineMs e rfl (hpending'.trans hpending) (htimers'.trans htimers) rfl rfl rfl rfl

theorem advances_call (t : Happened) (s : BridgeClient) (c : ClientCall) : Advances E t s (t.call c) (s.call E c) := by
  rcases c with ⟨method, deadlineMs, sendError⟩ | _
  · exact advances_request t s method deadlineMs sendError
  · exact advances_teardown t s _

theorem advances_calls (E : ClientSite) (calls : List ClientCall) (t : Happened) (s : BridgeClient) :
    Advances E t s (calls.foldl Happened.call t) (calls.foldl (call E) s) := by
  induction calls generalizing t s with
  | nil => exact .refl t s
  | cons c calls ih => exact (advances_call t s c).trans (ih _ _)

theorem advances_dispatch {frame : Json} (h : s.dispatch E frame = some s') :
    Advances E t s (t.arrive E (.frame frame)) s' := by
  unfold dispatch at h
  unfold Happened.arrive
  dsimp only
  split at h
  · cases h
  split at h
  · next hres =>
    rw [if_pos hres, ← Option.some.inj h]
    exact advances_respond t s frame
  next hres =>
  rw [if_neg hres]
  split at h
  · next hevt =>
    rw [if_pos hevt, ← Option.some.inj h]
    refine ⟨(advances_calls E (E.onEvent t.events frame) { t with events := t.events + 1 } s).requests,
      fun hs hids => ?_⟩
    have hcount : Keeps E { t with events := t.events + 1 } { s with events := s.events + 1 } :=
      ⟨hs.requests, hs.made, hs.pending, hs.timers, hs.deadlines, hs.settled, hs.down, hs.closed, hs.socket,
        congrArg (· + 1) hs.events⟩
    rw [hs.events] at hcount ⊢
    exact (advances_calls E _ _ _).keeps hcount hids
  · next hevt =>
    rw [if_neg hevt, ← Option.some.inj h]
    exact .refl t s

variable {maxFrameBytes : ℕ}

section Arrivals
variable {d d' : FrameDecoder maxFrameBytes} {bytes : List UInt8} {frame : Json}

theorem arrivals_of_none (hnext : d.next = (none, d')) :
    arrivals E d = (if d'.failed then [.undecodable] else [], d') := by
  rw [arrivals]
  split
  · next heq =>
    obtain rfl := (Prod.mk.inj (heq.symm.trans hnext)).2
    rfl
  · next heq => exact absurd (Prod.mk.inj (heq.symm.trans hnext)).1 (Option.some_ne_none _)

theorem arrivals_of_invalid (hnext : d.next = (some bytes, d')) (hparse : E.parse bytes = none) :
    arrivals E d = ([.invalid], d') := by
  rw [arrivals]
  split
  · next heq => exact absurd (Prod.mk.inj (hnext.symm.trans heq)).1 (Option.some_ne_none _)
  · next heq =>
    obtain ⟨hbytes, rfl⟩ := Prod.mk.inj (heq.symm.trans hnext)
    obtain rfl := Option.some.inj hbytes
    split
    · rfl
    · next hsome => exact absurd (hsome.symm.trans hparse) (Option.some_ne_none _)

theorem arrivals_of_frame (hnext : d.next = (some bytes, d')) (hparse : E.parse bytes = some frame) :
    arrivals E d = if frame = .null then ([], d') else (.frame frame :: (arrivals E d').1, (arrivals E d').2) := by
  rw [arrivals]
  split
  · next heq => exact absurd (Prod.mk.inj (hnext.symm.trans heq)).1 (Option.some_ne_none _)
  · next heq =>
    obtain ⟨hbytes, rfl⟩ := Prod.mk.inj (heq.symm.trans hnext)
    obtain rfl := Option.some.inj hbytes
    split
    · next hnone => exact absurd (hparse.symm.trans hnone) (Option.some_ne_none _)
    · next hsome =>
      obtain rfl := Option.some.inj (hsome.symm.trans hparse)
      rfl

end Arrivals

theorem dispatch_eq_none_iff {frame : Json} (s : BridgeClient) : s.dispatch E frame = none ↔ frame = .null := by
  unfold dispatch
  split
  · next hnull => exact ⟨fun _ => hnull, fun _ => rfl⟩
  · next hnull =>
    split
    · exact ⟨fun h => absurd h (Option.some_ne_none _), fun h => absurd h hnull⟩
    · split <;> exact ⟨fun h => absurd h (Option.some_ne_none _), fun h => absurd h hnull⟩

/-- The loop of `onData` does what the decoder yields. -/
theorem advances_popFrames (d : FrameDecoder maxFrameBytes) (t : Happened) (s : BridgeClient) :
    (popFrames E d s).1 = (arrivals E d).2 ∧
      Advances E t s ((arrivals E d).1.foldl (Happened.arrive E) t) (popFrames E d s).2 := by
  fun_induction popFrames E d s generalizing t with
  | case1 d s d' hnext =>
    rw [arrivals_of_none hnext]
    dsimp only
    split
    · exact ⟨rfl, advances_teardown t s _⟩
    · exact ⟨rfl, .refl t s⟩
  | case2 d s bytes d' hnext hparse =>
    rw [arrivals_of_invalid hnext hparse]
    exact ⟨rfl, advances_teardown t s _⟩
  | case3 d s bytes d' hnext frame hparse hnone =>
    rw [arrivals_of_frame hnext hparse, if_pos ((dispatch_eq_none_iff s).mp hnone)]
    exact ⟨rfl, .refl t s⟩
  | case4 d s bytes d' hnext frame hparse s' hsome ih =>
    have hnull : frame ≠ .null := by
      rintro hnull
      rw [(dispatch_eq_none_iff s).mpr hnull] at hsome
      exact absurd hsome.symm (Option.some_ne_none _)
    rw [arrivals_of_frame hnext hparse, if_neg hnull]
    have hrest := ih (t.arrive E (.frame frame))
    exact ⟨hrest.1, (advances_dispatch hsome).trans hrest.2⟩

theorem advances_step (d : FrameDecoder maxFrameBytes) (t : Happened) (s : BridgeClient) (e : ClientEvent) :
    (step E (d, s) e).1.1 = (Happened.step E (d, t) e).1.1 ∧
      Advances E t s (Happened.step E (d, t) e).1.2 (step E (d, s) e).1.2 := by
  rcases e with _ | c | chunk | call | _ | _
  · refine ⟨rfl, le_rfl, fun h _ => ?_⟩
    exact ⟨h.requests, h.made, h.pending, h.timers, h.deadlines, h.settled, h.down, h.closed, fun _ => rfl, h.events⟩
  · exact ⟨rfl, advances_call t s c⟩
  · unfold step Happened.step onData
    dsimp only
    by_cases htaken : (d.push chunk).1 = true
    · rw [if_pos htaken, if_pos htaken]
      exact advances_popFrames (d.push chunk).2 t s
    · rw [if_neg htaken, if_neg htaken]
      exact ⟨rfl, advances_teardown t s _⟩
  · exact ⟨rfl, advances_fire t s call⟩
  · exact ⟨rfl, advances_teardown t s _⟩
  · exact ⟨rfl, advances_teardown t s _⟩

/-! ### Runs -/

/-- A new client, after the events before index `k`. -/
def after (E : ClientSite) (maxFrameBytes : ℕ) (es : List ClientEvent) (k : ℕ) : BridgeClient :=
  (Trace.stateAt (step E) (FrameDecoder.new maxFrameBytes, {}) es k).2

/-- What has happened to it by then. -/
def happened (E : ClientSite) (maxFrameBytes : ℕ) (es : List ClientEvent) (k : ℕ) : Happened :=
  (Trace.stateAt (Happened.step E) (FrameDecoder.new maxFrameBytes, {}) es k).2

theorem keeps_new : Keeps E {} {} where
  requests := rfl
  made := rfl
  pending := rfl
  timers := rfl
  deadlines _ htimer := absurd htimer List.not_mem_nil
  settled := rfl
  down := rfl
  closed _ := rfl
  socket _ := rfl
  events := rfl

/-- The client is as far as what has happened to it, and decodes the same. -/
theorem advances_after (es : List ClientEvent) (k : ℕ) :
    (Trace.stateAt (step E) (FrameDecoder.new maxFrameBytes, {}) es k).1 =
        (Trace.stateAt (Happened.step E) (FrameDecoder.new maxFrameBytes, {}) es k).1 ∧
      Advances E {} {} (happened E maxFrameBytes es k) (after E maxFrameBytes es k) := by
  induction k with
  | zero => exact ⟨rfl, .refl _ _⟩
  | succ k ih =>
    unfold happened after at ih ⊢
    rcases he : es[k]? with _ | e
    · rw [Trace.stateAt_succ_of_none he, Trace.stateAt_succ_of_none he]
      exact ih
    · rw [Trace.stateAt_succ he, Trace.stateAt_succ he]
      obtain ⟨hdecoder, hstep⟩ := advances_step (Trace.stateAt (step E) (FrameDecoder.new maxFrameBytes, {}) es k).1
        (Trace.stateAt (Happened.step E) (FrameDecoder.new maxFrameBytes, {}) es k).2
        (Trace.stateAt (step E) (FrameDecoder.new maxFrameBytes, {}) es k).2 e
      have hsame : Trace.stateAt (Happened.step E) (FrameDecoder.new maxFrameBytes, {}) es k =
          ((Trace.stateAt (step E) (FrameDecoder.new maxFrameBytes, {}) es k).1,
            (Trace.stateAt (Happened.step E) (FrameDecoder.new maxFrameBytes, {}) es k).2) := Prod.ext ih.1.symm rfl
      rw [hsame]
      exact ⟨hdecoder, ih.2.trans hstep⟩

/-- Each request settles once, with what first concerned it, and waits until then. -/
structure SettlesOnce (E : ClientSite) (t : Happened) (s : BridgeClient) : Prop where
  /-- No promise is settled twice. -/
  once : (s.settled.map Prod.fst).Nodup
  /-- A promise is settled by the first of a response with its id, its timeout, a send failure and a teardown. -/
  first : ∀ call, s.settled.lookup call = settlement (ClientOccurrence.settles E) call 0 t.history
  /-- It is resolved with the payload of a res frame with its id only. -/
  own : ∀ call payload, (call, .resolved payload) ∈ s.settled → ∃ frame : Json, .happens (.response frame) ∈ t.history ∧
    Json.get frame "id" = some (.string (E.randomId call)) ∧ payload = Json.get frame "payload"
  /-- The pending map holds the requests that are not settled. -/
  pending : ∀ id call, ⟨id, call⟩ ∈ s.pending ↔
    id = E.randomId call ∧ call < t.requests.length ∧ call ∉ s.settled.map Prod.fst
  /-- Each of them has its timer, and there is no other. -/
  timers : s.timers.map (·.call) = s.pending.map (·.call)

/-- Only a response resolves, and with its payload. -/
theorem response_of_resolved {call : ℕ} {payload : Option Json} {o : ClientOccurrence}
    (h : o.settles E call = some (.resolved payload)) : ∃ frame : Json, o = .response frame ∧
      Json.get frame "id" = some (.string (E.randomId call)) ∧ payload = Json.get frame "payload" := by
  unfold ClientOccurrence.settles at h
  rcases o with ⟨call', e⟩ | frame | ⟨call', method, deadlineMs⟩ | reason
  · dsimp only at h
    split at h <;> exact absurd h (by simp)
  · dsimp only at h
    split at h
    · next hid =>
      unfold responseSettles at h
      split at h
      · exact ⟨frame, rfl, hid, (Settlement.resolved.inj (Option.some.inj h)).symm⟩
      · exact absurd h (by simp)
    · exact absurd h (by simp)
  · dsimp only at h
    split at h <;> exact absurd h (by simp)
  · exact absurd h (by simp)

/-- Whatever happens to a client, and in which order, each of its requests settles once, by the first thing that
concerns it. -/
theorem requests_settle_once (es : List ClientEvent) (k : ℕ)
    (hids : DistinctIds E (happened E maxFrameBytes es k).requests.length) :
    SettlesOnce E (happened E maxFrameBytes es k) (after E maxFrameBytes es k) := by
  have h := (advances_after es k).2.keeps keeps_new hids
  obtain ⟨t, ht⟩ : ∃ t, happened E maxFrameBytes es k = t := ⟨_, rfl⟩
  rw [ht] at h ⊢
  refine ⟨?_, ?_, ?_, ?_, ?_⟩
  · rw [h.settled]
    exact t.balanced.settled_nodup
  · intro call
    rw [h.settled]
    exact lookup_settled call
  · intro call payload hmem
    rw [h.settled] at hmem
    obtain ⟨o, ho, hsettles⟩ := exists_of_mem_settled hmem
    obtain ⟨frame, rfl, hid, hpayload⟩ := response_of_resolved hsettles
    exact ⟨frame, ho, hid, hpayload⟩
  · intro id call
    rw [h.pending, h.settled, ← h.made, h.requests, List.mem_map]
    constructor
    · rintro ⟨call', hcall, heq⟩
      obtain ⟨rfl, rfl⟩ := PendingRequest.mk.inj heq
      exact ⟨rfl, (t.balanced.waits_iff _).mp hcall⟩
    · rintro ⟨rfl, hwaits⟩
      exact ⟨call, (t.balanced.waits_iff call).mpr hwaits, rfl⟩
  · have htimers := congrArg (List.map Prod.fst) h.timers
    rw [List.map_map, List.map_map] at htimers
    rw [h.pending, List.map_map]
    exact htimers

/-- A site whose ids all differ. -/
def benchSite : ClientSite where
  randomId n := String.ofList (List.replicate n 'a')
  parse _ := some (.object [("kind", .string "res"), ("id", .string "a"), ("ok", .bool true)])
  onEvent _ _ := []

theorem distinctIds_bench (n : ℕ) : DistinctIds benchSite n := by
  intro i j _ _ h
  have hlength := congrArg List.length (String.ofList_injective h)
  rwa [List.length_replicate, List.length_replicate] at hlength

/-- Two requests are sent and a third is not, a response comes twice, a timer fires, and the client closes. -/
def benchEvents : List ClientEvent :=
  [.connected, .call (.request "ping" 10 none), .call (.request "patch.snapshot" 10 none),
    .call (.request "txn.commit" 10 (some "frame exceeds 16 bytes")), .data [0, 0, 0, 1, 48, 0, 0, 0, 1, 48],
    .fire 0, .fire 1, .call .close]

theorem requests_settle_once_bench :
    SettlesOnce benchSite (happened benchSite 16 benchEvents 8) (after benchSite 16 benchEvents 8) :=
  requests_settle_once _ 8 (distinctIds_bench _)

end BridgeClient

end RackMcp.Server
