import RackMcp.Proof.SessionStep

/-!
# Who gets a connection slot

The accept loop counts the sessions it has not reaped. It never gives unauthenticated peers more than their share
of the slots (`slots_bounded`), but a client that arrives has not authenticated either: it gets a slot exactly
when the share is not used up (`admission_iff`), whatever it would prove afterwards.
-/

namespace RackMcp

variable {cfg : ServiceConfig} {J : Jansson} {rng : Entropy}

namespace Server

/-- The sessions that hold a slot when a client arrives: those that are not reaped then. -/
def slots (srv : Server) : List Session := srv.sessions.filter fun s => !s.defunct

/-- The slots of authenticated sessions. -/
def authenticated (srv : Server) : ℕ := srv.slots.countP Session.authed

/-- The slots of sessions that have not authenticated. -/
def unauthenticated (srv : Server) : ℕ := srv.slots.countP fun s => !s.authed

/-- A client that arrives now is not closed at accept, but gets a session. -/
def Admits (cfg : ServiceConfig) (srv : Server) : Prop :=
  ((srv.accept cfg true).session? srv.nextConnectionId).isSome

instance (cfg : ServiceConfig) (srv : Server) : Decidable (srv.Admits cfg) := inferInstanceAs (Decidable (_ = true))

theorem length_slots (srv : Server) : srv.slots.length = srv.authenticated + srv.unauthenticated := by
  unfold authenticated unauthenticated
  rw [List.length_eq_countP_add_countP Session.authed]
  congr 2
  funext s
  rcases s.authed with _ | _ <;> rfl

/-- The accept loop gives a slot when both caps leave one. -/
theorem admits_iff {srv : Server} (hsrv : srv.Numbered) :
    srv.Admits cfg ↔ srv.slots.length < cfg.maxConnections ∧ srv.unauthenticated < cfg.maxUnauthConnections := by
  have haccept : srv.accept cfg true =
      if srv.slots.length ≥ cfg.maxConnections ∨ srv.unauthenticated ≥ cfg.maxUnauthConnections then
        { srv with sessions := srv.slots }
      else
        { srv with sessions := srv.slots ++ [{ id := srv.nextConnectionId }]
                   nextConnectionId := srv.nextConnectionId + 1 } := rfl
  unfold Admits
  rw [haccept]
  by_cases hfull : srv.slots.length ≥ cfg.maxConnections ∨ srv.unauthenticated ≥ cfg.maxUnauthConnections
  · rw [if_pos hfull]
    refine ⟨fun h => ?_, fun h => by omega⟩
    obtain ⟨s, hs⟩ := Option.isSome_iff_exists.mp h
    obtain ⟨hmem, hid⟩ := session?_eq_some hs
    exact absurd hid (hsrv.below s (List.mem_of_mem_filter hmem)).ne
  · rw [if_neg hfull]
    refine ⟨fun _ => by omega, fun _ => Keyed.find?_isSome.mpr ?_⟩
    rw [List.map_append]
    exact List.mem_append_right _ (List.mem_singleton_self _)

end Server

/-- While the authenticated sessions leave the others their share, only the share decides. -/
theorem admits_iff_of_room {srv : Server} (hsrv : srv.Numbered)
    (hroom : srv.authenticated < cfg.maxConnections - cfg.maxUnauthConnections) :
    srv.Admits cfg ↔ srv.unauthenticated < cfg.maxUnauthConnections := by
  have hlength := srv.length_slots
  rw [Server.admits_iff hsrv]
  omega

theorem numbered_run (es : List Event) (k : ℕ) : (stateAt cfg J rng es k).Numbered :=
  stateAt_invariant Server.numbered_start (fun _ _ _ _ hstep => hstep.numbered) k

/-! ### The share of the unauthenticated -/

/-- The sessions fit the slots, and those that have not authenticated their share. -/
structure Server.SlotsBounded (cfg : ServiceConfig) (srv : Server) : Prop where
  all : srv.sessions.length ≤ cfg.maxConnections
  share : srv.sessions.countP (fun s => !s.authed) ≤ cfg.maxUnauthConnections

/-- Nothing takes an authentication back. -/
theorem SessionStep.authed_of_authed {sh sh' : Shared} {s t : Session} {e : Event} {effects : List Effect}
    (hstep : SessionStep cfg J rng sh s e t sh' effects) (hs : s.authed = true) : t.authed = true := by
  cases hstep with
  | received bytes r h hreading hframe =>
    cases hframe with
    | authenticated => rfl
    | closed | entropyFailed | challenged | rejected | answered | leased | admitted => exact hs
  | pushed | refused | left | tornDown => exact hs

/-- Outside the accept loop no session comes, and none goes back to being unauthenticated. -/
theorem ServerStep.slotsBounded {srv srv' : Server} {e : Event} {effects : List Effect}
    (h : ServerStep cfg J rng srv e srv' effects) (he : ∀ client, e ≠ .accept client) (hsrv : srv.Numbered)
    (hslots : srv.SlotsBounded cfg) : srv'.SlotsBounded cfg := by
  cases h with
  | idle | attached | pumped | answered | executed => exact ⟨hslots.all, hslots.share⟩
  | reaped client | connected client => exact absurd rfl (he client)
  | session _ s t sh _ hs hstep =>
    have hmem := (session?_eq_some hs).1
    refine ⟨(List.length_map _).trans_le hslots.all, ?_⟩
    show (srv.sessions.map fun u => if u.id = t.id then t else u).countP _ ≤ _
    rw [List.countP_map]
    refine (List.countP_mono_left fun u hu hnot => ?_).trans hslots.share
    by_cases hid : u.id = t.id
    · obtain rfl : u = s := Keyed.eq_of_key_eq hsrv.ids hu hmem (hid.trans hstep.id_eq)
      rcases hauthed : u.authed with _ | _
      · rfl
      · simp [hid, hstep.authed_of_authed hauthed] at hnot
    · simpa [hid] using hnot

theorem Server.accept_slotsBounded {srv : Server} (client : Bool) (hslots : srv.SlotsBounded cfg) :
    (srv.accept cfg client).SlotsBounded cfg := by
  have hreaped : Server.SlotsBounded cfg { srv with sessions := srv.slots } :=
    ⟨(List.length_filter_le ..).trans hslots.all, (List.filter_sublist.countP_le).trans hslots.share⟩
  unfold Server.accept
  dsimp only
  split
  · exact hreaped
  · split
    · exact hreaped
    · next hroom =>
      rw [not_or, Nat.not_le, Nat.not_le] at hroom
      refine ⟨?_, ?_⟩
      · rw [List.length_append]
        exact hroom.1
      · rw [List.countP_append]
        exact hroom.2

/-- In every run the sessions fit the slots, and those that have not authenticated their share. -/
theorem slots_bounded (cfg : ServiceConfig) (J : Jansson) (rng : Entropy) (es : List Event) (k : ℕ) :
    (stateAt cfg J rng es k).SlotsBounded cfg := by
  have hboth : (stateAt cfg J rng es k).Numbered ∧ (stateAt cfg J rng es k).SlotsBounded cfg := by
    have hstart : Server.Numbered {} ∧ Server.SlotsBounded cfg {} :=
      ⟨Server.numbered_start, Nat.zero_le _, Nat.zero_le _⟩
    refine Trace.invariant (P := fun srv : Server => srv.Numbered ∧ srv.SlotsBounded cfg) hstart (fun srv e h => ?_) k
    have hstep := Server.step_cases cfg J rng srv e
    refine ⟨hstep.numbered h.1, ?_⟩
    by_cases haccept : ∃ client, e = .accept client
    · obtain ⟨client, rfl⟩ := haccept
      exact Server.accept_slotsBounded client h.2
    · exact hstep.slotsBounded (fun client heq => haccept ⟨client, heq⟩) h.1 h.2
  exact hboth.2

/-! ### Clients that arrive -/

/-- Whatever the run, a client that arrives while fewer than `maxConnections - maxUnauthConnections` sessions are
authenticated is accepted exactly if fewer than `maxUnauthConnections` sessions are not. -/
theorem admission_iff (cfg : ServiceConfig) (J : Jansson) (rng : Entropy) (es : List Event) (k : ℕ)
    (harrives : es[k]? = some (.accept true))
    (hroom : (stateAt cfg J rng es k).authenticated < cfg.maxConnections - cfg.maxUnauthConnections) :
    ((stateAt cfg J rng es (k + 1)).session? (stateAt cfg J rng es k).nextConnectionId).isSome ↔
      (stateAt cfg J rng es k).unauthenticated < cfg.maxUnauthConnections := by
  rw [stateAt_succ harrives]
  exact admits_iff_of_room (numbered_run es k) hroom

/-- A client pairs, a second connects and sends nothing, and a third arrives. -/
def arrivalEvents : List Event := benchEvents.take 4 ++ [.accept true, .accept true]

theorem arrivals_before_third : stateAt benchConfig benchJansson benchEntropy arrivalEvents 5 =
    { sessions := [{ id := 1, state := .ready, authed := true }, { id := 2 }], nextConnectionId := 3,
      shared := { nonceDraws := 1 }, pumpAttached := true } := by
  have hfour : stateAt benchConfig benchJansson benchEntropy arrivalEvents 4 =
      { sessions := [{ id := 1, state := .ready, authed := true }], nextConnectionId := 2,
        shared := { nonceDraws := 1 }, pumpAttached := true } := bench_ready
  rw [stateAt_succ (k := 4) (e := .accept true) rfl, hfour]
  rfl

/-- Beside an authenticated session and one that is not the third client is accepted. -/
theorem third_client_accepted :
    (stateAt benchConfig benchJansson benchEntropy arrivalEvents 5).authenticated = 1 ∧
      (stateAt benchConfig benchJansson benchEntropy arrivalEvents 5).unauthenticated = 1 ∧
      ((stateAt benchConfig benchJansson benchEntropy arrivalEvents 6).session? 3).isSome := by
  have hbefore := arrivals_before_third
  have hauthenticated : (stateAt benchConfig benchJansson benchEntropy arrivalEvents 5).authenticated = 1 := by
    rw [hbefore]
    decide
  have hunauthenticated : (stateAt benchConfig benchJansson benchEntropy arrivalEvents 5).unauthenticated = 1 := by
    rw [hbefore]
    decide
  have hiff := admission_iff benchConfig benchJansson benchEntropy arrivalEvents 5 rfl
    (by rw [hauthenticated]; decide)
  rw [hunauthenticated, hbefore] at hiff
  exact ⟨hauthenticated, hunauthenticated, hiff.mpr (by decide)⟩

/-- Four peers connect and send nothing. The fifth client holds the secret and is closed at accept, although no
session is authenticated, nor ever was. -/
theorem paired_client_refused :
    ¬ ∀ (es : List Event) (k : ℕ),
      (∀ j ≤ k, ∀ s ∈ (stateAt benchConfig benchJansson benchEntropy es j).sessions, s.authed = false) →
      es[k]? = some (.accept true) →
      (stateAt benchConfig benchJansson benchEntropy es k).authenticated <
          benchConfig.maxConnections - benchConfig.maxUnauthConnections →
        ((stateAt benchConfig benchJansson benchEntropy es (k + 1)).session?
          (stateAt benchConfig benchJansson benchEntropy es k).nextConnectionId).isSome := by
  intro hall
  have hfifth := hall (List.replicate 5 (.accept true)) 4 (by decide) rfl (by decide)
  exact absurd hfifth (by decide)

end RackMcp
