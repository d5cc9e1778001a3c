import RackMcp.Proof.SessionStep

/-!
# Nothing before authentication

A session reaches `ready` by answering its own challenge and in no other way, whatever frames arrive,
in whatever order, on however many connections. `auth_safety`: a command is enqueued, or a lease method
handled, only after the connection sent the HMAC of the nonce in its welcome; a nonce is compared with
once, and a connection is compared once; a frame that is not expected ends the connection and changes
nothing else. The invariant is `AuthSound`, the nonces that are out; `Burned` and `Spent` say of a nonce
and of a connection that they are used up, and every step keeps them.
-/

namespace RackMcp

variable {cfg : ServiceConfig} {J : Jansson} {rng : Entropy}

/-- The random source gives a fresh nonce or the empty string. -/
def FreshNonces (rng : Entropy) : Prop :=
  ∀ m n, rng.randomHex m = rng.randomHex n → rng.randomHex m = "" ∨ m = n

/-- The kinds of frame a session takes in a state. -/
def SessionState.expects : SessionState → List String
  | .expectHello => ["hello"]
  | .expectAuth => ["auth"]
  | .ready => ["ping", "req"]

/-- The frame parses, keeps the limits and is of a kind the session takes. -/
def Expected (J : Jansson) (state : SessionState) (bytes : List UInt8) : Prop :=
  ∃ root : Json, decodeFrame J bytes = some root ∧ jstr root "kind" ∈ state.expects

/-! ### What a step does to one session -/

/-- Lease methods draw no nonce. -/
theorem handleLeaseRequest_nonceDraws {sh : Shared} {conn : Nat} {id method : String}
    {payload : Option Json} {nowMs : Int} :
    (handleLeaseRequest cfg J rng sh conn id method payload nowMs).1.nonceDraws = sh.nonceDraws := by
  unfold handleLeaseRequest
  dsimp only
  split
  · split <;> rfl
  · split
    · split <;> rfl
    · split <;> rfl

section session
variable {sh sh' : Shared} {s t : Session} {e : Event} {effects : List Effect}

theorem SessionStep.nonceDraws_le (hstep : SessionStep cfg J rng sh s e t sh' effects) :
    sh.nonceDraws ≤ sh'.nonceDraws := by
  cases hstep with
  | received bytes r h hreading hframe =>
    cases hframe with
    | closed | authenticated | rejected | answered | admitted => exact le_rfl
    | entropyFailed | challenged => exact Nat.le_succ _
    | leased => exact handleLeaseRequest_nonceDraws.ge
  | pushed | refused | left | tornDown => exact le_rfl

/-- A session's nonce after a step: none, the one before, or a new draw. -/
theorem SessionStep.nonce_cases (hstep : SessionStep cfg J rng sh s e t sh' effects) :
    t.nonce = "" ∨ t.nonce = s.nonce ∨
      t.nonce = rng.randomHex sh.nonceDraws ∧ sh'.nonceDraws = sh.nonceDraws + 1 := by
  cases hstep with
  | received bytes r h hreading hframe =>
    cases hframe with
    | closed | answered | leased | admitted => exact .inr (.inl rfl)
    | entropyFailed | authenticated | rejected => exact .inl rfl
    | challenged => exact .inr (.inr ⟨rfl, rfl⟩)
  | pushed | refused | left | tornDown => exact .inr (.inl rfl)

/-- A session is ready after a step when it was before, or when it sent the HMAC of its nonce. -/
theorem SessionStep.ready_cases (hstep : SessionStep cfg J rng sh s e t sh' effects)
    (hready : t.state = .ready) :
    s.state = .ready ∨ s.alive = true ∧ s.state = .expectAuth ∧
      ∃ (bytes : List UInt8) (r : FrameReadings) (root : Json), e = .frame s.id bytes r ∧
        decodeFrame J bytes = some root ∧ jstr root "kind" = "auth" ∧
        isHex (jstr root "hmac") 64 = true ∧ jstr root "hmac" = expectedHmac cfg s.nonce ∧
        .authEvaluated s.id s.nonce (jstr root "hmac") true ∈ effects := by
  cases hstep with
  | received bytes r h hreading hframe =>
    cases hframe with
    | closed | answered | leased | admitted => exact .inl hready
    | entropyFailed => exact .inl hready
    | challenged => cases hready
    | rejected provided frame hstate => exact absurd (hstate.symm.trans hready) (by decide)
    | authenticated root frame hstate hroot hkind hhex hmac =>
      have halive := (Bool.and_eq_true_iff.mp hreading).1
      exact .inr ⟨halive, hstate, bytes, r, root, rfl, hroot, hkind, hhex, hmac, List.mem_cons_self⟩
  | pushed | refused | left | tornDown => exact .inl hready

/-- A session under challenge after a step was so before, or was sent its welcome. -/
theorem SessionStep.challenge_cases (hstep : SessionStep cfg J rng sh s e t sh' effects)
    (hstate : t.state = .expectAuth) (hnonce : t.nonce ≠ "") :
    s.state = .expectAuth ∧ s.nonce = t.nonce ∨
      ∃ info : WelcomeInfo, info.nonce = t.nonce ∧ .outbound s.id (buildWelcome J info) ∈ effects := by
  cases hstep with
  | received bytes r h hreading hframe =>
    cases hframe with
    | closed | answered | leased | admitted => exact .inl ⟨hstate, rfl⟩
    | entropyFailed | rejected => exact absurd rfl hnonce
    | authenticated => cases hstate
    | challenged info hhello hinfo => exact .inr ⟨info, hinfo, List.mem_cons_self⟩
  | pushed | refused | left | tornDown => exact .inl ⟨hstate, rfl⟩

/-- A live session under challenge has its nonce. -/
theorem SessionStep.challenged_nonce (hstep : SessionStep cfg J rng sh s e t sh' effects)
    (hs : s.alive = true → s.state = .expectAuth → s.nonce ≠ "") (halive : t.alive = true)
    (hstate : t.state = .expectAuth) : t.nonce ≠ "" := by
  cases hstep with
  | received bytes r h hreading hframe =>
    cases hframe with
    | closed | entropyFailed | rejected => cases halive
    | answered | leased | admitted => exact hs (Bool.and_eq_true_iff.mp hreading).1 hstate
    | authenticated => cases hstate
    | challenged info hhello hinfo hdrawn => exact hdrawn
  | pushed | refused => exact hs halive hstate
  | left => cases halive
  | tornDown => exact hs halive hstate

/-- A session with a command pending is ready. -/
theorem SessionStep.pending_ready (hstep : SessionStep cfg J rng sh s e t sh' effects)
    (hs : s.pending.isSome = true → s.state = .ready) (hpending : t.pending.isSome = true) :
    t.state = .ready := by
  cases hstep with
  | received bytes r h hreading hframe =>
    have hnone : s.pending.isSome = false := by
      simpa using (Bool.and_eq_true_iff.mp hreading).2
    cases hframe with
    | admitted cmd hstate => exact hstate
    | closed | entropyFailed | challenged | authenticated | rejected | answered | leased =>
      exact absurd hpending (by simpa [Handled.closed, Handled.answered] using hnone)
  | pushed | refused => cases hpending
  | left | tornDown => exact hs hpending

/-- A session that is ready or whose loop has ended stays so. -/
theorem SessionStep.spent (hstep : SessionStep cfg J rng sh s e t sh' effects)
    (hs : s.state = .ready ∨ s.alive = false) : t.state = .ready ∨ t.alive = false := by
  cases hstep with
  | received bytes r h hreading hframe =>
    have halive := (Bool.and_eq_true_iff.mp hreading).1
    have hready : s.state = .ready := hs.resolve_right (by simp [halive])
    cases hframe with
    | closed | rejected | entropyFailed => exact .inr rfl
    | challenged info hstate => exact absurd (hready.symm.trans hstate) (by decide)
    | authenticated => exact .inl rfl
    | answered | leased | admitted => exact .inl hready
  | pushed | refused | tornDown => exact hs
  | left => exact .inr rfl

/-- A session whose loop has ended stays ended. -/
theorem SessionStep.ended (hstep : SessionStep cfg J rng sh s e t sh' effects) (hs : s.alive = false) :
    t.alive = false := by
  cases hstep with
  | received bytes r h hreading hframe =>
    have halive := (Bool.and_eq_true_iff.mp hreading).1
    exact absurd (hs.symm.trans halive) (by decide)
  | pushed | refused | tornDown => exact hs
  | left => rfl

/-- An HMAC is compared by a live session under challenge, for its own nonce, which is then gone, and the
session is ready or ended. -/
theorem SessionStep.of_evaluated (hstep : SessionStep cfg J rng sh s e t sh' effects) {conn : Nat}
    {nonce provided : String} {accepted : Bool} (ha : .authEvaluated conn nonce provided accepted ∈ effects) :
    conn = s.id ∧ nonce = s.nonce ∧ s.alive = true ∧ s.state = .expectAuth ∧ t.nonce = "" ∧
      (t.state = .ready ∨ t.alive = false) := by
  cases hstep with
  | received bytes r h hreading hframe =>
    have halive := (Bool.and_eq_true_iff.mp hreading).1
    cases hframe with
    | closed | entropyFailed | challenged | answered => simp [Handled.closed, Handled.answered] at ha
    | leased | admitted => simp at ha
    | authenticated root frame hstate =>
      simp only [List.mem_cons, Effect.authEvaluated.injEq, reduceCtorEq, List.not_mem_nil, or_false] at ha
      exact ⟨ha.1, ha.2.1, halive, hstate, rfl, .inl rfl⟩
    | rejected provided frame hstate =>
      simp only [List.mem_cons, Effect.authEvaluated.injEq, reduceCtorEq, List.not_mem_nil, or_false] at ha
      exact ⟨ha.1, ha.2.1, halive, hstate, rfl, .inr rfl⟩
  | pushed | refused => cases List.mem_singleton.mp ha
  | left | tornDown => cases ha

/-- A lease method is handled for a ready session. -/
theorem SessionStep.of_leaseHandled (hstep : SessionStep cfg J rng sh s e t sh' effects) {conn : Nat}
    {method : String} (ha : .leaseHandled conn method ∈ effects) : conn = s.id ∧ s.state = .ready := by
  cases hstep with
  | received bytes r h hreading hframe =>
    cases hframe with
    | closed | entropyFailed | challenged | answered => simp [Handled.closed, Handled.answered] at ha
    | authenticated | rejected | admitted => simp at ha
    | leased id method' payload hstate =>
      simp only [List.mem_cons, Effect.leaseHandled.injEq, reduceCtorEq, List.not_mem_nil, or_false] at ha
      exact ⟨ha.1, hstate⟩
  | pushed | refused => cases List.mem_singleton.mp ha
  | left | tornDown => cases ha

end session

/-! ### The nonces that are out -/

/-- Connections have their ids and their nonces to themselves, a live challenge has a nonce, and a command
waits only in a ready session. -/
structure AuthSound (rng : Entropy) (srv : Server) : Prop extends srv.Numbered where
  drawn : ∀ s ∈ srv.sessions, s.nonce ≠ "" → ∃ n < srv.shared.nonceDraws, rng.randomHex n = s.nonce
  distinct : ∀ s ∈ srv.sessions, ∀ t ∈ srv.sessions, s.nonce = t.nonce → s.nonce ≠ "" → s.id = t.id
  challenged : ∀ s ∈ srv.sessions, s.alive = true → s.state = .expectAuth → s.nonce ≠ ""
  pending : ∀ s ∈ srv.sessions, s.pending.isSome = true → s.state = .ready

theorem authSound_start : AuthSound rng {} where
  toNumbered := Server.numbered_start
  drawn s hs := by cases hs
  distinct s hs := by cases hs
  challenged s hs := by cases hs
  pending s hs := by cases hs

section step
variable {srv srv' : Server} {e : Event} {effects : List Effect}

theorem ServerStep.nonceDraws_le (h : ServerStep cfg J rng srv e srv' effects) :
    srv.shared.nonceDraws ≤ srv'.shared.nonceDraws := by
  cases h with
  | idle | reaped | connected | attached | pumped | answered | executed => exact le_rfl
  | session _ s t sh _ hs hstep => exact hstep.nonceDraws_le

/-- A nonce that is out after an event was out before, with the same connection, or is a new draw of the
connection whose event it is. -/
theorem ServerStep.nonce_origin (h : ServerStep cfg J rng srv e srv' effects) {t : Session}
    (ht : t ∈ srv'.sessions) (hne : t.nonce ≠ "") :
    (∃ s ∈ srv.sessions, s.nonce = t.nonce ∧ s.id = t.id) ∨
      t.nonce = rng.randomHex srv.shared.nonceDraws ∧ e.connection? = some t.id ∧
        srv'.shared.nonceDraws = srv.shared.nonceDraws + 1 := by
  obtain ht | ⟨rfl, -⟩ | ⟨s, hs, hstep⟩ := h.mem_sessions ht
  · exact .inl ⟨t, ht, rfl, rfl⟩
  · exact absurd rfl hne
  · obtain heq | heq | ⟨heq, hcount⟩ := hstep.nonce_cases
    · exact absurd heq hne
    · exact .inl ⟨s, hs, heq.symm, hstep.id_eq.symm⟩
    · refine .inr ⟨heq, ?_, hcount⟩
      rw [hstep.id_eq]
      exact hstep.connection

theorem authSound_step (hfresh : FreshNonces rng) (h : ServerStep cfg J rng srv e srv' effects)
    (hsound : AuthSound rng srv) : AuthSound rng srv' := by
  have hdraws := h.nonceDraws_le
  -- A nonce of before is no new draw.
  have hnew : ∀ u ∈ srv.sessions, u.nonce ≠ "" → u.nonce ≠ rng.randomHex srv.shared.nonceDraws := by
    intro u hu hne heq
    obtain ⟨n, hn, hdrawn⟩ := hsound.drawn u hu hne
    rcases hfresh n _ (hdrawn.trans heq) with hempty | hsame
    · exact hne (hdrawn.symm.trans hempty)
    · omega
  refine ⟨h.numbered hsound.toNumbered, ?_, ?_, ?_, ?_⟩
  · intro t ht hne
    obtain ⟨s, hs, heq, -⟩ | ⟨heq, -, hcount⟩ := h.nonce_origin ht hne
    · rw [← heq] at hne ⊢
      obtain ⟨n, hn, hdrawn⟩ := hsound.drawn s hs hne
      exact ⟨n, by omega, hdrawn⟩
    · exact ⟨_, by omega, heq.symm⟩
  · intro t ht u hu heq hne
    have hne' : u.nonce ≠ "" := fun hempty => hne (heq.trans hempty)
    obtain ⟨s, hs, hst, hid⟩ | ⟨hfreshT, hconn, -⟩ := h.nonce_origin ht hne
    · obtain ⟨v, hv, hvu, hid'⟩ | ⟨hfreshU, -⟩ := h.nonce_origin hu hne'
      · rw [← hid, ← hid']
        exact hsound.distinct s hs v hv (hst.trans (heq.trans hvu.symm)) (hst ▸ hne)
      · exact absurd (hst.trans (heq.trans hfreshU)) (hnew s hs (hst ▸ hne))
    · obtain ⟨v, hv, hvu, -⟩ | ⟨-, hconn', -⟩ := h.nonce_origin hu hne'
      · exact absurd (hvu.trans (heq.symm.trans hfreshT)) (hnew v hv (hvu ▸ hne'))
      · exact Option.some.inj (hconn.symm.trans hconn')
  · intro t ht halive hstate
    obtain ht | ⟨rfl, -⟩ | ⟨s, hs, hstep⟩ := h.mem_sessions ht
    · exact hsound.challenged t ht halive hstate
    · cases hstate
    · exact hstep.challenged_nonce (hsound.challenged s hs) halive hstate
  · intro t ht hpending
    obtain ht | ⟨rfl, -⟩ | ⟨s, hs, hstep⟩ := h.mem_sessions ht
    · exact hsound.pending t ht hpending
    · cases hpending
    · exact hstep.pending_ready (hsound.pending s hs) hpending

/-! ### Used up -/

/-- The nonce was drawn and is out no more. -/
def Burned (rng : Entropy) (nonce : String) (srv : Server) : Prop :=
  nonce ≠ "" ∧ (∃ n < srv.shared.nonceDraws, rng.randomHex n = nonce) ∧ ∀ s ∈ srv.sessions, s.nonce ≠ nonce

/-- The connection was opened, and its session is ready or ended. -/
def Spent (conn : Nat) (srv : Server) : Prop :=
  conn < srv.nextConnectionId ∧ ∀ s ∈ srv.sessions, s.id = conn → s.state = .ready ∨ s.alive = false

/-- The connection was opened, and its reader has left the loop. -/
def Ended (conn : Nat) (srv : Server) : Prop :=
  conn < srv.nextConnectionId ∧ ∀ s ∈ srv.sessions, s.id = conn → s.alive = false

theorem burned_step (hfresh : FreshNonces rng) (h : ServerStep cfg J rng srv e srv' effects) {nonce : String}
    (hburned : Burned rng nonce srv) : Burned rng nonce srv' := by
  obtain ⟨hne, ⟨n, hn, hdrawn⟩, hout⟩ := hburned
  have hdraws := h.nonceDraws_le
  refine ⟨hne, ⟨n, by omega, hdrawn⟩, ?_⟩
  intro t ht heq
  obtain ⟨s, hs, hst, -⟩ | ⟨hnew, -⟩ := h.nonce_origin ht (heq ▸ hne)
  · exact hout s hs (hst.trans heq)
  · rcases hfresh n _ (hdrawn.trans (heq.symm.trans hnew)) with hempty | hsame
    · exact hne (hdrawn.symm.trans hempty)
    · omega

theorem spent_step (h : ServerStep cfg J rng srv e srv' effects) {conn : Nat} (hspent : Spent conn srv) :
    Spent conn srv' := by
  refine ⟨hspent.1.trans_le h.nextConnectionId_le, ?_⟩
  intro t ht hid
  obtain ht | ⟨rfl, -⟩ | ⟨s, hs, hstep⟩ := h.mem_sessions ht
  · exact hspent.2 t ht hid
  · exact absurd hid hspent.1.ne'
  · exact hstep.spent (hspent.2 s hs (hstep.id_eq.symm.trans hid))

theorem ended_step (h : ServerStep cfg J rng srv e srv' effects) {conn : Nat} (hended : Ended conn srv) :
    Ended conn srv' := by
  refine ⟨hended.1.trans_le h.nextConnectionId_le, ?_⟩
  intro t ht hid
  obtain ht | ⟨rfl, -⟩ | ⟨s, hs, hstep⟩ := h.mem_sessions ht
  · exact hended.2 t ht hid
  · exact absurd hid hended.1.ne'
  · exact hstep.ended (hended.2 s hs (hstep.id_eq.symm.trans hid))

/-- A comparison is for a live challenge, and uses up its nonce and its connection. -/
theorem ServerStep.of_evaluated (hfresh : FreshNonces rng) (h : ServerStep cfg J rng srv e srv' effects)
    (hsound : AuthSound rng srv) {conn : Nat} {nonce provided : String} {accepted : Bool}
    (ha : .authEvaluated conn nonce provided accepted ∈ effects) :
    (∃ s ∈ srv.sessions, s.id = conn ∧ s.nonce = nonce ∧ s.alive = true ∧ s.state = .expectAuth) ∧
      nonce ≠ "" ∧ Burned rng nonce srv' ∧ Spent conn srv' := by
  obtain ⟨conn', frame, heq⟩ | ⟨t, answers, cmd, heq, -⟩ | ⟨s, hs, t, ht, hstep⟩ := h.effect_cases ha
  · cases heq
  · cases heq
  obtain ⟨rfl, rfl, halive, hstate, hcleared, hspent⟩ := hstep.of_evaluated ha
  have hne := hsound.challenged s hs halive hstate
  have hsound' := authSound_step hfresh h hsound
  have hsame : ∀ u ∈ srv'.sessions, u.id = s.id → u = t := fun u hu hid =>
    Keyed.eq_of_key_eq hsound'.ids hu ht (hid.trans hstep.id_eq.symm)
  obtain ⟨n, hn, hdrawn⟩ := hsound.drawn s hs hne
  have hdraws := h.nonceDraws_le
  refine ⟨⟨s, hs, rfl, rfl, halive, hstate⟩, hne, ⟨hne, ⟨n, by omega, hdrawn⟩, ?_⟩, ?_, ?_⟩
  · intro u hu heq
    obtain ⟨v, hv, hvu, hid⟩ | ⟨hnew, -⟩ := h.nonce_origin hu (heq ▸ hne)
    · have hvs : v.id = s.id := hsound.distinct v hv s hs (hvu.trans heq) (hvu.trans heq ▸ hne)
      rw [hsame u hu (hid.symm.trans hvs), hcleared] at heq
      exact hne heq.symm
    · rcases hfresh n _ (hdrawn.trans (heq.symm.trans hnew)) with hempty | hlast
      · exact hne (hdrawn.symm.trans hempty)
      · omega
  · exact (hsound.below s hs).trans_le h.nextConnectionId_le
  · intro u hu hid
    rw [hsame u hu hid]
    exact hspent

end step

/-! ### Unexpected frames -/

theorem handleFrame_unexpected {r : FrameReadings} {sh : Shared} {s : Session} {bytes : List UInt8}
    (h : ¬ Expected J s.state bytes) : handleFrame cfg J rng r sh s bytes = .closed sh s [] := by
  unfold handleFrame
  split
  · rfl
  · next root hroot =>
    have hkind : jstr root "kind" ∉ s.state.expects := fun hmem => h ⟨root, hroot, hmem⟩
    dsimp only
    split
    · next hstate =>
      rw [hstate] at hkind
      exact if_pos (by simpa [SessionState.expects] using hkind)
    · next hstate =>
      rw [hstate] at hkind
      exact if_pos (by simpa [SessionState.expects] using hkind)
    · next hstate =>
      rw [hstate] at hkind
      simp only [SessionState.expects, List.mem_cons, List.not_mem_nil, or_false, not_or] at hkind
      rw [if_neg hkind.1, if_neg hkind.2]

theorem receive_unexpected {srv : Server} {conn : Nat} {bytes : List UInt8} {r : FrameReadings} {s : Session}
    (hs : srv.session? conn = some s) (hreading : s.reading = true) (h : ¬ Expected J s.state bytes) :
    srv.receive cfg J rng conn bytes r = (srv.setSession { s with alive := false }, []) := by
  unfold Server.receive
  rw [hs]
  dsimp only
  rw [if_neg (not_not.mpr hreading), handleFrame_unexpected h]
  rfl

/-! ### Over a run -/

section run
variable {es : List Event}

theorem authSound_run (hfresh : FreshNonces rng) (k : ℕ) : AuthSound rng (stateAt cfg J rng es k) :=
  stateAt_invariant authSound_start (fun _ _ _ _ h hsound => authSound_step hfresh h hsound) k

/-- What every event keeps stays true. -/
theorem stateAt_stable {P : Server → Prop} {j k : ℕ} (hjk : j ≤ k) (hj : P (stateAt cfg J rng es j))
    (hstep : ∀ srv srv' e effects, ServerStep cfg J rng srv e srv' effects → P srv → P srv') :
    P (stateAt cfg J rng es k) :=
  Trace.stable hjk hj fun _ e _ _ hi => hstep _ _ _ _ (Server.step_cases cfg J rng _ e) hi

/-- The connection sent the HMAC of the nonce it had been given in a welcome, as an auth frame, and it was
accepted. -/
def Authenticated (cfg : ServiceConfig) (J : Jansson) (rng : Entropy) (es : List Event) (conn : Nat) (i : ℕ) :
    Prop :=
  ∃ (h j : ℕ) (info : WelcomeInfo) (bytes : List UInt8) (r : FrameReadings) (root : Json), h < j ∧ j < i ∧
    Emits cfg J rng es h (.outbound conn (buildWelcome J info)) ∧ info.nonce ≠ "" ∧
    es[j]? = some (.frame conn bytes r) ∧ decodeFrame J bytes = some root ∧ jstr root "kind" = "auth" ∧
    isHex (jstr root "hmac") 64 = true ∧
    jstr root "hmac" =
      hmacSha256Hex cfg.secret (authMessage info.nonce cfg.instanceId cfg.sessionId) ∧
    Emits cfg J rng es j (.authEvaluated conn info.nonce (jstr root "hmac") true)

/-- A session under challenge was sent its nonce in a welcome. -/
theorem welcomed_of_challenged {conn : Nat} {nonce : String} {i : ℕ} (hne : nonce ≠ "")
    (hsession : ∃ s ∈ (stateAt cfg J rng es i).sessions, s.id = conn ∧ s.state = .expectAuth ∧ s.nonce = nonce) :
    ∃ h < i, ∃ info : WelcomeInfo, info.nonce = nonce ∧
      Emits cfg J rng es h (.outbound conn (buildWelcome J info)) := by
  obtain ⟨h, e, hh, he, hbefore, hafter⟩ := stateAt_change
    (P := fun srv => ∃ s ∈ srv.sessions, s.id = conn ∧ s.state = .expectAuth ∧ s.nonce = nonce)
    (by simp) hsession
  rw [stateAt_succ he] at hafter
  obtain ⟨t, ht, rfl, hstate, rfl⟩ := hafter
  obtain ht | ⟨rfl, -⟩ | ⟨s, hs, hstep⟩ := (Server.step_cases cfg J rng _ e).mem_sessions ht
  · exact absurd ⟨t, ht, rfl, hstate, rfl⟩ hbefore
  · cases hstate
  · rw [hstep.id_eq] at hbefore ⊢
    obtain ⟨hsame, hnonce⟩ | ⟨info, hinfo, hsent⟩ := hstep.challenge_cases hstate hne
    · exact absurd ⟨s, hs, rfl, hsame, hnonce⟩ hbefore
    · exact ⟨h, hh, info, hinfo, e, he, hsent⟩

/-- A ready session was authenticated. -/
theorem authenticated_of_ready (hfresh : FreshNonces rng) {conn : Nat} {i : ℕ}
    (hsession : ∃ s ∈ (stateAt cfg J rng es i).sessions, s.id = conn ∧ s.state = .ready) :
    Authenticated cfg J rng es conn i := by
  obtain ⟨j, e, hj, he, hbefore, hafter⟩ := stateAt_change
    (P := fun srv => ∃ s ∈ srv.sessions, s.id = conn ∧ s.state = .ready) (by simp) hsession
  rw [stateAt_succ he] at hafter
  obtain ⟨t, ht, rfl, hready⟩ := hafter
  obtain ht | ⟨rfl, -⟩ | ⟨s, hs, hstep⟩ := (Server.step_cases cfg J rng _ e).mem_sessions ht
  · exact absurd ⟨t, ht, rfl, hready⟩ hbefore
  · cases hready
  · rw [hstep.id_eq] at hbefore ⊢
    obtain hsame | ⟨halive, hstate, bytes, r, root, rfl, hroot, hkind, hhex, hmac, hevaluated⟩ :=
      hstep.ready_cases hready
    · exact absurd ⟨s, hs, rfl, hsame⟩ hbefore
    · have hne := (authSound_run hfresh j).challenged s hs halive hstate
      obtain ⟨h, hh, info, hinfo, hsent⟩ := welcomed_of_challenged hne ⟨s, hs, rfl, hstate, rfl⟩
      rw [← hinfo] at hmac hne hevaluated
      exact ⟨h, j, info, bytes, r, root, hh, hj, hsent, hne, he, hroot, hkind, hhex, hmac, _, he, hevaluated⟩

/-- Commands and lease methods are those of ready sessions. -/
theorem ready_of_emits (hfresh : FreshNonces rng) {conn : Nat} {i : ℕ}
    (h : (∃ cmd, Emits cfg J rng es i (.enqueued conn cmd)) ∨
      ∃ method, Emits cfg J rng es i (.leaseHandled conn method)) :
    ∃ s ∈ (stateAt cfg J rng es i).sessions, s.id = conn ∧ s.state = .ready := by
  obtain ⟨cmd, h⟩ | ⟨method, h⟩ := h
  · obtain ⟨e, effects, -, ha, hserver⟩ := h.step
    obtain ⟨conn', frame, heq⟩ | ⟨t, answers, cmd', heq, -⟩ | ⟨s, hs, t, -, hstep⟩ := hserver.effect_cases ha
    · cases heq
    · cases heq
    · obtain ⟨rfl, hpending⟩ := hstep.pending_of_pushed ha
      exact ⟨s, hs, rfl, (authSound_run hfresh i).pending s hs (by rw [hpending]; rfl)⟩
  · obtain ⟨e, effects, -, ha, hserver⟩ := h.step
    obtain ⟨conn', frame, heq⟩ | ⟨t, answers, cmd', heq, -⟩ | ⟨s, hs, t, -, hstep⟩ := hserver.effect_cases ha
    · cases heq
    · cases heq
    · obtain ⟨rfl, hready⟩ := hstep.of_leaseHandled ha
      exact ⟨s, hs, rfl, hready⟩

/-- After a comparison neither its nonce nor its connection is compared again. -/
theorem evaluated_once (hfresh : FreshNonces rng) {i j : ℕ} (hij : i < j) {conn conn' : Nat}
    {nonce nonce' provided provided' : String} {accepted accepted' : Bool}
    (hi : Emits cfg J rng es i (.authEvaluated conn nonce provided accepted))
    (hj : Emits cfg J rng es j (.authEvaluated conn' nonce' provided' accepted')) :
    nonce ≠ nonce' ∧ conn ≠ conn' := by
  obtain ⟨e, effects, -, ha, hstep⟩ := hi.step
  obtain ⟨-, -, hburned, hspent⟩ := hstep.of_evaluated hfresh (authSound_run hfresh i) ha
  have hburned := stateAt_stable hij hburned fun _ _ _ _ h => burned_step hfresh h
  have hspent := stateAt_stable hij hspent fun _ _ _ _ h => spent_step h
  obtain ⟨f, effects', -, ha', hstep'⟩ := hj.step
  obtain ⟨⟨s, hs, rfl, rfl, halive, hstate⟩, -⟩ := hstep'.of_evaluated hfresh (authSound_run hfresh j) ha'
  constructor
  · intro heq
    exact hburned.2.2 s hs heq.symm
  · intro heq
    rcases hspent.2 s hs heq.symm with hready | hended
    · exact absurd (hready.symm.trans hstate) (by decide)
    · exact absurd (hended.symm.trans halive) (by decide)

/-- A frame that is not expected closes the connection, and has no other effect. -/
theorem unexpected_frame {i : ℕ} {conn : Nat} {bytes : List UInt8} {r : FrameReadings} {s : Session}
    (he : es[i]? = some (.frame conn bytes r)) (hs : (stateAt cfg J rng es i).session? conn = some s)
    (hreading : s.reading = true) (h : ¬ Expected J s.state bytes) :
    stateAt cfg J rng es (i + 1) = (stateAt cfg J rng es i).setSession { s with alive := false } ∧
      ∀ a, ¬ Emits cfg J rng es i a := by
  have hstep : (stateAt cfg J rng es i).step cfg J rng (.frame conn bytes r) =
      ((stateAt cfg J rng es i).setSession { s with alive := false }, []) :=
    receive_unexpected hs hreading h
  constructor
  · rw [stateAt_succ he, hstep]
  · intro a hemits
    obtain ⟨f, hf, ha⟩ := hemits
    cases hf.symm.trans he
    have hnone := congrArg Prod.snd hstep
    rw [stateAt] at hnone
    rw [hnone] at ha
    cases ha

end run

theorem ended_of_closed {srv : Server} {conn : Nat} {s : Session} (hsound : AuthSound rng srv)
    (hs : srv.session? conn = some s) : Ended conn (srv.setSession { s with alive := false }) := by
  obtain ⟨hmem, rfl⟩ := session?_eq_some hs
  refine ⟨hsound.below s hmem, ?_⟩
  intro t ht hid
  obtain rfl | ⟨-, hne⟩ := mem_setSession ht
  · rfl
  · exact absurd hid hne

/-! ### Safety -/

/-- When the random source gives a fresh nonce or none, over every run: a command is enqueued, and a lease
method handled, only for a connection that has authenticated; a nonce, and a connection, is compared with
once; a frame that is not expected ends the connection and changes nothing else. -/
theorem auth_safety (cfg : ServiceConfig) (J : Jansson) (rng : Entropy) (hfresh : FreshNonces rng)
    (es : List Event) :
    (∀ i conn, ((∃ cmd, Emits cfg J rng es i (.enqueued conn cmd)) ∨
        ∃ method, Emits cfg J rng es i (.leaseHandled conn method)) →
      Authenticated cfg J rng es conn i) ∧
    (∀ i j conn conn' nonce nonce' provided provided' accepted accepted',
      Emits cfg J rng es i (.authEvaluated conn nonce provided accepted) →
      Emits cfg J rng es j (.authEvaluated conn' nonce' provided' accepted') →
      nonce = nonce' ∨ conn = conn' → i = j) ∧
    ∀ i conn bytes r s, es[i]? = some (.frame conn bytes r) →
      (stateAt cfg J rng es i).session? conn = some s → s.reading = true → ¬ Expected J s.state bytes →
      (stateAt cfg J rng es (i + 1)).shared = (stateAt cfg J rng es i).shared ∧
      (stateAt cfg J rng es (i + 1)).commandQueue = (stateAt cfg J rng es i).commandQueue ∧
      (stateAt cfg J rng es (i + 1)).session? conn = some { s with alive := false } ∧
      (∀ other, other ≠ conn →
        (stateAt cfg J rng es (i + 1)).session? other = (stateAt cfg J rng es i).session? other) ∧
      (∀ a, ¬ Emits cfg J rng es i a) ∧
      ∀ k, i < k → ∀ t, (stateAt cfg J rng es k).session? conn = some t → t.alive = false := by
  refine ⟨fun i conn h => authenticated_of_ready hfresh (ready_of_emits hfresh h), ?_, ?_⟩
  · intro i j conn conn' nonce nonce' provided provided' accepted accepted' hi hj hsame
    rcases Nat.lt_trichotomy i j with hij | hij | hij
    · obtain ⟨hnonce, hconn⟩ := evaluated_once hfresh hij hi hj
      exact absurd hsame (not_or.mpr ⟨hnonce, hconn⟩)
    · exact hij
    · obtain ⟨hnonce, hconn⟩ := evaluated_once hfresh hij hj hi
      exact absurd hsame (not_or.mpr ⟨hnonce.symm, hconn.symm⟩)
  · intro i conn bytes r s he hs hreading hunexpected
    obtain ⟨hnext, hnone⟩ := unexpected_frame he hs hreading hunexpected
    have hended : Ended conn (stateAt cfg J rng es (i + 1)) := by
      rw [hnext]
      exact ended_of_closed (authSound_run hfresh i) hs
    obtain ⟨-, rfl⟩ := session?_eq_some hs
    refine ⟨by rw [hnext]; rfl, by rw [hnext]; rfl, ?_, ?_, hnone, ?_⟩
    · rw [hnext]
      exact Keyed.find?_update_self _ hs fun _ => rfl
    · intro other hne
      rw [hnext]
      exact Keyed.find?_update_of_ne _ hne fun _ => rfl
    · intro k hk t ht
      obtain ⟨hmem, hid⟩ := session?_eq_some ht
      exact (stateAt_stable hk hended fun _ _ _ _ h => ended_step h).2 t hmem hid

theorem benchEntropy_fresh : FreshNonces benchEntropy := by
  intro m n heq
  by_cases hm : m = 0
  · by_cases hn : n = 0
    · exact .inr (hm.trans hn.symm)
    · left
      rw [heq]
      exact if_neg hn
  · exact .inl (if_neg hm)

/-- On the bench the undo was enqueued for a connection that had authenticated. -/
theorem auth_safety_bench : Authenticated benchConfig benchJansson benchEntropy benchEvents 1 6 :=
  (auth_safety benchConfig benchJansson benchEntropy benchEntropy_fresh benchEvents).1 6 1 (.inl bench_enqueued)

end RackMcp
