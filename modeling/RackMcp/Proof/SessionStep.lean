import RackMcp.Lib.Trace
import RackMcp.Rackside.CommandPump

/-!
# What a frame can do

`handleFrame_step` says once what the handling of a frame can end in, and `Server.step_cases` what an
event can do to the sessions. What the lease and the authentication rest on is derived from these two.
-/

namespace RackMcp

open Gen

variable {cfg : ServiceConfig} {J : Jansson} {rng : Entropy}

/-! ### One frame -/

/-- What the handling of a frame can end in. -/
inductive FrameStep (cfg : ServiceConfig) (J : Jansson) (rng : Entropy) (r : FrameReadings) (sh : Shared)
    (s : Session) (bytes : List UInt8) : Handled → Prop where
  /-- The connection is closed and nothing else changes. -/
  | closed (frames : List String) : FrameStep cfg J rng r sh s bytes (.closed sh s frames)
  /-- A hello for which there is no randomness. -/
  | entropyFailed (frames : List String) (hstate : s.state = .expectHello) :
      FrameStep cfg J rng r sh s bytes
        (.closed { sh with nonceDraws := sh.nonceDraws + 1 } { s with nonce := "" } frames)
  /-- A hello is answered with a welcome. -/
  | challenged (info : WelcomeInfo) (hstate : s.state = .expectHello)
      (hnonce : info.nonce = rng.randomHex sh.nonceDraws) (hdrawn : rng.randomHex sh.nonceDraws ≠ "") :
      FrameStep cfg J rng r sh s bytes
        (.answered { sh with nonceDraws := sh.nonceDraws + 1 }
          { s with nonce := rng.randomHex sh.nonceDraws, state := .expectAuth } [buildWelcome J info])
  /-- The expected HMAC came. -/
  | authenticated (root : Json) (frame : String) (hstate : s.state = .expectAuth)
      (hroot : decodeFrame J bytes = some root) (hkind : jstr root "kind" = "auth")
      (hhex : isHex (jstr root "hmac") 64 = true) (hmac : jstr root "hmac" = expectedHmac cfg s.nonce) :
      FrameStep cfg J rng r sh s bytes
        ⟨{ s with nonce := "", authed := true, state := .ready }, sh,
          [.authEvaluated s.id s.nonce (jstr root "hmac") true, .outbound s.id frame], true⟩
  /-- Another HMAC came. -/
  | rejected (provided frame : String) (hstate : s.state = .expectAuth) :
      FrameStep cfg J rng r sh s bytes
        ⟨{ s with nonce := "" }, sh,
          [.authEvaluated s.id s.nonce provided false, .outbound s.id frame], false⟩
  /-- A request is answered and nothing else changes. -/
  | answered (frames : List String) (hstate : s.state = .ready) :
      FrameStep cfg J rng r sh s bytes (.answered sh s frames)
  /-- A lease method. -/
  | leased (id method : String) (payload : Option Json) (hstate : s.state = .ready) :
      FrameStep cfg J rng r sh s bytes
        ⟨s, (handleLeaseRequest cfg J rng sh s.id id method payload r.gateMs).1,
          [.leaseHandled s.id method,
            .outbound s.id (handleLeaseRequest cfg J rng sh s.id id method payload r.gateMs).2], true⟩
  /-- A command passes the gate. -/
  | admitted (cmd : BridgeCommand) (hstate : s.state = .ready) (hconn : cmd.connectionId = s.id)
      (hgate : cmd.mutating = true → sh.leases.HeldBy s.id cmd.leaseId r.gateMs) :
      FrameStep cfg J rng r sh s bytes ⟨{ s with pending := some cmd }, sh, [], true⟩

section frame
variable {r : FrameReadings} {sh : Shared} {s : Session} {bytes : List UInt8} {root : Json}

theorem handleHello_step (hstate : s.state = .expectHello) :
    FrameStep cfg J rng r sh s bytes (handleHello cfg J rng r.patchEpoch sh s root) := by
  unfold handleHello
  dsimp only
  split
  · exact .closed _
  · split
    · next hnonce =>
      rw [hnonce]
      exact .entropyFailed _ hstate
    · next hnonce =>
      apply FrameStep.challenged
      · exact hstate
      · rfl
      · exact hnonce

theorem handleAuth_step (hstate : s.state = .expectAuth) (hroot : decodeFrame J bytes = some root)
    (hkind : jstr root "kind" = "auth") :
    FrameStep cfg J rng r sh s bytes (handleAuth cfg J sh s root) := by
  unfold handleAuth
  dsimp only
  split
  · next haccepted =>
    rw [haccepted]
    obtain ⟨hhex, hequal⟩ := Bool.and_eq_true_iff.mp haccepted
    exact .authenticated root _ hstate hroot hkind hhex (constantTimeEqual_iff.mp hequal).symm
  · next hrefused =>
    rw [Bool.eq_false_iff.mpr hrefused]
    exact .rejected _ _ hstate

/-- A mutating request passes the gate only on the caller's own, unexpired lease. -/
theorem writerGate_ok {spec : MethodSpec} {leases : LeaseHolder} {connectionId : Nat}
    {operationId leaseId : String} {gateMs : Int}
    (h : writerGate spec leases connectionId operationId gateMs = .ok leaseId)
    (hmutating : spec.mutating = true) : leases.HeldBy connectionId leaseId gateMs := by
  unfold writerGate at h
  rw [if_neg (not_not.mpr hmutating)] at h
  split at h
  · cases h
  · dsimp only at h
    split at h
    · cases h
    · next hheld =>
      rw [not_or, not_not, not_not] at hheld
      exact LeaseHolder.heldBy_iff_holder.mpr ⟨hheld.1, hheld.2, Except.ok.inj h⟩

theorem admitRequest_step {id : String} {spec : MethodSpec} {deadlineAtMs : Int} (hstate : s.state = .ready) :
    FrameStep cfg J rng r sh s bytes (admitRequest cfg J rng r sh s root id spec deadlineAtMs) := by
  unfold admitRequest
  dsimp only
  split
  · exact .answered _ hstate
  · next leaseId hgate =>
    split
    · exact .answered _ hstate
    · split
      · exact .leased id spec.method _ hstate
      · exact .admitted _ hstate rfl (writerGate_ok hgate)

theorem handleRequest_step (hstate : s.state = .ready) :
    FrameStep cfg J rng r sh s bytes (handleRequest cfg J rng r sh s root) := by
  unfold handleRequest
  dsimp only
  split
  · exact .closed _
  · split
    · exact .answered _ hstate
    · split
      · split
        · exact .answered _ hstate
        · exact admitRequest_step hstate
      · exact .answered _ hstate

/-- Every frame ends in one of these ways. -/
theorem handleFrame_step : FrameStep cfg J rng r sh s bytes (handleFrame cfg J rng r sh s bytes) := by
  unfold handleFrame
  split
  · exact .closed _
  · next root hroot =>
    dsimp only
    split
    · next hstate =>
      split
      · exact .closed _
      · exact handleHello_step hstate
    · next hstate =>
      split
      · exact .closed _
      · next hkind => exact handleAuth_step hstate hroot (not_not.mp hkind)
    · next hstate =>
      split
      · split
        · exact .answered _ hstate
        · exact .answered _ hstate
      · split
        · exact handleRequest_step hstate
        · exact .closed _

end frame

/-! ### One event -/

/-- What a session's own thread can do with its session, and with what the sessions share. -/
inductive SessionStep (cfg : ServiceConfig) (J : Jansson) (rng : Entropy) (sh : Shared) (s : Session) :
    Event → Session → Shared → List Effect → Prop where
  | received (bytes : List UInt8) (r : FrameReadings) (h : Handled) (hreading : s.reading = true)
      (hstep : FrameStep cfg J rng r sh s bytes h) :
      SessionStep cfg J rng sh s (.frame s.id bytes r) { h.session with alive := h.keep } h.shared h.effects
  | pushed (nowMs : Int) (cmd : BridgeCommand) (hpending : s.pending = some cmd) :
      SessionStep cfg J rng sh s (.push s.id nowMs) { s with pending := none } sh [.enqueued s.id cmd]
  | refused (nowMs : Int) (frame : String) :
      SessionStep cfg J rng sh s (.push s.id nowMs) { s with pending := none } sh [.outbound s.id frame]
  | left : SessionStep cfg J rng sh s (.leave s.id) { s with alive := false } sh []
  | tornDown (hdead : s.alive = false) :
      SessionStep cfg J rng sh s (.teardown s.id) { s with defunct := true }
        { sh with leases := sh.leases.onDisconnect s.id } []

/-- The commands an event puts on the queue. -/
def pushedCommands (effects : List Effect) : List BridgeCommand :=
  effects.filterMap fun
    | .enqueued _ cmd => some cmd
    | _ => none

@[simp] theorem pushedCommands_outbound (conn : Nat) (frames : List String) :
    pushedCommands (frames.map (.outbound conn)) = [] := by
  simp [pushedCommands]

/-- Handling a frame pushes nothing. -/
theorem FrameStep.pushedCommands {r : FrameReadings} {sh : Shared} {s : Session} {bytes : List UInt8}
    {h : Handled} (hstep : FrameStep cfg J rng r sh s bytes h) : pushedCommands h.effects = [] := by
  cases hstep with
  | closed | entropyFailed | challenged | answered => exact pushedCommands_outbound _ _
  | authenticated | rejected | leased | admitted => rfl

/-- What an event can do. -/
inductive ServerStep (cfg : ServiceConfig) (J : Jansson) (rng : Entropy) (srv : Server) :
    Event → Server → List Effect → Prop where
  | idle (e : Event) : ServerStep cfg J rng srv e srv []
  | reaped (client : Bool) (sessions : List Session) (hsub : sessions.Sublist srv.sessions) :
      ServerStep cfg J rng srv (.accept client) { srv with sessions } []
  | connected (client : Bool) (sessions : List Session) (hsub : sessions.Sublist srv.sessions) :
      ServerStep cfg J rng srv (.accept client)
        { srv with sessions := sessions ++ [{ id := srv.nextConnectionId }]
                   nextConnectionId := srv.nextConnectionId + 1 } []
  | session (e : Event) (s t : Session) (sh : Shared) (effects : List Effect)
      (hs : srv.session? s.id = some s) (hstep : SessionStep cfg J rng srv.shared s e t sh effects) :
      ServerStep cfg J rng srv e
        ({ srv with shared := sh, commandQueue := srv.commandQueue ++ pushedCommands effects }.setSession t)
        effects
  | attached (attached : Bool) : ServerStep cfg J rng srv (.attach attached) { srv with pumpAttached := attached } []
  | pumped (e : Event) (pump : Option PumpFrame) : ServerStep cfg J rng srv e { srv with pump } []
  | answered (t : DrainReadings) (answers : RackAnswers) (cmd : BridgeCommand) (rest : List BridgeCommand)
      (pump : Option PumpFrame) (frames : List String) (hqueue : srv.commandQueue = cmd :: rest) :
      ServerStep cfg J rng srv (.drain t answers) { srv with commandQueue := rest, pump }
        (frames.map (.outbound cmd.connectionId))
  | executed (t : DrainReadings) (answers : RackAnswers) (cmd : BridgeCommand) (rest : List BridgeCommand)
      (pump : Option PumpFrame) (opCache : OpCache) (frames : List String)
      (hqueue : srv.commandQueue = cmd :: rest)
      (hvalid : commandLeaseStillValid srv.shared.leases cmd t.leaseMs = true) :
      ServerStep cfg J rng srv (.drain t answers) { srv with commandQueue := rest, pump, opCache }
        (.executed cmd :: frames.map (.outbound cmd.connectionId))

section event
variable {srv : Server}

theorem session?_eq_some {conn : Nat} {s : Session} (h : srv.session? conn = some s) :
    s ∈ srv.sessions ∧ s.id = conn := Keyed.mem_of_find? h

/-- A session's step that pushes nothing leaves the queue alone. -/
theorem ServerStep.quiet {e : Event} {s t : Session} {sh : Shared} {effects : List Effect}
    (hs : srv.session? s.id = some s) (hstep : SessionStep cfg J rng srv.shared s e t sh effects)
    (hquiet : pushedCommands effects = []) :
    ServerStep cfg J rng srv e ({ srv with shared := sh }.setSession t) effects := by
  have hserver := ServerStep.session e s t sh effects hs hstep
  rwa [hquiet, List.append_nil] at hserver

theorem Server.accept_step {client : Bool} :
    ServerStep cfg J rng srv (.accept client) (srv.accept cfg client) [] := by
  unfold Server.accept
  dsimp only
  split
  · exact .reaped client _ List.filter_sublist
  · split
    · exact .reaped client _ List.filter_sublist
    · exact .connected client _ List.filter_sublist

theorem Server.receive_step {conn : Nat} {bytes : List UInt8} {r : FrameReadings} :
    ServerStep cfg J rng srv (.frame conn bytes r) (srv.receive cfg J rng conn bytes r).1
      (srv.receive cfg J rng conn bytes r).2 := by
  unfold Server.receive
  split
  · exact .idle _
  · next s hs =>
    obtain ⟨-, rfl⟩ := session?_eq_some hs
    split
    · exact .idle _
    · next hreading =>
      have hframe : FrameStep cfg J rng r srv.shared s bytes _ := handleFrame_step
      exact .quiet hs (.received bytes r _ (not_not.mp hreading) hframe) hframe.pushedCommands

theorem Server.push_step {conn : Nat} {nowMs : Int} :
    ServerStep cfg J rng srv (.push conn nowMs) (srv.push J conn).1 (srv.push J conn).2 := by
  unfold Server.push
  split
  · exact .idle _
  · next s hs =>
    obtain ⟨-, rfl⟩ := session?_eq_some hs
    split
    · exact .idle _
    · next cmd hpending =>
      dsimp only
      split
      · exact .session _ s _ _ _ hs (.pushed nowMs cmd hpending)
      · exact .quiet hs (.refused nowMs _) rfl

theorem Server.leave_step {conn : Nat} : ServerStep cfg J rng srv (.leave conn) (srv.leave conn) [] := by
  unfold Server.leave
  split
  · next s hs =>
    obtain ⟨-, rfl⟩ := session?_eq_some hs
    split
    · exact .quiet hs .left rfl
    · exact .idle _
  · exact .idle _

theorem Server.teardown_step {conn : Nat} :
    ServerStep cfg J rng srv (.teardown conn) (srv.teardown conn) [] := by
  unfold Server.teardown
  split
  · next s hs =>
    obtain ⟨-, rfl⟩ := session?_eq_some hs
    split
    · exact .idle _
    · next hdead =>
      rw [not_or, Bool.not_eq_true] at hdead
      exact .quiet hs (.tornDown hdead.1) rfl
  · exact .idle _

/-- A frame reaches the connection's queue, or there is no connection any more. -/
theorem sendFrame_eq (srv : Server) (conn : Nat) (frame : String) :
    ∃ frames : List String, srv.sendFrame conn frame = frames.map (.outbound conn) := by
  unfold Server.sendFrame
  split
  · exact ⟨[frame], rfl⟩
  · exact ⟨[], rfl⟩

theorem Server.drain_step {t : DrainReadings} {answers : RackAnswers} :
    ServerStep cfg J rng srv (.drain t answers) (srv.drain cfg J t answers).1 (srv.drain cfg J t answers).2 := by
  unfold Server.drain
  split
  · exact .idle _
  · split
    · exact .pumped _ none
    · split
      · exact .pumped _ none
      · next cmd rest hqueue =>
        dsimp only
        unfold processCommand
        split
        · obtain ⟨frames, hframes⟩ := sendFrame_eq srv cmd.connectionId _
          rw [hframes]
          exact .answered t answers cmd rest _ frames hqueue
        · split
          · obtain ⟨frames, hframes⟩ := sendFrame_eq srv cmd.connectionId _
            rw [hframes]
            exact .answered t answers cmd rest _ frames hqueue
          · next hvalid =>
            obtain ⟨frames, hframes⟩ := sendFrame_eq srv cmd.connectionId _
            rw [hframes]
            exact .executed t answers cmd rest _ _ frames hqueue (not_not.mp hvalid)

/-- Every event does one of these things. -/
theorem Server.step_cases (cfg : ServiceConfig) (J : Jansson) (rng : Entropy) (srv : Server) (e : Event) :
    ServerStep cfg J rng srv e (srv.step cfg J rng e).1 (srv.step cfg J rng e).2 := by
  cases e with
  | accept client => exact Server.accept_step
  | frame conn bytes r => exact Server.receive_step
  | push conn nowMs => exact Server.push_step
  | leave conn => exact Server.leave_step
  | teardown conn => exact Server.teardown_step
  | attach attached => exact .attached attached
  | pumpStep nowMs => exact .pumped _ _
  | drain t answers => exact Server.drain_step

end event

/-! ### The sessions after an event -/

theorem FrameStep.session_id {r : FrameReadings} {sh : Shared} {s : Session} {bytes : List UInt8}
    {h : Handled} (hstep : FrameStep cfg J rng r sh s bytes h) : h.session.id = s.id := by
  cases hstep <;> rfl

theorem SessionStep.id_eq {sh sh' : Shared} {s t : Session} {e : Event} {effects : List Effect}
    (hstep : SessionStep cfg J rng sh s e t sh' effects) : t.id = s.id := by
  cases hstep with
  | received bytes r h hreading hframe => exact hframe.session_id
  | pushed | refused | left | tornDown => rfl

/-- A command is pushed by the reader that has it pending. -/
theorem SessionStep.pending_of_pushed {sh sh' : Shared} {s t : Session} {e : Event} {effects : List Effect}
    {conn : Nat} {cmd : BridgeCommand} (hstep : SessionStep cfg J rng sh s e t sh' effects)
    (hcmd : .enqueued conn cmd ∈ effects) : conn = s.id ∧ s.pending = some cmd := by
  cases hstep with
  | received bytes r h hreading hframe =>
    have hpushed : cmd ∈ pushedCommands h.effects := List.mem_filterMap.mpr ⟨_, hcmd, rfl⟩
    rw [hframe.pushedCommands] at hpushed
    cases hpushed
  | pushed nowMs cmd' hpending =>
    cases List.mem_singleton.mp hcmd
    exact ⟨rfl, hpending⟩
  | refused => cases List.mem_singleton.mp hcmd
  | left | tornDown => cases hcmd

/-- The connection whose thread takes the event. -/
def Event.connection? : Event → Option Nat
  | .frame conn _ _ | .push conn _ | .leave conn | .teardown conn => some conn
  | .accept _ | .attach _ | .pumpStep _ | .drain _ _ => none

theorem SessionStep.connection {sh sh' : Shared} {s t : Session} {e : Event} {effects : List Effect}
    (hstep : SessionStep cfg J rng sh s e t sh' effects) : e.connection? = some s.id := by
  cases hstep <;> rfl

theorem mem_setSession {srv : Server} {s t : Session} (h : t ∈ (srv.setSession s).sessions) :
    t = s ∨ t ∈ srv.sessions ∧ t.id ≠ s.id := by
  obtain ⟨u, hu, rfl⟩ := List.mem_map.mp h
  by_cases hid : u.id = s.id
  · exact .inl (if_pos hid)
  · rw [if_neg hid]
    exact .inr ⟨hu, hid⟩

/-- A session after an event: one of before, the one the accept loop opened, or one its own thread
changed. -/
theorem ServerStep.mem_sessions {srv srv' : Server} {e : Event} {effects : List Effect} {t : Session}
    (h : ServerStep cfg J rng srv e srv' effects) (ht : t ∈ srv'.sessions) :
    t ∈ srv.sessions ∨
      (t = { id := srv.nextConnectionId } ∧ srv'.nextConnectionId = srv.nextConnectionId + 1) ∨
      ∃ s ∈ srv.sessions, SessionStep cfg J rng srv.shared s e t srv'.shared effects := by
  cases h with
  | idle | attached | pumped | answered | executed => exact .inl ht
  | reaped client sessions hsub => exact .inl (hsub.subset ht)
  | connected client sessions hsub =>
    rcases List.mem_append.mp ht with ht | ht
    · exact .inl (hsub.subset ht)
    · exact .inr (.inl ⟨List.mem_singleton.mp ht, rfl⟩)
  | session _ s t' sh _ hs hstep =>
    rcases mem_setSession ht with rfl | ⟨ht, -⟩
    · exact .inr (.inr ⟨s, (session?_eq_some hs).1, hstep⟩)
    · exact .inl ht

theorem ServerStep.nextConnectionId_le {srv srv' : Server} {e : Event} {effects : List Effect}
    (h : ServerStep cfg J rng srv e srv' effects) : srv.nextConnectionId ≤ srv'.nextConnectionId := by
  cases h with
  | idle | reaped | attached | pumped | answered | executed | session => exact le_rfl
  | connected => exact Nat.le_succ _

theorem mem_pushedCommands {effects : List Effect} {cmd : BridgeCommand} (h : cmd ∈ pushedCommands effects) :
    ∃ conn, .enqueued conn cmd ∈ effects := by
  obtain ⟨effect, heffect, hcmd⟩ := List.mem_filterMap.mp h
  split at hcmd
  · cases hcmd
    exact ⟨_, heffect⟩
  · cases hcmd

/-- A command on the queue after an event was there before, or a reader had it pending and pushed it. -/
theorem ServerStep.mem_commandQueue {srv srv' : Server} {e : Event} {effects : List Effect}
    {cmd : BridgeCommand} (h : ServerStep cfg J rng srv e srv' effects) (hcmd : cmd ∈ srv'.commandQueue) :
    cmd ∈ srv.commandQueue ∨
      ∃ s ∈ srv.sessions, s.pending = some cmd ∧ .enqueued s.id cmd ∈ effects := by
  cases h with
  | idle | reaped | connected | attached | pumped => exact .inl hcmd
  | answered t answers popped rest pump frames hqueue => exact .inl (hqueue ▸ List.mem_cons_of_mem _ hcmd)
  | executed t answers popped rest pump opCache frames hqueue =>
    exact .inl (hqueue ▸ List.mem_cons_of_mem _ hcmd)
  | session _ s t sh _ hs hstep =>
    rcases List.mem_append.mp hcmd with hcmd | hcmd
    · exact .inl hcmd
    · obtain ⟨conn, heffect⟩ := mem_pushedCommands hcmd
      obtain ⟨rfl, hpending⟩ := hstep.pending_of_pushed heffect
      exact .inr ⟨s, (session?_eq_some hs).1, hpending, heffect⟩

/-- The connection ids given out are distinct, and the next one is new. -/
structure Server.Numbered (srv : Server) : Prop where
  ids : (srv.sessions.map Session.id).Nodup
  below : ∀ s ∈ srv.sessions, s.id < srv.nextConnectionId

theorem Server.numbered_start : Server.Numbered {} where
  ids := List.nodup_nil
  below s hs := by cases hs

theorem ServerStep.numbered {srv srv' : Server} {e : Event} {effects : List Effect}
    (h : ServerStep cfg J rng srv e srv' effects) (hsrv : srv.Numbered) : srv'.Numbered := by
  refine ⟨?_, fun t ht => ?_⟩
  · cases h with
    | idle | attached | pumped | answered | executed => exact hsrv.ids
    | reaped client sessions hsub => exact hsrv.ids.sublist (hsub.map _)
    | connected client sessions hsub =>
      rw [List.map_append, List.map_singleton]
      refine List.Nodup.append (hsrv.ids.sublist (hsub.map _)) (List.nodup_singleton _) ?_
      rw [List.disjoint_singleton]
      intro hmem
      obtain ⟨s, hs, hid⟩ := List.mem_map.mp hmem
      exact absurd hid (hsrv.below s (hsub.subset hs)).ne
    | session _ s t sh _ hs hstep =>
      show ((Keyed.update Session.id t.id (fun _ => t) srv.sessions).map Session.id).Nodup
      rw [Keyed.map_update _ _ fun u _ hu => hu.symm]
      exact hsrv.ids
  · obtain ht | ⟨rfl, hcount⟩ | ⟨s, hs, hstep⟩ := h.mem_sessions ht
    · exact (hsrv.below t ht).trans_le h.nextConnectionId_le
    · rw [hcount]
      exact Nat.lt_succ_self _
    · rw [hstep.id_eq]
      exact (hsrv.below s hs).trans_le h.nextConnectionId_le

theorem setSession_self {srv : Server} {s t : Session} (hs : s ∈ srv.sessions) (hid : t.id = s.id) :
    t ∈ (srv.setSession t).sessions :=
  List.mem_map.mpr ⟨s, hs, if_pos hid.symm⟩

/-- Where an effect comes from: a frame for a connection, the execution of a queued command on a valid
lease, or a session's own thread. -/
theorem ServerStep.effect_cases {srv srv' : Server} {e : Event} {effects : List Effect} {a : Effect}
    (h : ServerStep cfg J rng srv e srv' effects) (ha : a ∈ effects) :
    (∃ conn frame, a = .outbound conn frame) ∨
    (∃ t answers cmd, a = .executed cmd ∧ e = .drain t answers ∧ cmd ∈ srv.commandQueue ∧
      commandLeaseStillValid srv.shared.leases cmd t.leaseMs = true) ∨
    ∃ s ∈ srv.sessions, ∃ t ∈ srv'.sessions, SessionStep cfg J rng srv.shared s e t srv'.shared effects := by
  have hsent : ∀ {conn : Nat} {frames : List String}, a ∈ frames.map (Effect.outbound conn) →
      ∃ conn frame, a = Effect.outbound conn frame := by
    intro conn frames hframe
    obtain ⟨frame, -, heq⟩ := List.mem_map.mp hframe
    exact ⟨conn, frame, heq.symm⟩
  cases h with
  | idle | reaped | connected | attached | pumped => cases ha
  | session _ s t sh _ hs hstep =>
    have hmem := (session?_eq_some hs).1
    exact .inr (.inr ⟨s, hmem, t, setSession_self hmem hstep.id_eq, hstep⟩)
  | answered => exact .inl (hsent ha)
  | executed t answers cmd rest pump opCache frames hqueue hvalid =>
    rcases List.mem_cons.mp ha with heq | ha
    · refine .inr (.inl ⟨t, answers, cmd, heq, rfl, ?_, hvalid⟩)
      rw [hqueue]
      exact List.mem_cons_self
    · exact .inl (hsent ha)

/-! ### Runs -/

/-- The bridge after the events before index `k`, from its start. -/
def stateAt (cfg : ServiceConfig) (J : Jansson) (rng : Entropy) (es : List Event) (k : ℕ) : Server :=
  Trace.stateAt (Server.step cfg J rng) {} es k

/-- The event at index `k` has this effect. -/
def Emits (cfg : ServiceConfig) (J : Jansson) (rng : Entropy) (es : List Event) (k : ℕ) (a : Effect) : Prop :=
  Trace.Emits (Server.step cfg J rng) {} es k a

section run
variable {es : List Event} {k : ℕ}

theorem stateAt_succ {e : Event} (he : es[k]? = some e) :
    stateAt cfg J rng es (k + 1) = (Server.step cfg J rng (stateAt cfg J rng es k) e).1 :=
  Trace.stateAt_succ he

/-- An effect comes from one of the steps. -/
theorem Emits.step {a : Effect} (h : Emits cfg J rng es k a) :
    ∃ e effects, es[k]? = some e ∧ a ∈ effects ∧
      ServerStep cfg J rng (stateAt cfg J rng es k) e (stateAt cfg J rng es (k + 1)) effects := by
  obtain ⟨e, he, ha⟩ := h
  refine ⟨e, _, he, ha, ?_⟩
  rw [stateAt_succ he]
  exact Server.step_cases cfg J rng _ e

/-- The states of a run are linked by the steps. -/
theorem stateAt_step {e : Event} (he : es[k]? = some e) :
    ∃ effects, ServerStep cfg J rng (stateAt cfg J rng es k) e (stateAt cfg J rng es (k + 1)) effects := by
  rw [stateAt_succ he]
  exact ⟨_, Server.step_cases cfg J rng _ e⟩

/-- What holds of the bridge at its start and is kept by every step holds throughout every run. -/
theorem stateAt_invariant {P : Server → Prop} (h0 : P {})
    (hstep : ∀ srv srv' e effects, ServerStep cfg J rng srv e srv' effects → P srv → P srv') (k : ℕ) :
    P (stateAt cfg J rng es k) :=
  Trace.invariant h0 (fun _ e hs => hstep _ _ _ _ (Server.step_cases cfg J rng _ e) hs) k

/-- What became true in a run became so on an event before. -/
theorem stateAt_change {P : Server → Prop} (h0 : ¬ P {}) (hk : P (stateAt cfg J rng es k)) :
    ∃ j e, j < k ∧ es[j]? = some e ∧ ¬ P (stateAt cfg J rng es j) ∧ P (stateAt cfg J rng es (j + 1)) := by
  obtain ⟨j, e, hj, he, hbefore, hafter⟩ := Trace.exists_change h0 hk
  refine ⟨j, e, hj, he, hbefore, ?_⟩
  rw [stateAt_succ he]
  exact hafter

end run

/-- A session that answers its challenge is ready. -/
theorem receive_accepted {srv : Server} {s : Session} {bytes : List UInt8} {r : FrameReadings} {root : Json}
    (hs : srv.session? s.id = some s) (hreading : s.reading = true) (hstate : s.state = .expectAuth)
    (hroot : decodeFrame J bytes = some root) (hkind : jstr root "kind" = "auth")
    (hhex : isHex (jstr root "hmac") 64 = true) (hmac : expectedHmac cfg s.nonce = jstr root "hmac") :
    (srv.receive cfg J rng s.id bytes r).1 =
      srv.setSession { s with nonce := "", authed := true, state := .ready, alive := true } := by
  have haccepted : (isHex (jstr root "hmac") 64 &&
      constantTimeEqual (expectedHmac cfg s.nonce) (jstr root "hmac")) = true := by
    rw [hhex, hmac, Bool.true_and]
    exact constantTimeEqual_iff.mpr rfl
  have hframe : handleFrame cfg J rng r srv.shared s bytes = handleAuth cfg J srv.shared s root := by
    unfold handleFrame
    rw [hroot]
    simp only [hstate, hkind]
    rfl
  have hauth : handleAuth cfg J srv.shared s root =
      ⟨{ s with nonce := "", authed := true, state := .ready }, srv.shared,
        [.authEvaluated s.id s.nonce (jstr root "hmac") true, .outbound s.id (buildAuthOk J)], true⟩ := by
    unfold handleAuth
    dsimp only
    rw [haccepted]
    rfl
  unfold Server.receive
  rw [hs]
  dsimp only
  rw [if_neg (not_not.mpr hreading), hframe, hauth]

/-! ### A bench bridge -/

mutual

/-- The compact text of a value whose strings need no escapes. -/
def compactText : Json → String
  | .null => "null"
  | .bool b => if b then "true" else "false"
  | .integer n => toString n
  | .real _ => "0.0"
  | .string s => "\"" ++ s ++ "\""
  | .array items => "[" ++ compactItems items ++ "]"
  | .object members => "\x7b" ++ compactMembers members ++ "\x7d"

def compactItems : List Json → String
  | [] => ""
  | [item] => compactText item
  | item :: rest => compactText item ++ "," ++ compactItems rest

def compactMembers : List (String × Json) → String
  | [] => ""
  | [(key, v)] => "\"" ++ key ++ "\":" ++ compactText v
  | (key, v) :: rest => "\"" ++ key ++ "\":" ++ compactText v ++ "," ++ compactMembers rest

end

def benchConfig : ServiceConfig where
  secret := List.replicate 32 7
  instanceId := "instance"
  sessionId := "session"
  bridgeVersion := "0.1.0"
  rackVersion := "2.6.0"
  secret_size := rfl

/-- One nonce, after which the random source fails. -/
def benchEntropy : Entropy where
  randomHex n := if n = 0 then toHex (List.replicate 32 0) else ""
  uuid4 n := "00000000-0000-4000-8000-000000000000" ++ String.ofList (List.replicate n '0')

def benchHello : Json :=
  .object [("kind", .string "hello"), ("client", .object []), ("versions", .array [.integer 1])]

def benchAuth : Json :=
  .object [("kind", .string "auth"),
    ("hmac", .string "0a6562efd5d3f8e4ccfac8bd6594590cb5be7cd1fd03d848fee618eb6ec64919")]

def benchRequest (id method : String) (payload : Json) : Json :=
  .object [("kind", .string "req"), ("id", .string id), ("method", .string method),
    ("deadlineMs", .integer 5000), ("operationId", .string "11111111-1111-4111-8111-111111111111"),
    ("payload", payload)]

def benchAcquire : Json :=
  benchRequest "00000000000000a1" "lease.acquire" (.object [("clientName", .string "bench")])

def benchUndo : Json :=
  benchRequest "00000000000000a2" "txn.undoLast"
    (.object [("expectedOperationId", .string ""), ("operationId", .string ""), ("scope", .object [])])

def benchFrames : List Json := [benchHello, benchAuth, benchAcquire, benchUndo]

/-- Encodes as jansson does, and decodes the bench frames. -/
def benchJansson : Jansson where
  loadb bytes := benchFrames.find? fun v => stringBytes (compactText v) == bytes
  loads text := benchFrames.find? fun v => compactText v == text
  dumps v := some (compactText v)
  dumpsSorted v := some (compactText v)

/-- Every handler succeeds with nothing to report. -/
def benchAnswers : RackAnswers where
  frame _ := .ok ""
  txn _ := .ok {}
  patchFile _ := .ok {}

/-- A client pairs, acquires the lease and has an undo executed. -/
def benchEvents : List Event :=
  let receive (v : Json) (nowMs : Int) : Event := .frame 1 (stringBytes (compactText v)) ⟨1, nowMs, nowMs⟩
  [.accept true, .attach true, receive benchHello 0, receive benchAuth 1, receive benchAcquire 2,
   receive benchUndo 3, .push 1 4, .pumpStep 5, .drain ⟨5, 6, 6, ⟨6, 7⟩⟩ benchAnswers]

/-- The effects of an event at an index of the bench run. -/
def benchEffects (k : Nat) (e : Event) : List Effect :=
  ((stateAt benchConfig benchJansson benchEntropy benchEvents k).step benchConfig benchJansson benchEntropy e).2

theorem benchEffects_eq (k : Nat) (e : Event) : benchEffects k e =
    (Server.step benchConfig benchJansson benchEntropy
      (Trace.stateAt (Server.step benchConfig benchJansson benchEntropy) {} benchEvents k) e).2 := rfl

def Effect.isEnqueue : Effect → Bool
  | .enqueued conn _ => conn == 1
  | _ => false

def Effect.isMutation : Effect → Bool
  | .executed cmd => cmd.mutating
  | _ => false

theorem bench_hmac : expectedHmac benchConfig (benchEntropy.randomHex 0) = jstr benchAuth "hmac" := by
  decide +kernel

/-- The client of the bench is authenticated. -/
theorem bench_ready : stateAt benchConfig benchJansson benchEntropy benchEvents 4 =
    { sessions := [{ id := 1, state := .ready, authed := true }], nextConnectionId := 2, shared := { nonceDraws := 1 },
      pumpAttached := true } := by
  let s : Session := { id := 1, state := .expectAuth, nonce := benchEntropy.randomHex 0 }
  have hchallenged : stateAt benchConfig benchJansson benchEntropy benchEvents 3 =
      { sessions := [s], nextConnectionId := 2, shared := { nonceDraws := 1 }, pumpAttached := true } := rfl
  have hroot : decodeFrame benchJansson (stringBytes (compactText benchAuth)) = some benchAuth := rfl
  rw [stateAt_succ (k := 3) (e := .frame 1 (stringBytes (compactText benchAuth)) ⟨1, 1, 1⟩) rfl, hchallenged]
  exact receive_accepted (s := s) rfl rfl rfl hroot (by decide) (by decide) bench_hmac

/-- On the bench the undo is enqueued and executed. -/
theorem bench_run : (benchEffects 6 (.push 1 4)).any Effect.isEnqueue = true ∧
    (benchEffects 8 (.drain ⟨5, 6, 6, ⟨6, 7⟩⟩ benchAnswers)).any Effect.isMutation = true := by
  -- the handshake is run once
  rw [benchEffects_eq, benchEffects_eq, Trace.stateAt_drop 4 2 bench_ready, Trace.stateAt_drop 4 4 bench_ready]
  decide +kernel

theorem bench_enqueued :
    ∃ cmd, Emits benchConfig benchJansson benchEntropy benchEvents 6 (.enqueued 1 cmd) := by
  obtain ⟨effect, heffect, henqueue⟩ := List.any_eq_true.mp bench_run.1
  rw [benchEffects_eq] at heffect
  unfold Emits Trace.Emits
  cases effect with
  | enqueued conn cmd =>
    obtain rfl : conn = 1 := by simpa [Effect.isEnqueue] using henqueue
    exact ⟨cmd, .push 1 4, rfl, heffect⟩
  | outbound | authEvaluated | leaseHandled | executed => cases henqueue

theorem bench_executed :
    ∃ cmd, Emits benchConfig benchJansson benchEntropy benchEvents 8 (.executed cmd) ∧ cmd.mutating = true := by
  obtain ⟨effect, heffect, hmutation⟩ := List.any_eq_true.mp bench_run.2
  rw [benchEffects_eq] at heffect
  unfold Emits Trace.Emits
  cases effect with
  | executed cmd => exact ⟨cmd, ⟨.drain ⟨5, 6, 6, ⟨6, 7⟩⟩ benchAnswers, rfl, heffect⟩, hmutation⟩
  | outbound | authEvaluated | leaseHandled | enqueued => cases hmutation

end RackMcp
