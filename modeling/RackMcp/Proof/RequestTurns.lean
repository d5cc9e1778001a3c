import RackMcp.Proof.PumpReplies

/-!
# What an event does to the requests of a connection

`Server.Sound` is what holds of the bridge throughout a run: short leases, commands with valid ids, a cache that can be
replayed. `Turn` says once what an event does to the requests of a connection that is not gone: it answers one, or has its
command wait, or answers a command that waited, or none of these.
-/

namespace RackMcp

open Gen

variable {cfg : ServiceConfig} {J : Jansson} {rng : Entropy} {numeral : Double → String}

/-! ### What holds throughout -/

/-- The leases are short, the commands carry valid ids of connections that were given out, and the cache can be
replayed. -/
structure Server.Sound (J : Jansson) (srv : Server) : Prop where
  numbered : srv.Numbered
  leases : srv.shared.leases.Short
  pending : ∀ s ∈ srv.sessions, ∀ cmd, s.pending = some cmd → isHex cmd.requestId 16 = true ∧ cmd.connectionId = s.id
  queue : ∀ cmd ∈ srv.commandQueue, isHex cmd.requestId 16 = true ∧ cmd.connectionId < srv.nextConnectionId
  opCache : ∀ e ∈ srv.opCache, Replayable J e.frame

/-- What the handlers come back with on an event is for the command they run on, and a string has fewer bytes than a
machine word counts. -/
def Server.Answerable (J : Jansson) (srv : Server) : Event → Prop
  | .drain t answers => ∀ cmd rest, srv.commandQueue = cmd :: rest →
    (Call.mk cmd t.execution answers).Honest J ∧
      (processCommand J srv.shared.leases srv.opCache t answers cmd).2.2.utf8ByteSize < 10 ^ 20
  | _ => True

theorem Server.sound_start : Server.Sound J {} where
  numbered := Server.numbered_start
  leases := short_default
  pending _ hs := absurd hs List.not_mem_nil
  queue _ hcmd := absurd hcmd List.not_mem_nil
  opCache _ he := absurd he List.not_mem_nil

section sound
variable {srv srv' : Server} {e : Event} {effects : List Effect}

theorem short_handleLeaseRequest (hroom : Roomy cfg rng) {sh : Shared} (hshort : sh.leases.Short) (conn : ℕ)
    (id method : String) (payload : Option Json) (nowMs : ℤ) :
    (handleLeaseRequest cfg J rng sh conn id method payload nowMs).1.leases.Short := by
  unfold handleLeaseRequest
  split
  · have hnext := (hshort.acquire conn nowMs cfg.leaseTtlMs
      (size_truncateUtf8 (jstr payload "clientName" "unknown") 128) (hroom.uuid sh.uuidDraws)).1
    dsimp only
    split
    · next hacquire =>
      rw [hacquire] at hnext
      exact hnext
    · next hacquire =>
      rw [hacquire] at hnext
      exact hnext
  split
  · have hnext := hshort.renew conn (jstr payload "leaseId") nowMs cfg.leaseTtlMs
    split
    · next hrenew =>
      rw [hrenew] at hnext
      exact hnext
    · next hrenew =>
      rw [hrenew] at hnext
      exact hnext
  split
  · exact hshort.release
  · exact hshort

theorem ServerStep.short (hroom : Roomy cfg rng) (h : ServerStep cfg J rng srv e srv' effects)
    (hshort : srv.shared.leases.Short) : srv'.shared.leases.Short := by
  cases h with
  | idle | reaped | connected | attached | pumped | answered | executed => exact hshort
  | session _ s t sh _ hs hstep =>
    cases hstep with
    | pushed | refused | left => exact hshort
    | tornDown => exact hshort.onDisconnect
    | received bytes r h hreading hframe =>
      cases hframe with
      | closed | entropyFailed | challenged | authenticated | rejected | answered | admitted => exact hshort
      | leased id method payload hstate => exact short_handleLeaseRequest hroom hshort _ _ _ _ _

/-- Only a turn of the drain loop writes the cache. -/
theorem ServerStep.opCache_eq (h : ServerStep cfg J rng srv e srv' effects) (he : ∀ t answers, e ≠ .drain t answers) :
    srv'.opCache = srv.opCache := by
  cases h with
  | idle | reaped | connected | session | attached | pumped | answered => rfl
  | executed t answers => exact absurd rfl (he t answers)

/-- Away from a frame the pending command is pushed or stays. -/
theorem SessionStep.pending_away {sh sh' : Shared} {s t : Session} (h : SessionStep cfg J rng sh s e t sh' effects) :
    (∃ conn bytes r, e = .frame conn bytes r) ∨ t.pending = none ∨ t.pending = s.pending := by
  cases h with
  | received bytes r => exact .inl ⟨_, bytes, r, rfl⟩
  | pushed | refused => exact .inr (.inl rfl)
  | left | tornDown => exact .inr (.inr rfl)

theorem isHex_of_requestIn {s : Session} {bytes : List UInt8} {root : Json} (h : requestIn J s bytes = some root) :
    isHex (jstr root "id") 16 = true := by
  unfold requestIn at h
  split at h
  · exact (Bool.and_eq_true_iff.mp (Option.filter_eq_some_iff.mp h).2).2
  · exact absurd h (by simp)

/-- A frame leaves the pending command, or makes its request pending. -/
theorem Taken.pending_cases {s : Session} {bytes : List UInt8} {h : Handled} (htaken : Taken cfg J s bytes h)
    {cmd : BridgeCommand} (hcmd : h.session.pending = some cmd) :
    s.pending = some cmd ∨ isHex cmd.requestId 16 = true ∧ cmd.connectionId = s.id := by
  cases htaken with
  | ignored request sent pending =>
    rw [pending] at hcmd
    exact .inl hcmd
  | answered root frame request sent written fits pending =>
    rw [pending] at hcmd
    exact .inl hcmd
  | queued root cmd' request sent known pending requestId connection =>
    obtain rfl := Option.some.inj (pending.symm.trans hcmd)
    rw [requestId]
    exact .inr ⟨isHex_of_requestIn request, connection⟩

variable (hJ : J.Prints numeral) (hroom : Roomy cfg rng)
  (hnul : ∀ bytes root key, J.loadb bytes = some root → '\x00' ∉ (jstr (some root) key).toList)
include hJ hroom hnul

/-- A pending command is of the session that admitted it. -/
theorem Server.Sound.pending_receive (hsrv : srv.Sound J) {conn : ℕ} {bytes : List UInt8} {r : FrameReadings} :
    ∀ t ∈ (srv.receive cfg J rng conn bytes r).1.sessions, ∀ cmd, t.pending = some cmd →
      isHex cmd.requestId 16 = true ∧ cmd.connectionId = t.id := by
  intro t ht cmd hcmd
  unfold Server.receive at ht
  split at ht
  · exact hsrv.pending t ht cmd hcmd
  · next s hs =>
    split at ht
    · exact hsrv.pending t ht cmd hcmd
    · rcases mem_setSession ht with rfl | ⟨ht, -⟩
      · have hid : (handleFrame cfg J rng r srv.shared s bytes).session.id = s.id := handleFrame_step.session_id
        obtain hpending | hadmitted := (taken_handleFrame hJ hroom hsrv.leases hnul).pending_cases hcmd
        · have hold := hsrv.pending s (session?_eq_some hs).1 cmd hpending
          rw [← hid] at hold
          exact hold
        · rw [← hid] at hadmitted
          exact hadmitted
      · exact hsrv.pending t ht cmd hcmd

/-- What holds of the bridge is kept by every event. -/
theorem Server.Sound.step (hsrv : srv.Sound J) (hanswers : srv.Answerable J e) : (srv.step cfg J rng e).1.Sound J := by
  have hstep := Server.step_cases cfg J rng srv e
  refine ⟨hstep.numbered hsrv.numbered, hstep.short hroom hsrv.leases, ?_, fun cmd hcmd => ?_, ?_⟩
  · by_cases hframe : ∃ conn bytes r, e = .frame conn bytes r
    · obtain ⟨conn, bytes, r, rfl⟩ := hframe
      exact hsrv.pending_receive hJ hroom hnul
    · intro t ht cmd hcmd
      obtain ht | ⟨rfl, -⟩ | ⟨s, hs, hsession⟩ := hstep.mem_sessions ht
      · exact hsrv.pending t ht cmd hcmd
      · exact absurd hcmd (by simp)
      · obtain ⟨conn, bytes, r, heq⟩ | hnone | hsame := hsession.pending_away
        · exact absurd ⟨conn, bytes, r, heq⟩ hframe
        · rw [hnone] at hcmd
          exact absurd hcmd (by simp)
        · rw [hsession.id_eq]
          exact hsrv.pending s hs cmd (hsame ▸ hcmd)
  · obtain hold | ⟨s, hs, hpending, -⟩ := hstep.mem_commandQueue hcmd
    · obtain ⟨hid, hconn⟩ := hsrv.queue cmd hold
      exact ⟨hid, hconn.trans_le hstep.nextConnectionId_le⟩
    · obtain ⟨hid, hconn⟩ := hsrv.pending s hs cmd hpending
      rw [hconn]
      exact ⟨hid, (hsrv.numbered.below s hs).trans_le hstep.nextConnectionId_le⟩
  · by_cases hdrain : ∃ t answers, e = .drain t answers
    · obtain ⟨t, answers, rfl⟩ := hdrain
      show ∀ e ∈ (srv.drain cfg J t answers).1.opCache, Replayable J e.frame
      unfold Server.drain
      split
      · exact hsrv.opCache
      · split
        · exact hsrv.opCache
        · split
          · exact hsrv.opCache
          · next cmd rest hqueue =>
            exact replayable_processCommand (hanswers cmd rest hqueue).1 hsrv.opCache
    · rw [hstep.opCache_eq fun t answers heq => hdrain ⟨t, answers, heq⟩]
      exact hsrv.opCache

end sound

/-! ### One event -/

/-- The frames handed to a connection. -/
def sentTo (conn : ℕ) (effects : List Effect) : List String :=
  (sentFrames effects).filterMap fun sent => if sent.1 = conn then some sent.2 else none

/-- The commands of a connection that wait: the one its reader is about to push, and those on the queue. -/
def Server.commandsOf (srv : Server) (conn : ℕ) : List BridgeCommand :=
  ((srv.session? conn).bind (·.pending)).toList ++ srv.commandQueue.filter (·.connectionId == conn)

/-- The request of a connection that an event brings. -/
def Server.requestFrom (J : Jansson) (srv : Server) (conn : ℕ) : Event → Option Json
  | .frame c bytes _ =>
    if c = conn then (srv.session? conn).bind fun s => if s.reading then requestIn J s bytes else none else none
  | _ => none

/-- The connection was given out and has no session any more. -/
def Server.Gone (srv : Server) (conn : ℕ) : Prop := conn < srv.nextConnectionId ∧ srv.session? conn = none

/-- What an event does to the requests of a connection. -/
inductive Turn (cfg : ServiceConfig) (J : Jansson) (conn : ℕ) (srv : Server) (e : Event) (srv' : Server)
    (effects : List Effect) : Prop
  /-- It brings no request and no reply. -/
  | idle (request : srv.requestFrom J conn e = none)
      (sent : ∀ frame ∈ sentTo conn effects, ∀ id, isReplyTo id frame = false)
      (waiting : (srv'.commandsOf conn).Perm (srv.commandsOf conn))
  /-- Its request is answered. -/
  | answered (root : Json) (frame : String) (request : srv.requestFrom J conn e = some root)
      (sent : sentTo conn effects = [frame]) (written : Written J (jstr root "id") frame)
      (fits : frame.utf8ByteSize ≤ cfg.maxFrameBytes ↔ overlong cfg root = false)
      (waiting : srv'.commandsOf conn = srv.commandsOf conn)
  /-- The command of its request waits. -/
  | admitted (root : Json) (cmd : BridgeCommand) (request : srv.requestFrom J conn e = some root)
      (sent : sentTo conn effects = []) (known : overlong cfg root = false) (requestId : cmd.requestId = jstr root "id")
      (waiting : (srv'.commandsOf conn).Perm (cmd :: srv.commandsOf conn))
  /-- A command that waited is answered. -/
  | replied (cmd : BridgeCommand) (frame : String) (request : srv.requestFrom J conn e = none)
      (sent : sentTo conn effects = [frame]) (fits : Fits cfg J cmd.requestId frame)
      (hex : isHex cmd.requestId 16 = true) (waiting : (srv.commandsOf conn).Perm (cmd :: srv'.commandsOf conn))

section turn
variable {srv : Server} {conn : ℕ} {e : Event}

theorem sentTo_of_sentFrames {c : ℕ} {frame : String} {effects : List Effect} (h : sentFrames effects = [(c, frame)]) :
    sentTo conn effects = if c = conn then [frame] else [] := by
  unfold sentTo
  rw [h]
  by_cases hc : c = conn <;> simp [hc]

theorem sentTo_of_nothing {effects : List Effect} (h : sentFrames effects = []) : sentTo conn effects = [] := by
  unfold sentTo
  rw [h]
  rfl

theorem mem_sentFrames_of_sentTo {effects : List Effect} {frame : String} (h : frame ∈ sentTo conn effects) :
    (conn, frame) ∈ sentFrames effects := by
  obtain ⟨⟨c, f⟩, hmem, hsome⟩ := List.mem_filterMap.mp h
  by_cases hc : c = conn
  · rw [if_pos hc] at hsome
    obtain rfl := Option.some.inj hsome
    rw [← hc]
    exact hmem
  · rw [if_neg hc] at hsome
    exact absurd hsome (by simp)

theorem session?_of_mem (hsrv : srv.Sound J) {s : Session} (hs : s ∈ srv.sessions) : srv.session? s.id = some s :=
  Keyed.find?_eq_some hsrv.numbered.ids hs

theorem session?_setSession_self {s t : Session} (hs : srv.session? s.id = some s) (hid : t.id = s.id) :
    (srv.setSession t).session? s.id = some t := by
  show (Keyed.update Session.id t.id (fun _ => t) srv.sessions).find? (·.id == s.id) = some t
  rw [hid]
  exact Keyed.find?_update_self _ hs fun _ => hid

theorem session?_setSession_of_ne {t : Session} (hne : conn ≠ t.id) :
    (srv.setSession t).session? conn = srv.session? conn :=
  Keyed.find?_update_of_ne _ hne fun _ => rfl

/-- Away from the accept loop no session comes or goes. -/
theorem ServerStep.session_isSome {srv' : Server} {effects : List Effect} (h : ServerStep cfg J rng srv e srv' effects)
    (he : ∀ client, e ≠ .accept client) (hsome : (srv.session? conn).isSome) : (srv'.session? conn).isSome := by
  cases h with
  | idle | attached | pumped | answered | executed => exact hsome
  | reaped client | connected client => exact absurd rfl (he client)
  | session _ s t sh _ hs hstep =>
    apply Keyed.find?_isSome.mpr
    show conn ∈ (Keyed.update Session.id t.id (fun _ => t) srv.sessions).map Session.id
    rw [Keyed.map_update _ _ fun u _ hu => hu.symm]
    exact Keyed.find?_isSome.mp hsome

/-- A connection that is gone stays so. -/
theorem Server.Gone.step {srv' : Server} {effects : List Effect} (h : srv.Gone conn)
    (hstep : ServerStep cfg J rng srv e srv' effects) : srv'.Gone conn := by
  obtain ⟨hlt, hnone⟩ := h
  have hold : ∀ s ∈ srv.sessions, s.id ≠ conn := by
    intro s hs hid
    exact absurd (List.find?_eq_none.mp hnone s hs) (by simp [hid])
  refine ⟨hlt.trans_le hstep.nextConnectionId_le, ?_⟩
  rcases hsome : srv'.session? conn with _ | t
  · rfl
  · obtain ⟨ht, hid⟩ := session?_eq_some hsome
    obtain ht | ⟨rfl, -⟩ | ⟨s, hs, hsession⟩ := hstep.mem_sessions ht
    · exact absurd hid (hold t ht)
    · have hnext : srv.nextConnectionId = conn := hid
      omega
    · rw [hsession.id_eq] at hid
      exact absurd hid (hold s hs)

/-- Only its reader's frames and pushes change what a connection has pending. -/
theorem pending_of_step (hsrv : srv.Sound J) (hframe : ∀ c bytes r, e ≠ .frame c bytes r)
    (hpush : ∀ c nowMs, e ≠ .push c nowMs) (hgone : ¬ (srv.step cfg J rng e).1.Gone conn) :
    ((srv.step cfg J rng e).1.session? conn).bind (·.pending) = (srv.session? conn).bind (·.pending) := by
  have hstep := Server.step_cases cfg J rng srv e
  rcases hsome : (srv.step cfg J rng e).1.session? conn with _ | t
  · have hnext : srv.nextConnectionId ≤ conn := by
      have hbelow := hstep.nextConnectionId_le
      have hnot : ¬ conn < (srv.step cfg J rng e).1.nextConnectionId := fun hlt => hgone ⟨hlt, hsome⟩
      omega
    rcases hold : srv.session? conn with _ | s
    · rfl
    · obtain ⟨hs, rfl⟩ := session?_eq_some hold
      have hbelow := hsrv.numbered.below s hs
      omega
  · obtain ⟨ht, rfl⟩ := session?_eq_some hsome
    obtain ht | ⟨rfl, -⟩ | ⟨s, hs, hsession⟩ := hstep.mem_sessions ht
    · rw [session?_of_mem hsrv ht]
    · rcases hold : srv.session? srv.nextConnectionId with _ | s
      · rfl
      · obtain ⟨hs, hid⟩ := session?_eq_some hold
        have hbelow := hsrv.numbered.below s hs
        omega
    · rw [hsession.id_eq, session?_of_mem hsrv hs]
      show t.pending = s.pending
      generalize (srv.step cfg J rng e).1.shared = sh at hsession
      generalize (srv.step cfg J rng e).2 = effects at hsession
      cases hsession with
      | received bytes r => exact absurd rfl (hframe _ bytes r)
      | pushed nowMs | refused nowMs => exact absurd rfl (hpush _ nowMs)
      | left | tornDown => rfl

/-- An event that sends nothing and leaves the queue alone. -/
theorem Turn.of_quiet (hsrv : srv.Sound J) (hframe : ∀ c bytes r, e ≠ .frame c bytes r)
    (hpush : ∀ c nowMs, e ≠ .push c nowMs) (hsent : sentFrames (srv.step cfg J rng e).2 = [])
    (hqueue : (srv.step cfg J rng e).1.commandQueue = srv.commandQueue)
    (hgone : ¬ (srv.step cfg J rng e).1.Gone conn) :
    Turn cfg J conn srv e (srv.step cfg J rng e).1 (srv.step cfg J rng e).2 := by
  refine .idle ?_ ?_ ?_
  · rcases e with _ | ⟨c, bytes, r⟩ | _ | _ | _ | _ | _ | _
    · rfl
    · exact absurd rfl (hframe c bytes r)
    · rfl
    · rfl
    · rfl
    · rfl
    · rfl
    · rfl
  · rw [sentTo_of_nothing hsent]
    exact fun frame hframe => absurd hframe List.not_mem_nil
  · unfold Server.commandsOf
    rw [pending_of_step hsrv hframe hpush hgone, hqueue]

/-- A session that is written changes what its own connection has pending. -/
theorem commandsOf_setSession (srv : Server) (conn : ℕ) {s t : Session} (hs : srv.session? s.id = some s) (hid : t.id = s.id) :
    (srv.setSession t).commandsOf conn =
      if s.id = conn then t.pending.toList ++ srv.commandQueue.filter (·.connectionId == s.id) else srv.commandsOf conn := by
  unfold Server.commandsOf
  split
  · next hc =>
    rw [← hc, session?_setSession_self hs hid]
    rfl
  · next hc =>
    rw [session?_setSession_of_ne (by rw [hid]; exact Ne.symm hc)]
    rfl

theorem commandsOf_eq {s : Session} (hs : srv.session? s.id = some s) :
    srv.commandsOf s.id = s.pending.toList ++ srv.commandQueue.filter (·.connectionId == s.id) := by
  unfold Server.commandsOf
  rw [hs]
  rfl

theorem requestFrom_frame {c : ℕ} {bytes : List UInt8} {r : FrameReadings} :
    srv.requestFrom J conn (.frame c bytes r) =
      if c = conn then (srv.session? conn).bind fun s => if s.reading then requestIn J s bytes else none else none := rfl

section receive
variable (hJ : J.Prints numeral) (hroom : Roomy cfg rng)
  (hnul : ∀ bytes root key, J.loadb bytes = some root → '\x00' ∉ (jstr (some root) key).toList)
include hJ hroom hnul

theorem turn_receive (hsrv : srv.Sound J) {c : ℕ} {bytes : List UInt8} {r : FrameReadings} :
    Turn cfg J conn srv (.frame c bytes r) (srv.receive cfg J rng c bytes r).1 (srv.receive cfg J rng c bytes r).2 := by
  have hnothing : srv.requestFrom J conn (.frame c bytes r) = none →
      Turn cfg J conn srv (.frame c bytes r) srv [] := by
    intro hnone
    exact .idle hnone (fun frame hframe => absurd hframe List.not_mem_nil) (.refl _)
  unfold Server.receive
  split
  · next hs =>
    apply hnothing
    rw [requestFrom_frame]
    by_cases hc : c = conn
    · rw [if_pos hc, ← hc, hs, Option.bind_none]
    · exact if_neg hc
  · next s hs =>
    obtain ⟨hmem, rfl⟩ := session?_eq_some hs
    split
    · next hreading =>
      apply hnothing
      rw [requestFrom_frame]
      by_cases hc : s.id = conn
      · rw [if_pos hc, ← hc, hs, Option.bind_some, if_neg hreading]
      · exact if_neg hc
    · next hreading =>
      have htaken : Taken cfg J s bytes (handleFrame cfg J rng r srv.shared s bytes) :=
        taken_handleFrame hJ hroom hsrv.leases hnul
      have hid : (handleFrame cfg J rng r srv.shared s bytes).session.id = s.id := handleFrame_step.session_id
      dsimp only
      generalize handleFrame cfg J rng r srv.shared s bytes = h at htaken hid
      by_cases hc : s.id = conn
      · obtain rfl := hc
        have hrequest : srv.requestFrom J s.id (.frame s.id bytes r) = requestIn J s bytes := by
          rw [requestFrom_frame, if_pos rfl, hs, Option.bind_some, if_pos (not_not.mp hreading)]
        have hbefore := commandsOf_eq hs
        have hafter : (Server.setSession { srv with shared := h.shared } { h.session with alive := h.keep }).commandsOf s.id =
            h.session.pending.toList ++ srv.commandQueue.filter (·.connectionId == s.id) :=
          (commandsOf_setSession { srv with shared := h.shared } s.id (t := { h.session with alive := h.keep }) hs hid).trans
            (if_pos rfl)
        cases htaken with
        | ignored request sent pending =>
          refine .idle (hrequest.trans request) (fun frame hframe id => ?_) ?_
          · exact sent _ (mem_sentFrames_of_sentTo hframe) id
          · rw [hafter, hbefore, pending]
        | answered root frame request sent written fits pending =>
          refine .answered root frame (hrequest.trans request) ?_ written fits ?_
          · rw [sentTo_of_sentFrames sent, if_pos rfl]
          · rw [hafter, hbefore, pending]
        | queued root cmd request sent known pending requestId connection =>
          refine .admitted root cmd (hrequest.trans request) (sentTo_of_nothing sent) known requestId ?_
          have hnone : s.pending = none := by
            unfold Session.reading at hreading
            simpa using (Bool.and_eq_true_iff.mp (not_not.mp hreading)).2
          rw [hafter, hbefore, pending, hnone]
          exact .refl _
      · refine .idle (if_neg hc) (fun frame hframe id => ?_) ?_
        · have hsent := mem_sentFrames_of_sentTo hframe
          cases htaken with
          | ignored request sent pending => exact sent _ hsent id
          | answered root frame' request sent written fits pending =>
            rw [sent] at hsent
            exact absurd (Prod.mk.inj (List.mem_singleton.mp hsent)).1.symm hc
          | queued root cmd request sent known pending requestId connection =>
            rw [sent] at hsent
            exact absurd hsent List.not_mem_nil
        · exact .of_eq ((commandsOf_setSession { srv with shared := h.shared } conn
            (t := { h.session with alive := h.keep }) hs hid).trans (if_neg hc))

end receive

theorem turn_push (hJ : J.Prints numeral) (hroom : Roomy cfg rng) (hsrv : srv.Sound J) {c : ℕ} {nowMs : ℤ} :
    Turn cfg J conn srv (.push c nowMs) (srv.push J c).1 (srv.push J c).2 := by
  have hnothing : Turn cfg J conn srv (.push c nowMs) srv [] :=
    .idle rfl (fun frame hframe => absurd hframe List.not_mem_nil) (.refl _)
  unfold Server.push
  split
  · exact hnothing
  · next s hs =>
    obtain ⟨hmem, rfl⟩ := session?_eq_some hs
    split
    · exact hnothing
    · next cmd hpending =>
      obtain ⟨hid, hconn⟩ := hsrv.pending s hmem cmd hpending
      dsimp only
      split
      · refine .idle rfl (fun frame hframe => absurd hframe List.not_mem_nil) ?_
        have hafter := commandsOf_setSession { srv with commandQueue := srv.commandQueue ++ [cmd] } conn
          (t := { s with pending := none }) hs rfl
        refine (List.Perm.of_eq hafter).trans ?_
        split
        · next hc =>
          obtain rfl := hc
          rw [commandsOf_eq hs, hpending, List.filter_append, List.filter_singleton, beq_iff_eq.mpr hconn, cond_true]
          exact List.perm_append_singleton cmd _
        · next hc =>
          unfold Server.commandsOf
          have hother : (cmd.connectionId == conn) = false := by
            rw [hconn]
            exact beq_false_of_ne hc
          rw [List.filter_append, List.filter_singleton, hother, cond_false, List.append_nil]
          exact .refl _
      · have hafter := commandsOf_setSession srv conn (t := { s with pending := none }) hs rfl
        by_cases hc : s.id = conn
        · obtain rfl := hc
          have hfits : Fits cfg J cmd.requestId (buildResError J cmd.requestId .bridgeNotReady
              "command queue unavailable or full" true false) := fits_buildResError hJ hroom hid (by decide)
          refine .replied cmd _ rfl ?_ hfits hid ?_
          · exact (sentTo_of_sentFrames rfl).trans (if_pos rfl)
          · rw [hafter, if_pos rfl, commandsOf_eq hs, hpending]
            exact .refl _
        · refine .idle rfl (fun frame hframe => ?_) (.of_eq (hafter.trans (if_neg hc)))
          rw [sentTo_of_sentFrames rfl, if_neg hc] at hframe
          exact absurd hframe List.not_mem_nil

theorem sentFrames_processCommand {leases : LeaseHolder} {cache : OpCache} {t : DrainReadings} {answers : RackAnswers}
    {cmd : BridgeCommand} : sentFrames (processCommand J leases cache t answers cmd).2.1 = [] := by
  unfold processCommand
  split
  · rfl
  · split <;> rfl

theorem turn_drain (hJ : J.Prints numeral) (hroom : Roomy cfg rng) (hsrv : srv.Sound J) {t : DrainReadings}
    {answers : RackAnswers} (hanswers : srv.Answerable J (.drain t answers))
    (hgone : ¬ srv.Gone conn) : Turn cfg J conn srv (.drain t answers) (srv.drain cfg J t answers).1 (srv.drain cfg J t answers).2 := by
  have hnothing : ∀ pump, Turn cfg J conn srv (.drain t answers) { srv with pump } [] :=
    fun pump => .idle rfl (fun frame hframe => absurd hframe List.not_mem_nil) (.refl _)
  unfold Server.drain
  split
  · exact hnothing srv.pump
  · split
    · exact hnothing none
    · split
      · exact hnothing none
      · next cmd rest hqueue =>
        obtain ⟨hhonest, hword⟩ := hanswers cmd rest hqueue
        obtain ⟨hid, hconn⟩ := hsrv.queue cmd (by rw [hqueue]; exact List.mem_cons_self)
        have hwritten : Written J cmd.requestId (processCommand J srv.shared.leases srv.opCache t answers cmd).2.2 :=
          written_processCommand hJ hid hhonest hsrv.opCache
        have hfits := fits_capResponseFrame hJ hroom hid hwritten hword cmd.method cmd.mutating
        dsimp only
        have hsent : ∀ frame, sentFrames ((processCommand J srv.shared.leases srv.opCache t answers cmd).2.1 ++
            srv.sendFrame cmd.connectionId frame) = sentFrames (srv.sendFrame cmd.connectionId frame) := by
          intro frame
          unfold sentFrames
          rw [List.filterMap_append]
          exact congrArg (· ++ _) sentFrames_processCommand
        by_cases hc : cmd.connectionId = conn
        · -- its connection still has a session, for it is not gone
          have hsome : (srv.session? cmd.connectionId).isSome = true := by
            rw [Option.isSome_iff_ne_none]
            intro hnone
            apply hgone
            rw [← hc]
            exact ⟨hconn, hnone⟩
          refine .replied cmd _ rfl ?_ hfits hid ?_
          · refine (sentTo_of_sentFrames ((hsent _).trans ?_)).trans (if_pos hc)
            unfold Server.sendFrame
            rw [if_pos hsome]
            rfl
          · unfold Server.commandsOf
            rw [hqueue, List.filter_cons, if_pos (beq_iff_eq.mpr hc)]
            exact List.perm_middle
        · refine .idle rfl (fun frame hframe => ?_) ?_
          · have hmem := mem_sentFrames_of_sentTo hframe
            rw [hsent] at hmem
            unfold Server.sendFrame at hmem
            split at hmem
            · exact absurd (Prod.mk.inj (List.mem_singleton.mp hmem)).1.symm hc
            · exact absurd hmem List.not_mem_nil
          · unfold Server.commandsOf
            rw [hqueue, List.filter_cons, if_neg (by simpa using hc)]
            exact .refl _

/-- What an event does to the requests of a connection that is not gone. -/
theorem Server.turn (hJ : J.Prints numeral) (hroom : Roomy cfg rng)
    (hnul : ∀ bytes root key, J.loadb bytes = some root → '\x00' ∉ (jstr (some root) key).toList)
    (hsrv : srv.Sound J) (hanswers : srv.Answerable J e) (hgone : ¬ (srv.step cfg J rng e).1.Gone conn) :
    Turn cfg J conn srv e (srv.step cfg J rng e).1 (srv.step cfg J rng e).2 := by
  have hnot : (∀ c bytes r, e ≠ .frame c bytes r) → (∀ c nowMs, e ≠ .push c nowMs) →
      sentFrames (srv.step cfg J rng e).2 = [] → (srv.step cfg J rng e).1.commandQueue = srv.commandQueue →
      Turn cfg J conn srv e (srv.step cfg J rng e).1 (srv.step cfg J rng e).2 :=
    fun hframe hpush hsent hqueue => .of_quiet hsrv hframe hpush hsent hqueue hgone
  cases e with
  | frame c bytes r => exact turn_receive hJ hroom hnul hsrv
  | push c nowMs => exact turn_push hJ hroom hsrv
  | drain t answers => exact turn_drain hJ hroom hsrv hanswers fun h => hgone (h.step (Server.step_cases cfg J rng srv _))
  | attach attached => exact hnot (by simp) (by simp) rfl rfl
  | pumpStep nowMs => exact hnot (by simp) (by simp) rfl rfl
  | accept client =>
    apply hnot (by simp) (by simp) rfl
    show (srv.accept cfg client).commandQueue = srv.commandQueue
    unfold Server.accept
    dsimp only
    split_ifs <;> rfl
  | leave c =>
    apply hnot (by simp) (by simp) rfl
    show (srv.leave c).commandQueue = srv.commandQueue
    unfold Server.leave
    split
    · split <;> rfl
    · rfl
  | teardown c =>
    apply hnot (by simp) (by simp) rfl
    show (srv.teardown c).commandQueue = srv.commandQueue
    unfold Server.teardown
    split
    · split <;> rfl
    · rfl

end turn

end RackMcp
