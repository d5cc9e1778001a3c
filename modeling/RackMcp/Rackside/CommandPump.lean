import RackMcp.Lib.Keyed
import RackMcp.Rackside.OpCache

/-!
# The bridge as it runs

The accept loop, the reader threads and the command pump as one system: `Server` is what they share,
an `Event` is what one of them does between two points at which another may run, and `step` is the
state after an event together with its effects. An event of the pump is one turn of the drain loop of
`rackside/CommandPump.cpp`: pop, deadline, lease, `executeCommand` right after the lease. A session's
thread handles a frame in one event and pushes an admitted command in another. An event that cannot
happen in a state (a frame on a connection that is closed, say) leaves it as it is.
-/

namespace RackMcp

open Gen

/-! ### The state -/

/-- A call of `CommandPumpWidget::step` in its drain loop. -/
structure PumpFrame where
  startMs : Int
  drained : Nat

/-- The bridge between `start` and `stop`. -/
structure Server where
  sessions : List Session := []
  nextConnectionId : Nat := 1
  shared : Shared := {}
  commandQueue : List BridgeCommand := []
  pumpAttached : Bool := false
  pump : Option PumpFrame := none
  opCache : OpCache := []

/-- The session of a connection (`sessions_.find`). -/
def Server.session? (srv : Server) (connectionId : Nat) : Option Session :=
  srv.sessions.find? (·.id == connectionId)

/-- The session's own thread writes its state. -/
def Server.setSession (srv : Server) (s : Session) : Server :=
  { srv with sessions := Keyed.update Session.id s.id (fun _ => s) srv.sessions }

/-! ### Events -/

/-- The clock readings of one turn of the drain loop, in this order. -/
structure DrainReadings where
  loopMs : Int
  nowMs : Int
  leaseMs : Int
  execution : ExecutionReadings

/-- What one of the threads does. -/
inductive Event where
  /-- A turn of the accept loop, with a client or without. -/
  | accept (client : Bool)
  /-- The reader of a connection has decoded a frame and handles it. -/
  | frame (connectionId : Nat) (bytes : List UInt8) (r : FrameReadings)
  /-- The reader hands the admitted command to the sink. -/
  | push (connectionId : Nat) (nowMs : Int)
  /-- The reader leaves its loop: the peer is gone, the framing is broken, the handshake took too long. -/
  | leave (connectionId : Nat)
  /-- The reader, its loop left, ends the session. -/
  | teardown (connectionId : Nat)
  /-- The pump widget is created or destroyed. -/
  | attach (attached : Bool)
  /-- Rack calls the pump's `step`. -/
  | pumpStep (nowMs : Int)
  /-- One turn of the drain loop. -/
  | drain (t : DrainReadings) (answers : RackAnswers)

/-- The readings of the millisecond clock up to the last decision about the lease, in order. -/
def Event.instants : Event → List Int
  | .frame _ _ r => [r.nowMs, r.gateMs]
  | .push _ nowMs => [nowMs]
  | .pumpStep nowMs => [nowMs]
  | .drain t _ => [t.loopMs, t.nowMs, t.leaseMs]
  | .accept _ | .leave _ | .teardown _ | .attach _ => []

variable (cfg : ServiceConfig) (J : Jansson) (rng : Entropy)

/-! ### Connections -/

/-- `acceptLoop`: defunct sessions are reaped, and a client gets a session while there is room. -/
def Server.accept (srv : Server) (client : Bool) : Server :=
  let sessions := srv.sessions.filter fun s => !s.defunct
  let unauthenticated := sessions.countP fun s => !s.authed
  if ¬ client then { srv with sessions }
  else if sessions.length ≥ cfg.maxConnections ∨ unauthenticated ≥ cfg.maxUnauthConnections then
    { srv with sessions }
  else
    { srv with sessions := sessions ++ [{ id := srv.nextConnectionId }]
               nextConnectionId := srv.nextConnectionId + 1 }

/-- The reader can handle the next frame: its loop goes on and no command waits to be pushed. -/
def Session.reading (s : Session) : Bool := s.alive && s.pending.isNone

/-- One frame of the reader loop; a frame that is not kept ends the loop. -/
def Server.receive (srv : Server) (connectionId : Nat) (bytes : List UInt8) (r : FrameReadings) :
    Server × List Effect :=
  match srv.session? connectionId with
  | none => (srv, [])
  | some s =>
    if ¬ s.reading then (srv, [])
    else
      let handled := handleFrame cfg J rng r srv.shared s bytes
      ({ srv with shared := handled.shared }.setSession { handled.session with alive := handled.keep },
        handled.effects)

/-- The capacity of the command queue. -/
def commandQueueCapacity : Nat := 64

/-- `RackBridge::enqueueCommand`, called by the reader, and its answer when the sink refuses. -/
def Server.push (srv : Server) (connectionId : Nat) : Server × List Effect :=
  match srv.session? connectionId with
  | none => (srv, [])
  | some s =>
    match s.pending with
    | none => (srv, [])
    | some cmd =>
      let srv := srv.setSession { s with pending := none }
      if srv.pumpAttached ∧ srv.commandQueue.length < commandQueueCapacity then
        ({ srv with commandQueue := srv.commandQueue ++ [cmd] }, [.enqueued connectionId cmd])
      else
        (srv, [.outbound connectionId
          (buildResError J cmd.requestId .bridgeNotReady "command queue unavailable or full" true false)])

/-- The reader leaves its loop. -/
def Server.leave (srv : Server) (connectionId : Nat) : Server :=
  match srv.session? connectionId with
  | some s => if s.reading then srv.setSession { s with alive := false } else srv
  | none => srv

/-- The end of `readerLoop`: the lease is given up and the session is left to be reaped. -/
def Server.teardown (srv : Server) (connectionId : Nat) : Server :=
  match srv.session? connectionId with
  | some s =>
    if s.alive ∨ s.defunct then srv
    else
      { srv with shared := { srv.shared with leases := srv.shared.leases.onDisconnect s.id } }.setSession
        { s with defunct := true }
  | none => srv

/-! ### The pump -/

/-- `commandLeaseStillValid`. -/
def commandLeaseStillValid (leases : LeaseHolder) (cmd : BridgeCommand) (nowMs : Int) : Bool :=
  if ¬ cmd.mutating then true
  else
    let h := leases.holder nowMs
    h.held && h.connectionId == cmd.connectionId && h.leaseId == cmd.leaseId

/-- What becomes of a popped command: the cache, the effect of an execution, and the answer. -/
def processCommand (leases : LeaseHolder) (opCache : OpCache) (t : DrainReadings) (answers : RackAnswers)
    (cmd : BridgeCommand) : OpCache × List Effect × String :=
  if t.nowMs > cmd.deadlineAtMs then
    (opCache, [], buildResError J cmd.requestId .timeout "deadline expired before execution began" false false)
  else if ¬ commandLeaseStillValid leases cmd t.leaseMs then
    (opCache, [], buildResError J cmd.requestId .writerLeaseRequired
      "writer lease no longer held by this connection" true false)
  else
    let executed := executeCommand J answers t.execution cmd opCache
    (executed.2, [.executed cmd], executed.1.answer J cmd)

/-- `sendFrame`: to the connection, while it has a session. -/
def Server.sendFrame (srv : Server) (connectionId : Nat) (frame : String) : List Effect :=
  if (srv.session? connectionId).isSome then [.outbound connectionId frame] else []

/-- One turn of the drain loop. -/
def Server.drain (srv : Server) (t : DrainReadings) (answers : RackAnswers) : Server × List Effect :=
  match srv.pump with
  | none => (srv, [])
  | some frame =>
    if frame.drained ≥ limitPumpCommandsPerFrame ∨ t.loopMs - frame.startMs > limitPumpFrameBudgetMs then
      ({ srv with pump := none }, [])
    else
      match srv.commandQueue with
      | [] => ({ srv with pump := none }, [])
      | cmd :: rest =>
        let processed := processCommand J srv.shared.leases srv.opCache t answers cmd
        let answer := capResponseFrame J processed.2.2 cmd.requestId cmd.method cfg.maxFrameBytes cmd.mutating
        ({ srv with commandQueue := rest, opCache := processed.1,
                    pump := some { frame with drained := frame.drained + 1 } },
          processed.2.1 ++ srv.sendFrame cmd.connectionId answer)

/-! ### The system -/

/-- The state after an event, and its effects. -/
def Server.step (srv : Server) : Event → Server × List Effect
  | .accept client => (srv.accept cfg client, [])
  | .frame connectionId bytes r => srv.receive cfg J rng connectionId bytes r
  | .push connectionId _ => srv.push J connectionId
  | .leave connectionId => (srv.leave connectionId, [])
  | .teardown connectionId => (srv.teardown connectionId, [])
  | .attach attached => ({ srv with pumpAttached := attached }, [])
  | .pumpStep nowMs => ({ srv with pump := some (srv.pump.getD ⟨nowMs, 0⟩) }, [])
  | .drain t answers => srv.drain cfg J t answers

end RackMcp
