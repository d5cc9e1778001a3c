import RackMcp.Lib.Trace
import RackMcp.Rackside.Handlers
import RackMcp.Server.Tools

/-!
# A server and the running Racks

One server process, its tool calls, and the Racks it can connect to. Frames travel unchanged and in any order; a
request may be executed after its caller has given up on it, or never. Everything that can happen is a
`WorldEvent`, so a run is a list of events; a step also says which command it executed.
-/

namespace RackMcp.Server

open Gen Cooperative

/-! ### What the server is told -/

/-- The methods the network thread of the plugin answers itself. -/
def leaseMethods : List String := ["lease.acquire", "lease.renew", "lease.release"]

/-- The error object of a response. -/
def readRpcError (error : Option Json) : RpcError :=
  match error with
  | none | some .null => ⟨"INTERNAL", "malformed error response", false, true, none, none⟩
  | some e =>
    ⟨jstr e "code", jstr e "message", jbool e "retrySafe" false, jbool e "mutationMayHaveOccurred" false,
      Json.get e "details", Json.get e "rollback"⟩

/-- What a `res` frame resolves or rejects its request with. -/
def readResponse (root : Json) : Reply :=
  if jbool root "ok" false then .payload ((Json.get root "payload").getD .null)
  else .failed (.bridge (readRpcError (Json.get root "error")))

/-- The rejection of a request whose deadline passed. -/
def timedOut (r : Request) : Reply :=
  .failed (.bridge ⟨"TIMEOUT", "bridge request " ++ r.method ++ " timed out after " ++ toString r.deadlineMs ++ "ms",
    false, true, none, none⟩)

/-- A frame that is no success. -/
def isRefusal (N : Node) (frame : String) : Bool :=
  match N.parse frame with
  | some root => !jbool root "ok" false
  | none => true

namespace Shared

/-- The wait of exchange `n` ends, unless it has ended. -/
def setReply (n : Nat) (reply : Reply) (s : Shared) : Shared :=
  { s with exchanges := s.exchanges.modify n fun e => { e with reply := some (e.reply.getD reply) } }

/-- The plugin answers exchange `n`, unless it has. -/
def setResponse (n : Nat) (frame : String) (s : Shared) : Shared :=
  { s with exchanges := s.exchanges.modify n fun e => { e with response := some (e.response.getD frame) } }

/-- The request of exchange `n`. -/
def requestAt (s : Shared) (n : Nat) : Option Request :=
  match s.exchanges[n]? with
  | some { call := .request r, .. } => some r
  | _ => none

/-- The request of exchange `n`, while the plugin has not answered it. -/
def unanswered (s : Shared) (n : Nat) : Option Request :=
  match s.exchanges[n]? with
  | some { call := .request r, response := none, .. } => some r
  | _ => none

end Shared

/-- What happens to the server: a Rack welcomes a client or ends its handshake otherwise, the plugin answers a
request without executing it, a response arrives, a deadline passes, a connection closes, or a Rack shuts down. -/
inductive ServerEvent where
  | welcome (n host : Nat) (w : Welcome)
  | handshake (n : Nat) (reply : Reply)
  | answer (n : Nat) (frame : String)
  | deliver (n : Nat)
  | timeout (n : Nat)
  | close (c : Nat) (reason : String)
  | shuttingDown (c : Nat)

namespace Shared

variable (N : Node)

/-- A welcome for exchange `n`, if it waits for one; a client gets one. -/
def welcome (n host : Nat) (w : Welcome) (s : Shared) : Shared :=
  match s.exchanges[n]? with
  | some { call := .connect c, reply := none, .. } =>
    match s.conns[c]? with
    | some { welcome := none, .. } =>
      { s.setReply n (.connected w) with
        conns := s.conns.modify c fun conn => { conn with host, welcome := some w } }
    | _ => s
  | _ => s

/-- The end of the handshake exchange `n` by anything but a welcome. -/
def handshake (n : Nat) (reply : Reply) (s : Shared) : Shared :=
  match s.exchanges[n]?, reply with
  | some { call := .connect _, .. }, .refused _ | some { call := .connect _, .. }, .failed _
  | some { call := .authenticate _, .. }, .refused _ | some { call := .authenticate _, .. }, .failed _
  | some { call := .authenticate _, .. }, .authenticated => s.setReply n reply
  | _, _ => s

/-- The plugin answers without executing: a lease request, or with a refusal. -/
def answer (n : Nat) (frame : String) (s : Shared) : Shared :=
  match s.unanswered n with
  | some r => if r.method ∈ leaseMethods ∨ isRefusal N frame then s.setResponse n frame else s
  | none => s

/-- The response to exchange `n` arrives. -/
def deliver (n : Nat) (s : Shared) : Shared :=
  match s.exchanges[n]? with
  | some { call := .request r, response := some frame, .. } =>
    if s.isOpen r.conn then
      match N.parse frame with
      | none => s.teardown r.conn "bridge sent invalid JSON"
      | some root =>
        if holdsString root "kind" "res" ∧ holdsString root "id" r.id then s.setReply n (readResponse root) else s
    else s
  | _ => s

/-- The deadline of exchange `n` passes. -/
def timeout (n : Nat) (s : Shared) : Shared :=
  match s.requestAt n with
  | some r => s.setReply n (timedOut r)
  | none => s

/-- The server after an event. -/
def react (s : Shared) : ServerEvent → Shared
  | .welcome n host w => s.welcome n host w
  | .handshake n reply => s.handshake n reply
  | .answer n frame => s.answer N n frame
  | .deliver n => s.deliver N n
  | .timeout n => s.timeout n
  | .close c reason => s.teardown c reason
  | .shuttingDown c => if s.isOpen c then s.disconnect else s

end Shared

/-! ### The world -/

/-- A running Rack, and how often its patch has changed. -/
structure Site where
  host : Host
  revision : Nat := 0

/-- The Rack after a step. -/
def Site.become (host : Host) (site : Site) : Site :=
  ⟨host, if host.rack.patch = site.host.rack.patch then site.revision else site.revision + 1⟩

/-- A command that was executed: for which exchange, on which Rack, on what it found there and with which readings. -/
structure Executed where
  exchange : Nat
  host : Nat
  site : Site
  readings : RackReadings
  cmd : BridgeCommand
  execution : Execution
  left : Host

/-- The server, its tool calls, the Racks, and what was executed for the server so far. -/
structure World where
  server : Shared := {}
  tasks : List (Async (Except ErrorPayload Json)) := []
  sites : List Site
  executed : List Executed := []

/-- What happens: a tool is called, a tool call goes on, something happens to the server, a Rack executes a request
of the server, or something else happens to a Rack. -/
inductive WorldEvent where
  | call (tool : ToolCall)
  | resume (i : Nat)
  | server (e : ServerEvent)
  | execute (n : Nat) (t : ExecutionReadings) (r : RackReadings)
  | host (k : Nat) (e : HostEvent)

/-- A request as the command the pump executes; its deadline and its lease are the service's and decide nothing
there. -/
def commandOf (r : Request) : BridgeCommand where
  connectionId := r.conn
  requestId := r.id
  method := r.method
  operationId := r.operationId.getD ""
  payload := r.payload
  deadlineAtMs := r.deadlineMs
  mutating := r.method ∈ mutatingMethods
  leaseId := ""

namespace World

variable (N : Node) (rack : Rack) (J : Jansson)

/-- The Rack that a client is connected to. -/
def hostOf (w : World) (c : Nat) : Option (Nat × Site) :=
  match w.server.conns[c]? with
  | some conn => (w.sites[conn.host]?).map fun site => (conn.host, site)
  | none => none

/-- The execution of the request of exchange `n`, if the plugin has not answered it. -/
def execution (w : World) (n : Nat) (t : ExecutionReadings) (r : RackReadings) : Option Executed :=
  match w.server.unanswered n with
  | none => none
  | some request =>
    if request.method ∈ leaseMethods then none
    else
      (w.hostOf request.conn).map fun found =>
        let executed := found.2.host.execute rack J t r (commandOf request)
        ⟨n, found.1, found.2, r, commandOf request, executed.1, executed.2⟩

/-- The world after an execution. -/
def carryOut (w : World) (x : Executed) : World :=
  { w with
    server := w.server.setResponse x.exchange (sentFrame J limitBridgeFrameBytes x.cmd x.execution)
    sites := w.sites.modify x.host (Site.become x.left)
    executed := w.executed ++ [x] }

/-- One step, with the execution it makes. -/
def step (w : World) : WorldEvent → World × List Executed
  | .call tool =>
    let s := { w.server with tools := w.server.tools ++ [tool] }
    let started := settle bridgeComm w.tasks.length (callTool N tool) s
    ({ w with server := started.2, tasks := w.tasks ++ [started.1] }, [])
  | .resume i =>
    match w.tasks[i]? with
    | none => (w, [])
    | some task =>
      let resumed := Cooperative.resume bridgeComm i task w.server
      ({ w with server := resumed.2, tasks := w.tasks.set i resumed.1 }, [])
  | .server e => ({ w with server := w.server.react N e }, [])
  | .execute n t r =>
    match w.execution rack J n t r with
    | none => (w, [])
    | some x => (w.carryOut J x, [x])
  | .host k e =>
    ({ w with sites := w.sites.modify k fun site => site.become (site.host.step rack J e).1 }, [])

/-- A server that was just started, among these Racks. -/
def start (sites : List Site) : World := { sites }

/-- The world before the event at index `k` of a run. -/
def stateAt (sites : List Site) (es : List WorldEvent) (k : Nat) : World :=
  Trace.stateAt (step N rack J) (start sites) es k

/-- The request executed at index `k` of a run. -/
def Executes (sites : List Site) (es : List WorldEvent) (k : Nat) (x : Executed) : Prop :=
  Trace.Emits (step N rack J) (start sites) es k x

end World

end RackMcp.Server
