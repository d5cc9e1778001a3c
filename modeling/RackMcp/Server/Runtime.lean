import Mathlib.Logic.Function.Basic
import RackMcp.Lib.Cooperative
import RackMcp.Server.Paths

/-!
# The server process

The state the tool calls of one server process share, and what they get from Node (`Node`): the clock, random
values, the file system, HMAC, JSON. What Node answers may differ at every call, so it is indexed by the number
of calls made so far (`draws`). A tool call is a cooperative task: it is atomic between two `await`s.

The record of a process (`tools`, `exchanges`, `trail`) is what the theorems speak about; the code keeps none.
-/

namespace RackMcp.Server

open Gen Cooperative

/-! ### Sessions -/

/-- `SelectedInstance`. -/
structure SelectedInstance where
  instanceId : String
  sessionId : String
  rackVersion : String
  rackEdition : String
  port : Int
  pid : Int
deriving DecidableEq

/-- `WelcomeData`. -/
structure Welcome where
  instanceId : String
  sessionId : String
  rackVersion : String
  rackEdition : String
  version : Int

/-- A discovered instance: what its manifest says, and whether its heartbeat is too old. -/
structure Discovered where
  instanceId : String
  port : Int
  pid : Int
  stale : Bool

/-- A `BridgeClient`: the port, the running Rack that answers there and what it said, once it did. -/
structure Conn where
  port : Int
  host : Nat := 0
  welcome : Option Welcome := none
  isOpen : Bool := true

/-! ### Confirmations -/

/-- `TokenBinding`. -/
structure TokenBinding where
  instanceId : String
  sessionId : String
  patchEpoch : Int
  baseFingerprint : String
  planHash : String
  riskLevel : String
  expiresAt : Int
deriving DecidableEq

/-- The binding as the JSON of a token. -/
def TokenBinding.toJson (b : TokenBinding) : Json :=
  .object [("instanceId", .string b.instanceId), ("sessionId", .string b.sessionId),
    ("patchEpoch", .integer b.patchEpoch), ("baseFingerprint", .string b.baseFingerprint),
    ("planHash", .string b.planHash), ("riskLevel", .string b.riskLevel), ("expiresAt", .integer b.expiresAt)]

/-- `CachedPlan`. -/
structure CachedPlan where
  plan : Option Json
  baseFingerprint : String
  paramChanges : Nat
  patchEpoch : Int
  riskLevel : String
  confirmationRequired : Bool
  instanceId : String
  sessionId : String
  expiresAt : Int

/-- The kind of a load confirmation. -/
inductive LoadKind where
  | load | clear | restore
deriving DecidableEq

def LoadKind.name : LoadKind → String
  | .load => "load"
  | .clear => "clear"
  | .restore => "restore"

/-- `LoadBinding`. -/
structure LoadBinding where
  instanceId : String
  sessionId : String
  kind : LoadKind
  path : Option String
  patchEpoch : Int
  fingerprint : String
  expiresAt : Int
deriving DecidableEq

/-- `AttachMeta`. -/
structure AttachMeta where
  probeModuleId : Option String
  probeAlias : Option String
  probeInputId : Int
  addsProbeModule : Bool

/-! ### Recipes -/

/-- `Recipe`: its name, its roles with the model each prefers, and its operations. -/
structure Recipe where
  name : String
  roles : List (String × String × String)
  operations : List Json

/-! ### Tool calls -/

/-- The arguments of a commit. -/
structure CommitArgs where
  operationId : String
  planHash : String
  expectedFingerprint : String
  confirmationToken : Option String
deriving DecidableEq

/-- A tool call with its arguments. `reads` is a tool that only reads: it makes these requests in turn. -/
inductive ToolCall where
  | reads (requests : List (String × Json))
  | selectRackInstance (instanceId : String)
  | acquireWriterLease
  | releaseWriterLease
  | previewPatchTransaction (label : String) (operations : List Json) (expectedFingerprint : Option String)
    (expectedPatchEpoch : Option Int)
  | commitPatchTransaction (args : CommitArgs)
  | undoLastMcpTransaction (operationId : String)
  | buildPatch (label : String) (operations : List Json) (autoCommit : Bool) (operationId : String)
    (expectedPatchEpoch : Option Int)
  | buildRecipe (recipeId : String) (label : Option String) (autoCommit : Bool) (operationId : String)
    (expectedPatchEpoch : Option Int)
  | createCheckpoint (label : Option String) (operationId : String)
  | savePatch (path : Option String) (operationId : String)
  | previewLoadPatch (path : String)
  | commitLoadPatch (confirmationToken operationId : String)
  | previewClearPatch
  | commitClearPatch (confirmationToken operationId : String)
  | restoreCheckpoint (checkpointPath : String) (confirmationToken : Option String) (operationId : String)
  | previewAttachProbe (sourceModuleId : String) (sourcePortId : Int) (probe : Option (String × Int))
    (expectedPatchEpoch : Option Int)
  | commitAttachProbe (args : CommitArgs)
  | detachProbe (probeModuleId : String) (probeInputId : Int) (operationId : String) (expectedPatchEpoch : Int)

/-! ### Exchanges with Rack -/

/-- A request to the bridge. -/
structure Request where
  conn : Nat
  id : String
  method : String
  payload : Json
  operationId : Option String
  deadlineMs : Int

/-- What a tool call waits for: a connection, an authentication, or the response to a request. -/
inductive Call where
  | connect (conn : Nat)
  | authenticate (conn : Nat)
  | request (r : Request)

/-- How the wait ends: a welcome, a successful authentication, a handshake frame that refuses, the payload of a
response, or a rejection. -/
inductive Reply where
  | connected (w : Welcome)
  | authenticated
  | refused (e : RpcError)
  | payload (v : Json)
  | failed (e : Thrown)

/-- The client a call is made on. -/
def Call.conn : Call → Nat
  | .connect c | .authenticate c => c
  | .request r => r.conn

/-- A call that a tool call made: the instance selected when it was made, the frame the plugin answered it with,
and what became of the wait. -/
structure Exchange where
  caller : Nat
  call : Call
  selected : Option SelectedInstance := none
  response : Option String := none
  reply : Option Reply := none

/-- What the process did with confirmations. -/
inductive Mark where
  /-- A preview answer was cached as a plan. -/
  | previewed (answer : Json) (instanceId sessionId : String) (cachedAt : Int)
  /-- A transaction token was minted. -/
  | minted (binding : TokenBinding)
  /-- A commit passed its checks: the plan it found, the clock when it looked, and when it checked its token. -/
  | admitted (caller : Nat) (args : CommitArgs) (plan : CachedPlan) (checkedAt : Int) (tokenAt : Option Int)
  /-- A load token was minted. -/
  | loadMinted (id : String) (binding : LoadBinding)
  /-- A load token was burned. -/
  | burned (caller : Nat) (id : String) (binding : LoadBinding)

/-! ### The shared state -/

/-- What the tool calls of a process share. -/
structure Shared where
  client : Option Nat := none
  selected : Option SelectedInstance := none
  leaseId : Option String := none
  connecting : Bool := false
  conns : List Conn := []
  plans : String → Option CachedPlan := fun _ => none
  loadBindings : String → Option LoadBinding := fun _ => none
  hits : List Int := []
  attachMeta : String → Option AttachMeta := fun _ => none
  audit : List (Nat × Option ErrorPayload) := []
  draws : Nat := 0
  tools : List ToolCall := []
  exchanges : List Exchange := []
  trail : List Mark := []

namespace Shared

/-- The client of this number is open. -/
def isOpen (s : Shared) (c : Nat) : Bool := (s.conns[c]?.map (·.isOpen)).getD false

/-- `isConnected` of the client in use. -/
def connected (s : Shared) : Bool := (s.client.map s.isOpen).getD false

end Shared

/-- A tool call as a task. -/
abbrev Async := Task Shared Call Reply Thrown

/-- How a call is made, and where its reply is found: at the latest exchange of the tool call. -/
def bridgeComm : Comm Shared Call Reply where
  post i call s := { s with exchanges := s.exchanges ++ [{ caller := i, call, selected := s.selected }] }
  answer i s := (s.exchanges.reverse.find? (·.caller == i)).bind (·.reply)

/-! ### Node -/

/-- What Node and the repository's data answer. -/
structure Node where
  config : ServerConfig
  cwd : String
  /-- `Date.now()`. -/
  now : Nat → Int
  randomUUID : Nat → String
  /-- `randomBytes(8).toString("hex")`. -/
  requestId : Nat → String
  /-- `randomBytes(18).toString("base64url")`. -/
  randomId : Nat → String
  files : Nat → FileSystem
  /-- `scanInstances`. -/
  instances : Nat → List Discovered
  /-- Whether `loadPairingSecret` reads a secret, or its error. -/
  pairingSecret : Nat → Option String
  /-- The HMAC of a token body under the key of the process, in base64url. -/
  hmac : String → String
  /-- `Buffer.from(JSON.stringify(value), "utf8").toString("base64url")`, and back through `JSON.parse`. -/
  encodeBody : Json → String
  decodeBody : String → Option Json
  /-- `JSON.parse` of a frame. -/
  parse : String → Option Json
  /-- The bytes of `JSON.stringify`. -/
  byteLength : Json → Nat
  toISOString : Int → String
  getRecipe : String → Option Recipe
  /-- How often a poll is repeated and a reconnect is nested in another, at most. -/
  patience : Nat

variable (N : Node)

/-- A value that Node draws. -/
def draw {α : Type} (source : Nat → α) : Async α := Task.update fun s => (source s.draws, { s with draws := s.draws + 1 })

/-- `Date.now()`. -/
def dateNow : Async Int := draw N.now

def throwTool (code : ErrorCode) (message : String) (retrySafe : Bool := false) {α : Type} : Async α :=
  Task.fail (toolError code message retrySafe)

/-- The value of a reply, or what it failed with; a reply of another kind never comes. -/
def Reply.value : Reply → Except Thrown Json
  | .payload v => .ok v
  | .failed e => .error e
  | _ => .error (.error "unexpected reply")

end RackMcp.Server
