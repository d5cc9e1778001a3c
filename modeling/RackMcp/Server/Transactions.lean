import RackMcp.Server.Connection

/-!
# Confirmation tokens and cached plans

`TransactionManager` of `apps/mcp-server/src/transactions.ts` and `RateLimiter` of `ratelimit.ts`. A field of a
response that is missing reads as undefined in the source; here it reads as a default where the code goes on
with it.
-/

namespace RackMcp.Server

open Gen Cooperative

variable (N : Node)

/-! ### Limits -/

def confirmationLifetimeMs : Int := 300000
def txnMaxAddedModules : Nat := 32
def maxActiveProbes : Nat := 16
def paramChangesPerSecond : Nat := 30
def mcpResultBytes : Nat := 4194304

/-! ### Reading JSON -/

/-- The integer under a key, 0 for anything else. -/
def jint (o : Option Json) (key : String) : Int :=
  match Json.get o key with
  | some (.integer n) => n
  | _ => 0

/-- `o.key === s`. -/
def holdsString (o : Option Json) (key s : String) : Bool :=
  match Json.get o key with
  | some (.string t) => t == s
  | _ => false

/-- `o.key === n`. -/
def holdsInt (o : Option Json) (key : String) (n : Int) : Bool :=
  match Json.get o key with
  | some (.integer m) => m == n
  | _ => false

/-- The scope of a request. -/
def scopeOf (instanceId sessionId : String) (patchEpoch : Int) : Json :=
  .object [("instanceId", .string instanceId), ("sessionId", .string sessionId),
    ("patchEpoch", .integer patchEpoch)]

/-- `scopeFor`. -/
def scopeFor (i : SelectedInstance) : Json := scopeOf i.instanceId i.sessionId 0

/-! ### The rate limit -/

/-- `countParamChanges`. -/
def countParamChanges (operations : List Json) : Nat :=
  operations.countP fun op => holdsString op "op" "set_parameter"

/-- The error of a request over the limit. -/
def rateLimited (wanted : Nat) (retryInMs : Int) : Thrown :=
  .tool .rateLimited ("parameter changes are limited to " ++ toString paramChangesPerSecond ++
      " per second; this request would make " ++ toString wanted ++ ". Retry in about " ++ toString retryInMs ++
      " ms.") true false
    (some (.object [("limit", .integer paramChangesPerSecond), ("windowMs", .integer 1000),
      ("retryInMs", .integer retryInMs)]))

/-- `RateLimiter.admit`. -/
def rateLimiterAdmit (count : Nat) : Async Unit :=
  if count = 0 then pure ()
  else do
    let now ← dateNow N
    Task.modify fun s => { s with hits := s.hits.dropWhile (· ≤ now - 1000) }
    let s ← Task.read
    if s.hits.length + count > paramChangesPerSecond then
      match s.hits with
      | [] => Task.fail (rateLimited count 1)
      | oldest :: _ =>
        let now ← dateNow N
        Task.fail (rateLimited (s.hits.length + count) (max 1 (oldest + 1000 - now)))
    else
      let at_ ← dateNow N
      Task.modify fun s => { s with hits := s.hits ++ List.replicate count at_ }

/-! ### Tokens -/

/-- The body and the tag of a token. -/
def splitToken (token : String) : Option (String × String) :=
  let body := token.toList.takeWhile (· ≠ '.')
  if body.length = token.toList.length then none
  else some (String.ofList body, String.ofList (token.toList.drop (body.length + 1)))

/-- A body with its tag. -/
def tagged (body : String) : String := body ++ "." ++ N.hmac body

/-- The body of a token, if its tag is right. -/
def checkTag (token : String) : Except Thrown String :=
  match splitToken token with
  | none => .error (toolError .confirmationRequired "malformed confirmation token")
  | some (body, mac) =>
    if mac ≠ N.hmac body then .error (toolError .confirmationRequired "invalid confirmation token")
    else .ok body

/-- `mintToken`. -/
def mintToken (binding : TokenBinding) : Async String := do
  Task.modify fun s => { s with trail := s.trail ++ [.minted binding] }
  pure (tagged N (N.encodeBody binding.toJson))

/-- `Date.now() > binding.expiresAt`. -/
def expired (binding : Json) (now : Int) : Bool :=
  match Json.get binding "expiresAt" with
  | some (.integer expiresAt) => now > expiresAt
  | _ => false

/-- `verifyToken`, with the clock it read. -/
def verifyToken (token : String) : Async (Json × Int) := do
  let body ← Task.ofExcept (checkTag N token)
  match N.decodeBody body with
  | none => Task.fail (.error "the token body is not JSON")
  | some binding =>
    let now ← dateNow N
    if expired binding now then throwTool .confirmationExpired "confirmation token has expired"
    else pure (binding, now)

/-! ### Previews -/

/-- `pruneExpired`, with the clock it read. -/
def pruneExpired : Async Int := do
  let now ← dateNow N
  Task.modify fun s => { s with plans := fun hash => (s.plans hash).filter fun p => ¬ p.expiresAt < now }
  pure now

/-- What `preview` returns. -/
structure Previewed where
  answer : Json
  confirmationToken : String
  expiresAt : Int
  confirmationRequired : Bool

/-- `confirmationRequired` of a preview answer. -/
def confirmationRequired (answer : Json) : Bool := jbool (Json.get answer "risk") "confirmationRequired" false

/-- The plan a preview answer is cached as. -/
def cachedPlan (answer : Json) (operations : List Json) (instanceId sessionId : String) (expiresAt : Int) :
    CachedPlan where
  plan := Json.get answer "plan"
  baseFingerprint := jstr answer "baseFingerprint"
  paramChanges := countParamChanges operations
  patchEpoch := jint answer "patchEpoch"
  riskLevel := jstr (Json.get answer "risk") "level"
  confirmationRequired := confirmationRequired answer
  instanceId
  sessionId
  expiresAt

/-- The binding of the token for a preview answer. -/
def tokenBinding (answer : Json) (instanceId sessionId : String) (expiresAt : Int) : TokenBinding where
  instanceId
  sessionId
  patchEpoch := jint answer "patchEpoch"
  baseFingerprint := jstr answer "baseFingerprint"
  planHash := jstr answer "planHash"
  riskLevel := jstr (Json.get answer "risk") "level"
  expiresAt

/-- The refusal of a preview that the caller did not expect. -/
def unexpectedPreview (answer : Json) (expectedFingerprint : Option String) (expectedPatchEpoch : Option Int) :
    Option Thrown :=
  if (expectedPatchEpoch.any fun epoch => !holdsInt answer "patchEpoch" epoch) then
    some (toolError .stalePatchEpoch ("patch epoch is " ++ toString (jint answer "patchEpoch") ++
      ", not the expected " ++ toString (expectedPatchEpoch.getD 0) ++ "; re-read the snapshot"))
  else if (expectedFingerprint.any fun fingerprint => !holdsString answer "baseFingerprint" fingerprint) then
    some (toolError .patchConflict "the patch changed since the fingerprint you supplied; re-read the snapshot")
  else none

/-- What `preview` does with the plugin's answer. -/
def cachePreview (answer : Json) (operations : List Json) (i : SelectedInstance) : Async Previewed := do
  let now ← dateNow N
  let expiresAt := now + confirmationLifetimeMs
  match Json.get answer "risk" with
  | none | some .null => Task.fail (.error "Cannot read properties of undefined (reading 'level')")
  | some _ =>
    Task.modify fun s => { s with
      plans := Function.update s.plans (jstr answer "planHash")
        (some (cachedPlan answer operations i.instanceId i.sessionId expiresAt))
      trail := s.trail ++ [.previewed answer i.instanceId i.sessionId now] }
    let token ← mintToken N (tokenBinding answer i.instanceId i.sessionId expiresAt)
    pure ⟨answer, token, expiresAt, confirmationRequired answer⟩

/-- `TransactionManager.preview`. -/
def preview (label : String) (operations : List Json) (i : SelectedInstance)
    (expectedFingerprint : Option String) (expectedPatchEpoch : Option Int) : Async Previewed := do
  let _ ← pruneExpired N
  let added := operations.countP fun op => holdsString op "op" "add_module"
  if added > txnMaxAddedModules then
    throwTool .transactionTooLarge ("this plan adds " ++ toString added ++ " modules; the limit is " ++
      toString txnMaxAddedModules ++ " per transaction. Split it into smaller transactions.")
  else
    let answer ← (request N "txn.preview" (.object [("scope", scopeFor i), ("label", .string label),
      ("operations", .array operations)])).await
    match unexpectedPreview answer expectedFingerprint expectedPatchEpoch with
    | some e => Task.fail e
    | none => cachePreview N answer operations i

/-! ### Commits -/

/-- The token binds this commit. -/
def bindsCommit (binding : Json) (args : CommitArgs) (i : SelectedInstance) : Bool :=
  holdsString binding "planHash" args.planHash && holdsString binding "baseFingerprint" args.expectedFingerprint &&
    holdsString binding "instanceId" i.instanceId && holdsString binding "sessionId" i.sessionId

/-- The confirmation that a plan needs, with the clock when it was checked. -/
def checkConfirmation (args : CommitArgs) (i : SelectedInstance) (cached : CachedPlan) : Async (Option Int) :=
  if ¬ cached.confirmationRequired then pure none
  else
    match args.confirmationToken with
    | none | some "" => throwTool .confirmationRequired "this plan requires a confirmation token"
    | some token => do
      let verified ← verifyToken N token
      if bindsCommit verified.1 args i then pure (some verified.2)
      else throwTool .confirmationRequired "confirmation token does not bind this commit"

/-- The payload of a commit request. -/
def commitRequest (args : CommitArgs) (i : SelectedInstance) (cached : CachedPlan) : Json :=
  .object ([("scope", scopeOf i.instanceId i.sessionId cached.patchEpoch),
    ("operationId", .string args.operationId)] ++ (cached.plan.map fun plan => ("plan", plan)).toList ++
    [("planHash", .string args.planHash), ("expectedFingerprint", .string args.expectedFingerprint)])

/-- `TransactionManager.commit`. -/
def commit (args : CommitArgs) (i : SelectedInstance) : Async Json := do
  let now ← pruneExpired N
  let s ← Task.read
  match s.plans args.planHash with
  | none => throwTool .confirmationExpired "no cached plan for this plan hash; re-run preview" true
  | some cached =>
    if cached.instanceId ≠ i.instanceId ∨ cached.sessionId ≠ i.sessionId then
      throwTool .staleSession "plan was previewed against a different session"
    else if args.expectedFingerprint ≠ cached.baseFingerprint then
      throwTool .patchConflict ("expectedFingerprint is not the fingerprint this plan was previewed against; " ++
        "the patch changed since the preview, so re-run preview")
    else
      let tokenAt ← checkConfirmation N args i cached
      rateLimiterAdmit N cached.paramChanges
      Task.record fun caller s => { s with trail := s.trail ++ [.admitted caller args cached now tokenAt] }
      (ensureLease N).await
      let result ← (request N "txn.commit" (commitRequest args i cached) (some args.operationId)
        N.config.txnCommitTimeoutMs).await
      Task.modify fun s => { s with plans := Function.update s.plans args.planHash none }
      pure result

/-! ### Load tokens -/

/-- `mintLoadToken`; the lifetime is added here. -/
def mintLoadToken (i : SelectedInstance) (kind : LoadKind) (path : Option String) (patchEpoch : Int)
    (fingerprint : String) : Async String := do
  let now ← dateNow N
  let binding : LoadBinding :=
    ⟨i.instanceId, i.sessionId, kind, path, patchEpoch, fingerprint, now + confirmationLifetimeMs⟩
  let id ← Task.update fun s => (N.randomId s.draws, { s with
    draws := s.draws + 1
    loadBindings := Function.update (fun id => (s.loadBindings id).filter fun b => ¬ b.expiresAt < now)
      (N.randomId s.draws) (some binding)
    trail := s.trail ++ [.loadMinted (N.randomId s.draws) binding] })
  pure (tagged N id)

/-- `lookupLoadToken`. -/
def lookupLoadToken (token : String) : Async (String × LoadBinding) := do
  let id ← Task.ofExcept (checkTag N token)
  let s ← Task.read
  match s.loadBindings id with
  | none =>
    throwTool .confirmationExpired
      "confirmation token is unknown, already used, or expired; re-run the preview"
  | some binding =>
    let now ← dateNow N
    if now > binding.expiresAt then
      Task.modify fun s => { s with loadBindings := Function.update s.loadBindings id none }
      throwTool .confirmationExpired "confirmation token has expired"
    else pure (id, binding)

/-- `verifyLoadToken`. -/
def verifyLoadToken (token : String) : Async LoadBinding := do
  let found ← lookupLoadToken N token
  pure found.2

/-- `consumeLoadToken`. -/
def consumeLoadToken (token : String) : Async LoadBinding := do
  let found ← lookupLoadToken N token
  Task.record fun caller s => { s with
    loadBindings := Function.update s.loadBindings found.1 none
    trail := s.trail ++ [.burned caller found.1 found.2] }
  pure found.2

end RackMcp.Server
