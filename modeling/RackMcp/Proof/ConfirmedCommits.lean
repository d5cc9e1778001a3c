import Mathlib.Data.List.Sort
import RackMcp.Proof.Affinity
import RackMcp.Proof.Remembered

/-!
# Only previewed and confirmed plans are committed

A cached plan is always that of a preview answer of the plugin, so every commit request carries what one preview
returned for the instance and session it goes to. Where that preview asked for a confirmation, the commit came with
a token whose tag is right; tags cannot be forged (`Unforged`), so this process minted it, and what the token binds
is what the commit carries.
-/

namespace RackMcp.Server

open Gen

variable {N : Node} {rack : Rack} {J : Jansson} {s s' : Shared}

/-! ### Cached plans -/

/-- The plan under a hash is that of a preview answer, which was cached at this time. -/
structure PlanOf (s : Shared) (planHash : String) (plan : CachedPlan) (answer : Json) (cachedAt : Int) : Prop where
  answered : ∃ j request, s.Answered j "txn.preview" request answer ∧
    scopeIds request = (plan.instanceId, plan.sessionId)
  marked : .previewed answer plan.instanceId plan.sessionId cachedAt ∈ s.trail
  plan : ∃ operations,
    plan = cachedPlan answer operations plan.instanceId plan.sessionId (cachedAt + confirmationLifetimeMs)
  planHash : planHash = jstr answer "planHash"

theorem Grows.planOf (h : Grows N s s') {planHash : String} {plan : CachedPlan} {answer : Json} {cachedAt : Int}
    (hplan : PlanOf s planHash plan answer cachedAt) : PlanOf s' planHash plan answer cachedAt := by
  obtain ⟨⟨j, request, hanswered, hscope⟩, hmarked, hplan, hhash⟩ := hplan
  exact ⟨⟨j, request, h.answered hanswered, hscope⟩, h.mark hmarked, hplan, hhash⟩

theorem scopeIds_of_scopeFor {request : Json} {selected : SelectedInstance}
    (h : Json.get request "scope" = some (scopeFor selected)) :
    scopeIds request = (selected.instanceId, selected.sessionId) := by
  unfold scopeIds
  rw [h]
  rfl

/-- Where a plan is cached after a step, it was before, or the step caches it. -/
theorem Step.plans (h : Step N s s') {planHash : String} {plan : CachedPlan} (hplan : s'.plans planHash = some plan) :
    s.plans planHash = some plan ∨ ∃ answer cachedAt, PlanOf s' planHash plan answer cachedAt := by
  rcases h with hlink | hdecision
  · rw [hlink.sameConfirmations.plans] at hplan
    exact .inl hplan
  · have hgrows : Grows N s s' := (Step.decision hdecision).grows
    rcases hdecision
    case prune now =>
      have hplan : (s.plans planHash).filter (fun p => ¬ p.expiresAt < now) = some plan := hplan
      exact .inl (Option.filter_eq_some_iff.mp hplan).1
    case cache answer operations selected now h =>
      have hplan : Function.update s.plans (jstr answer "planHash") (some (cachedPlan answer operations
        selected.instanceId selected.sessionId (now + confirmationLifetimeMs))) planHash = some plan := hplan
      by_cases hhash : planHash = jstr answer "planHash"
      · rw [hhash, Function.update_self] at hplan
        obtain rfl := Option.some.inj hplan
        obtain ⟨j, request, hanswered, hscope⟩ := h
        exact .inr ⟨answer, now, ⟨j, request, hgrows.answered hanswered, scopeIds_of_scopeFor hscope⟩,
          List.mem_append_right _ (List.mem_singleton_self _), ⟨operations, rfl⟩, hhash⟩
      · rw [Function.update_of_ne hhash] at hplan
        exact .inl hplan
    case forget hash =>
      have hplan : Function.update s.plans hash none planHash = some plan := hplan
      by_cases hhash : planHash = hash
      · rw [hhash, Function.update_self] at hplan
        cases hplan
      · rw [Function.update_of_ne hhash] at hplan
        exact .inl hplan
    all_goals exact .inl hplan

/-- Every cached plan is that of a preview answer. -/
theorem planOf_of_cached (hreach : Reachable N s) {planHash : String} {plan : CachedPlan}
    (h : s.plans planHash = some plan) : ∃ answer cachedAt, PlanOf s planHash plan answer cachedAt := by
  induction hreach with
  | refl => cases h
  | @tail s s' _ hstep ih =>
    rcases hstep.plans h with hbefore | hnew
    · obtain ⟨answer, cachedAt, hplan⟩ := ih hbefore
      exact ⟨answer, cachedAt, hstep.grows.planOf hplan⟩
    · exact hnew

/-! ### Tokens -/

variable (N) in
/-- The process has tagged this body: it is that of a transaction token, or the id of a load token. -/
def Issued (s : Shared) (body : String) : Prop :=
  (∃ b, .minted b ∈ s.trail ∧ body = N.encodeBody b.toJson) ∨ ∃ b, .loadMinted body b ∈ s.trail

variable (N rack J) in
/-- Tags cannot be forged: whoever calls a tool with a token whose tag is right got it from the process. -/
def Unforged (sites : List Site) (es : List WorldEvent) : Prop :=
  ∀ j tool token body, es[j]? = some (.call tool) → token ∈ tool.tokens → checkTag N token = .ok body →
    Issued N (World.stateAt N rack J sites es j).server body

variable (N) in
/-- The body of a transaction token reads back and is base64url text; the id of a load token, 18 random bytes, has no
room for a binding. -/
structure TokensRead (s : Shared) : Prop where
  binding : ∀ b, .minted b ∈ s.trail → N.decodeBody (N.encodeBody b.toJson) = some b.toJson
  plain : ∀ b, .minted b ∈ s.trail → '.' ∉ (N.encodeBody b.toJson).toList
  loadId : ∀ id b v args selected, .loadMinted id b ∈ s.trail → N.decodeBody id = some v →
    bindsCommit v args selected = false

theorem Issued.later (h : Grows N s s') {body : String} (hissued : Issued N s body) : Issued N s' body := by
  rcases hissued with ⟨b, hb, hbody⟩ | ⟨b, hb⟩
  · exact .inl ⟨b, h.mark hb, hbody⟩
  · exact .inr ⟨b, h.mark hb⟩

theorem splitToken_append {body mac : String} (hbody : '.' ∉ body.toList) :
    splitToken (body ++ "." ++ mac) = some (body, mac) := by
  have htake : (body.toList ++ '.' :: mac.toList).takeWhile (· ≠ '.') = body.toList := by
    rw [List.takeWhile_append_of_pos, List.takeWhile_cons_of_neg (by simp), List.append_nil]
    intro c hc
    simpa using fun heq : c = '.' => hbody (heq ▸ hc)
  unfold splitToken
  simp only [String.toList_append, show ".".toList = ['.'] from rfl, List.append_assoc, List.singleton_append]
  rw [htake, if_neg (by simp), List.drop_length_add_append]
  simp

theorem checkTag_tagged {body : String} (hbody : '.' ∉ body.toList) : checkTag N (tagged N body) = .ok body := by
  unfold checkTag tagged
  rw [splitToken_append hbody]
  exact if_neg fun h => h rfl

/-- A token that was presented and whose tag is right was issued. -/
theorem issued_of_presented {sites : List Site} {es : List WorldEvent} (hunforged : Unforged N rack J sites es)
    {k i : ℕ} (htokens : TokensRead N (World.stateAt N rack J sites es k).server) {token body : String}
    (hpresented : Presented N (World.stateAt N rack J sites es k).server i token)
    (htag : checkTag N token = .ok body) : Issued N (World.stateAt N rack J sites es k).server body := by
  rcases hpresented with ⟨tool, htool, htoken⟩ | ⟨b, hb, rfl⟩
  · obtain ⟨j, hj, he, hgrows⟩ := World.called_before rack J sites es htool
    exact (hunforged j tool token body he htoken htag).later hgrows
  · rw [checkTag_tagged (htokens.plain b hb)] at htag
    exact .inl ⟨b, hb, (Except.ok.inj htag).symm⟩

/-! ### Commit requests -/

/-- The payload carries what this preview answer returned, for the instance and session of its scope. -/
structure Carries (s : Shared) (payload answer : Json) : Prop where
  previewed : ∃ j request, s.Answered j "txn.preview" request answer ∧ scopeIds request = scopeIds payload
  plan : Json.get payload "plan" = Json.get answer "plan"
  planHash : jstr payload "planHash" = jstr answer "planHash"
  fingerprint : jstr payload "expectedFingerprint" = jstr answer "baseFingerprint"

/-- The process minted the token for what the payload carries, and at this time it has not expired. -/
structure ConfirmedBy (N : Node) (s : Shared) (payload : Json) (token : String) (at_ : Int) (b : TokenBinding) :
    Prop where
  minted : .minted b ∈ s.trail
  tag : checkTag N token = .ok (N.encodeBody b.toJson)
  planHash : b.planHash = jstr payload "planHash"
  fingerprint : b.baseFingerprint = jstr payload "expectedFingerprint"
  scope : (b.instanceId, b.sessionId) = scopeIds payload
  live : at_ ≤ b.expiresAt

section payload
variable (args : CommitArgs) (selected : SelectedInstance) (plan : CachedPlan)

theorem get_plan_commitRequest : Json.get (commitRequest args selected plan) "plan" = plan.plan := by
  rcases h : plan.plan with _ | v <;> simp [commitRequest, Json.get, h, List.lookup_cons]

theorem jstr_planHash_commitRequest : jstr (commitRequest args selected plan) "planHash" = args.planHash := by
  rcases h : plan.plan with _ | v <;> simp [commitRequest, jstr, Json.stringOr, Json.get, h, List.lookup_cons]

theorem jstr_fingerprint_commitRequest :
    jstr (commitRequest args selected plan) "expectedFingerprint" = args.expectedFingerprint := by
  rcases h : plan.plan with _ | v <;> simp [commitRequest, jstr, Json.stringOr, Json.get, h, List.lookup_cons]

end payload

theorem binding_of_bindsCommit {b : TokenBinding} {args : CommitArgs} {selected : SelectedInstance}
    (h : bindsCommit b.toJson args selected = true) :
    b.planHash = args.planHash ∧ b.baseFingerprint = args.expectedFingerprint ∧
      b.instanceId = selected.instanceId ∧ b.sessionId = selected.sessionId := by
  simpa [bindsCommit, holdsString, Json.get, TokenBinding.toJson, List.lookup_cons, and_assoc] using h

theorem live_of_not_expired {b : TokenBinding} {at_ : Int} (h : expired b.toJson at_ = false) :
    at_ ≤ b.expiresAt := by
  simpa [expired, Json.get, TokenBinding.toJson, List.lookup_cons] using h

/-- A commit that is admitted was previewed, and confirmed where it had to be. -/
structure AdmittedFrom (N : Node) (s : Shared) (i : ℕ) (args : CommitArgs) (plan : CachedPlan) (checkedAt : Int)
    (tokenAt : Option Int) (answer : Json) (cachedAt : Int) : Prop where
  planOf : PlanOf s args.planHash plan answer cachedAt
  live : checkedAt ≤ cachedAt + confirmationLifetimeMs
  fingerprint : args.expectedFingerprint = jstr answer "baseFingerprint"
  confirmed : confirmationRequired answer = true → ∃ token body binding at_ selected,
    args.confirmationToken = some token ∧ Presented N s i token ∧ checkTag N token = .ok body ∧
      N.decodeBody body = some binding ∧ bindsCommit binding args selected = true ∧ tokenAt = some at_ ∧
      expired binding at_ = false ∧ plan.instanceId = selected.instanceId ∧ plan.sessionId = selected.sessionId

theorem admittedFrom (hreach : Reachable N s) {i : ℕ} {args : CommitArgs} {plan : CachedPlan} {checkedAt : Int}
    {tokenAt : Option Int} (h : .admitted i args plan checkedAt tokenAt ∈ s.trail) :
    ∃ answer cachedAt, AdmittedFrom N s i args plan checkedAt tokenAt answer cachedAt := by
  obtain ⟨s₀, hreach₀, hmade, hgrows⟩ := mark_made hreach h
  rcases hmade with _ | _ | ⟨_, _, selected, _, _, _, hadmissible⟩ | _ | _
  obtain ⟨answer, cachedAt, hplan⟩ := planOf_of_cached hreach₀ hadmissible.cached
  obtain ⟨operations, hcached⟩ := hplan.plan
  refine ⟨answer, cachedAt, hgrows.planOf hplan, ?_, ?_, fun hrequired => ?_⟩
  · have hlive := hadmissible.live
    rw [hcached] at hlive
    exact not_lt.mp hlive
  · rw [hadmissible.sameBase, hcached]
    rfl
  · have hrequired : plan.confirmationRequired = true := by
      rw [hcached]
      exact hrequired
    obtain ⟨token, body, binding, at_, htoken, hpresented, hbody, hdecoded, hbinds, hat, hlive⟩ :=
      hadmissible.confirmed hrequired
    exact ⟨token, body, binding, at_, selected, htoken, hgrows.presented hpresented, hbody, hdecoded, hbinds, hat,
      hlive, hadmissible.sameInstance⟩

/-- A commit request is of an admitted commit. -/
theorem commit_admitted (hreach : Reachable N s) {e : Exchange} (he : e ∈ s.exchanges) {r : Request}
    (hcall : e.call = .request r) (hmethod : r.method = "txn.commit") :
    ∃ args selected plan checkedAt tokenAt, .admitted e.caller args plan checkedAt tokenAt ∈ s.trail ∧
      plan.instanceId = selected.instanceId ∧ plan.sessionId = selected.sessionId ∧
      r.payload = commitRequest args selected plan ∧ r.operationId = some args.operationId := by
  obtain ⟨n, hn⟩ := List.getElem?_of_mem he
  obtain ⟨s₀, -, -, hallowed, -, hgrows⟩ := origin hreach hn
  have hsanctioned := (hallowed r hcall).2
  rcases hsanctioned
  case commit args selected plan checkedAt tokenAt _ _ hadmitted hinstance _ hpayload hid =>
    exact ⟨args, selected, plan, checkedAt, tokenAt, hgrows.mark hadmitted, hinstance.1, hinstance.2, hpayload, hid⟩
  case reads hreads _ =>
    rw [hmethod] at hreads
    exact absurd (by decide) hreads
  all_goals
    next hother _ _ =>
    rw [hother] at hmethod
    exact absurd hmethod (by decide)

/-- The commit request carries the plan, the hash and the fingerprint of one preview answer for its instance and
session, which had not expired when the commit checked it; and where that preview asked for a confirmation, the
commit came with a token that this process minted for them, and that had not expired either. -/
def CommitConfirmed (N : Node) (s : Shared) (e : Exchange) (r : Request) : Prop :=
  ∃ args plan answer cachedAt checkedAt tokenAt,
    .admitted e.caller args plan checkedAt tokenAt ∈ s.trail ∧ Carries s r.payload answer ∧
    .previewed answer (scopeIds r.payload).1 (scopeIds r.payload).2 cachedAt ∈ s.trail ∧
    checkedAt ≤ cachedAt + confirmationLifetimeMs ∧
    (confirmationRequired answer = true → ∃ token at_ b, args.confirmationToken = some token ∧
      Presented N s e.caller token ∧ tokenAt = some at_ ∧ ConfirmedBy N s r.payload token at_ b)

/-- In every run, every commit request is for a previewed plan that was confirmed where it had to be. -/
theorem commits_are_confirmed (N : Node) (rack : Rack) (J : Jansson) (sites : List Site) (es : List WorldEvent)
    (k : ℕ) (hunforged : Unforged N rack J sites es)
    (htokens : TokensRead N (World.stateAt N rack J sites es k).server) :
    ∀ e ∈ (World.stateAt N rack J sites es k).server.exchanges, ∀ r, e.call = .request r →
      r.method = "txn.commit" → CommitConfirmed N (World.stateAt N rack J sites es k).server e r := by
  intro e he r hcall hmethod
  have hreach := World.reachable_stateAt (N := N) rack J sites es k
  obtain ⟨args, selected, plan, checkedAt, tokenAt, hadmitted, hi, ht, hpayload, -⟩ :=
    commit_admitted hreach he hcall hmethod
  obtain ⟨answer, cachedAt, hplanOf, hlive, hfingerprint, hconfirmed⟩ := admittedFrom hreach hadmitted
  have hscope : scopeIds r.payload = (plan.instanceId, plan.sessionId) := by
    rw [hpayload, hi, ht]
    rfl
  obtain ⟨j, request, hanswered, hrequest⟩ := hplanOf.answered
  obtain ⟨operations, hplan⟩ := hplanOf.plan
  refine ⟨args, plan, answer, cachedAt, checkedAt, tokenAt, hadmitted,
    ⟨⟨j, request, hanswered, hrequest.trans hscope.symm⟩, ?_, ?_, ?_⟩, ?_, hlive, fun hrequired => ?_⟩
  · rw [hpayload, get_plan_commitRequest, hplan]
    rfl
  · rw [hpayload, jstr_planHash_commitRequest]
    exact hplanOf.planHash
  · rw [hpayload, jstr_fingerprint_commitRequest]
    exact hfingerprint
  · rw [hscope]
    exact hplanOf.marked
  · obtain ⟨token, body, binding, at_, selected', htoken, hpresented, hbody, hdecoded, hbinds, hat, hunexpired,
      hi', ht'⟩ := hconfirmed hrequired
    rcases issued_of_presented hunforged htokens hpresented hbody with ⟨b, hb, rfl⟩ | ⟨b, hb⟩
    · rw [htokens.binding b hb] at hdecoded
      obtain rfl := Option.some.inj hdecoded
      obtain ⟨hhash, hbase, hinstance, hsession⟩ := binding_of_bindsCommit hbinds
      refine ⟨token, at_, b, htoken, hpresented, hat, hb, hbody, ?_, ?_, ?_, live_of_not_expired hunexpired⟩
      · rw [hpayload, jstr_planHash_commitRequest, hhash]
      · rw [hpayload, jstr_fingerprint_commitRequest, hbase]
      · rw [hscope, hinstance, hsession, hi', ht']
    · rw [htokens.loadId body b binding args selected' hb hdecoded] at hbinds
      cases hbinds

/-! ### A bench commit -/

def sortedIds (ids : List Int) : String := " ".intercalate ((ids.insertionSort (· ≤ ·)).map toString)

/-- The bench rack with a fingerprint that lists the modules and the cables, in whatever order the patch has them. -/
def siteRack : Rack :=
  { benchRack with
    computePatchFingerprint p :=
      some (sortedIds (p.modules.map (·.id)) ++ "|" ++ sortedIds (p.cables.map Cable.id)) }

/-- The first tool call of a run connects to the first Rack, whose readiness it does not learn. -/
def connects (tool : ToolCall) : List WorldEvent :=
  [.call tool, .resume 0, .server (.welcome 0 0 (benchWelcome "A" "a"))] ++ resumes 0 2 ++
  [.server (.handshake 1 .authenticated)] ++ resumes 0 6 ++ [.server (.timeout 2)] ++ resumes 0 7

/-- The plugin executes the request of an exchange, and the response arrives. -/
def executes (n : ℕ) : List WorldEvent := [.execute n ⟨6, 7⟩ benchReadings, .server (.deliver n)]

/-- The plugin answers a lease request, and the response arrives. -/
def leases (n : ℕ) (id : String) : List WorldEvent :=
  [.server (.answer n (compactText (leaseFrame id))), .server (.deliver n)]

def okFrame (id : String) (payload : Option Json) : Json := .object (resOk id payload)

def removalPreview : ToolCall := .previewPatchTransaction "removal" removeOscillator none none

/-- The preview answer of the plugin for the removal of the oscillator. -/
def removalAnswer : Json :=
  ((txnPreview siteRack (.object [("scope", scopeOf "A" "a" 0), ("label", .string "removal"),
    ("operations", .array removeOscillator)]) benchHost.rack).payload).getD .null

def removalBinding : TokenBinding := tokenBinding removalAnswer "A" "a" (8 + confirmationLifetimeMs)

/-- The commit of the removal, with the token of its preview. -/
def removalCommit (operationId : String) : CommitArgs :=
  ⟨operationId, "plan", "1 2 3|10", some (compactText removalBinding.toJson ++ ".mac")⟩

def removalValues : List Json :=
  [okFrame "0000000000000017" removalAnswer, removalBinding.toJson, leaseFrame "0000000000000021"]

/-- The removal is previewed and its commit requested. -/
def removalEvents : List WorldEvent :=
  connects removalPreview ++ executes 3 ++ resumes 0 6 ++
  [.call (.commitPatchTransaction (removalCommit "op-1"))] ++ resumes 1 5 ++ leases 4 "0000000000000021" ++
  resumes 1 7

/-- The server at the end of that run. -/
def removalServer : Shared :=
  (World.stateAt (benchNode removalValues) siteRack benchJansson [⟨benchHost, 0⟩] removalEvents
    removalEvents.length).server

def Mark.isIssue (N : Node) (body : String) : Mark → Bool
  | .minted b => body == N.encodeBody b.toJson
  | .loadMinted id _ => body == id
  | _ => false

/-- The tokens of the tools called at index `j` were issued before. -/
def unforgedAt (N : Node) (rack : Rack) (J : Jansson) (sites : List Site) (es : List WorldEvent) (j : ℕ) : Bool :=
  match es[j]? with
  | some (.call tool) => tool.tokens.all fun token =>
    match checkTag N token with
    | .ok body => (World.stateAt N rack J sites es j).server.trail.any (Mark.isIssue N body)
    | .error _ => true
  | _ => true

theorem unforged_of_all {sites : List Site} {es : List WorldEvent}
    (h : (List.range es.length).all (unforgedAt N rack J sites es) = true) : Unforged N rack J sites es := by
  intro j tool token body he htoken htag
  have hj : j ∈ List.range es.length := List.mem_range.mpr (List.getElem?_eq_some_iff.mp he).1
  have hat := List.all_eq_true.mp h j hj
  unfold unforgedAt at hat
  rw [he] at hat
  have htoken := List.all_eq_true.mp hat token htoken
  rw [htag] at htoken
  obtain ⟨mark, hmark, hissue⟩ := List.any_eq_true.mp htoken
  unfold Mark.isIssue at hissue
  split at hissue
  · next b => exact .inl ⟨b, hmark, eq_of_beq hissue⟩
  · next id b => exact .inr ⟨b, eq_of_beq hissue ▸ hmark⟩
  · cases hissue

/-- The bindings of the transaction tokens, and whether a load token was minted. -/
def Shared.bindings (s : Shared) : List TokenBinding :=
  s.trail.filterMap fun
    | .minted b => some b
    | _ => none

def Shared.mintedLoad (s : Shared) : Bool :=
  s.trail.any fun
    | .loadMinted _ _ => true
    | _ => false

theorem tokensRead_of_bindings {b : TokenBinding} (hbindings : s.bindings = [b]) (hload : s.mintedLoad = false)
    (hreads : N.decodeBody (N.encodeBody b.toJson) = some b.toJson) (hplain : '.' ∉ (N.encodeBody b.toJson).toList) :
    TokensRead N s := by
  have hb : ∀ b', .minted b' ∈ s.trail → b' = b := by
    intro b' hb'
    have hmem : b' ∈ s.bindings := List.mem_filterMap.mpr ⟨_, hb', rfl⟩
    rw [hbindings] at hmem
    exact List.mem_singleton.mp hmem
  refine ⟨fun b' hb' => hb b' hb' ▸ hreads, fun b' hb' => hb b' hb' ▸ hplain, fun id b' _ _ _ hb' => ?_⟩
  have hmem : s.mintedLoad = true := List.any_eq_true.mpr ⟨_, hb', rfl⟩
  rw [hload] at hmem
  cases hmem

theorem removal_run : (removalServer.requestAt 5).map (·.method) = some "txn.commit" ∧
    removalServer.bindings = [removalBinding] ∧ removalServer.mintedLoad = false ∧
    (List.range removalEvents.length).all (unforgedAt (benchNode removalValues) siteRack benchJansson
      [⟨benchHost, 0⟩] removalEvents) = true := by
  decide +kernel

/-- The bench commit is of the previewed removal, with the token of its preview. -/
theorem removal_is_confirmed : ∃ e ∈ removalServer.exchanges, ∃ r, e.call = .request r ∧ r.method = "txn.commit" ∧
    CommitConfirmed (benchNode removalValues) removalServer e r := by
  obtain ⟨hposted, hbindings, hload, hunforged⟩ := removal_run
  obtain ⟨r, hr, hmethod⟩ := Option.map_eq_some_iff.mp hposted
  obtain ⟨e, he, hcall⟩ := exists_of_requestAt hr
  refine ⟨e, he, r, hcall, hmethod, ?_⟩
  unfold removalServer at he hbindings hload ⊢
  exact commits_are_confirmed (benchNode removalValues) siteRack benchJansson [⟨benchHost, 0⟩] removalEvents
    removalEvents.length (unforged_of_all hunforged)
    (tokensRead_of_bindings hbindings hload rfl (by decide +kernel)) e he r hcall hmethod

end RackMcp.Server
