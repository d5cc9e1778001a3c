import RackMcp.Proof.ReplacedPatch

/-!
# One confirmation, one commit

A load token is burned before the request it confirms, and its id never comes back; a tool call sends at most one
destructive request; and a request is executed at most once. A transaction token is not burned: what keeps it from
a second commit is that the plan is forgotten and the patch has changed, and a later preview of the same patch puts
the plan back.
-/

namespace RackMcp.Server

open Gen

variable {N : Node} {rack : Rack} {J : Jansson} {s s' : Shared}

/-! ### Load tokens -/

variable (N) in
/-- A load token that is still there was not burned, and no token is burned by two tool calls. -/
structure BurnedOnce (s : Shared) : Prop where
  kept : ∀ id b, s.loadBindings id = some b →
    (∃ n < s.draws, id = N.randomId n) ∧ ∀ i b', .burned i id b' ∉ s.trail
  drawn : ∀ i id b, .burned i id b ∈ s.trail → ∃ n < s.draws, id = N.randomId n
  once : ∀ i j id b b', .burned i id b ∈ s.trail → .burned j id b' ∈ s.trail → i = j

/-- A step that burns nothing and draws no new id. -/
theorem BurnedOnce.of_same (h : BurnedOnce N s) (hdraws : s.draws ≤ s'.draws)
    (hbindings : ∀ id b, s'.loadBindings id = some b → s.loadBindings id = some b)
    (htrail : ∀ i id b, .burned i id b ∈ s'.trail → .burned i id b ∈ s.trail) : BurnedOnce N s' := by
  refine ⟨fun id b hb => ?_, fun i id b hb => ?_, fun i j id b b' hb hb' => ?_⟩
  · obtain ⟨⟨n, hn, hid⟩, hnot⟩ := h.kept id b (hbindings id b hb)
    exact ⟨⟨n, by omega, hid⟩, fun i b' hb' => hnot i b' (htrail i id b' hb')⟩
  · obtain ⟨n, hn, hid⟩ := h.drawn i id b (htrail i id b hb)
    exact ⟨n, by omega, hid⟩
  · exact h.once i j id b b' (htrail _ _ _ hb) (htrail _ _ _ hb')

theorem burned_of_append {i : ℕ} {id : String} {b : LoadBinding} {mark : Mark} {trail : List Mark}
    (hmark : mark ≠ .burned i id b) (h : .burned i id b ∈ trail ++ [mark]) : .burned i id b ∈ trail :=
  (List.mem_append.mp h).resolve_right fun hlast => hmark (List.mem_singleton.mp hlast).symm

theorem BurnedOnce.step (hinjective : Function.Injective N.randomId) (h : BurnedOnce N s) (hstep : Step N s s') :
    BurnedOnce N s' := by
  rcases hstep with hlink | hdecision
  · have hsame := hlink.sameConfirmations
    exact h.of_same hsame.draws.ge (fun id b hb => hsame.loadBindings ▸ hb) fun i id b hb => hsame.trail ▸ hb
  · rcases hdecision
    case draws => exact h.of_same (Nat.le_succ _) (fun _ _ hb => hb) fun _ _ _ hb => hb
    case mintLoad now binding =>
      have hfresh : ∀ i b', .burned i (N.randomId s.draws) b' ∉ s.trail := by
        intro i b' hb'
        obtain ⟨n, hn, hid⟩ := h.drawn i _ b' hb'
        have := hinjective hid
        omega
      refine ⟨fun id b hb => ?_, fun i id b hb => ?_, fun i j id b b' hb hb' => ?_⟩
      · by_cases hid : id = N.randomId s.draws
        · refine ⟨⟨s.draws, Nat.lt_succ_self _, hid⟩, fun i b' hb' => hfresh i b' ?_⟩
          rw [hid] at hb'
          exact burned_of_append (fun h => by cases h) hb'
        · have hb : Function.update (fun id => (s.loadBindings id).filter fun b => ¬ b.expiresAt < now)
            (N.randomId s.draws) (some binding) id = some b := hb
          rw [Function.update_of_ne hid, Option.filter_eq_some_iff] at hb
          obtain ⟨⟨n, hn, hid'⟩, hnot⟩ := h.kept id b hb.1
          exact ⟨⟨n, Nat.lt_succ_of_lt hn, hid'⟩,
            fun i b' hb' => hnot i b' (burned_of_append (fun h => by cases h) hb')⟩
      · obtain ⟨n, hn, hid⟩ := h.drawn i id b (burned_of_append (fun h => by cases h) hb)
        exact ⟨n, Nat.lt_succ_of_lt hn, hid⟩
      · exact h.once i j id b b' (burned_of_append (fun h => by cases h) hb)
          (burned_of_append (fun h => by cases h) hb')
    case expire id' =>
      refine h.of_same (Nat.le_refl _) (fun id b hb => ?_) fun _ _ _ hb => hb
      have hb : Function.update s.loadBindings id' none id = some b := hb
      by_cases hid : id = id'
      · rw [hid, Function.update_self] at hb
        cases hb
      · rwa [Function.update_of_ne hid] at hb
    case burn i' id' binding hbinding =>
      obtain ⟨hdrawn, hnot⟩ := h.kept id' binding hbinding
      have hold : ∀ i id b, .burned i id b ∈ s.trail ++ [.burned i' id' binding] →
          .burned i id b ∈ s.trail ∨ (i = i' ∧ id = id') := by
        intro i id b hb
        rcases List.mem_append.mp hb with hb | hb
        · exact .inl hb
        · obtain ⟨hi, hid, -⟩ := Mark.burned.inj (List.mem_singleton.mp hb)
          exact .inr ⟨hi, hid⟩
      refine ⟨fun id b hb => ?_, fun i id b hb => ?_, fun i j id b b' hb hb' => ?_⟩
      · have hb : Function.update s.loadBindings id' none id = some b := hb
        by_cases hid : id = id'
        · rw [hid, Function.update_self] at hb
          cases hb
        · rw [Function.update_of_ne hid] at hb
          obtain ⟨hn, hnot⟩ := h.kept id b hb
          exact ⟨hn, fun i b' hb' => (hold i id b' hb').elim (hnot i b') fun h => hid h.2⟩
      · rcases hold i id b hb with hb | ⟨-, rfl⟩
        · exact h.drawn i id b hb
        · exact hdrawn
      · rcases hold i id b hb with hbefore | ⟨hi, hid⟩
        · rcases hold j id b' hb' with hbefore' | ⟨hj, hid'⟩
          · exact h.once i j id b b' hbefore hbefore'
          · exact absurd (hid' ▸ hbefore) (hnot i b)
        · rcases hold j id b' hb' with hbefore' | ⟨hj, hid'⟩
          · exact absurd (hid ▸ hbefore') (hnot j b')
          · exact hi.trans hj.symm
    all_goals
      refine h.of_same (Nat.le_refl _) (fun _ _ hb => hb) fun i id b hb => ?_
      first
      | exact hb
      | exact burned_of_append (fun h => by cases h) hb

theorem burnedOnce_of_reachable (hinjective : Function.Injective N.randomId) (h : Reachable N s) :
    BurnedOnce N s :=
  h.induction ⟨fun _ _ h => (by cases h), fun _ _ _ h => (by cases h), fun _ _ _ _ _ h => (by cases h)⟩
    fun _ _ hstep hs => hs.step hinjective hstep

/-! ### One destructive request for each tool call -/

/-- When a destructive request is sent, its tool call has sent none before. -/
theorem idle_of_sanctioned {i : ℕ} {r : Request} (h : Sanctioned N s i r) (hmethod : r.method ∈ destructiveMethods) :
    s.Idle i := by
  rcases h
  case commit _ _ _ _ _ hidle _ _ _ _ _ _ => exact hidle
  case undo _ _ _ hidle _ _ _ => exact hidle
  case load _ _ _ _ _ _ hidle _ _ _ _ _ => exact hidle
  case clear _ _ _ _ hidle _ _ _ _ => exact hidle
  case reads hreads _ => exact absurd hmethod (calm_of_reads hreads)
  all_goals
    next hother _ _ =>
    rw [hother] at hmethod
    exact absurd hmethod (by decide)

/-- A tool call sends at most one destructive request. -/
theorem destructive_unique (hreach : Reachable N s) {n₁ n₂ : ℕ} {e₁ e₂ : Exchange} (he₁ : s.exchanges[n₁]? = some e₁)
    (he₂ : s.exchanges[n₂]? = some e₂) (h₁ : e₁.Destructive) (h₂ : e₂.Destructive) (hcaller : e₁.caller = e₂.caller) :
    n₁ = n₂ := by
  wlog hlt : n₁ < n₂ generalizing n₁ n₂ e₁ e₂
  · rcases Nat.lt_trichotomy n₁ n₂ with h | h | h
    · exact this he₁ he₂ h₁ h₂ hcaller h
    · exact h
    · exact (this he₂ he₁ h₂ h₁ hcaller.symm h).symm
  obtain ⟨s₀, -, hlength, hallowed, -, hgrows⟩ := origin hreach he₂
  obtain ⟨e₀, he₀, hext⟩ := earlier_of_origin hgrows (hlength ▸ hlt) he₁
  obtain ⟨r, hcall, hmethod⟩ := h₂
  exact absurd (hext.destructive.mp h₁)
    (idle_of_sanctioned (hallowed r hcall).2 hmethod e₀ he₀ (hext.caller.symm.trans hcaller))

/-! ### Tokens and requests -/

/-- The request was sent under this token: a commit of a plan that needed it, or what replaces the patch. -/
inductive Shared.UsesToken (s : Shared) (e : Exchange) (r : Request) (token : String) : Prop
  | commit (args : CommitArgs) (selected : SelectedInstance) (plan : CachedPlan) (checkedAt : Int)
    (tokenAt : Option Int) (hmethod : r.method = "txn.commit")
    (hadmitted : .admitted e.caller args plan checkedAt tokenAt ∈ s.trail)
    (hpayload : r.payload = commitRequest args selected plan) (hrequired : plan.confirmationRequired = true)
    (htoken : args.confirmationToken = some token)
  | replace (tool : ToolCall) (kind : LoadKind) (operationId : String)
    (hmethod : r.method = "patchfile.load" ∨ r.method = "patchfile.clear")
    (htool : s.tools[e.caller]? = some tool) (hreplaces : tool.Replaces kind token operationId)

theorem Shared.UsesToken.destructive {e : Exchange} {r : Request} {token : String} (h : s.UsesToken e r token) :
    r.method ∈ destructiveMethods := by
  rcases h with ⟨_, _, _, _, _, hmethod, _, _, _, _⟩ | ⟨_, _, _, hmethod | hmethod, _, _⟩ <;> rw [hmethod] <;> decide

theorem ToolCall.Replaces.token_eq {tool : ToolCall} {kind kind' : LoadKind} {token token' operationId operationId' : String}
    (h : tool.Replaces kind token operationId) (h' : tool.Replaces kind' token' operationId') : token = token' := by
  unfold ToolCall.Replaces at h h'
  split at h
  · exact h.2.1.trans h'.2.1.symm
  · exact h.2.1.trans h'.2.1.symm
  · exact Option.some.inj (h.2.1.trans h'.2.1.symm)
  · exact h.elim

/-- A request that replaces the patch was sent after its token was burned. -/
theorem burned_of_replace (hreach : Reachable N s) {e : Exchange} (he : e ∈ s.exchanges) {r : Request}
    (hcall : e.call = .request r) (hmethod : r.method = "patchfile.load" ∨ r.method = "patchfile.clear")
    {tool : ToolCall} {kind : LoadKind} {token operationId : String} (htool : s.tools[e.caller]? = some tool)
    (hreplaces : tool.Replaces kind token operationId) :
    ∃ id b binding, checkTag N token = .ok id ∧ .burned e.caller id b ∈ s.trail ∧ .loadMinted id binding ∈ s.trail := by
  obtain ⟨selected, kind', operationId', id, binding, hconfirmed⟩ := confirmed_of_replace hreach he hcall hmethod
  obtain ⟨⟨tool', token', htool', hreplaces', htag⟩, hminted, ⟨b, hburned⟩, -⟩ := hconfirmed
  rw [htool] at htool'
  obtain rfl := Option.some.inj htool'
  rw [← hreplaces.token_eq hreplaces'] at htag
  exact ⟨id, b, binding, htag, hburned, hminted⟩

/-! ### Successful requests -/

/-- The handler of a destructive request ran and reported success. -/
structure Executed.Succeeded (rack : Rack) (x : Executed) : Prop where
  ran : x.execution.handlerRan = true
  destructive : x.cmd.method ∈ destructiveMethods
  txn : x.cmd.method ∈ Host.txnMethods → ∃ outcome,
    (x.site.host.txn rack x.readings x.cmd.method x.cmd.payload).1 = .ok outcome ∧ outcome.errorCode = none
  patchFile : x.cmd.method ∈ patchFileMethods → ∃ outcome,
    (x.site.host.patchFile rack x.readings x.cmd.method x.cmd.payload).1 = .ok outcome ∧ outcome.errorCode = none

/-- A commit that succeeds got through the gate. -/
theorem Executed.Succeeded.appliesPlan {x : Executed} (h : x.Succeeded rack) (hmethod : x.cmd.method = "txn.commit") :
    x.AppliesPlan rack := by
  refine ⟨⟨hmethod, h.ran⟩, ?_⟩
  obtain ⟨outcome, houtcome, hnone⟩ := h.txn (by rw [hmethod]; decide)
  rw [hmethod] at houtcome
  have houtcome : (txnCommit rack x.cmd.payload x.readings.durationMs x.site.host.rack).1 = outcome :=
    Except.ok.inj houtcome
  unfold txnCommit at houtcome
  split at houtcome
  · next refusal hrefusal =>
    rw [← houtcome] at hnone
    exact absurd hnone (errorCode_of_commitGate hrefusal)
  · assumption

/-! ### Runs -/

/-- The execution is of a request that was sent under this token. -/
def Executed.Uses (s : Shared) (x : Executed) (token : String) : Prop :=
  ∃ e r, s.exchanges[x.exchange]? = some e ∧ e.call = .request r ∧ x.cmd = commandOf r ∧ s.UsesToken e r token

/-- A commit under a token does not read as one that replaces the patch: the id of a load token binds no commit. -/
theorem not_commit_and_replace (hreach : Reachable N s)
    (hloadId : ∀ id b v args selected, .loadMinted id b ∈ s.trail → N.decodeBody id = some v →
      bindsCommit v args selected = false)
    {i : ℕ} {args : CommitArgs} {plan : CachedPlan} {checkedAt : Int} {tokenAt : Option Int}
    (hadmitted : .admitted i args plan checkedAt tokenAt ∈ s.trail) (hrequired : plan.confirmationRequired = true)
    {token id : String} (htoken : args.confirmationToken = some token) (htag : checkTag N token = .ok id)
    {binding : LoadBinding} (hminted : .loadMinted id binding ∈ s.trail) : False := by
  obtain ⟨answer, cachedAt, hfrom⟩ := admittedFrom hreach hadmitted
  obtain ⟨operations, hplan⟩ := hfrom.planOf.plan
  rw [hplan] at hrequired
  obtain ⟨token', body, v, at_, selected, htoken', -, htag', hdecoded, hbinds, -⟩ := hfrom.confirmed hrequired
  rw [htoken] at htoken'
  obtain rfl := Option.some.inj htoken'
  obtain rfl := Except.ok.inj (htag.symm.trans htag')
  rw [hloadId id binding v args selected hminted hdecoded] at hbinds
  cases hbinds

/-- In a run in which a commit under a token that has already led to a commit always finds a patch that is not the one
the plan was previewed against, a token leads to at most one successful destructive request. -/
theorem token_used_once (N : Node) (rack : Rack) (J : Jansson) (sites : List Site) (es : List WorldEvent)
    (hinjective : Function.Injective N.randomId)
    (hloadId : ∀ id b v args selected, .loadMinted id b ∈ (World.stateAt N rack J sites es es.length).server.trail →
      N.decodeBody id = some v → bindsCommit v args selected = false)
    (hchanged : ∀ k₁ k₂ x₁ x₂ token, k₁ < k₂ → World.Executes N rack J sites es k₁ x₁ →
      World.Executes N rack J sites es k₂ x₂ → x₁.Succeeded rack → x₁.Commits → x₂.Commits →
      x₁.Uses (World.stateAt N rack J sites es es.length).server token →
      x₂.Uses (World.stateAt N rack J sites es es.length).server token →
      rack.computePatchFingerprint x₂.site.host.rack.patch ≠ some (jstr x₂.cmd.payload "expectedFingerprint")) :
    ∀ token k₁ k₂ x₁ x₂, World.Executes N rack J sites es k₁ x₁ → World.Executes N rack J sites es k₂ x₂ →
      x₁.Succeeded rack → x₂.Succeeded rack →
      x₁.Uses (World.stateAt N rack J sites es es.length).server token →
      x₂.Uses (World.stateAt N rack J sites es es.length).server token → k₁ = k₂ := by
  intro token k₁ k₂ x₁ x₂ hexecutes₁ hexecutes₂ hsucceeded₁ hsucceeded₂ huses₁ huses₂
  have hreach := World.reachable_stateAt (N := N) rack J sites es es.length
  have hburnedOnce := burnedOnce_of_reachable hinjective hreach
  have hmethod : ∀ {x : Executed} {r : Request}, x.cmd = commandOf r → x.cmd.method = r.method :=
    fun h => by rw [h]; rfl
  obtain ⟨e₁, r₁, he₁, hcall₁, hcmd₁, htoken₁⟩ := id huses₁
  obtain ⟨e₂, r₂, he₂, hcall₂, hcmd₂, htoken₂⟩ := id huses₂
  have hdestructive₁ : e₁.Destructive := ⟨r₁, hcall₁, htoken₁.destructive⟩
  have hdestructive₂ : e₂.Destructive := ⟨r₂, hcall₂, htoken₂.destructive⟩
  rcases htoken₁ with ⟨args₁, selected₁, plan₁, checkedAt₁, tokenAt₁, hmethod₁, hadmitted₁, -, hrequired₁, hargs₁⟩ |
    ⟨tool₁, kind₁, operationId₁, hmethod₁, htool₁, hreplaces₁⟩
  · rcases htoken₂ with ⟨args₂, selected₂, plan₂, checkedAt₂, tokenAt₂, hmethod₂, hadmitted₂, -, hrequired₂, hargs₂⟩ |
      ⟨tool₂, kind₂, operationId₂, hmethod₂, htool₂, hreplaces₂⟩
    · -- two commits: the later one finds a changed patch, which its gate refuses
      have happlies₁ := hsucceeded₁.appliesPlan ((hmethod hcmd₁).trans hmethod₁)
      have happlies₂ := hsucceeded₂.appliesPlan ((hmethod hcmd₂).trans hmethod₂)
      rcases Nat.lt_trichotomy k₁ k₂ with hlt | heq | hlt
      · exact absurd (fingerprint_of_commitGate happlies₂.2)
          (hchanged k₁ k₂ x₁ x₂ token hlt hexecutes₁ hexecutes₂ hsucceeded₁ happlies₁.1 happlies₂.1 huses₁ huses₂)
      · exact heq
      · exact absurd (fingerprint_of_commitGate happlies₁.2)
          (hchanged k₂ k₁ x₂ x₁ token hlt hexecutes₂ hexecutes₁ hsucceeded₂ happlies₂.1 happlies₁.1 huses₂ huses₁)
    · obtain ⟨id, b, binding, htag, -, hminted⟩ :=
        burned_of_replace hreach (List.mem_of_getElem? he₂) hcall₂ hmethod₂ htool₂ hreplaces₂
      exact (not_commit_and_replace hreach hloadId hadmitted₁ hrequired₁ hargs₁ htag hminted).elim
  · obtain ⟨id₁, b₁, binding₁, htag₁, hburned₁, hminted₁⟩ :=
      burned_of_replace hreach (List.mem_of_getElem? he₁) hcall₁ hmethod₁ htool₁ hreplaces₁
    rcases htoken₂ with ⟨args₂, selected₂, plan₂, checkedAt₂, tokenAt₂, hmethod₂, hadmitted₂, -, hrequired₂, hargs₂⟩ |
      ⟨tool₂, kind₂, operationId₂, hmethod₂, htool₂, hreplaces₂⟩
    · exact (not_commit_and_replace hreach hloadId hadmitted₂ hrequired₂ hargs₂ htag₁ hminted₁).elim
    · -- two replacements: the token was burned by one tool call, which sends one destructive request
      obtain ⟨id₂, b₂, binding₂, htag₂, hburned₂, -⟩ :=
        burned_of_replace hreach (List.mem_of_getElem? he₂) hcall₂ hmethod₂ htool₂ hreplaces₂
      obtain rfl := Except.ok.inj (htag₁.symm.trans htag₂)
      have hcaller := hburnedOnce.once _ _ _ _ _ hburned₁ hburned₂
      exact World.executes_once hexecutes₁ hexecutes₂
        (destructive_unique hreach he₁ he₂ hdestructive₁ hdestructive₂ hcaller)

/-! ### A commit and its repetition on the bench -/

/-- Every commit that was admitted needed and had this token. -/
def Shared.admitsOnly (s : Shared) (token : String) : Bool :=
  s.trail.all fun
    | .admitted _ args plan _ _ => plan.confirmationRequired && args.confirmationToken == some token
    | _ => true

theorem uses_of_admitsOnly {sites : List Site} {es : List WorldEvent} {k : ℕ} {x : Executed} {token : String}
    (hexecutes : World.Executes N rack J sites es k x) (hmethod : x.cmd.method = "txn.commit")
    (hadmits : (World.stateAt N rack J sites es es.length).server.admitsOnly token = true) :
    x.Uses (World.stateAt N rack J sites es es.length).server token := by
  obtain ⟨e, r, he, hcall, hcmd⟩ := World.exchange_of_executes hexecutes
  have hmethod : r.method = "txn.commit" := by
    rw [← hmethod, hcmd]
    rfl
  obtain ⟨args, selected, plan, checkedAt, tokenAt, hadmitted, -, -, hpayload, -⟩ :=
    commit_admitted (World.reachable_stateAt rack J sites es es.length) (List.mem_of_getElem? he) hcall hmethod
  have hthis := List.all_eq_true.mp hadmits _ hadmitted
  rw [Bool.and_eq_true, beq_iff_eq] at hthis
  exact ⟨e, r, he, hcall, hcmd, .commit args selected plan checkedAt tokenAt hmethod hadmitted hpayload hthis.1 hthis.2⟩

/-- The execution is of a commit that reports success. -/
def Executed.commitSucceeds (rack : Rack) (x : Executed) : Bool :=
  x.cmd.method == "txn.commit" && x.execution.handlerRan &&
    (txnCommit rack x.cmd.payload x.readings.durationMs x.site.host.rack).1.errorCode.isNone

theorem succeeded_of_commitSucceeds {x : Executed} (h : x.commitSucceeds rack = true) :
    x.cmd.method = "txn.commit" ∧ x.Succeeded rack := by
  unfold Executed.commitSucceeds at h
  rw [Bool.and_eq_true, Bool.and_eq_true, beq_iff_eq, Option.isNone_iff_eq_none] at h
  obtain ⟨⟨hmethod, hran⟩, hnone⟩ := h
  refine ⟨hmethod, hran, by rw [hmethod]; decide, fun _ => ?_, fun h => ?_⟩
  · rw [hmethod]
    exact ⟨_, rfl, hnone⟩
  · rw [hmethod] at h
    exact absurd h (by decide)

/-- The token of the removal. -/
def removalToken : String := compactText removalBinding.toJson ++ ".mac"

theorem randomId_benchNode_injective (values : List Json) : Function.Injective (benchNode values).randomId := by
  intro n m h
  have hlength := congrArg (fun id : String => id.toList.length) h
  simpa [benchNode] using hlength

/-- The answers of the plugin when the removal is committed, undone and previewed again. -/
def removalPayload : Json :=
  commitRequest (removalCommit "op-1") ⟨"A", "a", "", "", 0, 0⟩ (cachedPlan removalAnswer removeOscillator "A" "a" 0)

def removed : TxnOutcome × RackState :=
  txnCommit siteRack removalPayload benchReadings.durationMs benchHost.rack

def removalUndone : Except String TxnOutcome × RackState :=
  txnUndoLast siteRack (undoRequest ⟨"A", "a", "", "", 0, 0⟩ "op-1" "") removed.2

def undoAnswer : Option Json :=
  match removalUndone.1 with
  | .ok outcome => outcome.payload
  | .error _ => none

def secondAnswer : Option Json :=
  (txnPreview siteRack (.object [("scope", scopeOf "A" "a" 0), ("label", .string "removal"),
    ("operations", .array removeOscillator)]) removalUndone.2).payload

def repeatedValues : List Json :=
  removalValues ++ [okFrame "0000000000000022" removed.1.payload, leaseFrame "0000000000000023",
    okFrame "0000000000000025" undoAnswer, okFrame "0000000000000027" secondAnswer, leaseFrame "0000000000000031"]

/-- The commit is answered and undone, the removal is previewed again, and a second commit with the first token
requested. -/
def undoneEvents : List WorldEvent :=
  [.server (.deliver 5)] ++ resumes 1 7 ++
  [.call (.undoLastMcpTransaction "op-1")] ++ resumes 2 5 ++ leases 6 "0000000000000023" ++ resumes 2 7 ++
  executes 7 ++ resumes 2 7 ++
  [.call removalPreview] ++ resumes 3 5 ++ executes 8 ++ resumes 3 7 ++
  [.call (.commitPatchTransaction (removalCommit "op-2"))] ++ resumes 4 5 ++ leases 9 "0000000000000031" ++
  resumes 4 7

def repeatedEvents : List WorldEvent := removalEvents ++ .execute 5 ⟨8, 9⟩ benchReadings :: undoneEvents

/-- The user takes the cable away before the second commit is executed. -/
def changedEvents : List WorldEvent := repeatedEvents ++ [.host 0 (.edit { benchPatch with cables := [] } [] 0)]

def changedToEnd : List WorldEvent := changedEvents ++ [.execute 10 ⟨8, 9⟩ benchReadings]

/-- The execution finds another patch than the one its plan was previewed against. -/
def Executed.findsChange (rack : Rack) (x : Executed) : Bool :=
  rack.computePatchFingerprint x.site.host.rack.patch != some (jstr x.cmd.payload "expectedFingerprint")

theorem changed_run :
    (benchNext repeatedValues removalEvents (.execute 5 ⟨8, 9⟩ benchReadings)).any
        (Executed.commitSucceeds siteRack) = true ∧
      (benchNext repeatedValues changedEvents (.execute 10 ⟨8, 9⟩ benchReadings)).any
        (fun x => x.cmd.method == "txn.commit" && x.execution.handlerRan) = true ∧
      (benchExecuted repeatedValues changedToEnd).all
        (fun x => x.cmd.method != "txn.commit" || x.exchange == 5 || x.findsChange siteRack) = true ∧
      (World.stateAt (benchNode repeatedValues) siteRack benchJansson [⟨benchHost, 0⟩]
        changedToEnd changedToEnd.length).server.admitsOnly removalToken = true ∧
      (World.stateAt (benchNode repeatedValues) siteRack benchJansson [⟨benchHost, 0⟩]
        changedToEnd changedToEnd.length).server.mintedLoad = false ∧
      changedEvents.length ≠ removalEvents.length := by
  decide +kernel

/-- On the bench the token of the removal leads to two commits, the second of which finds another patch and is
refused. -/
theorem removal_token_used_once : ∃ x y : Executed,
    World.Executes (benchNode repeatedValues) siteRack benchJansson [⟨benchHost, 0⟩] changedToEnd
        removalEvents.length x ∧
      World.Executes (benchNode repeatedValues) siteRack benchJansson [⟨benchHost, 0⟩] changedToEnd
        changedEvents.length y ∧
      y.Commits ∧
      y.Uses (World.stateAt (benchNode repeatedValues) siteRack benchJansson [⟨benchHost, 0⟩] changedToEnd
        changedToEnd.length).server removalToken ∧
      x.Succeeded siteRack ∧ ¬y.Succeeded siteRack := by
  obtain ⟨hfirst, hsecond, hfinds, hadmits, hload, hne⟩ := changed_run
  obtain ⟨x, hx, hsucceeds⟩ := List.any_eq_true.mp hfirst
  obtain ⟨y, hy, hcommits⟩ := List.any_eq_true.mp hsecond
  rw [Bool.and_eq_true, beq_iff_eq] at hcommits
  obtain ⟨hmethod, hsucceeded⟩ := succeeded_of_commitSucceeds hsucceeds
  have hexecutes : World.Executes (benchNode repeatedValues) siteRack benchJansson [⟨benchHost, 0⟩] changedToEnd
      removalEvents.length x := by
    unfold changedToEnd changedEvents repeatedEvents
    rw [List.append_assoc, List.append_assoc, List.cons_append]
    exact executes_benchNext hx _
  have hexecutes' := executes_benchNext hy []
  have huses := uses_of_admitsOnly hexecutes' hcommits.1 hadmits
  refine ⟨x, y, hexecutes, hexecutes', hcommits, huses, hsucceeded, fun hsucceeded' => hne ?_⟩
  refine token_used_once (benchNode repeatedValues) siteRack benchJansson [⟨benchHost, 0⟩] changedToEnd
    (randomId_benchNode_injective _) (fun id b _ _ _ hb => ?_)
    (fun k₁ k₂ x₁ x₂ _ hlt h₁ h₂ hsucceeded₁ hc₁ hc₂ _ _ => ?_)
    removalToken changedEvents.length removalEvents.length y x hexecutes' hexecutes hsucceeded' hsucceeded huses
    (uses_of_admitsOnly hexecutes hmethod hadmits)
  · exact absurd (hload.symm.trans (List.any_eq_true.mpr ⟨_, hb, rfl⟩)) (by decide)
  · have hfive : ∀ {k x}, World.Executes (benchNode repeatedValues) siteRack benchJansson [⟨benchHost, 0⟩]
        changedToEnd k x → x.Commits → x.exchange = 5 ∨ siteRack.computePatchFingerprint x.site.host.rack.patch ≠
          some (jstr x.cmd.payload "expectedFingerprint") := by
      intro k x hexecutes hcommits
      have h := List.all_eq_true.mp hfinds x (World.executed_at_end hexecutes)
      simpa [hcommits.1, Executed.findsChange] using h
    -- the first of two commits succeeded, so it is the first execution, and the second is not
    rcases hfive h₂ hc₂ with heq₂ | hne₂
    · rcases hfive h₁ hc₁ with heq₁ | hne₁
      · have := World.executes_once h₁ h₂ (heq₁.trans heq₂.symm)
        omega
      · exact absurd (fingerprint_of_commitGate (hsucceeded₁.appliesPlan hc₁.1).2) hne₁
    · exact hne₂

def repeatedToEnd : List WorldEvent := repeatedEvents ++ [.execute 10 ⟨8, 9⟩ benchReadings]

theorem repeated_run :
    (benchNext repeatedValues removalEvents (.execute 5 ⟨8, 9⟩ benchReadings)).any
        (Executed.commitSucceeds siteRack) = true ∧
      (benchNext repeatedValues repeatedEvents (.execute 10 ⟨8, 9⟩ benchReadings)).any
        (Executed.commitSucceeds siteRack) = true ∧
      (World.stateAt (benchNode repeatedValues) siteRack benchJansson [⟨benchHost, 0⟩]
        repeatedToEnd repeatedToEnd.length).server.admitsOnly removalToken = true ∧
      repeatedEvents.length ≠ removalEvents.length := by
  decide +kernel

/-- A token leads to a second commit once the first is undone and its plan previewed again. -/
theorem token_commits_twice :
    ¬ ∀ (N : Node) (rack : Rack) (J : Jansson) (sites : List Site) (es : List WorldEvent) (token : String)
      (k₁ k₂ : ℕ) (x₁ x₂ : Executed), World.Executes N rack J sites es k₁ x₁ → World.Executes N rack J sites es k₂ x₂ →
      x₁.Succeeded rack → x₂.Succeeded rack →
      x₁.Uses (World.stateAt N rack J sites es es.length).server token →
      x₂.Uses (World.stateAt N rack J sites es es.length).server token → k₁ = k₂ := by
  intro hall
  obtain ⟨hfirst, hsecond, hadmits, hne⟩ := repeated_run
  obtain ⟨x₁, hx₁, hsucceeds₁⟩ := List.any_eq_true.mp hfirst
  obtain ⟨x₂, hx₂, hsucceeds₂⟩ := List.any_eq_true.mp hsecond
  obtain ⟨hmethod₁, hsucceeded₁⟩ := succeeded_of_commitSucceeds hsucceeds₁
  obtain ⟨hmethod₂, hsucceeded₂⟩ := succeeded_of_commitSucceeds hsucceeds₂
  have hexecutes₁ : World.Executes (benchNode repeatedValues) siteRack benchJansson [⟨benchHost, 0⟩] repeatedToEnd
      removalEvents.length x₁ := by
    unfold repeatedToEnd repeatedEvents
    rw [List.append_assoc, List.cons_append]
    exact executes_benchNext hx₁ _
  have hexecutes₂ : World.Executes (benchNode repeatedValues) siteRack benchJansson [⟨benchHost, 0⟩] repeatedToEnd
      repeatedEvents.length x₂ := executes_benchNext hx₂ []
  exact hne (hall _ _ _ _ _ removalToken _ _ x₂ x₁ hexecutes₂ hexecutes₁ hsucceeded₂ hsucceeded₁
    (uses_of_admitsOnly hexecutes₂ hmethod₂ hadmits) (uses_of_admitsOnly hexecutes₁ hmethod₁ hadmits))

end RackMcp.Server
