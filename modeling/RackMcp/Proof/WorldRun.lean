import RackMcp.Proof.ToolConduct

/-!
# Runs of the world

Every state a run reaches is one the server `Grows` to, with tool calls that keep the discipline: so every exchange
was sanctioned when it was made (`origin`), every mark of the trail was made with what its step asks for, and every
execution is of a request that some tool call made.
-/

namespace RackMcp.Server

open Gen Cooperative

variable {N : Node} {rack : Rack} {J : Jansson} {s s' : Shared}

/-! ### Where exchanges come from -/

theorem counts_reaction (h : Reaction N s s') : s'.counts = s.counts := by
  rcases h with _ | ⟨n, reply, -, -⟩ | ⟨n, frame⟩ | ⟨n, host, c, w⟩ | ⟨c, reason⟩ | _
  · rfl
  · exact congrArg (·, s.tools.length) (List.length_modify _ _ _)
  · exact congrArg (·, s.tools.length) (List.length_modify _ _ _)
  · exact congrArg (·, s.tools.length) (List.length_modify _ _ _)
  · exact counts_of_traffic (traffic_teardown c reason s)
  · exact counts_of_traffic (traffic_disconnect s)

/-- A step makes no call, or it is the making of an allowed call. -/
theorem Step.posts (h : Step N s s') : s'.exchanges.length = s.exchanges.length ∨
    ∃ i call, Allowed N i call s ∧ s' = bridgeComm.post i call s := by
  rcases h with hlink | hdecision
  · rcases hlink
    case post i call hallowed => exact .inr ⟨i, call, hallowed, rfl⟩
    case teardown c reason => exact .inl (congrArg Prod.fst (counts_of_traffic (traffic_teardown c reason s)))
    case disconnect => exact .inl (congrArg Prod.fst (counts_of_traffic (traffic_disconnect s)))
    case deselect => exact .inl (congrArg Prod.fst (counts_of_traffic (traffic_disconnect s)))
    case react e => exact .inl (congrArg Prod.fst (counts_reaction (reaction_react s e)))
    case response n frame => exact .inl (List.length_modify _ _ _)
    all_goals exact .inl rfl
  · exact .inl (congrArg List.length hdecision.sameLinks.exchanges)

/-- Every exchange was allowed when it was made. -/
theorem origin (hreach : Reachable N s) {n : ℕ} {e : Exchange} (he : s.exchanges[n]? = some e) :
    ∃ s₀, Reachable N s₀ ∧ s₀.exchanges.length = n ∧ Allowed N e.caller e.call s₀ ∧ e.selected = s₀.selected ∧
      Grows N (bridgeComm.post e.caller e.call s₀) s := by
  induction hreach generalizing e with
  | refl => cases he
  | @tail s s' hreach hstep ih =>
    have hlt := (List.getElem?_eq_some_iff.mp he).1
    rcases Nat.lt_or_ge n s.exchanges.length with hn | hn
    · obtain ⟨e', he', hext⟩ := hstep.persists.exchanges n _ (List.getElem?_eq_getElem hn)
      rw [he] at he'
      obtain rfl := Option.some.inj he'
      obtain ⟨s₀, hreach₀, hlength, hallowed, hselected, hgrows⟩ := ih (List.getElem?_eq_getElem hn)
      rw [hext.caller, hext.call, hext.selected]
      exact ⟨s₀, hreach₀, hlength, hallowed, hselected, hgrows.tail hstep⟩
    · rcases hstep.posts with hlength | ⟨i, call, hallowed, rfl⟩
      · omega
      · obtain rfl : n = s.exchanges.length := by
          have hlength : (bridgeComm.post i call s).exchanges.length = s.exchanges.length + 1 := List.length_append
          omega
        have hposted : (bridgeComm.post i call s).exchanges[s.exchanges.length]? =
            some { caller := i, call, selected := s.selected } := List.getElem?_concat_length ..
        rw [hposted] at he
        obtain rfl := Option.some.inj he
        exact ⟨s, hreach, rfl, hallowed, rfl, .refl⟩

/-- A call was made before the later ones. -/
theorem earlier_of_origin {s₀ : Shared} {n : ℕ} {e e' : Exchange} (hgrows : Grows N (bridgeComm.post e'.caller e'.call s₀) s)
    (hn : n < s₀.exchanges.length) (he : s.exchanges[n]? = some e) : ∃ e₀ ∈ s₀.exchanges, e₀.Extends e := by
  have hposted := List.getElem?_eq_getElem hn
  obtain ⟨e₁, he₁, hext₁⟩ := kept_append s₀.exchanges _ n _ hposted
  obtain ⟨e₂, he₂, hext₂⟩ := hgrows.persists.exchanges n _ he₁
  rw [he] at he₂
  obtain rfl := Option.some.inj he₂
  exact ⟨_, List.getElem_mem hn, hext₁.trans hext₂⟩

/-- What replaces the patch was confirmed. -/
theorem confirmed_of_replace (hreach : Reachable N s) {e : Exchange} (he : e ∈ s.exchanges) {r : Request}
    (hcall : e.call = .request r) (hmethod : r.method = "patchfile.load" ∨ r.method = "patchfile.clear") :
    ∃ selected kind operationId id binding, Confirmed N s e.caller selected kind operationId id binding := by
  obtain ⟨n, hn⟩ := List.getElem?_of_mem he
  obtain ⟨s₀, -, -, hallowed, -, hgrows⟩ := origin hreach hn
  have hposted : Grows N s₀ (bridgeComm.post e.caller e.call s₀) := .single (.link (.post _ _ _ hallowed))
  have hlater : Grows N s₀ s := hposted.trans hgrows
  have hsanctioned := (hallowed r hcall).2
  rcases hsanctioned
  case load selected kind operationId _ id binding _ hconfirmed _ _ _ _ =>
    exact ⟨selected, kind, operationId, id, binding, hlater.confirmed hconfirmed⟩
  case clear selected operationId id binding _ hconfirmed _ _ _ =>
    exact ⟨selected, .clear, operationId, id, binding, hlater.confirmed hconfirmed⟩
  case reads hreads _ => rcases hmethod with h | h <;> rw [h] at hreads <;> exact absurd (by decide) hreads
  all_goals
    next hother _ _ => rcases hmethod with h | h <;> rw [hother] at h <;> exact absurd h (by decide)

theorem exists_of_requestAt {n : ℕ} {r : Request} (h : s.requestAt n = some r) :
    ∃ e ∈ s.exchanges, e.call = .request r := by
  unfold Shared.requestAt at h
  split at h
  · next he =>
    obtain rfl := Option.some.inj h
    exact ⟨_, List.mem_of_getElem? he, rfl⟩
  · cases h

/-! ### Where marks come from -/

variable (N) in
/-- What holds where a mark is made. -/
inductive Made (s : Shared) : Mark → Prop
  | previewed (answer : Json) (selected : SelectedInstance) (now : Int)
    (h : ∃ i payload, s.Answered i "txn.preview" payload answer ∧
      Json.get payload "scope" = some (scopeFor selected)) :
    Made s (.previewed answer selected.instanceId selected.sessionId now)
  | minted (b : TokenBinding) : Made s (.minted b)
  | admitted (i : ℕ) (args : CommitArgs) (selected : SelectedInstance) (plan : CachedPlan) (checkedAt : Int)
    (tokenAt : Option Int) (h : Admissible N s i args selected plan checkedAt tokenAt) :
    Made s (.admitted i args plan checkedAt tokenAt)
  | loadMinted (binding : LoadBinding) : Made s (.loadMinted (N.randomId s.draws) binding)
  | burned (i : ℕ) (id : String) (binding : LoadBinding) (h : s.loadBindings id = some binding) :
    Made s (.burned i id binding)

/-- A step adds no mark, or one that is made as it should be. -/
theorem Step.marks (h : Step N s s') : s'.trail = s.trail ∨ ∃ mark, s'.trail = s.trail ++ [mark] ∧ Made N s mark := by
  rcases h with hlink | hdecision
  · exact .inl hlink.sameConfirmations.trail
  · rcases hdecision
    case cache answer operations selected now h => exact .inr ⟨_, rfl, .previewed answer selected now h⟩
    case mint b => exact .inr ⟨_, rfl, .minted b⟩
    case admitted i args selected plan checkedAt tokenAt h =>
      exact .inr ⟨_, rfl, .admitted i args selected plan checkedAt tokenAt h⟩
    case mintLoad now binding => exact .inr ⟨_, rfl, .loadMinted binding⟩
    case burn i id binding h => exact .inr ⟨_, rfl, .burned i id binding h⟩
    all_goals exact .inl rfl

/-- Every mark was made in a state before. -/
theorem mark_made (hreach : Reachable N s) {mark : Mark} (h : mark ∈ s.trail) :
    ∃ s₀, Reachable N s₀ ∧ Made N s₀ mark ∧ Grows N s₀ s := by
  induction hreach with
  | refl => cases h
  | @tail s s' hreach hstep ih =>
    rcases hstep.marks with hsame | ⟨mark', hmark, hmade⟩
    · rw [hsame] at h
      obtain ⟨s₀, hreach₀, hmade, hgrows⟩ := ih h
      exact ⟨s₀, hreach₀, hmade, hgrows.tail hstep⟩
    · rw [hmark] at h
      rcases List.mem_append.mp h with h | h
      · obtain ⟨s₀, hreach₀, hmade, hgrows⟩ := ih h
        exact ⟨s₀, hreach₀, hmade, hgrows.tail hstep⟩
      · rw [List.mem_singleton.mp h]
        exact ⟨s, hreach, hmade, .single hstep⟩

/-! ### What every world keeps -/

variable (N) in
/-- The tool calls keep the discipline, the server is one that can be reached, and every exchange is of a tool call. -/
structure World.Sound (w : World) : Prop where
  pool : PoolSafe (conduct N) w.tasks w.server
  reachable : Reachable N w.server
  tools : w.server.tools.length = w.tasks.length
  callers : ∀ e ∈ w.server.exchanges, e.caller < w.server.tools.length

/-- A tool call that goes on makes calls in its own name, and calls no tool. -/
theorem callers_of_step {i : ℕ} (hi : i < s.tools.length) (hcallers : ∀ e ∈ s.exchanges, e.caller < s.tools.length)
    (h : (conduct N).Step i s s') :
    s'.tools.length = s.tools.length ∧ ∀ e ∈ s'.exchanges, e.caller < s'.tools.length := by
  obtain ⟨-, hgrows, -, huntouched⟩ := h
  have hprefix : s.tools.length ≤ s'.tools.length := hgrows.persists.tools.length_le
  have hle : s'.tools.length ≤ s.tools.length :=
    (huntouched s.tools.length (by omega)).unstarted (Nat.le_refl _)
  refine ⟨by omega, fun e he => ?_⟩
  by_cases hcaller : e.caller = i
  · omega
  · obtain ⟨n, hn⟩ := List.getElem?_of_mem he
    have huntouched := huntouched e.caller hcaller
    have hlt := huntouched.quiet n e hn rfl
    obtain ⟨e', he', hext⟩ := huntouched.kept n _ (List.getElem?_eq_getElem hlt)
    rw [hn] at he'
    obtain rfl := Option.some.inj he'
    have hbefore := hcallers _ (List.getElem_mem hlt)
    rw [← hext.caller] at hbefore
    omega

theorem callers_of_counts (hcounts : s'.counts = s.counts) (hkept : Kept s.exchanges s'.exchanges)
    (hcallers : ∀ e ∈ s.exchanges, e.caller < s.tools.length) :
    ∀ e ∈ s'.exchanges, e.caller < s'.tools.length := by
  obtain ⟨hexchanges, htools⟩ := Prod.mk.injEq .. ▸ hcounts
  intro e he
  obtain ⟨n, hn⟩ := List.getElem?_of_mem he
  have hlt : n < s.exchanges.length := hexchanges ▸ (List.getElem?_eq_some_iff.mp hn).1
  obtain ⟨e', he', hext⟩ := hkept n _ (List.getElem?_eq_getElem hlt)
  rw [hn] at he'
  obtain rfl := Option.some.inj he'
  rw [htools, hext.caller]
  exact hcallers _ (List.getElem_mem hlt)

namespace World

variable {w : World}

/-- Something happens to the server that is no step of a tool call. -/
theorem Sound.env (h : w.Sound N) (hstep : Step N w.server s') (hcounts : s'.counts = w.server.counts) :
    PoolSafe (conduct N) w.tasks s' ∧ Reachable N s' ∧ s'.tools.length = w.tasks.length ∧
      ∀ e ∈ s'.exchanges, e.caller < s'.tools.length := by
  have hkept := hstep.persists.exchanges
  refine ⟨h.pool.env trivial hstep.grows fun i _ => untouched_of_counts hkept hcounts, h.reachable.tail hstep, ?_,
    callers_of_counts hcounts hkept h.callers⟩
  rw [← h.tools]
  exact congrArg Prod.snd hcounts

theorem counts_setResponse (n : ℕ) (frame : String) (s : Shared) : (s.setResponse n frame).counts = s.counts :=
  congrArg (·, s.tools.length) (List.length_modify _ _ _)

theorem sound_call (h : w.Sound N) (tool : ToolCall) :
    (w.step N rack J (.call tool)).1.Sound N ∧
      Grows N { w.server with tools := w.server.tools ++ [tool] } (w.step N rack J (.call tool)).1.server ∧
      Unanswered w.server (w.step N rack J (.call tool)).1.server := by
  have hcalled : Step N w.server { w.server with tools := w.server.tools ++ [tool] } :=
    .decision (.tool w.server tool)
  have hlength : (w.server.tools ++ [tool]).length = w.tasks.length + 1 := by
    rw [List.length_append, h.tools, List.length_singleton]
  have hpool : PoolSafe (conduct N) w.tasks { w.server with tools := w.server.tools ++ [tool] } := by
    refine h.pool.env trivial hcalled.grows fun i hi => ⟨.refl _, fun _ _ he _ =>
      (List.getElem?_eq_some_iff.mp he).1, fun hle => ?_⟩
    rw [h.tools] at hle
    omega
  have hcallers : ∀ e ∈ w.server.exchanges, e.caller < w.tasks.length := h.tools ▸ h.callers
  have hsafe := @safe_callTool N w.tasks.length
    { w.server with tools := w.server.tools ++ [tool] } tool (h.reachable.tail hcalled)
    (fun e he hcaller => absurd (hcallers e he) (by omega))
    (by rw [← h.tools]; exact List.getElem?_concat_length ..)
  obtain ⟨hstep, hpool⟩ := hpool.start hsafe
  have hframe := callers_of_step (by rw [hlength]; omega)
    (fun e he => by rw [hlength]; exact Nat.lt_succ_of_lt (hcallers e he)) hstep
  refine ⟨⟨hpool, (h.reachable.tail hcalled).trans hstep.2.1, ?_, hframe.2⟩, hstep.2.1, hstep.2.2.1⟩
  refine hframe.1.trans (hlength.trans ?_)
  show w.tasks.length + 1 = (w.tasks ++ [_]).length
  rw [List.length_append, List.length_singleton]

theorem sound_resume (h : w.Sound N) (i : ℕ) :
    (w.step N rack J (.resume i)).1.Sound N ∧ Grows N w.server (w.step N rack J (.resume i)).1.server ∧
      Unanswered w.server (w.step N rack J (.resume i)).1.server := by
  unfold step
  dsimp only
  split
  · exact ⟨h, .refl, fun _ _ hframe => hframe⟩
  · next task htask =>
    obtain ⟨hstep, hpool⟩ := h.pool.resume htask
    have hi := (List.getElem?_eq_some_iff.mp htask).1
    have hframe := callers_of_step (h.tools ▸ hi) h.callers hstep
    refine ⟨⟨hpool, h.reachable.trans hstep.2.1, ?_, hframe.2⟩, hstep.2.1, hstep.2.2.1⟩
    exact hframe.1.trans (h.tools.trans (List.length_set ..).symm)

/-- Every step keeps the world sound, and the server only grows. -/
theorem sound_step (h : w.Sound N) (e : WorldEvent) :
    (w.step N rack J e).1.Sound N ∧ Grows N w.server (w.step N rack J e).1.server := by
  rcases e with tool | i | e | ⟨n, t, r⟩ | ⟨k, e⟩
  · obtain ⟨hsound, hgrows, -⟩ := sound_call h tool
    exact ⟨hsound, .head (.decision (.tool w.server tool)) hgrows⟩
  · obtain ⟨hsound, hgrows, -⟩ := sound_resume h i
    exact ⟨hsound, hgrows⟩
  · have hstep : Step N w.server (w.server.react N e) := .link (.react w.server e)
    obtain ⟨hpool, hreach, htools, hcallers⟩ := h.env hstep (counts_reaction (reaction_react _ e))
    exact ⟨⟨hpool, hreach, htools, hcallers⟩, hstep.grows⟩
  · unfold step
    dsimp only
    split
    · exact ⟨h, .refl⟩
    · next x _ =>
      have hstep : Step N w.server (w.server.setResponse x.exchange
          (sentFrame J limitBridgeFrameBytes x.cmd x.execution)) := .link (.response ..)
      obtain ⟨hpool, hreach, htools, hcallers⟩ := h.env hstep (counts_setResponse _ _ _)
      exact ⟨⟨hpool, hreach, htools, hcallers⟩, hstep.grows⟩
  · exact ⟨⟨h.pool, h.reachable, h.tools, h.callers⟩, .refl⟩

/-- The tools stay, or another one is called. -/
theorem tools_step (h : w.Sound N) (e : WorldEvent) :
    (w.step N rack J e).1.server.tools = w.server.tools ∨
      ∃ tool, e = .call tool ∧ (w.step N rack J e).1.server.tools = w.server.tools ++ [tool] := by
  obtain ⟨hsound, hgrows⟩ := @sound_step N rack J _ h e
  have htools := hsound.tools
  rcases e with tool | i | e | ⟨n, t, r⟩ | ⟨k, e⟩
  · refine .inr ⟨tool, rfl, ?_⟩
    have hlater : (w.server.tools ++ [tool]) <+: (w.step N rack J (.call tool)).1.server.tools :=
      (sound_call h tool).2.1.persists.tools
    refine (hlater.eq_of_length ?_).symm
    rw [htools, List.length_append, List.length_singleton, h.tools]
    exact (@List.length_append _ w.tasks [_]).symm
  all_goals
    refine .inl (hgrows.persists.tools.eq_of_length ?_).symm
    rw [htools, h.tools]
  · unfold step
    dsimp only
    split
    · rfl
    · exact (List.length_set ..).symm
  · rfl
  · unfold step
    dsimp only
    split <;> rfl
  · rfl

theorem sound_start (sites : List Site) : (start sites).Sound N :=
  ⟨.nil trivial, .refl, rfl, fun _ he => by cases he⟩

section run
variable (rack J) (sites : List Site) (es : List WorldEvent)

/-- Every world of a run is sound. -/
theorem sound_stateAt (k : ℕ) : (stateAt N rack J sites es k).Sound N :=
  Trace.invariant (sound_start sites) (fun _ e hw => (sound_step hw e).1) k

/-- Every server of a run is one that can be reached. -/
theorem reachable_stateAt (k : ℕ) : Reachable N (stateAt N rack J sites es k).server :=
  (sound_stateAt rack J sites es k).reachable

/-- The server of a run only grows. -/
theorem grows_stateAt {j k : ℕ} (hjk : j ≤ k) :
    Grows N (stateAt N rack J sites es j).server (stateAt N rack J sites es k).server := by
  refine Trace.stable (P := fun w : World => Grows N (stateAt N rack J sites es j).server w.server) hjk .refl
    fun i e _ _ ih => ih.trans ?_
  exact (sound_step (sound_stateAt rack J sites es i) e).2

/-- A tool of a run was called on an event before. -/
theorem called_before {k i : ℕ} {tool : ToolCall} (h : (stateAt N rack J sites es k).server.tools[i]? = some tool) :
    ∃ j < k, es[j]? = some (.call tool) ∧
      Grows N (stateAt N rack J sites es j).server (stateAt N rack J sites es k).server := by
  obtain ⟨j, e, hj, he, hnot, hnow⟩ := Trace.exists_change
    (P := fun w : World => w.server.tools[i]? = some tool) (fun h => by cases h) h
  refine ⟨j, hj, ?_, grows_stateAt rack J sites es hj.le⟩
  have hsound := sound_stateAt rack J sites es (N := N) j
  have hnow : (step N rack J (stateAt N rack J sites es j) e).1.server.tools[i]? = some tool := hnow
  rcases tools_step hsound e with hsame | ⟨tool', rfl, htools⟩
  · rw [hsame] at hnow
    exact absurd hnow hnot
  · have hnot : ¬ (stateAt N rack J sites es j).server.tools[i]? = some tool := hnot
    rw [htools] at hnow
    rcases Nat.lt_or_ge i (stateAt N rack J sites es j).server.tools.length with hi | hi
    · rw [List.getElem?_append_left hi] at hnow
      exact absurd hnow hnot
    · rw [List.getElem?_append_right hi] at hnow
      have hmem := List.mem_singleton.mp (List.mem_of_getElem? hnow)
      rw [he, hmem]

end run

/-! ### What was executed -/

/-- The execution is of a request that had no answer yet, on the Rack its client is connected to. -/
structure Runs (rack : Rack) (J : Jansson) (w : World) (x : Executed) : Prop where
  request : ∃ e r, w.server.exchanges[x.exchange]? = some e ∧ e.call = .request r ∧ e.response = none ∧
    r.method ∉ leaseMethods ∧ x.cmd = commandOf r ∧ w.hostOf r.conn = some (x.host, x.site)
  site : w.sites[x.host]? = some x.site
  executed : ∃ t, x.site.host.execute rack J t x.readings x.cmd = (x.execution, x.left)

theorem runs_of_execution {n : ℕ} {t : ExecutionReadings} {r : RackReadings} {x : Executed}
    (h : w.execution rack J n t r = some x) : Runs rack J w x := by
  unfold execution at h
  split at h
  · cases h
  next request hrequest =>
  split at h
  · cases h
  next hmethod =>
  obtain ⟨⟨k, site⟩, hhost, rfl⟩ := Option.map_eq_some_iff.mp h
  refine ⟨?_, ?_, t, rfl⟩
  · unfold Shared.unanswered at hrequest
    split at hrequest
    · next he =>
      obtain rfl := Option.some.inj hrequest
      exact ⟨_, _, he, rfl, rfl, hmethod, rfl, hhost⟩
    · cases hrequest
  · unfold hostOf at hhost
    split at hhost
    · obtain ⟨site', hsite, hpair⟩ := Option.map_eq_some_iff.mp hhost
      obtain ⟨rfl, rfl⟩ := Prod.mk.inj hpair
      exact hsite
    · cases hhost

section run
variable {sites : List Site} {es : List WorldEvent}

/-- An execution of a run, and the world it leaves. -/
theorem runs_of_executes {k : ℕ} {x : Executed} (h : Executes N rack J sites es k x) :
    Runs rack J (stateAt N rack J sites es k) x ∧
      stateAt N rack J sites es (k + 1) = (stateAt N rack J sites es k).carryOut J x := by
  obtain ⟨e, he, hx⟩ := h
  have hsucc : stateAt N rack J sites es (k + 1) = (step N rack J (stateAt N rack J sites es k) e).1 :=
    Trace.stateAt_succ he
  have hx : x ∈ (step N rack J (stateAt N rack J sites es k) e).2 := hx
  rcases e with tool | i | e | ⟨n, t, r⟩ | ⟨k', e⟩
  · cases hx
  · unfold step at hx
    dsimp only at hx
    split at hx <;> cases hx
  · cases hx
  · unfold step at hx hsucc
    dsimp only at hx hsucc
    rcases hexecution : (stateAt N rack J sites es k).execution rack J n t r with _ | x'
    · rw [hexecution] at hx
      cases hx
    · rw [hexecution] at hx hsucc
      obtain rfl := List.mem_singleton.mp hx
      exact ⟨runs_of_execution hexecution, hsucc⟩
  · cases hx

/-- A request is executed at most once. -/
theorem executes_once {k₁ k₂ : ℕ} {x₁ x₂ : Executed} (h₁ : Executes N rack J sites es k₁ x₁)
    (h₂ : Executes N rack J sites es k₂ x₂) (hsame : x₁.exchange = x₂.exchange) : k₁ = k₂ := by
  wlog hlt : k₁ < k₂ generalizing k₁ k₂ x₁ x₂
  · rcases Nat.lt_trichotomy k₁ k₂ with h | h | h
    · exact this h₁ h₂ hsame h
    · exact h
    · exact (this h₂ h₁ hsame.symm h).symm
  obtain ⟨⟨e₁, r₁, he₁, -⟩, -, -⟩ := (runs_of_executes h₁).1
  obtain ⟨⟨e₂, r₂, he₂, -, hunanswered, -⟩, -, -⟩ := (runs_of_executes h₂).1
  have hanswered : (stateAt N rack J sites es (k₁ + 1)).server.exchanges[x₁.exchange]? =
      some { e₁ with response := some (e₁.response.getD (sentFrame J limitBridgeFrameBytes x₁.cmd x₁.execution)) } := by
    rw [(runs_of_executes h₁).2]
    show ((stateAt N rack J sites es k₁).server.exchanges.modify _ _)[_]? = _
    rw [List.getElem?_modify, he₁]
    exact congrArg some (if_pos rfl)
  obtain ⟨e', he', hext⟩ := (grows_stateAt (N := N) rack J sites es hlt).persists.exchanges _ _ hanswered
  rw [hsame, he₂] at he'
  obtain rfl := Option.some.inj he'
  rw [hext.response _ rfl] at hunanswered
  cases hunanswered

/-- What was executed stays on the record. -/
theorem executed_of_executes {k j : ℕ} {x : Executed} (h : Executes N rack J sites es k x) (hkj : k < j) :
    x ∈ (stateAt N rack J sites es j).executed := by
  refine Trace.stable (P := fun w : World => x ∈ w.executed) hkj ?_ fun i e _ _ hx => ?_
  · show x ∈ (stateAt N rack J sites es (k + 1)).executed
    rw [(runs_of_executes h).2]
    exact List.mem_append_right _ (List.mem_singleton_self _)
  · unfold step
    rcases e with tool | i | e | ⟨n, t, r⟩ | ⟨k', e⟩
    · exact hx
    · dsimp only
      split <;> exact hx
    · exact hx
    · dsimp only
      split
      · exact hx
      · exact List.mem_append_left _ hx
    · exact hx

/-- The request of an execution is still there at the end. -/
theorem exchange_of_executes {k : ℕ} {x : Executed} (h : Executes N rack J sites es k x) :
    ∃ e r, (stateAt N rack J sites es es.length).server.exchanges[x.exchange]? = some e ∧ e.call = .request r ∧
      x.cmd = commandOf r := by
  obtain ⟨⟨e, r, he, hcall, -, -, hcmd, -⟩, -, -⟩ := (runs_of_executes h).1
  obtain ⟨event, hevent, -⟩ := h
  have hk : k ≤ es.length := (List.getElem?_eq_some_iff.mp hevent).1.le
  obtain ⟨e', he', hext⟩ := (grows_stateAt (N := N) rack J sites es hk).persists.exchanges _ _ he
  exact ⟨e', r, he', hext.call.trans hcall, hcmd⟩

/-- Every execution of a run is on its final record. -/
theorem executed_at_end {k : ℕ} {x : Executed} (h : Executes N rack J sites es k x) :
    x ∈ (stateAt N rack J sites es es.length).executed := by
  obtain ⟨e, he, -⟩ := id h
  exact executed_of_executes h (List.getElem?_eq_some_iff.mp he).1

end run

end World

end RackMcp.Server
