import RackMcp.Proof.ConfirmedCommits

/-!
# Plans and replaced patches

A commit request carries the epoch its preview reported in its scope only, and the gate of the plugin reads no scope:
it compares fingerprints. So a plan is applied to a replaced patch exactly when the replacement has the fingerprint
the plan was previewed against.
-/

namespace RackMcp.Server

open Gen

variable {N : Node} {rack : Rack} {J : Jansson} {s s' : Shared}

/-! ### Commits that apply their plan -/

/-- The handler of a commit ran. -/
def Executed.Commits (x : Executed) : Prop := x.cmd.method = "txn.commit" ∧ x.execution.handlerRan = true

/-- A commit got through the gate, and its plan was applied to the live patch. -/
def Executed.AppliesPlan (rack : Rack) (x : Executed) : Prop :=
  x.Commits ∧ commitGate rack x.cmd.payload x.site.host.rack = none

/-- The epoch in the scope of a payload. -/
def scopeEpoch (payload : Json) : Int := jint (Json.get payload "scope") "patchEpoch"

/-- The preview answer that produced the plan of a commit request. -/
def ProducedBy (s : Shared) (e : Exchange) (r : Request) (answer : Json) : Prop :=
  ∃ args selected plan checkedAt tokenAt cachedAt,
    .admitted e.caller args plan checkedAt tokenAt ∈ s.trail ∧ r.payload = commitRequest args selected plan ∧
      PlanOf s args.planHash plan answer cachedAt

theorem commit_producedBy (hreach : Reachable N s) {e : Exchange} (he : e ∈ s.exchanges) {r : Request}
    (hcall : e.call = .request r) (hmethod : r.method = "txn.commit") : ∃ answer, ProducedBy s e r answer := by
  obtain ⟨args, selected, plan, checkedAt, tokenAt, hadmitted, -, -, hpayload, -⟩ :=
    commit_admitted hreach he hcall hmethod
  obtain ⟨answer, cachedAt, hfrom⟩ := admittedFrom hreach hadmitted
  exact ⟨answer, args, selected, plan, checkedAt, tokenAt, cachedAt, hadmitted, hpayload, hfrom.planOf⟩

/-- The scope of a commit has the epoch the preview reported. -/
theorem ProducedBy.scopeEpoch {e : Exchange} {r : Request} {answer : Json} (h : ProducedBy s e r answer) :
    scopeEpoch r.payload = jint answer "patchEpoch" := by
  obtain ⟨args, selected, plan, checkedAt, tokenAt, cachedAt, -, hpayload, hplan⟩ := h
  obtain ⟨operations, hcached⟩ := hplan.plan
  rw [hpayload, show Server.scopeEpoch (commitRequest args selected plan) = plan.patchEpoch from rfl, hcached]
  rfl

/-- What gets through the gate has the fingerprint it expects. -/
theorem fingerprint_of_commitGate {request : Json} {rs : RackState} (h : commitGate rack request rs = none) :
    rack.computePatchFingerprint rs.patch = some (jstr request "expectedFingerprint") := by
  unfold commitGate at h
  dsimp only at h
  split at h
  · cases h
  split at h
  · cases h
  split at h
  · cases h
  split at h
  · cases h
  split at h
  · cases h
  next current hcurrent =>
  split at h
  · cases h
  next hsame =>
  rw [hcurrent, not_ne_iff.mp hsame]

/-! ### Runs -/

/-- A commit that finds the fingerprint it expects finds the epoch its preview reported. -/
def Executed.StillPreviewed (rack : Rack) (x : Executed) : Prop :=
  rack.computePatchFingerprint x.site.host.rack.patch = some (jstr x.cmd.payload "expectedFingerprint") →
    x.site.host.rack.patchEpoch = scopeEpoch x.cmd.payload

/-- The plan of the execution was applied at the epoch that its preview reported. -/
def AppliedAtPreviewedEpoch (s : Shared) (x : Executed) : Prop :=
  ∃ e r answer, s.exchanges[x.exchange]? = some e ∧ e.call = .request r ∧ x.cmd = commandOf r ∧
    ProducedBy s e r answer ∧ x.site.host.rack.patchEpoch = jint answer "patchEpoch"

/-- In a run in which every commit that finds the fingerprint it expects finds the epoch its preview reported, every
plan is applied at the epoch its preview reported. -/
theorem applied_at_previewed_epoch (N : Node) (rack : Rack) (J : Jansson) (sites : List Site)
    (es : List WorldEvent)
    (hstill : ∀ k x, World.Executes N rack J sites es k x → x.Commits → x.StillPreviewed rack) :
    ∀ k x, World.Executes N rack J sites es k x → x.AppliesPlan rack →
      AppliedAtPreviewedEpoch (World.stateAt N rack J sites es k).server x := by
  intro k x hexecutes happlies
  have hstill := hstill k x hexecutes happlies.1
  have hreach := World.reachable_stateAt (N := N) rack J sites es k
  obtain ⟨e, r, he, hcall, -, -, hcmd, -⟩ := (World.runs_of_executes hexecutes).1.request
  have hmethod : r.method = "txn.commit" := by
    rw [← happlies.1.1, hcmd]
    rfl
  obtain ⟨answer, hproduced⟩ := commit_producedBy hreach (List.mem_of_getElem? he) hcall hmethod
  refine ⟨e, r, answer, he, hcall, hcmd, hproduced, ?_⟩
  rw [hstill (fingerprint_of_commitGate happlies.2), hcmd, ← hproduced.scopeEpoch]
  rfl

/-! ### A reload on the bench -/

/-- The execution applies its plan, and at the epoch of its scope. -/
def Executed.applies (rack : Rack) (x : Executed) : Bool :=
  x.cmd.method == "txn.commit" && x.execution.handlerRan && (commitGate rack x.cmd.payload x.site.host.rack).isNone

def Executed.atScopeEpoch (x : Executed) : Bool := x.site.host.rack.patchEpoch == scopeEpoch x.cmd.payload

theorem appliesPlan_of_applies {x : Executed} (h : x.applies rack = true) : x.AppliesPlan rack := by
  unfold Executed.applies at h
  rw [Bool.and_eq_true, Bool.and_eq_true, beq_iff_eq, Option.isNone_iff_eq_none] at h
  exact ⟨h.1, h.2⟩

/-- The removal is previewed and its commit requested and executed. -/
def committedEvents : List WorldEvent := removalEvents ++ [.execute 5 ⟨8, 9⟩ benchReadings]

/-- The executions of a bench run whose server reads these values. -/
def benchExecuted (values : List Json) (es : List WorldEvent) : List Executed :=
  (World.stateAt (benchNode values) siteRack benchJansson [⟨benchHost, 0⟩] es es.length).executed

/-- The execution that the event after some others makes. -/
def benchNext (values : List Json) (es : List WorldEvent) (e : WorldEvent) : List Executed :=
  (World.step (benchNode values) siteRack benchJansson
    (World.stateAt (benchNode values) siteRack benchJansson [⟨benchHost, 0⟩] es es.length) e).2

theorem executes_benchNext {values : List Json} {es : List WorldEvent} {e : WorldEvent} {x : Executed}
    (hx : x ∈ benchNext values es e) (rest : List WorldEvent) :
    World.Executes (benchNode values) siteRack benchJansson [⟨benchHost, 0⟩] (es ++ e :: rest) es.length x := by
  refine ⟨e, by rw [List.getElem?_append_right (Nat.le_refl _), Nat.sub_self]; rfl, ?_⟩
  rw [Trace.stateAt_append]
  exact hx

theorem committed_run : (benchExecuted removalValues committedEvents).all Executed.atScopeEpoch = true ∧
    (benchNext removalValues removalEvents (.execute 5 ⟨8, 9⟩ benchReadings)).any (Executed.applies siteRack) = true := by
  decide +kernel

/-- The bench commit is applied at the epoch its preview reported. -/
theorem removal_applied_at_previewed_epoch :
    ∃ x, x.AppliesPlan siteRack ∧ AppliedAtPreviewedEpoch (World.stateAt (benchNode removalValues) siteRack
      benchJansson [⟨benchHost, 0⟩] committedEvents removalEvents.length).server x := by
  obtain ⟨x, hx, happlies⟩ := List.any_eq_true.mp committed_run.2
  refine ⟨x, appliesPlan_of_applies happlies, ?_⟩
  refine applied_at_previewed_epoch (benchNode removalValues) siteRack benchJansson [⟨benchHost, 0⟩]
    committedEvents (fun k x' hexecutes _ _ => ?_) removalEvents.length x (executes_benchNext hx [])
    (appliesPlan_of_applies happlies)
  exact eq_of_beq (List.all_eq_true.mp committed_run.1 x' (World.executed_at_end hexecutes))

/-- A rack whose patch manager reads the bench patch. -/
def benchReload : RackReadings := { benchReadings with replacement := { patch := benchPatch } }

/-- The file of the patch is loaded again after the removal was previewed. -/
def reloadedEvents : List WorldEvent :=
  removalEvents ++ [.host 0 (.execute ⟨8, 9⟩ benchReload (benchFileCommand "patchfile.load" "/song.vcv"))]

theorem reloaded_run : (benchNext removalValues reloadedEvents (.execute 5 ⟨8, 9⟩ benchReadings)).any
    (fun x => x.applies siteRack && !x.atScopeEpoch) = true := by
  decide +kernel

/-- A plan that was previewed before the patch was loaded again is applied after it. -/
theorem plan_outlives_reload :
    ¬ ∀ (N : Node) (rack : Rack) (J : Jansson) (sites : List Site) (es : List WorldEvent) (k : ℕ) (x : Executed),
      World.Executes N rack J sites es k x → x.AppliesPlan rack →
        AppliedAtPreviewedEpoch (World.stateAt N rack J sites es k).server x := by
  intro hall
  obtain ⟨x, hx, hlate⟩ := List.any_eq_true.mp reloaded_run
  rw [Bool.and_eq_true] at hlate
  obtain ⟨e, r, answer, -, -, hcmd, hproduced, hepoch⟩ :=
    hall _ _ _ _ _ _ x (executes_benchNext hx []) (appliesPlan_of_applies hlate.1)
  have hscope : x.atScopeEpoch = true := by
    unfold Executed.atScopeEpoch
    rw [hepoch, ← hproduced.scopeEpoch, hcmd]
    exact beq_self_eq_true _
  rw [hscope] at hlate
  exact absurd hlate.2 (by decide)

end RackMcp.Server
