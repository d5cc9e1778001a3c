import RackMcp.Proof.ConfirmedCommits
import RackMcp.Proof.Lockstep
import RackMcp.Proof.RateLimit
import RackMcp.Rackside.Transaction

/-!
# How many parameters commits write

`namedParams` counts the parameter values an operation names, and `applyOne_paramWrites` says that an operation
that finishes writes exactly these: one history action for each. The server charges a commit with its
`set_parameter` operations, so what an `add_module` writes through `initialParams` is not charged
(`writes_le_charged`). `paramRate_holds` is the documented rate over every run of commits that name no initial
parameters.
-/

namespace RackMcp

open Gen Outcomes

/-! ### What the applier writes -/

/-- The action is the write of one parameter. -/
def Action.writesParam : Action → Bool
  | .paramChange _ _ _ _ => true
  | _ => false

namespace Applier

variable {rack : Rack} {s s' : Applier} {op : Json}

/-- The parameter writes so far. -/
def paramWrites (s : Applier) : Nat := s.actions.countP Action.writesParam

/-- The parameter values an operation names. -/
def namedParams (op : Json) : Nat :=
  match opType op with
  | .setParameter => 1
  | .addModule => (initialParams op).length
  | _ => 0

theorem paramWrites_push (a : Action) : (s.push a).paramWrites = s.paramWrites + if a.writesParam then 1 else 0 := by
  unfold paramWrites push
  rw [List.countP_append, List.countP_singleton]

theorem paramWrites_record (name summary : String) : (s.record name summary).paramWrites = s.paramWrites := rfl

theorem paramWrites_placePanels (place : Int → Layout.Point → Layout.Point) {extra : List Action}
    (hextra : extra.countP Action.writesParam = 0) : (s.placePanels place extra).paramWrites = s.paramWrites := by
  unfold paramWrites placePanels
  dsimp only
  rw [List.countP_append, List.countP_append, hextra]
  split <;> simp [Action.writesParam]

theorem paramWrites_removeCableById (id : Int) : (s.removeCableById id).paramWrites = s.paramWrites := by
  unfold removeCableById
  split
  · split
    · rw [paramWrites_push]
      rfl
    · rfl
  · rfl

theorem paramWrites_removeCables (ids : List Int) : (s.removeCables ids).paramWrites = s.paramWrites := by
  induction ids generalizing s with
  | nil => rfl
  | cons id ids ih => exact ih.trans (paramWrites_removeCableById id)

theorem setParamValue_paramWrites {moduleId : Int} {paramId : Nat} {spec : Json}
    (h : setParamValue rack moduleId paramId spec s = .done s') : s'.paramWrites = s.paramWrites + 1 := by
  unfold setParamValue at h
  split at h
  · cases h
  · dsimp only at h
    split at h
    · cases h
    · cases h
      exact paramWrites_push _
    · split at h
      · cases h
      all_goals
        cases h
        exact paramWrites_push _

theorem setBypassValue_paramWrites {moduleId : Int} {bypassed : Bool}
    (h : setBypassValue moduleId bypassed s = .done s') : s'.paramWrites = s.paramWrites := by
  unfold setBypassValue at h
  split at h
  · cases h
  · split at h
    · cases h
      rfl
    · cases h
      exact paramWrites_push _

theorem setInitialParam_paramWrites {moduleId : Int} {paramCount : Nat} {mslug : String} {entry : Json × Nat}
    (h : setInitialParam rack moduleId paramCount mslug entry s = .done s') :
    s'.paramWrites = s.paramWrites + 1 := by
  unfold setInitialParam at h
  dsimp only at h
  split at h
  · cases h
  · split at h
    · cases h
    · exact setParamValue_paramWrites h

theorem setInitialParams_paramWrites {moduleId : Int} {paramCount : Nat} {mslug : String}
    {entries : List (Json × Nat)} (h : Runs (setInitialParam rack moduleId paramCount mslug) entries s s') :
    s'.paramWrites = s.paramWrites + entries.length := by
  induction h with
  | nil => rfl
  | cons head tail ih =>
    have hfirst := setInitialParam_paramWrites head
    rw [ih, hfirst, List.length_cons]
    omega

theorem applyAdd_paramWrites (h : applyAdd rack op s = .done s') :
    s'.paramWrites = s.paramWrites + (initialParams op).length := by
  unfold applyAdd at h
  dsimp only at h
  split at h
  · cases h
  split at h
  · cases h
  split at h
  · cases h
  split at h
  · cases h
  unfold finishAdd at h
  split at h
  · cases h
  obtain ⟨placed, hparams, h⟩ := Outcome.bind_eq_done.mp h
  obtain ⟨bypassed, hbypass, h⟩ := Outcome.bind_eq_done.mp h
  have hset := setInitialParams_paramWrites (forEach_done_iff.mp hparams)
  have hbypassed : bypassed.paramWrites = placed.paramWrites := by
    split at hbypass
    · exact setBypassValue_paramWrites hbypass
    · cases hbypass
      rfl
  cases h
  rw [paramWrites_record, hbypassed, hset, List.length_zipIdx]
  exact congrArg (· + _) (paramWrites_placePanels _ rfl)

theorem applySetParam_paramWrites (h : applySetParam rack op s = .done s') :
    s'.paramWrites = s.paramWrites + 1 := by
  obtain ⟨id, -, h⟩ := resolving_eq_done.mp h
  split at h
  · cases h
  split at h
  · cases h
  obtain ⟨t, hset, h⟩ := Outcome.bind_eq_done.mp h
  cases h
  rw [paramWrites_record]
  exact setParamValue_paramWrites hset

theorem applyBypass_paramWrites (h : applyBypass op s = .done s') : s'.paramWrites = s.paramWrites := by
  obtain ⟨id, -, h⟩ := resolving_eq_done.mp h
  obtain ⟨t, hset, h⟩ := Outcome.bind_eq_done.mp h
  cases h
  rw [paramWrites_record]
  exact setBypassValue_paramWrites hset

theorem applyReset_paramWrites (h : applyReset rack op s = .done s') : s'.paramWrites = s.paramWrites := by
  obtain ⟨id, -, h⟩ := resolving_eq_done.mp h
  split at h
  · cases h
  cases h
  exact paramWrites_push _

theorem applyRandomize_paramWrites (h : applyRandomize rack op s = .done s') : s'.paramWrites = s.paramWrites := by
  obtain ⟨id, -, h⟩ := resolving_eq_done.mp h
  split at h
  · cases h
  cases h
  exact paramWrites_push _

theorem applyMove_paramWrites (h : applyMove rack op s = .done s') : s'.paramWrites = s.paramWrites := by
  obtain ⟨id, -, h⟩ := resolving_eq_done.mp h
  split at h
  · cases h
  split at h
  · cases h
  dsimp only at h
  split at h
  · cases h
  cases h
  exact paramWrites_placePanels _ rfl

theorem applyConnect_paramWrites (h : applyConnect rack op s = .done s') : s'.paramWrites = s.paramWrites := by
  obtain ⟨outId, -, h⟩ := resolving_eq_done.mp h
  obtain ⟨inId, -, h⟩ := resolving_eq_done.mp h
  split at h
  · cases h
  split at h
  · cases h
  split at h
  · split at h
    · cases h
    dsimp only at h
    split at h
    · cases h
    split at h
    · cases h
    cases h
    rw [paramWrites_record]
    unfold addCable
    dsimp only
    rw [paramWrites_push]
    exact paramWrites_removeCables _
  · cases h

theorem applyDisconnect_paramWrites (h : applyDisconnect op s = .done s') : s'.paramWrites = s.paramWrites := by
  unfold applyDisconnect at h
  dsimp only at h
  split at h
  · cases h
  cases h
  exact paramWrites_removeCableById _

theorem applyDisconnectPort_paramWrites (h : applyDisconnectPort op s = .done s') :
    s'.paramWrites = s.paramWrites := by
  obtain ⟨id, -, h⟩ := resolving_eq_done.mp h
  split at h
  · cases h
  cases h
  exact paramWrites_removeCables _

theorem applyRemove_paramWrites (h : applyRemove op s = .done s') : s'.paramWrites = s.paramWrites := by
  obtain ⟨id, -, h⟩ := resolving_eq_done.mp h
  split at h
  · cases h
  dsimp only at h
  split at h
  · cases h
  cases h
  rw [paramWrites_record, paramWrites_push]
  exact paramWrites_removeCables _

/-- A finished operation writes the parameter values it names. -/
theorem applyOne_paramWrites (h : applyOne rack op s = .done s') :
    s'.paramWrites = s.paramWrites + namedParams op := by
  unfold applyOne at h
  unfold namedParams
  split at h
  · next kind => simpa only [kind] using applyAdd_paramWrites h
  · next kind => simpa only [kind, Nat.add_zero] using applyRemove_paramWrites h
  · next kind => simpa only [kind] using applySetParam_paramWrites h
  · next kind => simpa only [kind, Nat.add_zero] using applyBypass_paramWrites h
  · next kind => simpa only [kind, Nat.add_zero] using applyReset_paramWrites h
  · next kind => simpa only [kind, Nat.add_zero] using applyRandomize_paramWrites h
  · next kind => simpa only [kind, Nat.add_zero] using applyMove_paramWrites h
  · next kind => simpa only [kind, Nat.add_zero] using applyConnect_paramWrites h
  · next kind => simpa only [kind, Nat.add_zero] using applyDisconnect_paramWrites h
  · next kind => simpa only [kind, Nat.add_zero] using applyDisconnectPort_paramWrites h
  · cases h

/-- So does a plan. -/
theorem runs_paramWrites {ops : List Json} (h : Runs (applyOne rack) ops s s') :
    s'.paramWrites = s.paramWrites + (ops.map namedParams).sum := by
  induction h with
  | nil => rfl
  | cons head tail ih =>
    have hfirst := applyOne_paramWrites head
    rw [ih, hfirst, List.map_cons, List.sum_cons]
    omega

end Applier

/-! ### Commits through the server -/

namespace Server

variable {rack : Rack}

/-- A plan that the plugin previewed, and its commit: the answer of the preview, what the commit finds in Rack, and
the clock as the limiter reads it. -/
structure PlanCommit (rack : Rack) where
  label : String
  operations : List Json
  selected : SelectedInstance
  previewed : RackState
  answer : Json
  answer_eq : (txnPreview rack (.object [("scope", scopeFor selected), ("label", .string label),
    ("operations", .array operations)]) previewed).payload = some answer
  expiresAt : Int
  args : CommitArgs
  found : RackState
  durationMs : Double
  prunedAt : Int
  decidedAt : Int

namespace PlanCommit

variable (c : PlanCommit rack)

/-- The plan as the server caches it. -/
def cached : CachedPlan :=
  cachedPlan c.answer c.operations c.selected.instanceId c.selected.sessionId c.expiresAt

/-- The call of the limiter. -/
def call : AdmitCall := ⟨c.cached.paramChanges, c.prunedAt, c.decidedAt⟩

/-- What the plugin makes of the commit request. -/
def outcome : TxnOutcome × RackState := txnCommit rack (commitRequest c.args c.selected c.cached) c.durationMs c.found

/-- The parameter writes of a commit that succeeds, in the history it leaves. -/
def writes : Nat :=
  if c.outcome.1.errorCode = none then
    ((c.outcome.2.history.drop c.found.history.length).flatMap Prod.snd).countP Action.writesParam
  else 0

/-- An operation of the plan names initial parameters. -/
def NamesInitialParams : Prop := ∃ op ∈ c.operations, opType op = .addModule ∧ Applier.initialParams op ≠ []

end PlanCommit

/-- The parameter writes of the commits that the limiter admits at an instant in the window. -/
def writesWithin (window : Int → Bool) (r : RateLimiter) : List (PlanCommit rack) → Nat
  | [] => 0
  | c :: commits =>
    (if (r.admitCount c.call).1.admits && window c.decidedAt then c.writes else 0) +
      writesWithin window (r.admitCount c.call).2 commits

/-! ### What a commit is charged with, and what it writes -/

variable {c : PlanCommit rack}

/-- The plan a preview answers with holds the operations it was asked for. -/
theorem planOperations_answer (c : PlanCommit rack) :
    planOperations (Json.get c.answer "plan") = c.operations := by
  have hanswer := c.answer_eq
  unfold txnPreview at hanswer
  have hoperations : Json.get (Json.object [("scope", scopeFor c.selected), ("label", .string c.label),
      ("operations", .array c.operations)]) "operations" = some (.array c.operations) := by
    simp [Json.get, List.lookup_cons]
  rw [hoperations] at hanswer
  rcases hops : c.operations with _ | ⟨op, rest⟩
  · rw [hops] at hanswer
    exact absurd hanswer (by simp [TxnOutcome.refused])
  · rw [hops] at hanswer
    dsimp only at hanswer
    split at hanswer
    · exact absurd hanswer (by simp [TxnOutcome.refused])
    · split at hanswer
      · exact absurd hanswer (by simp [TxnOutcome.refused])
      · rw [← Option.some.inj hanswer]
        simp [planOperations, previewPayload, normalizedPlan, Json.get, List.lookup_cons]

/-- The initial parameters an operation names. -/
def initialNamed (op : Json) : Nat := if opType op = .addModule then (Applier.initialParams op).length else 0

theorem opType_eq_setParameter {op : Json} :
    opType op = .setParameter ↔ holdsString op "op" "set_parameter" = true := by
  have hname : opType op = .setParameter ↔ jstr op "op" = "set_parameter" := by
    constructor
    · intro h
      rw [← name_opType, h]
      rfl
    · intro h
      unfold opType
      rw [h]
      rfl
  rw [hname]
  unfold holdsString jstr Json.stringOr
  split <;> simp_all

theorem namedParams_eq (op : Json) : Applier.namedParams op =
    (if holdsString op "op" "set_parameter" = true then 1 else 0) + initialNamed op := by
  unfold Applier.namedParams initialNamed
  by_cases hset : opType op = .setParameter
  · rw [if_pos (opType_eq_setParameter.mp hset), hset]
    simp
  · rw [if_neg fun h => hset (opType_eq_setParameter.mpr h), Nat.zero_add]
    split
    · exact absurd ‹_› hset
    · next hadd => rw [if_pos hadd]
    · next hadd => exact (if_neg hadd).symm

theorem countParamChanges_cons (op : Json) (ops : List Json) : countParamChanges (op :: ops) =
    countParamChanges ops + if holdsString op "op" "set_parameter" = true then 1 else 0 := by
  unfold countParamChanges
  exact List.countP_cons

theorem sum_namedParams (ops : List Json) :
    (ops.map Applier.namedParams).sum = countParamChanges ops + (ops.map initialNamed).sum := by
  induction ops with
  | nil => rfl
  | cons op ops ih =>
    rw [List.map_cons, List.sum_cons, ih, namedParams_eq, countParamChanges_cons, List.map_cons, List.sum_cons]
    omega

theorem namesInitialParams_iff : c.NamesInitialParams ↔ (c.operations.map initialNamed).sum ≠ 0 := by
  unfold PlanCommit.NamesInitialParams
  rw [ne_eq, List.sum_eq_zero_iff_forall_eq_nat]
  constructor
  · rintro ⟨op, hop, hadd, hnamed⟩ hzero
    have hop := hzero _ (List.mem_map_of_mem hop)
    unfold initialNamed at hop
    rw [if_pos hadd] at hop
    exact hnamed (List.length_eq_zero_iff.mp hop)
  · intro h
    by_contra hnone
    refine h fun n hn => ?_
    obtain ⟨op, hop, rfl⟩ := List.mem_map.mp hn
    unfold initialNamed
    split
    · next hadd =>
      by_contra hlength
      exact hnone ⟨op, hop, hadd, fun hnil => hlength (by rw [hnil]; rfl)⟩
    · rfl

/-- A commit that succeeds writes the parameter values its plan names. -/
theorem writes_eq (hsuccess : c.outcome.1.errorCode = none) :
    c.writes = (c.operations.map Applier.namedParams).sum := by
  have hplan : planOperations (Json.get (commitRequest c.args c.selected c.cached) "plan") = c.operations := by
    rw [get_plan_commitRequest]
    exact planOperations_answer c
  unfold PlanCommit.writes
  rw [if_pos hsuccess]
  unfold PlanCommit.outcome txnCommit at hsuccess ⊢
  rw [hplan] at hsuccess ⊢
  rcases hgate : commitGate rack (commitRequest c.args c.selected c.cached) c.found with _ | refusal
  · rw [hgate] at hsuccess
    dsimp only at hsuccess ⊢
    rcases happly : Applier.apply rack c.operations c.found.patch with s | ⟨e, s⟩
    · have hwrites := Applier.runs_paramWrites (runFrom_done_iff.mp happly)
      rw [Applier.paramWrites, Applier.paramWrites, List.countP_nil, Nat.zero_add] at hwrites
      rw [← hwrites]
      unfold finishCommit
      dsimp only
      split <;> simp
    · rw [happly] at hsuccess
      exact absurd hsuccess (by simp [rollBack, rollbackOutcome])
  · rw [hgate] at hsuccess
    exact absurd hsuccess (errorCode_of_commitGate hgate)

/-- A commit that succeeds is charged with what it writes exactly if its plan names no initial parameters. -/
theorem writes_eq_charged_iff (hsuccess : c.outcome.1.errorCode = none) :
    c.writes = c.cached.paramChanges ↔ ¬ c.NamesInitialParams := by
  have hcharged : c.cached.paramChanges = countParamChanges c.operations := rfl
  rw [writes_eq hsuccess, sum_namedParams, hcharged, namesInitialParams_iff]
  omega

theorem writes_le_charged (h : ¬ c.NamesInitialParams) : c.writes ≤ c.cached.paramChanges := by
  by_cases hsuccess : c.outcome.1.errorCode = none
  · exact ((writes_eq_charged_iff hsuccess).mpr h).le
  · unfold PlanCommit.writes
    rw [if_neg hsuccess]
    exact Nat.zero_le _

/-! ### The rate -/

variable {commits : List (PlanCommit rack)} {r : RateLimiter} {window : Int → Bool}

/-- What a commit writes is among the changes that it is charged with. -/
theorem writes_le_countP (h : ¬ c.NamesInitialParams) (hwindow : window c.decidedAt = true) :
    c.writes ≤ (List.replicate c.call.count.toNat c.call.decidedAt).countP window := by
  have hall : (List.replicate c.call.count.toNat c.call.decidedAt).countP window = c.call.count.toNat := by
    refine (List.countP_eq_length.mpr fun x hx => ?_).trans List.length_replicate
    rw [List.eq_of_mem_replicate hx]
    exact hwindow
  have hle := writes_le_charged h
  have hcount : c.call.count = c.cached.paramChanges := rfl
  omega

theorem writesWithin_le (h : ∀ c ∈ commits, ¬ c.NamesInitialParams) :
    writesWithin window r commits ≤ (r.admitted (commits.map PlanCommit.call)).countP window := by
  induction commits generalizing r with
  | nil => exact Nat.zero_le _
  | cons c commits ih =>
    have hrest := ih (r := (r.admitCount c.call).2) fun c' hc' => h c' (List.mem_cons_of_mem _ hc')
    have hfirst : (if (r.admitCount c.call).1.admits && window c.decidedAt then c.writes else 0) ≤
        (if (r.admitCount c.call).1.admits then List.replicate c.call.count.toNat c.call.decidedAt else []).countP
          window := by
      split
      · next hin =>
        rw [Bool.and_eq_true] at hin
        rw [if_pos hin.1]
        exact writes_le_countP (h c List.mem_cons_self) hin.2
      · exact Nat.zero_le _
    rw [List.map_cons, RateLimiter.admitted, List.countP_append]
    exact Nat.add_le_add hfirst hrest

/-- In every run of commits whose plans name no initial parameters, no window of a second has more parameter writes
than the documented rate. -/
theorem paramRate_holds (hclock : ClockAdvances (commits.map PlanCommit.call))
    (h : ∀ c ∈ commits, ¬ c.NamesInitialParams) (start : Int) :
    writesWithin (fun at_ => start ≤ at_ ∧ at_ < start + 1000) {} commits ≤ paramChangesPerSecond ∧
      writesWithin (fun at_ => start < at_ ∧ at_ ≤ start + 1000) {} commits ≤ paramChangesPerSecond := by
  have hbound : ∀ window : Int → Bool, RateLimiter.Within 1000 window →
      writesWithin window {} commits ≤ paramChangesPerSecond := by
    intro window hwindow
    have hwrites : writesWithin window {} commits ≤ _ := writesWithin_le h
    have hrate := RateLimiter.countP_recorded_le (r := {}) rfl (by decide) hclock hwindow
    rw [← RateLimiter.admitted_eq_recorded (by decide)] at hrate
    have hlimit : ({} : RateLimiter).limit = paramChangesPerSecond := rfl
    omega
  exact ⟨hbound _ (RateLimiter.within_closedOpen 1000 start), hbound _ (RateLimiter.within_openClosed 1000 start)⟩

/-- The commit of a plan on the bench patch at one instant. -/
def benchPlanCommit (operations : List Json) (answer : Json) (at_ : Int)
    (h : (txnPreview benchRack (.object [("scope", scopeFor ⟨"i", "s", "2.6.6", "Free", 1, 1⟩),
      ("label", .string "plan"), ("operations", .array operations)]) { patch := benchPatch }).payload = some answer) :
    PlanCommit benchRack where
  label := "plan"
  operations
  selected := ⟨"i", "s", "2.6.6", "Free", 1, 1⟩
  previewed := { patch := benchPatch }
  answer
  answer_eq := h
  expiresAt := at_ + confirmationLifetimeMs
  args := ⟨"op-1", "plan", "1 2 3", none⟩
  found := { patch := benchPatch }
  durationMs := .finite 0
  prunedAt := at_
  decidedAt := at_

def benchAnswer (operations : List Json) : Json :=
  ((txnPreview benchRack (.object [("scope", scopeFor ⟨"i", "s", "2.6.6", "Free", 1, 1⟩),
    ("label", .string "plan"), ("operations", .array operations)]) { patch := benchPatch }).payload).getD .null

/-- The plan sets a parameter of the oscillator so many times. -/
def setOscillator (times : Nat) : List Json :=
  List.replicate times
    (operation "set_parameter" [("module", moduleById "1"), ("paramId", .integer 0), ("value", .integer 1)])

/-- The plan adds a module with 31 initial parameters. -/
def addWithParams : List Json :=
  [operation "add_module" [("pluginSlug", .string "Core"), ("modelSlug", .string "Notes"), ("alias", .string "n"),
    ("placement", .string "auto"),
    ("initialParams", .array (List.replicate 31 (.object [("paramId", .integer 0), ("value", .integer 1)])))]]

def twentyCommit (at_ : Int) : PlanCommit benchRack :=
  benchPlanCommit (setOscillator 20) (benchAnswer (setOscillator 20)) at_ (by decide +kernel)

def tenCommit (at_ : Int) : PlanCommit benchRack :=
  benchPlanCommit (setOscillator 10) (benchAnswer (setOscillator 10)) at_ (by decide +kernel)

def addCommit : PlanCommit benchRack :=
  benchPlanCommit addWithParams (benchAnswer addWithParams) 0 (by decide +kernel)

/-- Twenty changes, twenty more that are refused, and ten more in the same second. -/
def setCommits : List (PlanCommit benchRack) := [twentyCommit 0, twentyCommit 500, tenCommit 900]

theorem paramRate_holds_set :
    (({} : RateLimiter).after [(twentyCommit 0).call]).Refuses (twentyCommit 500).call ∧
      writesWithin (fun at_ => (0 : Int) ≤ at_ ∧ at_ < 0 + 1000) {} setCommits ≤ paramChangesPerSecond ∧
      writesWithin (fun at_ => (0 : Int) < at_ ∧ at_ ≤ 0 + 1000) {} setCommits ≤ paramChangesPerSecond := by
  refine ⟨RateLimiter.refuses_iff.mpr (by decide +kernel),
    paramRate_holds (by unfold ClockAdvances; decide +kernel) (fun c hc => ?_) 0⟩
  rw [namesInitialParams_iff]
  rcases List.mem_cons.mp hc with rfl | hc
  · decide +kernel
  rcases List.mem_cons.mp hc with rfl | hc
  · decide +kernel
  · rw [List.mem_singleton.mp hc]
    decide +kernel

/-- The limiter lets the plan through without a charge, and the plugin writes 31 parameters at once. -/
theorem paramRate_exceeded :
    ClockAdvances ([addCommit].map PlanCommit.call) ∧ addCommit.outcome.1.errorCode = none ∧
      paramChangesPerSecond < writesWithin (fun at_ => (0 : Int) ≤ at_ ∧ at_ < 0 + 1000) {} [addCommit] := by
  refine ⟨by unfold ClockAdvances; decide +kernel, by decide +kernel, by decide +kernel⟩

end Server

end RackMcp
