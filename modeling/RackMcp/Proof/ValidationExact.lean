import RackMcp.Proof.ValidationFindings

/-!
# The validation report is exact

The checks put together: every finding of `validatePatch` is about an issue of the patch, every issue has its finding,
and no error is counted exactly when the patch is intact (`validation_exact`).
-/

namespace RackMcp.Validation

open Reachability
open Analysis (DecimalId isAudioDestination)

variable {snap : Snapshot} {f : ValidationFinding}

/-! ### The whole report -/

section Report
variable {numberText : Double → String} {feeds cycles : List String}

theorem mem_findingsFrom : f ∈ findingsFrom numberText snap feeds cycles ↔
    f ∈ checkCables snap snap.cables [] ∨ f ∈ (inKeys snap).flatMap (checkInput snap) ∨
    f ∈ checkPositions snap.modules [] ∨ f ∈ snap.modules.flatMap (checkExpander snap) ∨
    f ∈ (snap.modules.flatMap fun m => m.params.flatMap (checkParam numberText m)) ∨
    (snap.bridgeModuleCount = 0 ∧ f = bridgeMissing snap.bridgeModuleCount) ∨
    f ∈ snap.modules.flatMap (checkBypass feeds) ∨ (cycles.length > 0 ∧ f = feedback cycles) ∨
    f ∈ snap.cables.flatMap (checkRoles snap) ∨
    ((unadaptered snap).length > 0 ∧ f = unverifiedModules (unadaptered snap)) ∨ f ∈ checkSilence snap := by
  unfold findingsFrom
  simp only [List.mem_append, mem_ite_singleton, or_assoc]

theorem findingsFrom_sound (h : snap.DecimalEnds) (hfeeds : FeedsExactly snap feeds)
    (hcycles : CyclesExactly snap cycles) (hf : f ∈ findingsFrom numberText snap feeds cycles) : snap.Justifies f := by
  rcases mem_findingsFrom.mp hf with hf | hf | hf | hf | hf | ⟨hnone, rfl⟩ | hf | ⟨hmany, rfl⟩ | hf | ⟨hmany, rfl⟩ | hf
  · exact checkCables_sound h hf
  · exact checkInput_sound h hf
  · exact checkPositions_sound hf
  · exact checkExpander_sound hf
  · exact checkParam_sound hf
  · exact ⟨.bridgeMissing hnone, rfl⟩
  · exact checkBypass_sound hfeeds hf
  · exact ⟨.feedback hcycles.nodup hcycles.mem (List.ne_nil_of_length_pos hmany), rfl⟩
  · exact checkRoles_sound hf
  · exact ⟨.unverified (List.ne_nil_of_length_pos hmany), rfl⟩
  · exact checkSilence_sound hf

theorem findingsFrom_complete (h : snap.DecimalEnds) (hfeeds : FeedsExactly snap feeds)
    (hcycles : CyclesExactly snap cycles) {rule : ValidationRuleId} {entities : List EntityRef}
    (hissue : snap.Issue rule entities) : ∃ f ∈ findingsFrom numberText snap feeds cycles,
      f.ruleId = rule ∧ (rule ≠ .cycleFeedback → f.entities = entities) := by
  have hcable : ∀ {g}, g ∈ checkCables snap snap.cables [] → g ∈ findingsFrom numberText snap feeds cycles :=
    fun hg => mem_findingsFrom.mpr (.inl hg)
  have hparam : ∀ {g}, g ∈ (snap.modules.flatMap fun m => m.params.flatMap (checkParam numberText m)) →
      g ∈ findingsFrom numberText snap feeds cycles :=
    fun hg => mem_findingsFrom.mpr (.inr (.inr (.inr (.inr (.inl hg)))))
  have hrole : ∀ {g}, g ∈ snap.cables.flatMap (checkRoles snap) → g ∈ findingsFrom numberText snap feeds cycles :=
    fun hg => mem_findingsFrom.mpr (.inr (.inr (.inr (.inr (.inr (.inr (.inr (.inr (.inl hg)))))))))
  cases hissue with
  | dangling mem missing =>
    obtain ⟨text, hf⟩ := dangling_found mem missing
    exact ⟨_, hcable hf, rfl, fun _ => rfl⟩
  | output mem joins missing =>
    refine ⟨_, hcable (mem_checkCables_of_all mem fun seen =>
      (mem_checkCable_of_joins joins).mpr (.inl (.inl ⟨by omega, rfl⟩))), rfl, fun _ => rfl⟩
  | input mem joins missing =>
    refine ⟨_, hcable (mem_checkCables_of_all mem fun seen =>
      (mem_checkCable_of_joins joins).mpr (.inl (.inr ⟨by omega, rfl⟩))), rfl, fun _ => rfl⟩
  | duplicate split joined mem same =>
    exact ⟨_, hcable (duplicate_found split joined mem same), rfl, fun _ => rfl⟩
  | stacked mem joined many =>
    obtain ⟨f, hf, hrule, hentities⟩ := stacked_found h mem joined many
    exact ⟨f, mem_findingsFrom.mpr (.inr (.inl hf)), hrule, fun _ => hentities⟩
  | collision split mem position same =>
    obtain ⟨other, hf⟩ := collision_found split mem position same
    exact ⟨_, mem_findingsFrom.mpr (.inr (.inr (.inl hf))), rfl, fun _ => rfl⟩
  | expander mem left nonempty position apart =>
    have hf := mem_checkExpander.mpr ⟨_, _, left, position, nonempty, apart, rfl⟩
    exact ⟨_, mem_findingsFrom.mpr (.inr (.inr (.inr (.inl (List.mem_flatMap.mpr ⟨_, mem, hf⟩))))), rfl, fun _ => rfl⟩
  | @nonFinite m p mem param value =>
    have hf : nonFinite numberText m p ∈ checkParam numberText m p := by
      rw [checkParam_of_nonFinite value]
      exact List.mem_singleton_self _
    exact ⟨_, hparam (mem_checkParams mem param hf), rfl, fun _ => rfl⟩
  | @outOfRange m p v low high mem param value minValue maxValue outside =>
    have hf : outOfRange numberText m p (.finite v) low high ∈ checkParam numberText m p :=
      (mem_checkParam_of_finite value).mpr (.inl ⟨_, _, hardRange_eq_some.mpr ⟨minValue, maxValue⟩, outside, rfl⟩)
    exact ⟨_, hparam (mem_checkParams mem param hf), rfl, fun _ => rfl⟩
  | @outsideSafeRange m p v low high mem param value within safe outside =>
    have hwithin := fun low high hrange =>
      within low high (hardRange_eq_some.mp hrange).1 (hardRange_eq_some.mp hrange).2
    have hf : outsideSafeRange numberText m p (.finite v) low high ∈ checkParam numberText m p :=
      (mem_checkParam_of_finite value).mpr (.inr ⟨hwithin, _, _, safe, outside, rfl⟩)
    exact ⟨_, hparam (mem_checkParams mem param hf), rfl, fun _ => rfl⟩
  | bridgeMissing none =>
    exact ⟨_, mem_findingsFrom.mpr (.inr (.inr (.inr (.inr (.inr (.inl ⟨none, rfl⟩)))))), rfl, fun _ => rfl⟩
  | interruptsPath mem bypassed incoming outgoing feeding =>
    have hf := mem_checkBypass.mpr ⟨⟨bypassed, (hfeeds _).mpr feeding, incoming, outgoing⟩, rfl⟩
    exact ⟨_, mem_findingsFrom.mpr (.inr (.inr (.inr (.inr (.inr (.inr (.inl (List.mem_flatMap.mpr ⟨_, mem, hf⟩)))))))),
      rfl, fun _ => rfl⟩
  | feedback nodup mem nonempty =>
    obtain ⟨id, hid⟩ := List.exists_mem_of_ne_nil _ nonempty
    have hmany := List.length_pos_of_mem ((hcycles.mem id).mpr ((mem id).mp hid))
    exact ⟨_, mem_findingsFrom.mpr (.inr (.inr (.inr (.inr (.inr (.inr (.inr (.inl ⟨hmany, rfl⟩)))))))), rfl,
      fun hne => absurd rfl hne⟩
  | roleCross mem joins ports output input differ =>
    have hf := (mem_checkRoles_of_joins joins).mpr ⟨ports, .inl ⟨_, _, output, input, differ, rfl⟩⟩
    exact ⟨_, hrole (List.mem_flatMap.mpr ⟨_, mem, hf⟩), rfl, fun _ => rfl⟩
  | pitchGate mem joins ports output input differ =>
    have hf := (mem_checkRoles_of_joins joins).mpr ⟨ports, .inr (.inl ⟨_, _, output, input, differ, rfl⟩)⟩
    exact ⟨_, hrole (List.mem_flatMap.mpr ⟨_, mem, hf⟩), rfl, fun _ => rfl⟩
  | polyIntoMono mem joins ports poly mono =>
    have hf := (mem_checkRoles_of_joins joins).mpr ⟨ports, .inr (.inr ⟨⟨poly, mono⟩, rfl⟩)⟩
    exact ⟨_, hrole (List.mem_flatMap.mpr ⟨_, mem, hf⟩), rfl, fun _ => rfl⟩
  | unverified nonempty =>
    exact ⟨_, mem_findingsFrom.mpr (.inr (.inr (.inr (.inr (.inr (.inr (.inr (.inr (.inr (.inl
      ⟨List.length_pos_of_ne_nil nonempty, rfl⟩)))))))))), rfl, fun _ => rfl⟩
  | noInput nonempty unconnected =>
    exact ⟨_, mem_findingsFrom.mpr (.inr (.inr (.inr (.inr (.inr (.inr (.inr (.inr (.inr (.inr
      (mem_checkSilence.mpr (.inl ⟨nonempty, unconnected, rfl⟩)))))))))))), rfl, fun _ => rfl⟩
  | noDestination none =>
    exact ⟨_, mem_findingsFrom.mpr (.inr (.inr (.inr (.inr (.inr (.inr (.inr (.inr (.inr (.inr
      (mem_checkSilence.mpr (.inr ⟨destinations_eq_nil.mpr none, rfl⟩)))))))))))), rfl, fun _ => rfl⟩

end Report

/-- Every cable joins two ports that exist, and every parameter has a value. -/
structure Snapshot.Intact (snap : Snapshot) : Prop where
  cables : ∀ c ∈ snap.cables, ∃ out inp, snap.Joins c out inp ∧ (0 ≤ c.outputId ∧ c.outputId < out.outputs.length) ∧
    0 ≤ c.inputId ∧ c.inputId < inp.inputs.length
  params : ∀ m ∈ snap.modules, ∀ p ∈ m.params, ∃ v, p.value = some (.finite v)

theorem intact_of_no_error (h : ∀ rule entities, severityOf rule = .error → ¬ snap.Issue rule entities) :
    snap.Intact where
  cables c hc := by
    by_cases hjoined : snap.Joined c
    · obtain ⟨out, inp, hjoins⟩ := hjoined
      refine ⟨out, inp, hjoins, ?_, ?_⟩
      · by_contra hport
        exact h _ _ rfl (.output hc hjoins hport)
      · by_contra hport
        exact h _ _ rfl (.input hc hjoins hport)
    · exact absurd (.dangling hc hjoined) (h _ _ rfl)
  params m hm p hp := by
    by_contra hvalue
    push Not at hvalue
    exact h _ _ rfl (.nonFinite hm hp hvalue)

theorem Snapshot.Intact.no_error (h : snap.Intact) {rule : ValidationRuleId} {entities : List EntityRef}
    (hissue : snap.Issue rule entities) : severityOf rule ≠ .error := by
  intro herror
  cases hissue with
  | dangling mem missing =>
    obtain ⟨out, inp, hjoins, -⟩ := h.cables _ mem
    exact missing ⟨out, inp, hjoins⟩
  | output mem joins missing =>
    obtain ⟨out, inp, hjoins, hport, -⟩ := h.cables _ mem
    obtain rfl := Option.some.inj (joins.1.symm.trans hjoins.1)
    exact missing hport
  | input mem joins missing =>
    obtain ⟨out, inp, hjoins, -, hport⟩ := h.cables _ mem
    obtain rfl := Option.some.inj (joins.2.symm.trans hjoins.2)
    exact missing hport
  | nonFinite mem param value =>
    obtain ⟨v, hv⟩ := h.params _ mem _ param
    exact value v hv
  | _ => cases herror

theorem length_severities (findings : List ValidationFinding) :
    (findings.filter (·.severity == .error)).length + (findings.filter (·.severity == .warning)).length +
      (findings.filter (·.severity == .info)).length = findings.length := by
  induction findings with
  | nil => rfl
  | cons f findings ih =>
    have hcases : f.severity = .error ∨ f.severity = .warning ∨ f.severity = .info := by
      cases f.severity <;> simp
    rcases hcases with h | h | h
    all_goals
      simp only [List.filter_cons, h, beq_self_eq_true, if_true, List.length_cons, ← ih]
      simp
      omega

theorem reportOf_infoCount (findings : List ValidationFinding) :
    (reportOf findings).infoCount = (findings.filter (·.severity == .info)).length := by
  have hlength := length_severities findings
  show findings.length - (findings.filter (·.severity == .error)).length -
    (findings.filter (·.severity == .warning)).length = _
  omega

/-- What a report is to say of a snapshot. -/
structure ValidationReport.Exact (report : ValidationReport) (snap : Snapshot) : Prop where
  sound : ∀ f ∈ report.findings, snap.Justifies f ∧ f.ruleId ∈ report.rulesRun
  /-- The finding of the feedback names the modules on cycles in the order in which the search finds them. -/
  complete : ∀ rule entities, snap.Issue rule entities →
    ∃ f ∈ report.findings, f.ruleId = rule ∧ (rule ≠ .cycleFeedback → f.entities = entities)
  errorCount : report.errorCount = (report.findings.filter (·.severity == .error)).length
  warningCount : report.warningCount = (report.findings.filter (·.severity == .warning)).length
  infoCount : report.infoCount = (report.findings.filter (·.severity == .info)).length

theorem validatePatch_returns (numberText : Double → String) (h : snap.DecimalEnds) :
    ∃ report, WhileLoop.Returns (validatePatch numberText snap) report ∧ report.Exact snap := by
  obtain ⟨feeds, hfeeds, hexact⟩ := feeds_returns snap
  obtain ⟨cycles, hcycles, hcyclesExact⟩ := cycles_returns snap
  refine ⟨_, hfeeds.bind (hcycles.bind (.pure _)), ?_⟩
  exact
    { sound := fun f hf => by
        refine ⟨findingsFrom_sound h hexact hcyclesExact hf, ?_⟩
        show f.ruleId ∈ validationRules
        cases f.ruleId <;> decide
      complete := fun rule entities hissue => findingsFrom_complete h hexact hcyclesExact hissue
      errorCount := rfl
      warningCount := rfl
      infoCount := reportOf_infoCount _ }

/-- No error is counted exactly when the patch is intact. -/
theorem ValidationReport.Exact.errorCount_eq_zero {report : ValidationReport} (h : report.Exact snap) :
    report.errorCount = 0 ↔ snap.Intact := by
  rw [h.errorCount, List.length_eq_zero_iff, List.filter_eq_nil_iff]
  constructor
  · intro hnone
    refine intact_of_no_error fun rule entities herror hissue => ?_
    obtain ⟨f, hf, hrule, -⟩ := h.complete rule entities hissue
    refine hnone f hf (beq_iff_eq.mpr ?_)
    rw [(h.sound f hf).1.severity, hrule, herror]
  · intro hintact f hf herror
    rw [beq_iff_eq, (h.sound f hf).1.severity] at herror
    exact hintact.no_error (h.sound f hf).1.issue herror

/-- The validation ends with a report that is exact. Each finding is about an issue of the patch, under the severity of
its rule, each issue has its finding, and each finding is counted once. No error is counted exactly when the patch is
intact. -/
theorem validation_exact (numberText : Double → String) (h : snap.DecimalEnds) :
    ∃ report, WhileLoop.Returns (validatePatch numberText snap) report ∧ report.Exact snap ∧
      (report.errorCount = 0 ↔ snap.Intact) := by
  obtain ⟨report, hreturns, hexact⟩ := validatePatch_returns numberText h
  exact ⟨report, hreturns, hexact, hexact.errorCount_eq_zero⟩

/-! ### A patch with a loose cable -/

def looseCable : CableS where
  cableId := "9"
  outputModuleId := "1"
  outputId := 0
  inputModuleId := "7"
  inputId := 0

def looseSnapshot : Snapshot where
  modules := [{ moduleId := "1", modelName := "VCO", modelSlug := "VCO", pluginSlug := "Fundamental", bypassed := false
                params := [⟨0, none, none, none, "Frequency"⟩], inputs := [], outputs := [⟨0, true, 1⟩]
                gridPosition := none, gridWidth := none, left := none }]
  cables := [looseCable]
  bridgeModuleCount := 0

theorem looseSnapshot_decimalEnds : looseSnapshot.DecimalEnds := by
  intro c hc
  obtain rfl := List.mem_singleton.mp hc
  exact ⟨by decide, by decide⟩

/-- The report on a cable to a module that is not there, and on a parameter without a value. -/
theorem validation_exact_loose : ∃ report,
    WhileLoop.Returns (validatePatch (fun _ => "") looseSnapshot) report ∧ report.errorCount ≠ 0 ∧
      (∃ f ∈ report.findings, f.ruleId = .cableDangling ∧ f.entities = [.cable "9"]) ∧
      ∃ f ∈ report.findings, f.ruleId = .paramNonFinite ∧ f.entities = [.param "1" 0] := by
  obtain ⟨report, hreturns, hexact, herrors⟩ := validation_exact (fun _ => "") looseSnapshot_decimalEnds
  have hloose : ¬ looseSnapshot.Joined looseCable := by
    rintro ⟨out, inp, -, hinp⟩
    exact absurd hinp (by simp [Snapshot.byId, looseSnapshot, looseCable])
  obtain ⟨f, hf, hrule, hentities⟩ := hexact.complete _ _ (.dangling (List.mem_singleton_self looseCable) hloose)
  have hvalue : ∀ v, (none : Option Double) ≠ some (.finite v) := fun v => (Option.some_ne_none _).symm
  obtain ⟨g, hg, hgrule, hgentities⟩ := hexact.complete _ _
    (.nonFinite (List.mem_singleton_self _) (List.mem_singleton_self _) hvalue)
  refine ⟨report, hreturns, fun hnone => ?_, ⟨f, hf, hrule, hentities (by decide)⟩, g, hg, hgrule,
    hgentities (by decide)⟩
  obtain ⟨out, inp, hjoins, -⟩ := (herrors.mp hnone).cables looseCable (List.mem_singleton_self _)
  exact hloose ⟨out, inp, hjoins⟩

end RackMcp.Validation
