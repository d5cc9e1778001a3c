import RackMcp.Proof.ValidationExact
import RackMcp.Proof.WiredPatch
import RackMcp.Proof.CommitUndone
import RackMcp.Rackside.Snapshot
import RackMcp.Server.SnapshotPayload

/-!
# Validating the plugin's snapshot

`validate_patch` on what the plugin sends: the payload of `patch.snapshot` read by the server
(`snapshotOf_payload`) lists the modules and cables of the patch once each, so what keeps the patch wired on the one
side (`Reached`) is what the rules about the wiring look for on the other (`snapshot_validates`).
-/

namespace RackMcp

open Validation (snapshotOf moduleOf cableOf paramOf portOf)

/-! ### Reading the payload -/

section Read
variable {R : SnapshotReadings} {p : Patch} {m : Module} {c : Cable} {key k : String} {text : List UInt8}

theorem lookup_textMember : (textMember key text).lookup k =
    if k == key then (jsonString text).map Json.string else none := by
  unfold textMember
  rcases jsonString text with _ | s
  · simp
  · simp only [Option.map_some, Option.toList_some, List.lookup_cons, List.lookup_nil]
    cases k == key <;> rfl

theorem get_params : Json.get (some (buildOneModule R p m false)) "params" =
    some (.array ((List.range m.quantities.length).map (buildParam R m))) := by
  unfold buildOneModule Json.get
  cases p.widget m.id <;> simp [List.lookup_append, lookup_textMember, List.lookup_cons]

theorem get_inputs : Json.get (some (buildOneModule R p m false)) "inputs" =
    some (.array ((List.range m.inputs).map fun i => buildPort R m i true)) := by
  unfold buildOneModule Json.get
  cases p.widget m.id <;> simp [List.lookup_append, lookup_textMember, List.lookup_cons]

theorem get_outputs : Json.get (some (buildOneModule R p m false)) "outputs" =
    some (.array ((List.range m.outputs).map fun i => buildPort R m i false)) := by
  unfold buildOneModule Json.get
  cases p.widget m.id <;> simp [List.lookup_append, lookup_textMember, List.lookup_cons]

theorem get_value (i : ℕ) : Json.get (some (buildParam R m i)) "value" = some (realOrNull (m.valueAt i)) := by
  unfold buildParam Json.get
  cases (m.quantities[i]?).join <;> simp [List.lookup_append, lookup_textMember, List.lookup_cons]

theorem numberOf_realOrNull {v : Double} {q : ℚ} :
    Validation.numberOf (some (realOrNull v)) = some (.finite q) ↔ v = .finite q := by
  cases v <;> simp [realOrNull, Validation.numberOf]

theorem inputs_read : (moduleOf (buildOneModule R p m false)).inputs.length = m.inputs := by
  unfold moduleOf
  rw [get_inputs]
  simp [Validation.itemsOf]

theorem outputs_read : (moduleOf (buildOneModule R p m false)).outputs.length = m.outputs := by
  unfold moduleOf
  rw [get_outputs]
  simp [Validation.itemsOf]

theorem params_read : (moduleOf (buildOneModule R p m false)).params =
    (List.range m.quantities.length).map fun i => paramOf (buildParam R m i) := by
  unfold moduleOf
  rw [get_params]
  exact List.map_map

theorem value_read {i : ℕ} {v : ℚ} :
    (paramOf (buildParam R m i)).value = some (.finite v) ↔ m.valueAt i = .finite v := by
  show Validation.numberOf (Json.get (some (buildParam R m i)) "value") = _ ↔ _
  rw [get_value]
  exact numberOf_realOrNull

/-- What the server reads of a module. -/
def readModule (R : SnapshotReadings) (p : Patch) (m : Module) : Validation.ModuleS :=
  moduleOf (buildOneModule R p m false)

/-- What the server reads of a cable. -/
def readCable (R : SnapshotReadings) (c : Cable) : Validation.CableS := cableOf (buildCable R c)

/-- What the server reads of the payload. -/
theorem snapshotOf_payload {rack : Rack} {payload : Json} (h : buildPatchSnapshot R rack p false = some payload) :
    snapshotOf payload = ⟨(snapshotModules p).map (readModule R p), (snapshotCables p).map (readCable R),
      bridgeCount p⟩ := by
  obtain ⟨fingerprint, -, rfl⟩ := Option.map_eq_some_iff.mp h
  unfold snapshotOf Json.get
  by_cases hname : R.patchName = []
  · simp [hname, List.lookup_append, lookup_textMember, List.lookup_cons, Validation.itemsOf, Validation.integerOf,
      readModule, readCable, Function.comp_def]
  · simp [hname, List.lookup_append, lookup_textMember, List.lookup_cons, Validation.itemsOf, Validation.integerOf,
      readModule, readCable, Function.comp_def]

end Read

/-! ### Ids as texts -/

theorem toString_inj {m n : Int} (h : toString m = toString n) : m = n := integer_injective (congrArg String.toList h)

theorem head_toDigits {n : ℕ} (hn : 0 < n) : ∃ d rest, Nat.toDigits 10 n = d :: rest ∧ '1' ≤ d ∧ d ≤ '9' := by
  induction n using Nat.strongRecOn with
  | ind n ih =>
    rw [Nat.toDigits_eq_if (by decide)]
    split
    · next hlt =>
      have hdigit : ∀ d < 10, 0 < d → '1' ≤ d.digitChar ∧ d.digitChar ≤ '9' := by decide
      exact ⟨n.digitChar, [], rfl, hdigit n hlt hn⟩
    · obtain ⟨d, rest, heq, hd⟩ := ih (n / 10) (by omega) (by omega)
      exact ⟨d, rest ++ [(n % 10).digitChar], by rw [heq, List.cons_append], hd⟩

/-- The engine's ids are decimal strings on the wire. -/
theorem decimalId_toString {id : Int} (h : 0 ≤ id) (hmax : id < 10 ^ 19) : Analysis.DecimalId (toString id) := by
  obtain ⟨n, rfl⟩ := Int.eq_ofNat_of_zero_le h
  rcases Nat.eq_zero_or_pos n with rfl | hn
  · exact .inl rfl
  · obtain ⟨d, rest, hdigits, hd⟩ := head_toDigits hn
    have hlist : (toString (n : Int)).toList = d :: rest := (toList_toString_nat n).trans hdigits
    refine .inr ⟨?_, ?_, ?_⟩
    · rw [hlist]
      exact decide_eq_true hd
    · rw [hlist, List.tail_cons, List.all_eq_true]
      intro c hc
      have hdigit : c.isDigit = true :=
        Nat.isDigit_of_mem_toDigits (b := 10) (by decide) le_rfl (hdigits ▸ List.mem_cons_of_mem d hc)
      unfold Char.isDigit at hdigit
      rw [Bool.and_eq_true, decide_eq_true_eq, decide_eq_true_eq] at hdigit
      exact decide_eq_true hdigit
    · rw [toList_toString_nat]
      exact (Nat.length_toDigits_le_iff (by decide) (by decide)).mpr (by omega)

/-! ### What the snapshot lists -/

section Lists
variable {p : Patch} {m : Module} {c : Cable}

theorem sortIds_perm (ids : List Int) : (sortIds ids).Perm ids := List.mergeSort_perm _ _

theorem ids_snapshotModules (p : Patch) : (snapshotModules p).map (·.id) = sortIds (p.modules.map (·.id)) :=
  Keyed.map_key_filterMap_find? fun _ hid => (sortIds_perm _).mem_iff.mp hid

theorem ids_snapshotCables (p : Patch) : ((sortIds (p.cables.map (·.id))).filterMap p.cable).map (·.id) =
    sortIds (p.cables.map (·.id)) :=
  Keyed.map_key_filterMap_find? fun _ hid => (sortIds_perm _).mem_iff.mp hid

theorem mem_snapshotModules (h : (p.modules.map (·.id)).Nodup) : m ∈ snapshotModules p ↔ m ∈ p.modules := by
  unfold snapshotModules
  rw [List.mem_filterMap]
  constructor
  · rintro ⟨id, -, hfind⟩
    exact (Keyed.mem_of_find? hfind).1
  · intro hm
    exact ⟨m.id, (sortIds_perm _).mem_iff.mpr (List.mem_map_of_mem hm), Keyed.find?_eq_some h hm⟩

theorem mem_snapshotCables (h : (p.cables.map (·.id)).Nodup) :
    c ∈ snapshotCables p ↔ c ∈ p.cables ∧ c.plan.hasOutput = true ∧ c.plan.hasInput = true := by
  unfold snapshotCables
  rw [List.mem_filter, List.mem_filterMap, Bool.and_eq_true]
  refine and_congr_left fun _ => ⟨?_, fun hc => ?_⟩
  · rintro ⟨id, -, hfind⟩
    exact (Keyed.mem_of_find? hfind).1
  · exact ⟨c.id, (sortIds_perm _).mem_iff.mpr (List.mem_map_of_mem hc), Keyed.find?_eq_some h hc⟩

theorem nodup_snapshotModules (h : (p.modules.map (·.id)).Nodup) : ((snapshotModules p).map (·.id)).Nodup := by
  rw [ids_snapshotModules]
  exact (sortIds_perm _).nodup_iff.mpr h

theorem nodup_snapshotCables (h : (p.cables.map (·.id)).Nodup) : ((snapshotCables p).map (·.id)).Nodup := by
  have hall : (((sortIds (p.cables.map (·.id))).filterMap p.cable).map (·.id)).Nodup := by
    rw [ids_snapshotCables]
    exact (sortIds_perm _).nodup_iff.mpr h
  exact hall.sublist (List.filter_sublist.map _)

end Lists

/-! ### The read snapshot -/

section Snapshot
variable {R : SnapshotReadings} {p : Patch} {m : Module} {c d : Cable}

/-- The snapshot that the server reads. -/
def readSnapshot (R : SnapshotReadings) (p : Patch) : Validation.Snapshot :=
  ⟨(snapshotModules p).map (readModule R p), (snapshotCables p).map (readCable R), bridgeCount p⟩

theorem byId_read (h : (p.modules.map (·.id)).Nodup) (hm : m ∈ p.modules) :
    (readSnapshot R p).byId (toString m.id) = some (readModule R p m) := by
  have hnodup : (((snapshotModules p).map (readModule R p)).reverse.map (·.moduleId)).Nodup := by
    rw [List.map_reverse, List.nodup_reverse, List.map_map]
    have hids := (nodup_snapshotModules h).map (f := fun id : Int => toString id) fun _ _ => toString_inj
    rw [List.map_map] at hids
    exact hids
  have hmem : readModule R p m ∈ ((snapshotModules p).map (readModule R p)).reverse :=
    List.mem_reverse.mpr (List.mem_map_of_mem ((mem_snapshotModules h).mpr hm))
  exact Keyed.find?_eq_some hnodup hmem

theorem modules_nodup (h : p.Wired) : (p.modules.map (·.id)).Nodup := by
  have hids := h.moduleIds
  rwa [Patch.shapes, List.map_map] at hids

theorem joins_read (h : p.Wired) (hc : c ∈ snapshotCables p) : ∃ out ∈ p.modules, ∃ inp ∈ p.modules,
    (readSnapshot R p).Joins (readCable R c) (readModule R p out) (readModule R p inp) ∧
      (out.id = c.plan.outputModuleId ∧ 0 ≤ c.plan.outputId ∧ c.plan.outputId < out.outputs) ∧
      inp.id = c.plan.inputModuleId ∧ 0 ≤ c.plan.inputId ∧ c.plan.inputId < inp.inputs := by
  have hmodules := modules_nodup h
  obtain ⟨hmem, hout, hin⟩ := (mem_snapshotCables h.cableIds).mp hc
  obtain ⟨_, houtShape, houtId, houtPort⟩ := h.outputs c hmem hout
  obtain ⟨_, hinShape, hinId, hinPort⟩ := h.inputs c hmem hin
  obtain ⟨out, houtMem, rfl⟩ := List.mem_map.mp houtShape
  obtain ⟨inp, hinMem, rfl⟩ := List.mem_map.mp hinShape
  have houtId : out.id = c.plan.outputModuleId := houtId
  have hinId : inp.id = c.plan.inputModuleId := hinId
  refine ⟨out, houtMem, inp, hinMem, ⟨?_, ?_⟩, ⟨houtId, houtPort⟩, hinId, hinPort⟩
  · show (readSnapshot R p).byId (toString c.plan.outputModuleId) = _
    rw [← houtId]
    exact byId_read hmodules houtMem
  · show (readSnapshot R p).byId (toString c.plan.inputModuleId) = _
    rw [← hinId]
    exact byId_read hmodules hinMem

theorem decimalEnds_read (h : p.Wired) (hids : ∀ m ∈ p.modules, 0 ≤ m.id ∧ m.id ≤ int64Max) :
    (readSnapshot R p).DecimalEnds := by
  intro d hd
  obtain ⟨c, hc, rfl⟩ := List.mem_map.mp hd
  obtain ⟨out, hout, inp, hinp, -, ⟨houtId, -⟩, hinId, -⟩ := joins_read (R := R) h hc
  have hdecimal : ∀ m ∈ p.modules, Analysis.DecimalId (toString m.id) := by
    intro m hm
    have hmax : int64Max = 9223372036854775807 := rfl
    have hbound : (10 : Int) ^ 19 = 10000000000000000000 := rfl
    exact decimalId_toString (hids m hm).1 (by have := (hids m hm).2; omega)
  constructor
  · show Analysis.DecimalId (toString c.plan.outputModuleId)
    rw [← houtId]
    exact hdecimal out hout
  · show Analysis.DecimalId (toString c.plan.inputModuleId)
    rw [← hinId]
    exact hdecimal inp hinp

/-- Two cables of the snapshot that enter the same input are the same cable. -/
theorem same_input_read (h : p.Wired) (hc : c ∈ snapshotCables p) (hd : d ∈ snapshotCables p)
    (hmodule : (readCable R c).inputModuleId = (readCable R d).inputModuleId)
    (hport : (readCable R c).inputId = (readCable R d).inputId) :
    (readCable R c).cableId = (readCable R d).cableId := by
  obtain ⟨hcMem, -, hcIn⟩ := (mem_snapshotCables h.cableIds).mp hc
  obtain ⟨hdMem, -, hdIn⟩ := (mem_snapshotCables h.cableIds).mp hd
  have hmodule : c.plan.inputModuleId = d.plan.inputModuleId := toString_inj hmodule
  have hid := h.single c hcMem d hdMem ⟨hcIn, hdIn, hmodule, hport⟩
  show toString c.id = toString d.id
  rw [hid]

theorem cableIds_read (h : p.Wired) : ((readSnapshot R p).cables.map (·.cableId)).Nodup := by
  have hids := (nodup_snapshotCables h.cableIds).map (f := fun id : Int => toString id) fun _ _ => toString_inj
  rw [List.map_map] at hids
  show (((snapshotCables p).map (readCable R)).map (·.cableId)).Nodup
  rw [List.map_map]
  exact hids

/-- The rules about the wiring have nothing to find. -/
theorem not_issue_read (h : p.Wired) {rule : Validation.ValidationRuleId} {entities : List Validation.EntityRef}
    (hissue : (readSnapshot R p).Issue rule entities) :
    rule ∉ [.cableDangling, .portOutOfBounds, .cableDuplicate, .inputsStacked] := by
  have hjoins : ∀ e ∈ (readSnapshot R p).cables, ∃ c ∈ snapshotCables p, readCable R c = e :=
    fun e he => List.mem_map.mp he
  cases hissue with
  | dangling mem missing =>
    obtain ⟨c, hc, rfl⟩ := hjoins _ mem
    obtain ⟨out, -, inp, -, hjoins, -⟩ := joins_read (R := R) h hc
    exact absurd ⟨_, _, hjoins⟩ missing
  | output mem joins missing =>
    obtain ⟨c, hc, rfl⟩ := hjoins _ mem
    obtain ⟨out, -, inp, -, hjoins, ⟨-, hport⟩, -⟩ := joins_read (R := R) h hc
    obtain rfl := Option.some.inj (joins.1.symm.trans hjoins.1)
    rw [readModule, outputs_read] at missing
    exact absurd hport missing
  | input mem joins missing =>
    obtain ⟨c, hc, rfl⟩ := hjoins _ mem
    obtain ⟨out, -, inp, -, hjoins, -, -, hport⟩ := joins_read (R := R) h hc
    obtain rfl := Option.some.inj (joins.2.symm.trans hjoins.2)
    rw [readModule, inputs_read] at missing
    exact absurd hport missing
  | @duplicate c first before after split joined mem same =>
    obtain ⟨c₀, hc, hcRead⟩ := hjoins c (by rw [split]; exact List.mem_append_right _ List.mem_cons_self)
    obtain ⟨first₀, hfirst, hfirstRead⟩ := hjoins first (by rw [split]; exact List.mem_append_left _ mem)
    subst hcRead hfirstRead
    have hid := same_input_read h hfirst hc same.inputModuleId same.inputId
    have hnodup := cableIds_read (R := R) h
    rw [split, List.map_append, List.nodup_append] at hnodup
    exact absurd hid (hnodup.2.2 _ (List.mem_map_of_mem mem) _ (List.mem_map_of_mem List.mem_cons_self))
  | @stacked c mem joined many =>
    have hsub : ((readSnapshot R p).into c.inputModuleId c.inputId).Sublist (readSnapshot R p).cables :=
      List.filter_sublist
    have hnodup := (cableIds_read (R := R) h).sublist (hsub.map (·.cableId))
    rcases hlist : (readSnapshot R p).into c.inputModuleId c.inputId with _ | ⟨a, _ | ⟨b, rest⟩⟩
    · rw [hlist] at many
      exact absurd many (by decide)
    · rw [hlist] at many
      exact absurd many (by simp)
    · have hinput : ∀ e ∈ (readSnapshot R p).into c.inputModuleId c.inputId,
          e ∈ (readSnapshot R p).cables ∧ e.inputModuleId = c.inputModuleId ∧ e.inputId = c.inputId := by
        intro e he
        obtain ⟨he, hkeys⟩ := List.mem_filter.mp he
        rw [Bool.and_eq_true, Bool.and_eq_true, beq_iff_eq, beq_iff_eq] at hkeys
        exact ⟨he, hkeys.2⟩
      obtain ⟨ha, haModule, haPort⟩ := hinput a (hlist ▸ List.mem_cons_self)
      obtain ⟨hb, hbModule, hbPort⟩ := hinput b (hlist ▸ List.mem_cons_of_mem _ List.mem_cons_self)
      obtain ⟨a₀, ha₀, rfl⟩ := hjoins a ha
      obtain ⟨b₀, hb₀, rfl⟩ := hjoins b hb
      have hid := same_input_read h ha₀ hb₀ (haModule.trans hbModule.symm) (haPort.trans hbPort.symm)
      rw [hlist, List.map_cons, List.map_cons, List.nodup_cons] at hnodup
      exact absurd (hid ▸ List.mem_cons_self) hnodup.1
  | _ => decide

/-- What is read is intact when every parameter has a value. -/
theorem intact_read (h : p.Wired) : (readSnapshot R p).Intact ↔
    ∀ m ∈ p.modules, ∀ i < m.quantities.length, ∃ v, m.valueAt i = .finite v := by
  have hmodules := modules_nodup h
  constructor
  · intro hintact m hm i hi
    have hread : readModule R p m ∈ (readSnapshot R p).modules :=
      List.mem_map_of_mem ((mem_snapshotModules hmodules).mpr hm)
    have hparam : paramOf (buildParam R m i) ∈ (readModule R p m).params := by
      rw [readModule, params_read]
      exact List.mem_map_of_mem (List.mem_range.mpr hi)
    obtain ⟨v, hv⟩ := hintact.params _ hread _ hparam
    exact ⟨v, value_read.mp hv⟩
  · intro hvalues
    constructor
    · intro d hd
      obtain ⟨c, hc, rfl⟩ := List.mem_map.mp hd
      obtain ⟨out, -, inp, -, hjoins, ⟨-, hout⟩, -, hin⟩ := joins_read (R := R) h hc
      refine ⟨_, _, hjoins, ?_, ?_⟩
      · rw [readModule, outputs_read]
        exact hout
      · rw [readModule, inputs_read]
        exact hin
    · intro _ hread q hq
      obtain ⟨m, hm, rfl⟩ := List.mem_map.mp hread
      rw [readModule, params_read] at hq
      obtain ⟨i, hi, rfl⟩ := List.mem_map.mp hq
      obtain ⟨v, hv⟩ := hvalues m ((mem_snapshotModules hmodules).mp hm) i (List.mem_range.mp hi)
      exact ⟨v, value_read.mpr hv⟩

theorem bridgeCount_eq_zero (h : p.Wired) :
    bridgeCount p = 0 ↔ ∀ m ∈ p.modules, isBridgeModule (toWorldModule m) = false := by
  rw [bridgeCount, List.length_eq_zero_iff, List.filter_eq_nil_iff]
  simp only [mem_snapshotModules (modules_nodup h), Bool.not_eq_true]

end Snapshot

/-! ### Over any run -/

/-- The states of the Rack: one that Rack or its user leaves wired, one that a commit leaves, and one that the undo of
a commit leaves that has just succeeded. -/
inductive Reached : RackState → Prop
  | wired {rs : RackState} (patch : rs.patch.Wired) : Reached rs
  | commit {rs : RackState} {w : PanelPatch} (reached : Reached rs) (patch : rs.patch = w.patch)
    (undo : ∀ a p, w.rack.undo a p = .done (a.invert w.rack.relist p)) (request : Json) (durationMs : Double) :
    Reached (txnCommit w.rack request durationMs rs).2
  | undone {rs : RackState} {w : PanelPatch} (reached : Reached rs) (patch : rs.patch = w.patch)
    (undo : ∀ a p, w.rack.undo a p = .done (a.invert w.rack.relist p)) {request : Json} {durationMs : Double}
    (success : (txnCommit w.rack request durationMs rs).1.errorCode = none) (undoRequest : Json)
    (id : jstr undoRequest "expectedOperationId" = jstr request "operationId") :
    Reached (txnUndoLast w.rack undoRequest (txnCommit w.rack request durationMs rs).2).2

theorem Reached.patch_wired {rs : RackState} (h : Reached rs) : rs.patch.Wired := by
  induction h with
  | wired patch => exact patch
  | commit reached patch undo request durationMs ih =>
    exact Patch.Wired.txnCommit (patch ▸ ih) undo patch request durationMs
  | undone reached patch undo success undoRequest id ih =>
    obtain ⟨s, happly, hundone⟩ := txnUndoLast_of_success undo success id
    rw [hundone]
    rw [patch] at happly ih
    exact ih.of_same (Journaled.of_apply happly).undone

/-- Whatever commits did to the patch, the validation of its snapshot finds the wiring in order: no cable dangles, no
port is out of bounds, no cable is doubled and no input stacked. It counts no error exactly when every parameter has a
value, and misses the Bridge exactly when there is none. -/
theorem snapshot_validates (R : SnapshotReadings) (rack : Rack) (numberText : Double → String) {rs : RackState}
    {payload : Json} (h : Reached rs) (hids : ∀ m ∈ rs.patch.modules, 0 ≤ m.id ∧ m.id ≤ int64Max)
    (hpayload : buildPatchSnapshot R rack rs.patch false = some payload) :
    ∃ report, WhileLoop.Returns (Validation.validatePatch numberText (snapshotOf payload)) report ∧
      (∀ f ∈ report.findings, f.ruleId ∉ [.cableDangling, .portOutOfBounds, .cableDuplicate, .inputsStacked]) ∧
      (report.errorCount = 0 ↔
        ∀ m ∈ rs.patch.modules, ∀ i < m.quantities.length, ∃ v, m.valueAt i = .finite v) ∧
      ((∃ f ∈ report.findings, f.ruleId = .bridgeMissing) ↔
        ∀ m ∈ rs.patch.modules, isBridgeModule (toWorldModule m) = false) := by
  have hwired := h.patch_wired
  have hread : snapshotOf payload = readSnapshot R rs.patch := snapshotOf_payload hpayload
  rw [hread]
  have hends : (readSnapshot R rs.patch).DecimalEnds := decimalEnds_read hwired hids
  obtain ⟨report, hreturns, hexact⟩ := Validation.validatePatch_returns numberText hends
  refine ⟨report, hreturns, fun f hf => not_issue_read hwired (hexact.sound f hf).1.issue, ?_, ?_⟩
  · rw [hexact.errorCount_eq_zero, intact_read hwired]
  · rw [← bridgeCount_eq_zero hwired]
    constructor
    · rintro ⟨f, hf, hrule⟩
      have hissue := (hexact.sound f hf).1.issue
      rw [hrule] at hissue
      generalize hentities : f.entities = entities at hissue
      cases hissue with
      | bridgeMissing none => exact none
    · intro hnone
      obtain ⟨f, hf, hrule, -⟩ := hexact.complete _ _ (.bridgeMissing hnone)
      exact ⟨f, hf, hrule⟩

/-! ### The bench -/

theorem benchPatch_wired : benchPatch.Wired where
  moduleIds := by decide
  cableIds := by decide
  widgets := by decide
  outputs := by decide
  inputs := by decide
  single c hc d hd _ := by rw [List.mem_singleton.mp hc, List.mem_singleton.mp hd]

/-- Readings without texts. -/
def benchSnapshotReadings : SnapshotReadings where
  rackVersion := []
  rackEdition := []
  instanceId := []
  sessionId := []
  patchEpoch := 1
  patchName := []
  saved := true
  sampleRate := .finite 48000
  module _ :=
    { pluginVersion := [], modelName := [], leftExpander := -1, rightExpander := -1
      params := fun _ => ⟨[], [], [], .finite 0, false⟩, inputs := fun _ => ⟨[], 0, false⟩
      outputs := fun _ => ⟨[], 0, false⟩, data := .null }
  normalize _ x := x
  gridPosition _ := (0, 0)
  gridWidth _ := 6
  toHexString _ := []

/-- After the oscillator is removed, nothing is out of order and the Bridge is still there. -/
theorem snapshot_validates_bench : ∃ report payload,
    WhileLoop.Returns (Validation.validatePatch (fun _ => "") (snapshotOf payload)) report ∧ report.errorCount = 0 ∧
      ∀ f ∈ report.findings, f.ruleId ≠ .bridgeMissing := by
  have hreached : Reached (txnCommit benchRack (benchCommitRequest "11111111-a" "1 2 3" removeOscillator) .nan
      { patch := benchPatch }).2 :=
    .commit (w := benchPanels) (.wired benchPatch_wired) rfl (fun _ _ => rfl) _ _
  generalize hafter : (txnCommit benchRack (benchCommitRequest "11111111-a" "1 2 3" removeOscillator) .nan
      { patch := benchPatch }).2 = rs at hreached
  have hpatch : rs.patch.modules = benchPatch.modules.drop 1 := by
    rw [← hafter]
    decide +kernel
  have hids : ∀ m ∈ rs.patch.modules, 0 ≤ m.id ∧ m.id ≤ int64Max := by
    rw [hpatch]
    decide
  obtain ⟨report, hreturns, -, herrors, hbridge⟩ :=
    snapshot_validates benchSnapshotReadings benchRack (fun _ => "") hreached hids rfl
  refine ⟨report, _, hreturns, herrors.mpr ?_, fun f hf hrule => ?_⟩
  · rw [hpatch]
    intro m hm i hi
    simp only [benchPatch, List.drop_succ_cons, List.drop_zero, List.mem_cons, List.not_mem_nil, or_false] at hm
    rcases hm with rfl | rfl
    · obtain rfl : i = 0 := by
        have hi : i < 1 := hi
        omega
      exact ⟨0, rfl⟩
    · exact absurd hi (Nat.not_lt_zero i)
  · have hnone := hbridge.mp ⟨f, hf, hrule⟩
    rw [hpatch] at hnone
    exact absurd (hnone _ (List.mem_cons_of_mem _ List.mem_cons_self)) (by decide)

end RackMcp
