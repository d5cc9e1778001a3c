import RackMcp.Server.Validation
import RackMcp.Proof.SignalPath
import RackMcp.Proof.CanonicalText

/-!
# What the validation finds

`Snapshot.Issue` says of each rule what it is about, without the loops and their tables: a rule and the entities that
a finding names. A loop over the cables or modules finds what concerns an element and those before it (`seenAfter`,
`posSeenAfter`), and the texts that key its tables tell the ends of cables and the positions of modules apart.
-/

namespace RackMcp.Validation

open Reachability
open Analysis (DecimalId isAudioDestination)

namespace Snapshot

variable (snap : Snapshot)

/-- The modules at the ends of a cable. -/
def Joins (c : CableS) (out inp : ModuleS) : Prop :=
  snap.byId c.outputModuleId = some out ∧ snap.byId c.inputModuleId = some inp

/-- Both ends of a cable are modules of the patch. -/
def Joined (c : CableS) : Prop := ∃ out inp, snap.Joins c out inp

/-- The cables into an input whose ends are modules of the patch. -/
def into (moduleId : String) (portId : ℤ) : List CableS :=
  snap.cables.filter fun c => snap.joined c && (c.inputModuleId == moduleId && c.inputId == portId)

/-- The module has a cable to itself, or cables from listed modules lead from it to another one and back. -/
def OnCycle (id : String) : Prop :=
  (∃ c ∈ snap.graph.cables, c.outputModuleId = id ∧ c.inputModuleId = id) ∨
    ∃ other, other ≠ id ∧ Relation.ReflTransGen snap.graph.FromListed id other ∧
      Relation.ReflTransGen snap.graph.FromListed other id

/-- Cables lead from the module to an audio destination. -/
def FeedsDestination (id : String) : Prop :=
  ∃ dest ∈ snap.modules, isAudioDestination dest.toModuleS = true ∧
    Relation.ReflTransGen snap.graph.Cabled id dest.moduleId

/-- The neighbour is in the patch, and ends where the position begins, on its row. -/
def Beside (leftId : String) (pos : GridPosition) : Prop :=
  ∃ l width, snap.byId leftId = some l ∧ l.gridWidth = some width ∧ width ≠ 0 ∧
    l.gridPosition = some ⟨pos.x - width, pos.y⟩

/-- The ids in cables are decimal. -/
def DecimalEnds : Prop := ∀ c ∈ snap.cables, DecimalId c.outputModuleId ∧ DecimalId c.inputModuleId

end Snapshot

/-- The cables join the same ports. -/
structure SameEnds (c c' : CableS) : Prop where
  outputModuleId : c.outputModuleId = c'.outputModuleId
  outputId : c.outputId = c'.outputId
  inputModuleId : c.inputModuleId = c'.inputModuleId
  inputId : c.inputId = c'.inputId

/-- What the rules are about: the rule, and the entities that a finding of it names. -/
inductive Snapshot.Issue (snap : Snapshot) : ValidationRuleId → List EntityRef → Prop
  | dangling {c : CableS} (mem : c ∈ snap.cables) (end_missing : ¬ snap.Joined c) :
    Issue snap .cableDangling [.cable c.cableId]
  | output {c : CableS} {out inp : ModuleS} (mem : c ∈ snap.cables) (joins : snap.Joins c out inp)
    (missing : ¬ (0 ≤ c.outputId ∧ c.outputId < out.outputs.length)) :
    Issue snap .portOutOfBounds [.port c.outputModuleId .output c.outputId]
  | input {c : CableS} {out inp : ModuleS} (mem : c ∈ snap.cables) (joins : snap.Joins c out inp)
    (missing : ¬ (0 ≤ c.inputId ∧ c.inputId < inp.inputs.length)) :
    Issue snap .portOutOfBounds [.port c.inputModuleId .input c.inputId]
  | duplicate {c first : CableS} {before after : List CableS} (split : snap.cables = before ++ c :: after)
    (joined : snap.Joined c) (mem : first ∈ before) (same : SameEnds first c) :
    Issue snap .cableDuplicate [.cable c.cableId]
  | stacked {c : CableS} (mem : c ∈ snap.cables) (joined : snap.Joined c)
    (many : 1 < (snap.into c.inputModuleId c.inputId).length) :
    Issue snap .inputsStacked ((snap.into c.inputModuleId c.inputId).map (.cable ·.cableId))
  | collision {m first : ModuleS} {before after : List ModuleS} {pos : GridPosition}
    (split : snap.modules = before ++ m :: after) (mem : first ∈ before) (position : m.gridPosition = some pos)
    (same : first.gridPosition = some pos) : Issue snap .moduleCollision [.module m.moduleId]
  | expander {m : ModuleS} {leftId : String} {pos : GridPosition} (mem : m ∈ snap.modules)
    (left : m.left = some leftId) (nonempty : leftId ≠ "") (position : m.gridPosition = some pos)
    (apart : ¬ snap.Beside leftId pos) : Issue snap .expanderAdjacency [.module m.moduleId]
  | nonFinite {m : ModuleS} {p : ParamS} (mem : m ∈ snap.modules) (param : p ∈ m.params)
    (value : ∀ v, p.value ≠ some (.finite v)) : Issue snap .paramNonFinite [.param m.moduleId p.paramId]
  | outOfRange {m : ModuleS} {p : ParamS} {v : ℚ} {low high : Double} (mem : m ∈ snap.modules) (param : p ∈ m.params)
    (value : p.value = some (.finite v)) (minValue : p.minValue = some low) (maxValue : p.maxValue = some high)
    (outside : outside (.finite v) low high = true) : Issue snap .paramOutOfRange [.param m.moduleId p.paramId]
  | outsideSafeRange {m : ModuleS} {p : ParamS} {v : ℚ} {low high : Double} (mem : m ∈ snap.modules)
    (param : p ∈ m.params) (value : p.value = some (.finite v))
    (within : ∀ low high, p.minValue = some low → p.maxValue = some high →
      Validation.outside (.finite v) low high = false)
    (safe : safeRange m p = some (low, high)) (outside : Validation.outside (.finite v) low high = true) :
    Issue snap .paramOutsideSafeRange [.param m.moduleId p.paramId]
  | bridgeMissing (none : snap.bridgeModuleCount = 0) : Issue snap .bridgeMissing [.patch]
  | interruptsPath {m : ModuleS} (mem : m ∈ snap.modules) (bypassed : m.bypassed = true)
    (incoming : ∃ p ∈ m.inputs, p.connected = true) (outgoing : ∃ p ∈ m.outputs, p.connected = true)
    (feeds : snap.FeedsDestination m.moduleId) : Issue snap .bypassInterruptsPath [.module m.moduleId]
  | feedback {ids : List String} (nodup : ids.Nodup) (mem : ∀ id, id ∈ ids ↔ snap.OnCycle id) (nonempty : ids ≠ []) :
    Issue snap .cycleFeedback ((ids.take 64).map .module)
  | roleCross {c : CableS} {out inp : ModuleS} {a b : Family} (mem : c ∈ snap.cables) (joins : snap.Joins c out inp)
    (ports : c.outputId < out.outputs.length ∧ c.inputId < inp.inputs.length)
    (output : familyOf (outputRoleOf out c.outputId) = some a) (input : familyOf (inputRoleOf inp c.inputId) = some b)
    (differ : a ≠ b) : Issue snap .signalRoleCross [.cable c.cableId]
  | pitchGate {c : CableS} {out inp : ModuleS} {a b : ControlKind} (mem : c ∈ snap.cables)
    (joins : snap.Joins c out inp) (ports : c.outputId < out.outputs.length ∧ c.inputId < inp.inputs.length)
    (output : controlKindOf (outputRoleOf out c.outputId) = some a)
    (input : controlKindOf (inputRoleOf inp c.inputId) = some b) (differ : a ≠ b) :
    Issue snap .pitchGateConfusion [.cable c.cableId]
  | polyIntoMono {c : CableS} {out inp : ModuleS} (mem : c ∈ snap.cables) (joins : snap.Joins c out inp)
    (ports : c.outputId < out.outputs.length ∧ c.inputId < inp.inputs.length)
    (poly : 1 < channelsOf out c.outputId) (mono : inputPolyphonyOf inp c.inputId = some .monophonic) :
    Issue snap .polyIntoMono [.cable c.cableId]
  | unverified (nonempty : unadaptered snap ≠ []) :
    Issue snap .unverifiedModules (((unadaptered snap).take 64).map (.module ·.moduleId))
  | noInput (nonempty : snap.destinations ≠ [])
    (unconnected : ∀ m ∈ snap.destinations, ∀ p ∈ m.inputs, p.connected = false) :
    Issue snap .audioNoInput (snap.destinations.map (.module ·.moduleId))
  | noDestination (none : ∀ m ∈ snap.modules, isAudioDestination m.toModuleS = false) :
    Issue snap .audioNoDestination [.patch]

/-- The severity of a rule's findings. -/
def severityOf : ValidationRuleId → Severity
  | .cableDangling | .portOutOfBounds | .paramNonFinite => .error
  | .cableDuplicate | .moduleCollision | .paramOutOfRange | .bridgeMissing | .bypassInterruptsPath
  | .audioNoInput => .warning
  | _ => .info

/-- The finding is about an issue, under the severity of its rule. -/
structure Snapshot.Justifies (snap : Snapshot) (f : ValidationFinding) : Prop where
  issue : snap.Issue f.ruleId f.entities
  severity : f.severity = severityOf f.ruleId

/-! ### Keys -/

/-- A separator that is in neither first part tells where the first parts end. -/
theorem cut_at {α : Type} {sep : α} {a a' b b' : List α} (ha : sep ∉ a) (ha' : sep ∉ a')
    (h : a ++ sep :: b = a' ++ sep :: b') : a = a' ∧ b = b' := by
  induction a generalizing a' with
  | nil =>
    rcases a' with _ | ⟨x, a'⟩
    · exact ⟨rfl, (List.cons.inj h).2⟩
    · exact absurd (List.mem_cons.mpr (.inl (List.cons.inj h).1)) ha'
  | cons x a ih =>
    rcases a' with _ | ⟨y, a'⟩
    · exact absurd (List.mem_cons.mpr (.inl (List.cons.inj h).1.symm)) ha
    · obtain ⟨hxy, hrest⟩ := List.cons.inj h
      obtain ⟨hab, hb⟩ := ih (fun hmem => ha (List.mem_cons_of_mem x hmem))
        (fun hmem => ha' (List.mem_cons_of_mem y hmem)) hrest
      exact ⟨by rw [hxy, hab], hb⟩

theorem isDigit_of_decimalId {id : String} {c : Char} (h : DecimalId id) (hc : c ∈ id.toList) : c.isDigit = true := by
  have hrange : ∀ d : Char, '0' ≤ d ∧ d ≤ '9' → d.isDigit = true := by
    intro d hd
    unfold Char.isDigit
    rw [Bool.and_eq_true, decide_eq_true_eq, decide_eq_true_eq]
    exact hd
  rcases h with rfl | ⟨hfirst, hrest, -⟩
  · have hzero : c = '0' := List.mem_singleton.mp hc
    rw [hzero]
    rfl
  · rcases hlist : id.toList with _ | ⟨d, digits⟩
    · rw [hlist] at hc
      exact absurd hc List.not_mem_nil
    · rw [hlist] at hc hfirst hrest
      rcases List.mem_cons.mp hc with rfl | hc
      · have hfirst : '1' ≤ c ∧ c ≤ '9' := of_decide_eq_true hfirst
        have hzero : '0' ≤ '1' := by decide
        exact hrange c ⟨Char.le_trans hzero hfirst.1, hfirst.2⟩
      · exact hrange c (of_decide_eq_true (List.all_eq_true.mp hrest c hc))

theorem not_mem_decimalId {id : String} {c : Char} (h : DecimalId id) (hc : c.isDigit = false) : c ∉ id.toList := by
  intro hmem
  rw [isDigit_of_decimalId h hmem] at hc
  exact absurd hc (by decide)

theorem not_mem_integer {n : ℤ} {c : Char} (hc : c.isDigit = false) (hdash : c ≠ '-') : c ∉ (toString n).toList := by
  intro hmem
  rcases integer_char hmem with hdigit | hminus
  · rw [hdigit] at hc
    exact absurd hc (by decide)
  · exact hdash hminus

theorem positionKey_inj {pos pos' : GridPosition} (h : positionKey pos = positionKey pos') : pos = pos' := by
  have hlists : (toString pos.x).toList ++ ',' :: (toString pos.y).toList =
      (toString pos'.x).toList ++ ',' :: (toString pos'.y).toList := by
    have hkeys := congrArg String.toList h
    simpa [positionKey] using hkeys
  obtain ⟨hx, hy⟩ := cut_at (not_mem_integer rfl (by decide)) (not_mem_integer rfl (by decide)) hlists
  exact (GridPosition.mk.injEq ..).mpr ⟨integer_injective hx, integer_injective hy⟩

theorem inKey_inj {c c' : CableS} (hc : DecimalId c.inputModuleId) (hc' : DecimalId c'.inputModuleId)
    (h : inKey c = inKey c') : c.inputModuleId = c'.inputModuleId ∧ c.inputId = c'.inputId := by
  have hlists : c.inputModuleId.toList ++ ':' :: (toString c.inputId).toList =
      c'.inputModuleId.toList ++ ':' :: (toString c'.inputId).toList := by
    have hkeys := congrArg String.toList h
    simpa [inKey] using hkeys
  obtain ⟨hmodule, hport⟩ := cut_at (not_mem_decimalId hc rfl) (not_mem_decimalId hc' rfl) hlists
  exact ⟨String.toList_inj.mp hmodule, integer_injective hport⟩

theorem endsKey_inj {c c' : CableS} (hout : DecimalId c.outputModuleId) (hout' : DecimalId c'.outputModuleId)
    (hin : DecimalId c.inputModuleId) (hin' : DecimalId c'.inputModuleId) (h : endsKey c = endsKey c') :
    SameEnds c c' := by
  have hlists : c.outputModuleId.toList ++ ':' :: (((toString c.outputId).toList ++ ['-']) ++
      '>' :: (c.inputModuleId.toList ++ ':' :: (toString c.inputId).toList)) =
      c'.outputModuleId.toList ++ ':' :: (((toString c'.outputId).toList ++ ['-']) ++
        '>' :: (c'.inputModuleId.toList ++ ':' :: (toString c'.inputId).toList)) := by
    have hkeys := congrArg String.toList h
    simpa [endsKey] using hkeys
  have harrow : ∀ n : ℤ, '>' ∉ (toString n).toList ++ ['-'] := by
    intro n hmem
    rcases List.mem_append.mp hmem with hmem | hmem
    · exact not_mem_integer rfl (by decide) hmem
    · exact absurd (List.mem_singleton.mp hmem) (by decide)
  obtain ⟨houtModule, hrest⟩ := cut_at (not_mem_decimalId hout rfl) (not_mem_decimalId hout' rfl) hlists
  obtain ⟨houtPort, hrest⟩ := cut_at (harrow _) (harrow _) hrest
  obtain ⟨hinModule, hinPort⟩ := cut_at (not_mem_decimalId hin rfl) (not_mem_decimalId hin' rfl) hrest
  exact ⟨String.toList_inj.mp houtModule, integer_injective (List.append_cancel_right houtPort),
    String.toList_inj.mp hinModule, integer_injective hinPort⟩

/-! ### Cables -/

namespace Snapshot

variable {snap : Snapshot} {c : CableS} {out inp : ModuleS}

theorem joined_iff : snap.joined c = true ↔ snap.Joined c := by
  unfold joined Joined Joins
  rw [Bool.and_eq_true, Option.isSome_iff_exists, Option.isSome_iff_exists]
  exact ⟨fun ⟨⟨out, hout⟩, inp, hinp⟩ => ⟨out, inp, hout, hinp⟩,
    fun ⟨out, inp, hout, hinp⟩ => ⟨⟨out, hout⟩, inp, hinp⟩⟩

end Snapshot

variable {snap : Snapshot} {f : ValidationFinding}

section Cables
variable {c : CableS} {out inp : ModuleS} {cables before : List CableS} {seen : List String}

theorem checkCable_of_not_joined (seen : List String) (h : ¬ snap.Joined c) :
    ∃ text, checkCable snap seen c = [dangling c text] := by
  unfold checkCable
  split
  · exact ⟨_, rfl⟩
  · next out hout =>
    split
    · exact ⟨_, rfl⟩
    · next inp hinp => exact absurd ⟨out, inp, hout, hinp⟩ h

theorem checkCable_of_joins (h : snap.Joins c out inp) : checkCable snap seen c =
    (if c.outputId < 0 ∨ c.outputId ≥ out.outputs.length then
      [outOfBounds c out c.outputModuleId .output c.outputId out.outputs.length] else []) ++
    (if c.inputId < 0 ∨ c.inputId ≥ inp.inputs.length then
      [outOfBounds c inp c.inputModuleId .input c.inputId inp.inputs.length] else []) ++
    if endsKey c ∈ seen then [duplicate c] else [] := by
  unfold checkCable
  rw [h.1, h.2]

theorem mem_ite_singleton {p : Prop} [Decidable p] {g : ValidationFinding} :
    f ∈ (if p then [g] else []) ↔ p ∧ f = g := by
  split
  · next h => rw [List.mem_singleton, and_iff_right h]
  · next h => exact ⟨fun hf => absurd hf List.not_mem_nil, fun hf => absurd hf.1 h⟩

theorem mem_checkCable_of_joins (h : snap.Joins c out inp) : f ∈ checkCable snap seen c ↔
    ((c.outputId < 0 ∨ c.outputId ≥ out.outputs.length) ∧
      f = outOfBounds c out c.outputModuleId .output c.outputId out.outputs.length ∨
    (c.inputId < 0 ∨ c.inputId ≥ inp.inputs.length) ∧
      f = outOfBounds c inp c.inputModuleId .input c.inputId inp.inputs.length) ∨
    endsKey c ∈ seen ∧ f = duplicate c := by
  rw [checkCable_of_joins h, List.mem_append, List.mem_append, mem_ite_singleton, mem_ite_singleton,
    mem_ite_singleton]

/-- `seenCablePairs` after some cables. -/
def seenAfter (snap : Snapshot) (seen : List String) (before : List CableS) : List String :=
  before.foldl (fun seen c => if snap.joined c then setAdd seen (endsKey c) else seen) seen

theorem mem_seenAfter {key : String} :
    key ∈ seenAfter snap seen before ↔ key ∈ seen ∨ ∃ c ∈ before, snap.Joined c ∧ endsKey c = key := by
  induction before generalizing seen with
  | nil => simp [seenAfter]
  | cons c before ih =>
    have hstep : seenAfter snap seen (c :: before) =
        seenAfter snap (if snap.joined c then setAdd seen (endsKey c) else seen) before := rfl
    rw [hstep, ih]
    by_cases hc : snap.Joined c
    · rw [if_pos (Snapshot.joined_iff.mpr hc), mem_setAdd]
      simp only [List.mem_cons, exists_eq_or_imp, hc, true_and, or_assoc, @eq_comm _ key]
    · rw [if_neg fun h => hc (Snapshot.joined_iff.mp h)]
      simp only [List.mem_cons, exists_eq_or_imp, hc, false_and, false_or]

theorem mem_checkCables : f ∈ checkCables snap cables seen ↔
    ∃ before c after, cables = before ++ c :: after ∧ f ∈ checkCable snap (seenAfter snap seen before) c := by
  induction cables generalizing seen with
  | nil => simp [checkCables]
  | cons d cables ih =>
    rw [checkCables, List.mem_append, ih]
    constructor
    · rintro (hf | ⟨before, c, after, rfl, hf⟩)
      · exact ⟨[], d, cables, rfl, hf⟩
      · exact ⟨d :: before, c, after, rfl, hf⟩
    · rintro ⟨before, c, after, hsplit, hf⟩
      rcases before with _ | ⟨e, before⟩
      · obtain ⟨rfl, rfl⟩ := List.cons.inj hsplit
        exact .inl hf
      · obtain ⟨rfl, rfl⟩ := List.cons.inj hsplit
        exact .inr ⟨before, c, after, rfl, hf⟩

theorem checkCables_sound (h : snap.DecimalEnds) (hf : f ∈ checkCables snap snap.cables []) : snap.Justifies f := by
  obtain ⟨before, c, after, hsplit, hf⟩ := mem_checkCables.mp hf
  have hmem : c ∈ snap.cables := by
    rw [hsplit]
    exact List.mem_append_right _ List.mem_cons_self
  by_cases hjoined : snap.Joined c
  · obtain ⟨out, inp, hjoins⟩ := hjoined
    rcases (mem_checkCable_of_joins hjoins).mp hf with (⟨hport, rfl⟩ | ⟨hport, rfl⟩) | ⟨hseen, rfl⟩
    · exact ⟨.output hmem hjoins (by omega), rfl⟩
    · exact ⟨.input hmem hjoins (by omega), rfl⟩
    · rcases mem_seenAfter.mp hseen with hnil | ⟨first, hfirst, -, hkey⟩
      · exact absurd hnil List.not_mem_nil
      · have hends := h first (by rw [hsplit]; exact List.mem_append_left _ hfirst)
        have hsame := endsKey_inj hends.1 (h c hmem).1 hends.2 (h c hmem).2 hkey
        exact ⟨.duplicate hsplit ⟨out, inp, hjoins⟩ hfirst hsame, rfl⟩
  · obtain ⟨text, htext⟩ := checkCable_of_not_joined (seenAfter snap [] before) hjoined
    rw [htext] at hf
    obtain rfl := List.mem_singleton.mp hf
    exact ⟨.dangling hmem hjoined, rfl⟩

theorem mem_checkCables_of_all {g : ValidationFinding} (hc : c ∈ snap.cables)
    (hg : ∀ seen, g ∈ checkCable snap seen c) : g ∈ checkCables snap snap.cables [] := by
  obtain ⟨before, after, hsplit⟩ := List.append_of_mem hc
  exact mem_checkCables.mpr ⟨before, c, after, hsplit, hg _⟩

theorem dangling_found (hc : c ∈ snap.cables) (h : ¬ snap.Joined c) :
    ∃ text, dangling c text ∈ checkCables snap snap.cables [] := by
  obtain ⟨before, after, hsplit⟩ := List.append_of_mem hc
  obtain ⟨text, htext⟩ := checkCable_of_not_joined (seenAfter snap [] before) h
  refine ⟨text, mem_checkCables.mpr ⟨before, c, after, hsplit, ?_⟩⟩
  rw [htext]
  exact List.mem_singleton_self _

theorem duplicate_found {first : CableS} {after : List CableS} (hsplit : snap.cables = before ++ c :: after)
    (hjoined : snap.Joined c) (hfirst : first ∈ before) (hsame : SameEnds first c) :
    duplicate c ∈ checkCables snap snap.cables [] := by
  obtain ⟨out, inp, hjoins⟩ := hjoined
  have hfirstJoined : snap.Joined first := by
    refine ⟨out, inp, ?_, ?_⟩
    · rw [hsame.outputModuleId]
      exact hjoins.1
    · rw [hsame.inputModuleId]
      exact hjoins.2
  have hkey : endsKey first = endsKey c := by
    unfold endsKey
    rw [hsame.outputModuleId, hsame.outputId, hsame.inputModuleId, hsame.inputId]
  have hseen : endsKey c ∈ seenAfter snap [] before := mem_seenAfter.mpr (.inr ⟨first, hfirst, hfirstJoined, hkey⟩)
  exact mem_checkCables.mpr ⟨before, c, after, hsplit, (mem_checkCable_of_joins hjoins).mpr (.inr ⟨hseen, rfl⟩)⟩

end Cables

/-! ### Inputs -/

section Inputs
variable {c : CableS} {key : String}

theorem mem_inKeys : key ∈ inKeys snap ↔ ∃ c ∈ snap.cables, snap.Joined c ∧ inKey c = key := by
  rw [inKeys, mem_foldl_setAdd, List.mem_map, or_iff_right List.not_mem_nil]
  simp only [List.mem_filter, Snapshot.joined_iff, and_assoc]

theorem cablesInto_inKey (h : snap.DecimalEnds) (hc : c ∈ snap.cables) :
    cablesInto snap (inKey c) = snap.into c.inputModuleId c.inputId := by
  unfold cablesInto Snapshot.into
  refine List.filter_congr fun d hd => ?_
  have hkeys : (inKey d == inKey c) = (d.inputModuleId == c.inputModuleId && d.inputId == c.inputId) := by
    rw [Bool.eq_iff_iff, Bool.and_eq_true, beq_iff_eq, beq_iff_eq, beq_iff_eq]
    constructor
    · exact inKey_inj (h d hd).2 (h c hc).2
    · rintro ⟨hmodule, hport⟩
      unfold inKey
      rw [hmodule, hport]
  rw [hkeys]

theorem mem_checkInput : f ∈ checkInput snap key ↔ 1 < (cablesInto snap key).length ∧
    f = stacked snap (((key.toList.splitOn ':').map String.ofList).getD 0 "")
      (((key.toList.splitOn ':').map String.ofList).getD 1 "") (cablesInto snap key) :=
  mem_ite_singleton

theorem checkInput_sound (h : snap.DecimalEnds) (hf : f ∈ (inKeys snap).flatMap (checkInput snap)) :
    snap.Justifies f := by
  obtain ⟨key, hkey, hf⟩ := List.mem_flatMap.mp hf
  obtain ⟨c, hc, hjoined, rfl⟩ := mem_inKeys.mp hkey
  obtain ⟨hmany, rfl⟩ := mem_checkInput.mp hf
  rw [cablesInto_inKey h hc] at hmany ⊢
  exact ⟨.stacked hc hjoined hmany, rfl⟩

theorem stacked_found (h : snap.DecimalEnds) (hc : c ∈ snap.cables) (hjoined : snap.Joined c)
    (hmany : 1 < (snap.into c.inputModuleId c.inputId).length) :
    ∃ f ∈ (inKeys snap).flatMap (checkInput snap), f.ruleId = .inputsStacked ∧
      f.entities = (snap.into c.inputModuleId c.inputId).map (.cable ·.cableId) := by
  have hinto := cablesInto_inKey h hc
  refine ⟨_, List.mem_flatMap.mpr ⟨inKey c, mem_inKeys.mpr ⟨c, hc, hjoined, rfl⟩,
    mem_checkInput.mpr ⟨hinto ▸ hmany, rfl⟩⟩, rfl, ?_⟩
  rw [hinto]
  rfl

end Inputs

/-! ### Modules -/

section Modules
variable {m : ModuleS} {modules before : List ModuleS} {pos : GridPosition} {posSeen : List (String × String)}

/-- `posSeen` after some modules. -/
def posSeenAfter (posSeen : List (String × String)) (before : List ModuleS) : List (String × String) :=
  before.foldl (fun posSeen m => match m.gridPosition with
    | none => posSeen
    | some pos => (positionKey pos, m.moduleId) :: posSeen) posSeen

theorem isSome_lookup_posSeenAfter {key : String} : ((posSeenAfter posSeen before).lookup key).isSome ↔
    (posSeen.lookup key).isSome ∨ ∃ m ∈ before, ∃ pos, m.gridPosition = some pos ∧ positionKey pos = key := by
  induction before generalizing posSeen with
  | nil => simp [posSeenAfter]
  | cons m before ih =>
    rcases hpos : m.gridPosition with _ | pos
    · have hstep : posSeenAfter posSeen (m :: before) = posSeenAfter posSeen before := by
        simp only [posSeenAfter, List.foldl_cons, hpos]
      rw [hstep, ih]
      simp only [List.mem_cons, exists_eq_or_imp, hpos, reduceCtorEq, false_and, exists_false, false_or]
    · have hstep : posSeenAfter posSeen (m :: before) =
          posSeenAfter ((positionKey pos, m.moduleId) :: posSeen) before := by
        simp only [posSeenAfter, List.foldl_cons, hpos]
      have hlookup : (((positionKey pos, m.moduleId) :: posSeen).lookup key).isSome ↔
          positionKey pos = key ∨ (posSeen.lookup key).isSome := by
        rw [List.lookup_cons]
        by_cases hkey : key = positionKey pos
        · rw [hkey]
          simp
        · simp [beq_false_of_ne hkey, Ne.symm hkey]
      rw [hstep, ih, hlookup]
      simp only [List.mem_cons, exists_eq_or_imp, hpos, Option.some.injEq, exists_eq_left', or_assoc]
      exact or_left_comm

theorem checkPositions_cons : checkPositions (m :: modules) posSeen =
    ((m.gridPosition.bind fun pos =>
      ((posSeen.lookup (positionKey pos)).map (collision m pos))).toList ++
        checkPositions modules (posSeenAfter posSeen [m])) := by
  rcases hpos : m.gridPosition with _ | pos
  · simp only [checkPositions, posSeenAfter, List.foldl_cons, List.foldl_nil, hpos]
    rfl
  · simp only [checkPositions, posSeenAfter, List.foldl_cons, List.foldl_nil, hpos]
    rfl

theorem mem_collision : f ∈ (m.gridPosition.bind fun pos =>
    (posSeen.lookup (positionKey pos)).map (collision m pos)).toList ↔
      ∃ pos other, m.gridPosition = some pos ∧ posSeen.lookup (positionKey pos) = some other ∧
        f = collision m pos other := by
  rw [Option.mem_toList, Option.bind_eq_some_iff]
  simp only [Option.map_eq_some_iff, exists_and_left, @eq_comm _ f]

theorem mem_checkPositions : f ∈ checkPositions modules posSeen ↔
    ∃ before m after, modules = before ++ m :: after ∧ ∃ pos other, m.gridPosition = some pos ∧
      (posSeenAfter posSeen before).lookup (positionKey pos) = some other ∧ f = collision m pos other := by
  induction modules generalizing posSeen with
  | nil => simp [checkPositions]
  | cons d modules ih =>
    rw [checkPositions_cons, List.mem_append, mem_collision, ih]
    constructor
    · rintro (hf | ⟨before, m, after, rfl, hf⟩)
      · exact ⟨[], d, modules, rfl, hf⟩
      · exact ⟨d :: before, m, after, rfl, hf⟩
    · rintro ⟨before, m, after, hsplit, hf⟩
      rcases before with _ | ⟨e, before⟩
      · obtain ⟨rfl, rfl⟩ := List.cons.inj hsplit
        exact .inl hf
      · obtain ⟨rfl, rfl⟩ := List.cons.inj hsplit
        exact .inr ⟨before, m, after, rfl, hf⟩

theorem checkPositions_sound (hf : f ∈ checkPositions snap.modules []) : snap.Justifies f := by
  obtain ⟨before, m, after, hsplit, pos, other, hpos, hother, rfl⟩ := mem_checkPositions.mp hf
  have hseen : ((posSeenAfter [] before).lookup (positionKey pos)).isSome := hother ▸ rfl
  rcases isSome_lookup_posSeenAfter.mp hseen with hnil | ⟨first, hfirst, pos', hpos', hkey⟩
  · exact absurd hnil Bool.false_ne_true
  · obtain rfl := positionKey_inj hkey
    exact ⟨.collision hsplit hfirst hpos hpos', rfl⟩

theorem collision_found {first : ModuleS} {after : List ModuleS} (hsplit : snap.modules = before ++ m :: after)
    (hfirst : first ∈ before) (hpos : m.gridPosition = some pos) (hsame : first.gridPosition = some pos) :
    ∃ other, collision m pos other ∈ checkPositions snap.modules [] := by
  have hseen : ((posSeenAfter [] before).lookup (positionKey pos)).isSome :=
    isSome_lookup_posSeenAfter.mpr (.inr ⟨first, hfirst, pos, hsame, rfl⟩)
  obtain ⟨other, hother⟩ := Option.isSome_iff_exists.mp hseen
  exact ⟨other, mem_checkPositions.mpr ⟨before, m, after, hsplit, pos, other, hpos, hother, rfl⟩⟩

/-! #### Expanders -/

theorem adjacent_iff {leftId : String} : adjacent (snap.byId leftId) pos = true ↔ snap.Beside leftId pos := by
  unfold Snapshot.Beside adjacent
  rcases hl : snap.byId leftId with _ | l
  · simp
  · rcases hleft : l.gridPosition with _ | left
    · simp [hleft]
    · rcases hwidth : l.gridWidth with _ | width
      · simp [hwidth]
      · simp only [hleft, hwidth, Bool.and_eq_true, bne_iff_ne, ne_eq, beq_iff_eq, Option.some.injEq]
        constructor
        · rintro ⟨⟨hne, hy⟩, hx⟩
          refine ⟨l, width, rfl, hwidth, hne, ?_⟩
          rw [hleft, Option.some.injEq, GridPosition.mk.injEq]
          exact ⟨by omega, hy⟩
        · rintro ⟨l', width', rfl, hwidth', hne, hpos⟩
          obtain rfl := Option.some.inj (hwidth.symm.trans hwidth')
          obtain rfl := Option.some.inj (hleft.symm.trans hpos)
          exact ⟨⟨hne, rfl⟩, Int.sub_add_cancel pos.x width⟩

theorem mem_checkExpander : f ∈ checkExpander snap m ↔ ∃ leftId pos, m.left = some leftId ∧
    m.gridPosition = some pos ∧ leftId ≠ "" ∧ ¬ snap.Beside leftId pos ∧
      f = expanderAdjacency m pos leftId (snap.byId leftId) := by
  unfold checkExpander
  rcases hleft : m.left with _ | leftId
  · simp
  · rcases hpos : m.gridPosition with _ | pos
    · simp
    · show f ∈ (if leftId ≠ "" ∧ adjacent (snap.byId leftId) pos = false then _ else []) ↔ _
      rw [mem_ite_singleton, ← Bool.not_eq_true, adjacent_iff, and_assoc]
      constructor
      · exact fun h => ⟨leftId, pos, rfl, rfl, h⟩
      · rintro ⟨leftId', pos', hleft', hpos', h⟩
        obtain rfl := Option.some.inj hleft'
        obtain rfl := Option.some.inj hpos'
        exact h

theorem checkExpander_sound (hf : f ∈ snap.modules.flatMap (checkExpander snap)) : snap.Justifies f := by
  obtain ⟨m, hm, hf⟩ := List.mem_flatMap.mp hf
  obtain ⟨leftId, pos, hleft, hpos, hne, hapart, rfl⟩ := mem_checkExpander.mp hf
  exact ⟨.expander hm hleft hne hpos hapart, rfl⟩

/-! #### Parameters -/

variable {numberText : Double → String} {p : ParamS}

theorem finiteValue_eq_some {value : Double} : finiteValue p.value = some value ↔
    ∃ v, p.value = some (.finite v) ∧ value = .finite v := by
  unfold finiteValue
  split
  · next v hv =>
    rw [hv]
    simp [eq_comm]
  · next hv =>
    refine ⟨fun h => by simp at h, ?_⟩
    rintro ⟨v, hvalue, -⟩
    exact absurd hvalue (hv v)

theorem finiteValue_eq_none : finiteValue p.value = none ↔ ∀ v, p.value ≠ some (.finite v) := by
  rw [Option.eq_none_iff_forall_ne_some]
  constructor
  · exact fun h v hv => h _ (finiteValue_eq_some.mpr ⟨v, hv, rfl⟩)
  · rintro h value hvalue
    obtain ⟨v, hv, -⟩ := finiteValue_eq_some.mp hvalue
    exact h v hv

theorem hardRange_eq_some {low high : Double} :
    hardRange p = some (low, high) ↔ p.minValue = some low ∧ p.maxValue = some high := by
  unfold hardRange
  rcases p.minValue with _ | low' <;> rcases p.maxValue with _ | high' <;> simp

theorem outsideOf_iff {value : Double} {range : Option (Double × Double)} :
    outsideOf value range = true ↔ ∃ low high, range = some (low, high) ∧ outside value low high = true := by
  unfold outsideOf
  rcases range with _ | ⟨low, high⟩ <;> simp

theorem mem_range_map {range : Option (Double × Double)} {report : Double → Double → ValidationFinding} :
    f ∈ range.toList.map (fun r => report r.1 r.2) ↔ ∃ low high, range = some (low, high) ∧ f = report low high := by
  rcases range with _ | ⟨low, high⟩
  · simp
  · simp

theorem not_outsideOf {value : Double} {range : Option (Double × Double)} :
    ¬ outsideOf value range = true ↔ ∀ low high, range = some (low, high) → outside value low high = false := by
  rw [outsideOf_iff]
  push Not
  simp only [ne_eq, Bool.not_eq_true]

theorem checkParam_of_nonFinite (h : ∀ v, p.value ≠ some (.finite v)) :
    checkParam numberText m p = [nonFinite numberText m p] := by
  unfold checkParam
  rw [finiteValue_eq_none.mpr h]

theorem mem_checkParam_of_finite {v : ℚ} (h : p.value = some (.finite v)) : f ∈ checkParam numberText m p ↔
    (∃ low high, hardRange p = some (low, high) ∧ outside (.finite v) low high = true ∧
      f = outOfRange numberText m p (.finite v) low high) ∨
    (∀ low high, hardRange p = some (low, high) → outside (.finite v) low high = false) ∧
      ∃ low high, safeRange m p = some (low, high) ∧ outside (.finite v) low high = true ∧
        f = outsideSafeRange numberText m p (.finite v) low high := by
  have hread : ∀ {range : Option (Double × Double)} {report : Double → Double → ValidationFinding},
      outsideOf (.finite v) range = true → (f ∈ range.toList.map (fun r => report r.1 r.2) ↔
        ∃ low high, range = some (low, high) ∧ outside (.finite v) low high = true ∧ f = report low high) := by
    intro range report hout
    obtain ⟨low, high, rfl, houtside⟩ := outsideOf_iff.mp hout
    rw [mem_range_map]
    constructor
    · rintro ⟨low', high', hrange, hf⟩
      obtain ⟨rfl, rfl⟩ := Prod.mk.inj (Option.some.inj hrange)
      exact ⟨low, high, rfl, houtside, hf⟩
    · rintro ⟨low', high', hrange, -, hf⟩
      exact ⟨low', high', hrange, hf⟩
  unfold checkParam
  rw [finiteValue_eq_some.mpr ⟨v, h, rfl⟩]
  dsimp only
  by_cases hhard : outsideOf (.finite v) (hardRange p) = true
  · rw [if_pos hhard, hread hhard, or_iff_left]
    exact fun hwithin => not_outsideOf.mpr hwithin.1 hhard
  · have hwithin := not_outsideOf.mp hhard
    rw [if_neg hhard, and_iff_right hwithin, or_iff_right]
    · by_cases hsafe : outsideOf (.finite v) (safeRange m p) = true
      · rw [if_pos hsafe, hread hsafe]
      · rw [if_neg hsafe]
        refine ⟨fun hf => absurd hf List.not_mem_nil, ?_⟩
        rintro ⟨low, high, hrange, hout, -⟩
        exact absurd (outsideOf_iff.mpr ⟨low, high, hrange, hout⟩) hsafe
    · rintro ⟨low, high, hrange, hout, -⟩
      exact absurd (outsideOf_iff.mpr ⟨low, high, hrange, hout⟩) hhard

theorem checkParam_sound (hf : f ∈ snap.modules.flatMap fun m => m.params.flatMap (checkParam numberText m)) :
    snap.Justifies f := by
  obtain ⟨m, hm, hf⟩ := List.mem_flatMap.mp hf
  obtain ⟨p, hp, hf⟩ := List.mem_flatMap.mp hf
  by_cases hvalue : ∀ v, p.value ≠ some (.finite v)
  · rw [checkParam_of_nonFinite hvalue] at hf
    obtain rfl := List.mem_singleton.mp hf
    exact ⟨.nonFinite hm hp hvalue, rfl⟩
  · push Not at hvalue
    obtain ⟨v, hv⟩ := hvalue
    rcases (mem_checkParam_of_finite hv).mp hf with ⟨low, high, hrange, hout, rfl⟩ |
      ⟨hwithin, low, high, hsafe, hout, rfl⟩
    · obtain ⟨hlow, hhigh⟩ := hardRange_eq_some.mp hrange
      exact ⟨.outOfRange hm hp hv hlow hhigh hout, rfl⟩
    · have hwithin := fun low high hlow hhigh => hwithin low high (hardRange_eq_some.mpr ⟨hlow, hhigh⟩)
      exact ⟨.outsideSafeRange hm hp hv hwithin hsafe hout, rfl⟩

theorem mem_checkParams (hm : m ∈ snap.modules) (hp : p ∈ m.params) (hf : f ∈ checkParam numberText m p) :
    f ∈ snap.modules.flatMap fun m => m.params.flatMap (checkParam numberText m) :=
  List.mem_flatMap.mpr ⟨m, hm, List.mem_flatMap.mpr ⟨p, hp, hf⟩⟩

end Modules

/-! ### Searches -/

section Searches
variable {feeds cycles : List String} {m : ModuleS}

/-- What the search for what feeds the destinations is to find. -/
def FeedsExactly (snap : Snapshot) (feeds : List String) : Prop := ∀ id, id ∈ feeds ↔ snap.FeedsDestination id

/-- What the search for cycles is to find. -/
structure CyclesExactly (snap : Snapshot) (cycles : List String) : Prop where
  nodup : cycles.Nodup
  mem : ∀ id, id ∈ cycles ↔ snap.OnCycle id

theorem feeds_returns (snap : Snapshot) :
    ∃ feeds, WhileLoop.Returns (modulesFeedingDestinations snap) feeds ∧ FeedsExactly snap feeds := by
  let nodes := (snap.destinations.map (·.moduleId) ++ snap.graph.cables.map (·.outputModuleId)).toFinset
  have hroots : ∀ v ∈ snap.destinations.map (·.moduleId), v ∈ nodes := fun v hv =>
    List.mem_toFinset.mpr (List.mem_append_left _ hv)
  have hclosed : ∀ v ∈ nodes, ∀ u ∈ snap.graph.incoming v, u ∈ nodes := by
    intro v _ u hu
    obtain ⟨c, hc, hout, -⟩ := Analysis.Snapshot.mem_incoming.mp hu
    exact List.mem_toFinset.mpr (List.mem_append_right _ (List.mem_map.mpr ⟨c, hc, hout⟩))
  obtain ⟨feeds, hreturns, -, hmem⟩ := reaching_returns hroots hclosed
  refine ⟨feeds, hreturns, fun id => ?_⟩
  rw [hmem, Leads, Analysis.Snapshot.incoming_rel]
  constructor
  · rintro ⟨root, hroot, hleads⟩
    obtain ⟨dest, hdest, rfl⟩ := List.mem_map.mp hroot
    obtain ⟨hdest, haudio⟩ := List.mem_filter.mp hdest
    exact ⟨dest, hdest, haudio, hleads⟩
  · rintro ⟨dest, hdest, haudio, hleads⟩
    exact ⟨dest.moduleId, List.mem_map.mpr ⟨dest, List.mem_filter.mpr ⟨hdest, haudio⟩, rfl⟩, hleads⟩

theorem cycles_returns (snap : Snapshot) :
    ∃ cycles, WhileLoop.Returns (Analysis.modulesInCycles snap.graph) cycles ∧ CyclesExactly snap cycles := by
  have hlisted : ∀ v, snap.graph.neighbors v ≠ [] → v ∈ snap.graph.keys := by
    intro v hv
    by_contra hout
    exact hv (if_neg hout)
  obtain ⟨cycles, hreturns, hnodup, hmem⟩ := Tarjan.inCycles_returns snap.graph.selfLoop hlisted
  refine ⟨cycles, hreturns, hnodup (nodup_foldl_setAdd List.nodup_nil), fun id => ?_⟩
  rw [hmem, Analysis.Snapshot.mem_selfLoop]
  unfold Tarjan.Reach Snapshot.OnCycle
  rw [Analysis.Snapshot.neighbors_rel]

theorem mem_checkBypass : f ∈ checkBypass feeds m ↔
    (m.bypassed = true ∧ m.moduleId ∈ feeds ∧ (∃ p ∈ m.inputs, p.connected = true) ∧
      ∃ p ∈ m.outputs, p.connected = true) ∧ f = interruptsPath m := by
  unfold checkBypass
  rw [mem_ite_singleton, List.any_eq_true, List.any_eq_true]

theorem checkBypass_sound (hfeeds : FeedsExactly snap feeds) (hf : f ∈ snap.modules.flatMap (checkBypass feeds)) :
    snap.Justifies f := by
  obtain ⟨m, hm, hf⟩ := List.mem_flatMap.mp hf
  obtain ⟨⟨hbypassed, hmem, hin, hout⟩, rfl⟩ := mem_checkBypass.mp hf
  exact ⟨.interruptsPath hm hbypassed hin hout ((hfeeds _).mp hmem), rfl⟩

end Searches

/-! ### Roles -/

section Roles
variable {c : CableS} {out inp : ModuleS}

theorem cross_eq_some {α : Type} [DecidableEq α] {a b : Option α} {x y : α} :
    cross a b = some (x, y) ↔ a = some x ∧ b = some y ∧ x ≠ y := by
  unfold cross
  rcases a with _ | a
  · simp
  · rcases b with _ | b
    · simp
    · dsimp only
      by_cases h : a = b
      · rw [if_pos h]
        simp only [reduceCtorEq, Option.some.injEq, false_iff]
        rintro ⟨rfl, rfl, hne⟩
        exact hne h
      · rw [if_neg h]
        simp only [Option.some.injEq, Prod.mk.injEq]
        constructor
        · rintro ⟨rfl, rfl⟩
          exact ⟨rfl, rfl, h⟩
        · exact fun hxy => ⟨hxy.1, hxy.2.1⟩

theorem mem_cross_map {α : Type} [DecidableEq α] {a b : Option α} {report : α → α → ValidationFinding} :
    f ∈ (cross a b).toList.map (fun r => report r.1 r.2) ↔
      ∃ x y, a = some x ∧ b = some y ∧ x ≠ y ∧ f = report x y := by
  rw [List.mem_map]
  constructor
  · rintro ⟨⟨x, y⟩, hr, rfl⟩
    obtain ⟨ha, hb, hne⟩ := cross_eq_some.mp (Option.mem_toList.mp hr)
    exact ⟨x, y, ha, hb, hne, rfl⟩
  · rintro ⟨x, y, ha, hb, hne, rfl⟩
    exact ⟨(x, y), Option.mem_toList.mpr (cross_eq_some.mpr ⟨ha, hb, hne⟩), rfl⟩

theorem checkRoles_of_not_joined (h : ¬ snap.Joined c) : checkRoles snap c = [] := by
  unfold checkRoles
  split
  · rfl
  · next out hout =>
    split
    · rfl
    · next inp hinp => exact absurd ⟨out, inp, hout, hinp⟩ h

theorem mem_checkRoles_of_joins (h : snap.Joins c out inp) : f ∈ checkRoles snap c ↔
    (c.outputId < out.outputs.length ∧ c.inputId < inp.inputs.length) ∧
      ((∃ a b, familyOf (outputRoleOf out c.outputId) = some a ∧ familyOf (inputRoleOf inp c.inputId) = some b ∧ a ≠ b ∧
          f = roleCross c out inp a b) ∨
        (∃ a b, controlKindOf (outputRoleOf out c.outputId) = some a ∧
          controlKindOf (inputRoleOf inp c.inputId) = some b ∧ a ≠ b ∧ f = pitchGate c out inp a b) ∨
        (1 < channelsOf out c.outputId ∧ inputPolyphonyOf inp c.inputId = some .monophonic) ∧
          f = polyIntoMono c out inp (channelsOf out c.outputId)) := by
  unfold checkRoles
  rw [h.1, h.2]
  dsimp only
  by_cases hports : c.outputId ≥ out.outputs.length ∨ c.inputId ≥ inp.inputs.length
  · rw [if_pos hports]
    refine ⟨fun hf => absurd hf List.not_mem_nil, fun hf => ?_⟩
    have hin := hf.1
    omega
  · have hin : c.outputId < out.outputs.length ∧ c.inputId < inp.inputs.length := by omega
    rw [if_neg hports, List.mem_append, List.mem_append, mem_cross_map, mem_cross_map, mem_ite_singleton, or_assoc,
      and_iff_right hin]

theorem checkRoles_sound (hf : f ∈ snap.cables.flatMap (checkRoles snap)) : snap.Justifies f := by
  obtain ⟨c, hc, hf⟩ := List.mem_flatMap.mp hf
  by_cases hjoined : snap.Joined c
  · obtain ⟨out, inp, hjoins⟩ := hjoined
    obtain ⟨hports, ⟨a, b, ha, hb, hne, rfl⟩ | ⟨a, b, ha, hb, hne, rfl⟩ | ⟨⟨hpoly, hmono⟩, rfl⟩⟩ :=
      (mem_checkRoles_of_joins hjoins).mp hf
    · exact ⟨.roleCross hc hjoins hports ha hb hne, rfl⟩
    · exact ⟨.pitchGate hc hjoins hports ha hb hne, rfl⟩
    · exact ⟨.polyIntoMono hc hjoins hports hpoly hmono, rfl⟩
  · rw [checkRoles_of_not_joined hjoined] at hf
    exact absurd hf List.not_mem_nil

theorem mem_checkSilence : f ∈ checkSilence snap ↔
    (snap.destinations ≠ [] ∧ (∀ m ∈ snap.destinations, ∀ p ∈ m.inputs, p.connected = false) ∧
      f = noInput snap.destinations) ∨
    snap.destinations = [] ∧ f = noDestination snap.modules.length := by
  unfold checkSilence
  by_cases hdest : snap.destinations.length > 0
  · have hne : snap.destinations ≠ [] := List.ne_nil_of_length_pos hdest
    rw [if_pos hdest]
    by_cases hconnected : (snap.destinations.any fun m => m.inputs.any (·.connected)) = true
    · rw [if_pos hconnected]
      refine ⟨fun hf => absurd hf List.not_mem_nil, ?_⟩
      rintro (⟨-, hnone, -⟩ | ⟨hnil, -⟩)
      · obtain ⟨m, hm, hany⟩ := List.any_eq_true.mp hconnected
        obtain ⟨p, hp, hp'⟩ := List.any_eq_true.mp hany
        rw [hnone m hm p hp] at hp'
        exact absurd hp' Bool.false_ne_true
      · exact absurd hnil hne
    · have hnone : ∀ m ∈ snap.destinations, ∀ p ∈ m.inputs, p.connected = false := by
        intro m hm p hp
        rw [Bool.eq_false_iff]
        exact fun hp' => hconnected (List.any_eq_true.mpr ⟨m, hm, List.any_eq_true.mpr ⟨p, hp, hp'⟩⟩)
      rw [if_neg hconnected, List.mem_singleton]
      constructor
      · exact fun hf => .inl ⟨hne, hnone, hf⟩
      · rintro (⟨-, -, hf⟩ | ⟨hnil, -⟩)
        · exact hf
        · exact absurd hnil hne
  · have hnil : snap.destinations = [] := List.eq_nil_of_length_eq_zero (by omega)
    rw [if_neg hdest, List.mem_singleton]
    constructor
    · exact fun hf => .inr ⟨hnil, hf⟩
    · rintro (⟨hne, -⟩ | ⟨-, hf⟩)
      · exact absurd hnil hne
      · exact hf

theorem destinations_eq_nil :
    snap.destinations = [] ↔ ∀ m ∈ snap.modules, isAudioDestination m.toModuleS = false := by
  unfold Snapshot.destinations
  rw [List.filter_eq_nil_iff]
  simp only [Bool.not_eq_true]

theorem checkSilence_sound (hf : f ∈ checkSilence snap) : snap.Justifies f := by
  rcases mem_checkSilence.mp hf with ⟨hne, hnone, rfl⟩ | ⟨hnil, rfl⟩
  · exact ⟨.noInput hne hnone, rfl⟩
  · exact ⟨.noDestination (destinations_eq_nil.mp hnil), rfl⟩

end Roles

end RackMcp.Validation
