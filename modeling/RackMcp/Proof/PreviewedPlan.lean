import RackMcp.Proof.Lockstep
import RackMcp.Proof.SameFingerprint

/-!
# The plan that was previewed

A commit names its plan by the hash that the preview gave. The interpreter of the operations looks fields up by their
names, so what the order of members is changes nothing: a commit that passes the gate applies what was previewed, or
SHA-256 collides on the two plans.
-/

namespace RackMcp

open Gen Outcomes

/-! ### The readers -/

/-- The two are the same value, or neither is there. -/
abbrev SameField (o o' : Option Json) : Prop := Option.Rel Json.Same o o'

section fields
variable {o o' : Option Json}

theorem SameField.get (h : SameField o o') (key : String) : SameField (Json.get o key) (Json.get o' key) := by
  cases h with
  | none => exact .none
  | some hsame =>
    cases hsame with
    | object ms ns hmembers => exact hmembers key
    | _ => exact .none

theorem SameField.isObject (h : SameField o o') : Json.isObject o = Json.isObject o' := by
  cases h with
  | none => rfl
  | some hsame => cases hsame <;> rfl

theorem SameField.stringOr (h : SameField o o') (dflt : String) : Json.stringOr o dflt = Json.stringOr o' dflt := by
  cases h with
  | none => rfl
  | some hsame => cases hsame <;> rfl

theorem SameField.jstr (h : SameField o o') (key dflt : String) : jstr o key dflt = jstr o' key dflt :=
  (h.get key).stringOr dflt

theorem SameField.jbool (h : SameField o o') (key : String) (dflt : Bool) : jbool o key dflt = jbool o' key dflt := by
  unfold RackMcp.jbool
  have hfield := h.get key
  generalize Json.get o key = f at hfield ⊢
  generalize Json.get o' key = f' at hfield ⊢
  cases hfield with
  | none => rfl
  | some hsame => cases hsame <;> rfl

theorem SameField.jhasKey (h : SameField o o') (key : String) : jhasKey o key = jhasKey o' key := by
  unfold RackMcp.jhasKey
  have hfield := h.get key
  generalize Json.get o key = f at hfield ⊢
  generalize Json.get o' key = f' at hfield ⊢
  cases hfield <;> rfl

theorem SameField.readIntField (h : SameField o o') (key : String) : readIntField o key = readIntField o' key := by
  unfold RackMcp.readIntField
  have hfield := h.get key
  generalize Json.get o key = f at hfield ⊢
  generalize Json.get o' key = f' at hfield ⊢
  cases hfield with
  | none => rfl
  | some hsame => cases hsame <;> rfl

theorem SameField.readGridPosition (h : SameField o o') : readGridPosition o = readGridPosition o' := by
  unfold RackMcp.readGridPosition readIntFieldIn
  rw [h.readIntField "x", h.readIntField "y"]

theorem SameField.readParamTarget (h : SameField o o') : readParamTarget o = readParamTarget o' := by
  unfold RackMcp.readParamTarget
  have hvalue := h.get "value"
  have hnormalized := h.get "normalized"
  have hdisplay := h.get "display"
  rw [h.isObject]
  generalize Json.get o "value" = v at hvalue ⊢
  generalize Json.get o' "value" = v' at hvalue ⊢
  generalize Json.get o "normalized" = n at hnormalized ⊢
  generalize Json.get o' "normalized" = n' at hnormalized ⊢
  generalize Json.get o "display" = d at hdisplay ⊢
  generalize Json.get o' "display" = d' at hdisplay ⊢
  cases hvalue with
  | none =>
    cases hnormalized with
    | none =>
      cases hdisplay with
      | none => rfl
      | some hsame => cases hsame <;> rfl
    | some hsame =>
      cases hdisplay with
      | none => cases hsame <;> rfl
      | some _ => rfl
  | some hsame =>
    cases hnormalized with
    | none =>
      cases hdisplay with
      | none => cases hsame <;> rfl
      | some _ => rfl
    | some _ => cases hdisplay <;> rfl

theorem SameField.resolveModuleRef (h : SameField o o') (aliases : AliasMap) :
    resolveModuleRef o aliases = resolveModuleRef o' aliases := by
  unfold RackMcp.resolveModuleRef
  have hmoduleId := h.get "moduleId"
  have halias := h.get "alias"
  rw [h.isObject]
  generalize Json.get o "moduleId" = m at hmoduleId ⊢
  generalize Json.get o' "moduleId" = m' at hmoduleId ⊢
  generalize Json.get o "alias" = a at halias ⊢
  generalize Json.get o' "alias" = a' at halias ⊢
  cases hmoduleId with
  | none =>
    cases halias with
    | none => rfl
    | some hsame => cases hsame <;> rfl
  | some hsame =>
    cases hsame with
    | string s => rfl
    | _ =>
      cases halias with
      | none => rfl
      | some hsame => cases hsame <;> rfl

end fields

/-! ### The operations -/

section operations
variable {op op' : Json} (rack : Rack)

theorem opType_same (h : op.Same op') : opType op = opType op' := by
  unfold opType
  rw [SameField.jstr (.some h)]

namespace Applier

theorem resolving_same {o o' : Option Json} (h : SameField o o') (s : Applier) (next : ℤ → Applied) :
    s.resolving o next = s.resolving o' next := by
  unfold resolving resolve
  rw [h.resolveModuleRef]

theorem setParamValue_same (h : op.Same op') (moduleId : ℤ) (paramId : ℕ) (s : Applier) :
    setParamValue rack moduleId paramId op s = setParamValue rack moduleId paramId op' s := by
  unfold setParamValue
  rw [SameField.readParamTarget (.some h)]

theorem setInitialParam_same (h : op.Same op') (moduleId : ℤ) (paramCount : ℕ) (mslug : String) (i : ℕ) (s : Applier) :
    setInitialParam rack moduleId paramCount mslug (op, i) s =
      setInitialParam rack moduleId paramCount mslug (op', i) s := by
  unfold setInitialParam
  dsimp only
  rw [SameField.readIntField (.some h)]
  split
  · rfl
  · split
    · rfl
    · exact setParamValue_same rack h _ _ _

/-- The loop over entries that are the same is the same. -/
theorem forEach_setInitialParam_same {items items' : List Json} (h : items.Forall₂ Json.Same items') (moduleId : ℤ)
    (paramCount : ℕ) (mslug : String) (s : Applier) :
    forEach (setInitialParam rack moduleId paramCount mslug) items.zipIdx s =
      forEach (setInitialParam rack moduleId paramCount mslug) items'.zipIdx s := by
  have hloop : ∀ (k i : ℕ) (s : Applier),
      runFrom (setInitialParam rack moduleId paramCount mslug) i (items.zipIdx k) s =
        runFrom (setInitialParam rack moduleId paramCount mslug) i (items'.zipIdx k) s := by
    induction h with
    | nil => exact fun _ _ _ => rfl
    | cons hhead _ ih =>
      intro k i s
      rw [List.zipIdx_cons, List.zipIdx_cons, runFrom, runFrom, setInitialParam_same rack hhead]
      split
      · exact ih _ _ _
      · rfl
  unfold forEach
  rw [hloop]

theorem addPosition_same (h : op.Same op') (panels : List Layout.Occupant) :
    addPosition rack op panels = addPosition rack op' panels := by
  have hop : SameField (some op) (some op') := .some h
  unfold addPosition
  rw [hop.jstr, hop.jhasKey, (hop.get "position").readGridPosition]

theorem initialParams_same (h : op.Same op') : (initialParams op).Forall₂ Json.Same (initialParams op') := by
  have hfield := SameField.get (.some h) "initialParams"
  unfold initialParams
  generalize Json.get (some op) "initialParams" = f at hfield ⊢
  generalize Json.get (some op') "initialParams" = f' at hfield ⊢
  cases hfield with
  | none => exact .nil
  | some hsame =>
    cases hsame with
    | array _ _ hitems => exact hitems
    | _ => exact .nil

theorem applyAdd_same (h : op.Same op') (s : Applier) : applyAdd rack op s = applyAdd rack op' s := by
  have hop : SameField (some op) (some op') := .some h
  have hfinish : ∀ (m : Module) (s : Applier), finishAdd rack op m s = finishAdd rack op' m s := by
    intro m s
    unfold finishAdd
    rw [addPosition_same rack h, hop.jstr, hop.jbool]
    split
    · rfl
    · dsimp only
      rw [forEach_setInitialParam_same rack (initialParams_same h)]
  unfold applyAdd
  rw [hop.jstr, hop.jstr]
  simp only [hfinish]

/-- One operation does what any operation that is the same does. -/
theorem applyOne_same (h : op.Same op') (s : Applier) : applyOne rack op s = applyOne rack op' s := by
  have hop : SameField (some op) (some op') := .some h
  have hmodule := resolving_same (hop.get "module") s
  unfold applyOne
  rw [opType_same h]
  split
  · exact applyAdd_same rack h s
  · unfold applyRemove
    rw [hmodule, hop.jstr]
  · unfold applySetParam
    rw [hmodule, hop.readIntField]
    simp only [setParamValue_same rack h]
  · unfold applyBypass
    rw [hmodule, hop.jbool]
  · unfold applyReset
    rw [hmodule]
  · unfold applyRandomize
    rw [hmodule]
  · unfold applyMove
    rw [hmodule, (hop.get "position").readGridPosition, hop.jstr]
  · unfold applyConnect
    have hout := hop.get "output"
    have hin := hop.get "input"
    dsimp only
    rw [resolving_same (hout.get "module")]
    simp only [resolving_same (hin.get "module"), hout.readIntField, hin.readIntField, hop.jstr]
  · unfold applyDisconnect
    rw [(hop.get "cable").jstr]
  · unfold applyDisconnectPort
    have hport := hop.get "port"
    dsimp only
    rw [resolving_same (hport.get "module")]
    simp only [hport.readIntField, hport.jstr, hop.jstr]
  · rfl

/-- A plan does what any plan that is the same does. -/
theorem apply_same {ops ops' : List Json} (h : ops.Forall₂ Json.Same ops') (p : Patch) :
    apply rack ops p = apply rack ops' p := by
  have hloop : ∀ (i : ℕ) (s : Applier), runFrom (applyOne rack) i ops s = runFrom (applyOne rack) i ops' s := by
    induction h with
    | nil => exact fun _ _ => rfl
    | cons hhead _ ih =>
      intro i s
      rw [runFrom, runFrom, applyOne_same rack hhead]
      split
      · exact ih _ _
      · rfl
  exact hloop 0 _

end Applier

/-! ### The gate -/

theorem checkDeclaredField_same {o o' : Option Json} (h : SameField o o') (what : String) (field : FieldSpec) :
    checkDeclaredField what field o = checkDeclaredField what field o' := by
  unfold checkDeclaredField
  have hfield := h.get field.name
  generalize Json.get o field.name = f at hfield ⊢
  generalize Json.get o' field.name = f' at hfield ⊢
  cases hfield with
  | none => rfl
  | some hsame =>
    cases hsame with
    | array => cases field.jsonType <;> cases field.allowed <;> rfl
    | object => cases field.jsonType <;> cases field.allowed <;> rfl
    | _ => rfl

theorem checkOperationFields_same (h : op.Same op') : checkOperationFields op = checkOperationFields op' := by
  have hop : SameField (some op) (some op') := .some h
  have hdeclared : ∀ (what : String) (fields : List FieldSpec),
      checkDeclaredFields what fields op = checkDeclaredFields what fields op' := by
    intro what fields
    unfold checkDeclaredFields
    rw [hop.isObject]
    simp only [checkDeclaredField_same hop]
  have hname := hop.get "op"
  unfold checkOperationFields
  rw [hop.isObject]
  simp only [hdeclared]
  generalize Json.get (some op) "op" = f at hname ⊢
  generalize Json.get (some op') "op" = f' at hname ⊢
  cases hname with
  | none => rfl
  | some hsame => cases hsame <;> rfl

theorem badShape_same {ops ops' : List Json} (h : ops.Forall₂ Json.Same ops') : badShape ops = badShape ops' := by
  have hshape : ∀ k : ℕ, ((ops.zipIdx k).findSome? fun entry => (checkOperationFields entry.1).map (entry.2, ·)) =
      (ops'.zipIdx k).findSome? fun entry => (checkOperationFields entry.1).map (entry.2, ·) := by
    induction h with
    | nil => exact fun _ => rfl
    | cons hhead _ ih =>
      intro k
      rw [List.zipIdx_cons, List.zipIdx_cons, List.findSome?_cons, List.findSome?_cons, checkOperationFields_same hhead,
        ih]
  exact hshape 0

theorem planOperations_same {o o' : Option Json} (h : SameField o o') :
    (planOperations o).Forall₂ Json.Same (planOperations o') := by
  unfold planOperations
  have hfield := h.get "operations"
  generalize Json.get o "operations" = f at hfield ⊢
  generalize Json.get o' "operations" = f' at hfield ⊢
  cases hfield with
  | none => exact .nil
  | some hsame =>
    cases hsame with
    | array _ _ hitems => exact hitems
    | _ => exact .nil

/-- Two commits that agree but for the order of members in their plans, of which SHA-256 gives one digest. -/
theorem txnCommit_same {request request' : Json} (hplan : SameField (Json.get request "plan") (Json.get request' "plan"))
    (hhash : rack.canonicalFingerprint ((Json.get request "plan").getD .null) =
      rack.canonicalFingerprint ((Json.get request' "plan").getD .null))
    (hkeys : ∀ key, key ≠ "plan" → Json.get request key = Json.get request' key) (durationMs : Double)
    (rs : RackState) : txnCommit rack request durationMs rs = txnCommit rack request' durationMs rs := by
  have hops := planOperations_same hplan
  have hnil : planOperations (Json.get request "plan") = [] ↔ planOperations (Json.get request' "plan") = [] := by
    rw [← List.length_eq_zero_iff, ← List.length_eq_zero_iff, hops.length_eq]
  have hjstr : ∀ key, key ≠ "plan" → ∀ dflt, jstr request key dflt = jstr request' key dflt := by
    intro key hkey dflt
    unfold jstr
    rw [hkeys key hkey]
  have hgate : commitGate rack request rs = commitGate rack request' rs := by
    unfold commitGate
    simp only [hplan.isObject, hnil, badShape_same hops, hhash, hjstr "planHash" (by decide),
      hjstr "expectedFingerprint" (by decide)]
  unfold txnCommit
  rw [hgate, Applier.apply_same rack hops]
  split
  · rfl
  split
  · unfold finishCommit
    rw [hjstr "operationId" (by decide), hplan.jstr]
  · rfl

/-! ### Preview and commit -/

/-- The commit of another plan. -/
def withPlan (plan : Json) : Json → Json
  | .object members => .object (setMember "plan" plan members)
  | request => request

theorem get_withPlan {request : Json} (plan : Json) (h : Json.get request "plan" ≠ none) :
    Json.get (withPlan plan request) "plan" = some plan ∧
      ∀ key, key ≠ "plan" → Json.get (withPlan plan request) key = Json.get request key := by
  cases request with
  | object members =>
    exact ⟨lookup_setMember_self _ _ _, fun key hkey => lookup_setMember_of_ne hkey _ _⟩
  | _ => exact absurd rfl h

/-- What a preview that was accepted says of its plan. -/
theorem planHash_of_preview {request payload : Json} {rs : RackState}
    (h : (txnPreview rack request rs).payload = some payload) : ∃ ops, Json.get request "operations" = some (.array ops) ∧
      jstr payload "planHash" = rack.canonicalFingerprint (normalizedPlan request ops) := by
  unfold txnPreview at h
  split at h
  swap
  · cases h
  next op rest hops =>
  dsimp only at h
  split at h
  · cases h
  split at h
  · cases h
  · obtain rfl := Option.some.inj h
    exact ⟨op :: rest, hops, rfl⟩

theorem loaded_normalizedPlan {request : Json} {ops : List Json} (h : Loaded request)
    (hops : Json.get request "operations" = some (.array ops)) : Loaded (normalizedPlan request ops) := by
  have harray : Loaded (.array ops) := by
    cases h with
    | object members hkeys hloaded => exact hloaded _ ((lookup_eq_some_iff_mem hkeys).mp hops)
    | _ => cases hops
  unfold normalizedPlan
  refine .object _ (show ["label", "operations"].Nodup by decide) fun m hm => ?_
  simp only [List.mem_cons, List.not_mem_nil, or_false] at hm
  rcases hm with rfl | rfl
  · exact .string _
  · exact harray

/-- A commit that names a preview's plan by its hash and passes the gate, in whatever state, is the commit of that very
plan, or SHA-256 collides on the two. -/
theorem commit_of_previewed_plan {numeral : Double → String} (hnumeral : RealNumeral numeral)
    (hrack : ∀ v, Loaded v → rack.canonicalFingerprint v = sha256Hex (canonicalText numeral v))
    {preview commit payload : Json} (hpreview : Loaded preview) (hcommit : Loaded commit) {rs rs' : RackState}
    (haccepted : (txnPreview rack preview rs).payload = some payload)
    (hhash : jstr commit "planHash" = jstr payload "planHash") (hgate : commitGate rack commit rs' = none)
    (durationMs : Double) : ∃ ops, Json.get preview "operations" = some (.array ops) ∧
      (txnCommit rack commit durationMs rs' = txnCommit rack (withPlan (normalizedPlan preview ops) commit) durationMs rs' ∨
        Collision numeral ((Json.get commit "plan").getD .null) (normalizedPlan preview ops)) := by
  obtain ⟨ops, hops, hplanHash⟩ := planHash_of_preview rack haccepted
  refine ⟨ops, hops, ?_⟩
  have hnormalized := loaded_normalizedPlan hpreview hops
  obtain ⟨hobject, hchecked⟩ : Json.isObject (Json.get commit "plan") = true ∧
      rack.canonicalFingerprint ((Json.get commit "plan").getD .null) = jstr commit "planHash" := by
    unfold commitGate at hgate
    dsimp only at hgate
    split at hgate
    · cases hgate
    next hobject =>
    split at hgate
    · cases hgate
    split at hgate
    · cases hgate
    split at hgate
    · cases hgate
    next hchecked => exact ⟨not_not.mp hobject, not_not.mp hchecked⟩
  obtain ⟨plan, hplan⟩ : ∃ plan, Json.get commit "plan" = some plan := by
    rcases hplan : Json.get commit "plan" with _ | plan
    · rw [hplan] at hobject
      cases hobject
    · exact ⟨plan, rfl⟩
  have hloaded : Loaded plan := by
    cases hcommit with
    | object members hkeys hmembers => exact hmembers _ ((lookup_eq_some_iff_mem hkeys).mp hplan)
    | _ => cases hplan
  obtain ⟨hgetPlan, hgetOther⟩ := get_withPlan (normalizedPlan preview ops) (hplan ▸ Option.some_ne_none plan)
  have hdigest : rack.canonicalFingerprint plan = rack.canonicalFingerprint (normalizedPlan preview ops) := by
    rw [← hplanHash, ← hhash, ← hchecked, hplan]
    rfl
  rw [hplan]
  rcases same_of_fingerprint hnumeral hloaded hnormalized (by rw [← hrack _ hloaded, ← hrack _ hnormalized, hdigest])
    with hsame | hcollision
  · left
    refine txnCommit_same rack ?_ ?_ (fun key hkey => (hgetOther key hkey).symm) durationMs rs'
    · rw [hplan, hgetPlan]
      exact .some hsame
    · rw [hplan, hgetPlan]
      exact hdigest
  · exact .inr hcollision

end operations

/-! ### A commit of the bench -/

/-- The bench's rack, with the hash of a plan. -/
def hashingRack : Rack :=
  { benchRack with canonicalFingerprint := fun v => sha256Hex (canonicalText plainNumeral v) }

/-- The oscillator is bypassed. -/
def bypassPlan : List Json := [operation "set_bypass" [("bypassed", .bool true), ("module", moduleById "1")]]

def previewBypass : Json := .object [("label", .string "quiet"), ("operations", .array bypassPlan)]

/-- The commit has the members of the plan in another order. -/
def commitBypass : Json :=
  .object [("plan", .object [("operations", .array bypassPlan), ("label", .string "quiet")]),
    ("planHash", .string (hashingRack.canonicalFingerprint (normalizedPlan previewBypass bypassPlan))),
    ("expectedFingerprint", .string "1 2 3")]

theorem loaded_bypassPlan : Loaded (.array bypassPlan) := by
  refine .array _ fun op hop => ?_
  obtain rfl := List.mem_singleton.mp hop
  refine .object _ (by decide) fun m hm => ?_
  simp only [List.mem_cons, List.not_mem_nil, or_false] at hm
  rcases hm with rfl | rfl | rfl
  · exact .string _
  · exact .bool _
  · refine .object _ (by decide) fun m hm => ?_
    obtain rfl := List.mem_singleton.mp hm
    exact .string _

theorem loaded_previewBypass : Loaded previewBypass := by
  refine .object _ (by decide) fun m hm => ?_
  simp only [List.mem_cons, List.not_mem_nil, or_false] at hm
  rcases hm with rfl | rfl
  · exact .string _
  · exact loaded_bypassPlan

theorem loaded_commitBypass : Loaded commitBypass := by
  refine .object _ (show ["plan", "planHash", "expectedFingerprint"].Nodup by decide) fun m hm => ?_
  simp only [List.mem_cons, List.not_mem_nil, or_false] at hm
  rcases hm with rfl | rfl | rfl
  · refine .object _ (by decide) fun m hm => ?_
    simp only [List.mem_cons, List.not_mem_nil, or_false] at hm
    rcases hm with rfl | rfl
    · exact loaded_bypassPlan
    · exact .string _
  · exact .string _
  · exact .string _

theorem commitGate_commitBypass : commitGate hashingRack commitBypass { patch := benchPatch } = none := by
  have htext : canonicalText plainNumeral (.object [("operations", .array bypassPlan), ("label", .string "quiet")]) =
      canonicalText plainNumeral (normalizedPlan previewBypass bypassPlan) := by decide
  have hdigest : hashingRack.canonicalFingerprint ((Json.get commitBypass "plan").getD .null) =
      jstr commitBypass "planHash" := congrArg sha256Hex htext
  have hshape : badShape (planOperations (Json.get commitBypass "plan")) = none := by decide
  have hcurrent : hashingRack.computePatchFingerprint benchPatch = some "1 2 3" := by decide
  have hexpected : jstr commitBypass "expectedFingerprint" = "1 2 3" := rfl
  unfold commitGate
  dsimp only
  rw [if_neg (by decide), if_neg (by decide), hshape]
  dsimp only
  rw [if_neg (not_not.mpr hdigest), hcurrent]
  dsimp only
  rw [if_neg (not_not.mpr hexpected)]

theorem commit_of_previewed_plan_bypass :
    ∃ ops, Json.get previewBypass "operations" = some (.array ops) ∧
      (txnCommit hashingRack commitBypass (.finite 0) { patch := benchPatch } =
          txnCommit hashingRack (withPlan (normalizedPlan previewBypass ops) commitBypass) (.finite 0)
            { patch := benchPatch } ∨
        Collision plainNumeral ((Json.get commitBypass "plan").getD .null) (normalizedPlan previewBypass ops)) :=
  commit_of_previewed_plan hashingRack plainNumeral_real (fun _ _ => rfl) loaded_previewBypass loaded_commitBypass
    (show (txnPreview hashingRack previewBypass { patch := benchPatch }).payload = some _ from rfl) rfl
    commitGate_commitBypass (.finite 0)

end RackMcp
