import RackMcp.Proof.GeneratedTables
import RackMcp.Proof.Lockstep
import RackMcp.Proof.SessionStep

/-!
# What the schemas admit the plugin reads

Of an operation that is valid against `patch-operation.schema.json` every field that the plugin reads is there and of
the shape its readers want, so a preview never calls it malformed. `JSON.stringify` writes a number with an integral
value without a fraction, up to `1e21`, and so jansson reads it as an integer.
-/

namespace RackMcp.Schemas

open Gen Outcomes

/-! ### Numbers as the server writes them -/

mutual

/-- No number that `JSON.stringify` writes as an integer was read as a real. -/
def Stringified : Json → Prop
  | .real (.finite q) => q.den = 1 → 10 ^ 21 ≤ |q|
  | .array items => StringifiedItems items
  | .object members => StringifiedMembers members
  | _ => True

def StringifiedItems : List Json → Prop
  | [] => True
  | v :: rest => Stringified v ∧ StringifiedItems rest

def StringifiedMembers : List (String × Json) → Prop
  | [] => True
  | (_, v) :: rest => Stringified v ∧ StringifiedMembers rest

end

theorem Stringified.get {v w : Json} {key : String} (h : Stringified v) (hw : Json.get v key = some w) :
    Stringified w := by
  cases v with
  | object members =>
    rw [Stringified] at h
    replace hw : members.lookup key = some w := hw
    induction members with
    | nil => cases hw
    | cons m rest ih =>
      obtain ⟨k, u⟩ := m
      rw [StringifiedMembers] at h
      rw [List.lookup_cons] at hw
      split at hw
      · exact Option.some.inj hw ▸ h.1
      · exact ih h.2 hw
  | _ => cases hw

/-! ### The leaves of the documents -/

theorem admits_string_type {a : Assertions} {w : Json} (h : (string a).admits w = true) : ∃ s, w = .string s := by
  unfold string at h
  rw [admits_leaf] at h
  have htype := admits_of_type rfl h
  cases w with
  | string s => exact ⟨s, rfl⟩
  | _ => cases htype

theorem eq_of_admits_literal {s : String} {w : Json} (h : (literal s).admits w = true) : w = .string s := by
  unfold literal string at h
  rw [admits_leaf] at h
  exact admits_string.mp (admits_of_const rfl h)

theorem mem_of_admits_oneOfStrings {values : List String} {w : Json} (h : (oneOfStrings values).admits w = true) :
    ∃ s ∈ values, w = .string s := by
  unfold oneOfStrings string at h
  rw [admits_leaf] at h
  obtain ⟨c, hc, hadmits⟩ := admits_of_enum rfl h
  obtain ⟨s, hs, rfl⟩ := List.mem_map.mp hc
  exact ⟨s, hs, admits_string.mp hadmits⟩

/-- An integer between small bounds is written as one. -/
theorem integer_of_admits {min max : ℚ} {w : Json} (h : (integer min max).admits w = true) (hw : Stringified w)
    (hmin : -(10 ^ 21) < min) (hmax : max < 10 ^ 21) : ∃ n : ℤ, w = .integer n ∧ min ≤ n ∧ (n : ℚ) ≤ max := by
  unfold integer at h
  rw [admits_leaf] at h
  have hnumber : ∀ q, w.number = some q → min ≤ q ∧ q ≤ max := by
    intro q hq
    unfold Assertions.admits at h
    simp only [Bool.and_eq_true] at h
    have hbounds := h.1.1.1.2
    unfold Assertions.admitsNumber at hbounds
    rw [hq] at hbounds
    simpa using hbounds
  have htype := admits_of_type rfl h
  cases w with
  | integer n => exact ⟨n, rfl, hnumber n rfl⟩
  | real x =>
    cases x with
    | finite q =>
      obtain ⟨hle, hge⟩ := hnumber q rfl
      have hden : q.den = 1 := by simpa [TypeKeyword.admits, Json.hasType, Json.number] using htype
      rw [Stringified] at hw
      have hlarge := hw hden
      rcases le_abs.mp hlarge with h' | h'
      · exact absurd (hge.trans_lt hmax) (not_lt.mpr h')
      · exact absurd (hmin.trans_le hle) (not_lt.mpr (le_neg.mp h'))
    | _ => cases htype
  | _ => cases htype

/-! ### An object of a document -/

/-- What a valid value of `Schema.object` is. -/
structure ObjectAdmitted (properties : List (String × Schema)) (required : List String) (v : Json) : Prop where
  isObject : Json.isObject v = true
  present : ∀ key ∈ required, ∃ w, Json.get v key = some w
  admits : ∀ key s w, properties.lookup key = some s → Json.get v key = some w → s.admits w = true

namespace ObjectAdmitted

variable {properties : List (String × Schema)} {required : List String} {v : Json}

/-- A required property is there and valid. -/
theorem field (h : ObjectAdmitted properties required v) {key : String} {s : Schema} (hkey : key ∈ required)
    (hs : properties.lookup key = some s) : ∃ w, Json.get v key = some w ∧ s.admits w = true := by
  obtain ⟨w, hw⟩ := h.present key hkey
  exact ⟨w, hw, h.admits key s w hs hw⟩

end ObjectAdmitted

theorem objectAdmitted_of_admits {properties : List (String × Schema)} {required : List String} {allOf : List Schema}
    {v : Json} (h : (Schema.object properties required allOf).admits v = true) :
    ObjectAdmitted properties required v := by
  have hby := admittedBy_of_admits h
  cases v with
  | object members =>
    refine ⟨rfl, fun key hkey => ?_, fun key s w hs hw => admits_of_lookup hby.members hs hw⟩
    exact Option.isSome_iff_exists.mp (List.all_eq_true.mp (admitsKeys_of_admits hby.assertions) key hkey)
  | _ => cases admits_of_type rfl hby.assertions

/-- A branch of a `oneOf` that the value is valid against. -/
theorem exists_of_countAdmits {ss : List Schema} {v : Json} (h : 0 < countAdmits ss v) :
    ∃ s ∈ ss, s.admits v = true := by
  induction ss with
  | nil => exact absurd h (lt_irrefl 0)
  | cons s rest ih =>
    rw [countAdmits] at h
    by_cases hs : s.admits v = true
    · exact ⟨s, List.mem_cons_self, hs⟩
    · rw [if_neg hs, Nat.zero_add] at h
      obtain ⟨s', hmem, hs'⟩ := ih h
      exact ⟨s', List.mem_cons_of_mem _ hmem, hs'⟩

/-- What `augmentOperationInvariants` adds only takes values away. -/
theorem admits_of_addAllOf {added s : Schema} {v : Json} (h : (addAllOf added s).admits v = true) :
    s.admits v = true := by
  have hcount : ∀ ss : List Schema, countAdmits (ss ++ [added]) v = (ss ++ [added]).length →
      countAdmits ss v = ss.length := by
    intro ss
    have hle : ∀ ss : List Schema, countAdmits ss v ≤ ss.length := by
      intro ss
      induction ss with
      | nil => exact le_refl _
      | cons s rest ih =>
        rw [countAdmits, List.length_cons]
        split <;> omega
    have happend : ∀ ss : List Schema, countAdmits (ss ++ [added]) v = countAdmits ss v + countAdmits [added] v := by
      intro ss
      induction ss with
      | nil => simp [countAdmits]
      | cons s rest ih =>
        rw [List.cons_append, countAdmits, countAdmits, ih]
        omega
    intro hall
    have hone := hle [added]
    have hss := hle ss
    rw [happend, List.length_append] at hall
    omega
  obtain ⟨a, properties, closed, items, anyOf, oneOf, allOf, excluded, ifThen⟩ := s
  rw [addAllOf, Schema.admits] at h
  rw [Schema.admits]
  simp only [Bool.and_eq_true, beq_iff_eq] at h ⊢
  exact ⟨⟨⟨h.1.1.1, hcount allOf h.1.1.2⟩, h.1.2⟩, h.2⟩

theorem admits_of_augmentVariant {variant : Schema} {v : Json} (h : (augmentVariant variant).admits v = true) :
    variant.admits v = true := by
  unfold augmentVariant at h
  split at h
  · exact admits_of_addAllOf h
  · exact admits_of_addAllOf h
  · exact admits_of_addAllOf h
  · exact h

/-- An operation of the document is one of the methods' document. -/
theorem variant_of_patchOperation {op : Json} (h : patchOperation.admits op = true) :
    ∃ variant ∈ plainVariants, (augmentVariant variant).admits op = true := by
  rcases (admittedBy_of_admits h).oneOf with hnil | hpos
  · cases hnil
  · obtain ⟨s, hs, hadmits⟩ := exists_of_countAdmits hpos
    obtain ⟨variant, hvariant, rfl⟩ := List.mem_map.mp hs
    exact ⟨variant, hvariant, hadmits⟩

/-! ### The check of the declared fields -/

/-- The table has the row of the variant, and only small indices are integers of it. -/
structure Tabled (variant : Schema) (name : String) (properties : List (String × Schema)) (required : List String) :
    Prop where
  isObject : variant = .object properties required []
  named : properties.lookup "op" = some (literal name)
  discriminated : "op" ∈ required
  row : operationSpecs.find? (·.op == name) = some ⟨name, requiredRows "op" variant⟩
  integers : ∀ key ∈ required, (fieldRow properties key).jsonType = .integer → properties.lookup key = some smallIndex

theorem tabled_of_mem {variant : Schema} (h : variant ∈ plainVariants) :
    ∃ name properties required, Tabled variant name properties required := by
  unfold plainVariants at h
  simp only [List.mem_cons, List.not_mem_nil, or_false] at h
  rcases h with rfl | rfl | rfl | rfl | rfl | rfl | rfl | rfl | rfl | rfl | rfl
  all_goals
    refine ⟨_, _, _, rfl, rfl, List.mem_cons_self, rfl, ?_⟩
    intro key hkey hinteger
    simp only [List.mem_cons, List.not_mem_nil, or_false] at hkey
    rcases hkey with rfl | rfl | rfl | rfl | rfl <;> first | rfl | cases hinteger

set_option maxRecDepth 4000 in
example : operationRows patchOperation = some operationSpecs := by decide

-- The domains that the plugin checks a position against are those of the schema.
example : gridDomain patchOperation "x" = some ((gridPositionXMin : ℚ), (gridPositionXMax : ℚ)) ∧
    gridDomain patchOperation "y" = some ((gridPositionYMin : ℚ), (gridPositionYMax : ℚ)) := by decide +kernel

/-- A small index is written as an integer. -/
theorem smallIndex_of_admits {w : Json} (h : smallIndex.admits w = true) (hw : Stringified w) :
    ∃ n : ℤ, w = .integer n ∧ 0 ≤ n ∧ n ≤ 65535 := by
  obtain ⟨n, rfl, hmin, hmax⟩ := integer_of_admits h hw (by norm_num) (by norm_num)
  exact ⟨n, rfl, by exact_mod_cast hmin, by exact_mod_cast hmax⟩

/-- What is valid against an object whose integers are small indices passes the check of its table. -/
theorem checkDeclaredFields_of_admitted {what discriminator : String} {properties : List (String × Schema)}
    {required : List String} {allOf : List Schema} {v : Json}
    (hintegers : ∀ key ∈ required, (fieldRow properties key).jsonType = .integer →
      properties.lookup key = some smallIndex)
    (hv : (Schema.object properties required allOf).admits v = true) (hs : Stringified v) :
    checkDeclaredFields what (requiredRows discriminator (.object properties required allOf)) v = none := by
  have hobject := objectAdmitted_of_admits hv
  refine checkDeclaredFields_eq_none_iff.mpr ⟨hobject.isObject, fun key hkey _ => ?_⟩
  obtain ⟨w, hw⟩ := hobject.present key hkey
  refine checkDeclaredField_eq_none_iff.mpr
    ⟨w, hw, asDeclared_of_admits (admittedBy_of_admits hv).members hw, fun hinteger x hx => ?_⟩
  have hlookup := hintegers key hkey hinteger
  obtain ⟨n, hn, -⟩ := smallIndex_of_admits (hobject.admits key _ w hlookup hw) (hs.get hw)
  rw [hx] at hn
  cases hn

/-- The name of an operation that is valid against a variant. -/
theorem Tabled.op {variant : Schema} {name : String} {properties : List (String × Schema)} {required : List String}
    (ht : Tabled variant name properties required) {op : Json} (h : variant.admits op = true) :
    Json.get op "op" = some (.string name) := by
  have hobject := objectAdmitted_of_admits (ht.isObject ▸ h)
  obtain ⟨w, hw, hadmits⟩ := hobject.field ht.discriminated ht.named
  rw [hw, eq_of_admits_literal hadmits]

/-- An operation that is valid against a variant is of its declared shape. -/
theorem checkOperationFields_of_admits {variant : Schema} (hvariant : variant ∈ plainVariants) {op : Json}
    (h : variant.admits op = true) (hs : Stringified op) : checkOperationFields op = none := by
  obtain ⟨name, properties, required, ht⟩ := tabled_of_mem hvariant
  have hop := ht.op h
  have hobject := objectAdmitted_of_admits (ht.isObject ▸ h)
  unfold checkOperationFields
  rw [if_neg (not_not.mpr hobject.isObject), hop]
  simp only [ht.row, ht.isObject]
  exact checkDeclaredFields_of_admitted ht.integers (ht.isObject ▸ h) hs

/-! ### The readers -/

theorem readIntField_of_admits {obj : Option Json} {key : String} {w : Json} (hw : Json.get obj key = some w)
    (h : smallIndex.admits w = true) (hs : Stringified w) : ∃ n, readIntField obj key = .ok n := by
  obtain ⟨n, rfl, hmin, hmax⟩ := smallIndex_of_admits h hs
  unfold readIntField
  rw [hw]
  dsimp only
  rw [if_neg (by unfold intMin intMax; omega)]
  exact ⟨n, rfl⟩

theorem readIntFieldIn_of_admits {obj : Option Json} {key : String} {w : Json} {min max : ℤ}
    (hw : Json.get obj key = some w) (h : (integer min max).admits w = true) (hs : Stringified w)
    (hmin : intMin ≤ min) (hmax : max ≤ intMax) : ∃ n, readIntFieldIn obj key min max = .ok n := by
  have hlow : -(10 ^ 21 : ℚ) < min := by
    have : (intMin : ℚ) ≤ min := by exact_mod_cast hmin
    exact lt_of_lt_of_le (by unfold intMin; norm_num) this
  have hhigh : (max : ℚ) < 10 ^ 21 := by
    have : (max : ℚ) ≤ intMax := by exact_mod_cast hmax
    exact lt_of_le_of_lt this (by unfold intMax; norm_num)
  obtain ⟨n, rfl, hn, hn'⟩ := integer_of_admits h hs hlow hhigh
  have hn : min ≤ n := by exact_mod_cast hn
  have hn' : n ≤ max := by exact_mod_cast hn'
  unfold readIntFieldIn readIntField
  rw [hw]
  dsimp only
  rw [if_neg (by omega)]
  dsimp only
  rw [if_neg (by omega)]
  exact ⟨n, rfl⟩

theorem readGridPosition_of_admits {w : Json} (h : gridPosition.admits w = true) (hs : Stringified w) :
    ∃ p, readGridPosition w = .ok p := by
  have hobject := objectAdmitted_of_admits h
  obtain ⟨x, hx, hxadmits⟩ : ∃ x, Json.get w "x" = some x ∧ (integer (-4096) 4096).admits x = true :=
    hobject.field List.mem_cons_self rfl
  obtain ⟨y, hy, hyadmits⟩ : ∃ y, Json.get w "y" = some y ∧ (integer (-256) 256).admits y = true :=
    hobject.field (List.mem_cons_of_mem _ List.mem_cons_self) rfl
  obtain ⟨gx, hgx⟩ : ∃ gx, readIntFieldIn w "x" gridPositionXMin gridPositionXMax = .ok gx :=
    readIntFieldIn_of_admits hx (by simpa [gridPositionXMin, gridPositionXMax] using hxadmits) (hs.get hx)
      (by decide) (by decide)
  obtain ⟨gy, hgy⟩ : ∃ gy, readIntFieldIn w "y" gridPositionYMin gridPositionYMax = .ok gy :=
    readIntFieldIn_of_admits hy (by simpa [gridPositionYMin, gridPositionYMax] using hyadmits) (hs.get hy)
      (by decide) (by decide)
  unfold readGridPosition
  rw [hgx]
  dsimp only
  rw [hgy]
  exact ⟨(gx, gy), rfl⟩
/-! ### No branch calls it malformed -/

/-- The verdict does not blame the form of the request. -/
def WellFormed (v : Verdict) : Prop := ∀ e st, v = .thrown e st → e.code ≠ .badRequest

section branches
variable {op : Json} {world : PlanWorld} {st : PreviewState}

theorem WellFormed.done : WellFormed (.done st) := fun _ _ h => (by cases h)

theorem WellFormed.thrown {e : ValidationError} (h : e.code ≠ .badRequest) : WellFormed (.thrown e st) := by
  intro e' st' heq
  injection heq with he
  exact he ▸ h

theorem WellFormed.refuse {code : ErrorCode} {message : String} (h : code ≠ .badRequest) :
    WellFormed (refuse code message st) := .thrown h

/-- An `add_module` is malformed only where it has no alias or repeats one. -/
theorem wellFormed_validateAdd (hempty : jstr op "alias" ≠ "") (hfresh : jstr op "alias" ∉ st.aliases) :
    WellFormed (validateAdd op world st) := by
  unfold validateAdd
  dsimp only
  split
  · exact .refuse ErrorCode.noConfusion
  rw [if_neg (not_or.mpr ⟨hempty, hfresh⟩)]
  exact .done

theorem wellFormed_validateRemove : WellFormed (validateRemove op world st) := by
  unfold validateRemove
  dsimp only
  split
  · exact .refuse ErrorCode.noConfusion
  split
  · exact .done
  split
  · exact .refuse ErrorCode.noConfusion
  split
  · exact .thrown ErrorCode.noConfusion
  split
  · exact .refuse ErrorCode.noConfusion
  · exact .done

theorem wellFormed_validateModify {type : OpType}
    (hread : type = .setParameter → ∃ n, readIntField op "paramId" = .ok n) :
    WellFormed (validateModify type op world st) := by
  unfold validateModify
  dsimp only
  split
  · exact .refuse ErrorCode.noConfusion
  split
  · exact .done
  split
  · exact .refuse ErrorCode.noConfusion
  split
  swap
  · exact .done
  next htype =>
  obtain ⟨n, hn⟩ := hread htype
  rw [hn]
  dsimp only
  split
  · exact .refuse ErrorCode.noConfusion
  · exact .done

theorem wellFormed_validateMove (hread : ∃ p, readGridPosition (Json.get op "position") = .ok p) :
    WellFormed (validateMove op world st) := by
  obtain ⟨p, hp⟩ := hread
  unfold validateMove
  rw [hp]
  dsimp only
  split
  · exact .refuse ErrorCode.noConfusion
  split
  · exact .done
  split
  · exact .refuse ErrorCode.noConfusion
  split
  · exact .done
  split
  · exact .refuse ErrorCode.noConfusion
  split
  · exact .done
  · exact .done

theorem wellFormed_claimInput {inModule inPort : Int} {existing : List Int} :
    WellFormed (claimInput op inModule inPort existing st) := by
  unfold claimInput
  dsimp only
  split
  swap
  · exact .done
  split
  · exact .thrown ErrorCode.noConfusion
  split
  · exact .thrown ErrorCode.noConfusion
  · exact .done

theorem wellFormed_validateConnect (hout : ∃ n, readIntField (Json.get op "output") "portId" = .ok n)
    (hin : ∃ n, readIntField (Json.get op "input") "portId" = .ok n) :
    WellFormed (validateConnect op world st) := by
  obtain ⟨outId, hout⟩ := hout
  obtain ⟨inId, hin⟩ := hin
  unfold validateConnect
  dsimp only
  rw [hout, hin]
  dsimp only
  split
  · exact .refuse ErrorCode.noConfusion
  split
  · exact .refuse ErrorCode.noConfusion
  split
  · exact wellFormed_claimInput
  split
  · exact .refuse ErrorCode.noConfusion
  · exact wellFormed_claimInput

theorem wellFormed_validateDisconnect : WellFormed (validateDisconnect op world st) := by
  unfold validateDisconnect
  dsimp only
  split
  · exact .refuse ErrorCode.noConfusion
  split
  · exact .refuse ErrorCode.noConfusion
  split
  · exact .refuse ErrorCode.noConfusion
  · exact .done

theorem wellFormed_validateDisconnectPort (hread : ∃ n, readIntField (Json.get op "port") "portId" = .ok n)
    (htype : jstr (Json.get op "port") "portType" ∈ ["input", "output"]) :
    WellFormed (validateDisconnectPort op world st) := by
  obtain ⟨n, hn⟩ := hread
  unfold validateDisconnectPort
  dsimp only
  rw [hn]
  split
  · exact .refuse ErrorCode.noConfusion
  split
  · exact .done
  split
  · exact .refuse ErrorCode.noConfusion
  dsimp only
  rw [if_neg (by simpa [or_iff_not_imp_left] using htype)]
  exact .done

end branches

/-! ### A preview of valid operations -/

theorem readIntField_of_portRef {op : Json} {key : String} {w : Json} (hw : Json.get op key = some w)
    (h : portRef.admits w = true) (hs : Stringified w) :
    (∃ n, readIntField (Json.get op key) "portId" = .ok n) ∧
      jstr (Json.get op key) "portType" ∈ ["input", "output"] := by
  have hobject := objectAdmitted_of_admits h
  obtain ⟨n, hn, hnadmits⟩ : ∃ n, Json.get w "portId" = some n ∧ smallIndex.admits n = true :=
    hobject.field (by decide) rfl
  obtain ⟨t, ht, htadmits⟩ :
      ∃ t, Json.get w "portType" = some t ∧ (oneOfStrings ["input", "output"]).admits t = true :=
    hobject.field (by decide) rfl
  obtain ⟨s, hmem, rfl⟩ := mem_of_admits_oneOfStrings htadmits
  rw [hw]
  refine ⟨readIntField_of_admits hn hnadmits (hs.get hn), ?_⟩
  rw [show jstr (some w) "portType" = s by unfold jstr; rw [ht]; rfl]
  exact hmem

theorem ne_empty_of_admits {op : Json} {key : String} {w : Json} (hw : Json.get op key = some w)
    (h : aliasName.admits w = true) : jstr op key ≠ "" := by
  obtain ⟨s, rfl⟩ := admits_string_type h
  have hlength : 1 ≤ s.length := by
    unfold aliasName string at h
    rw [admits_leaf] at h
    unfold Assertions.admits at h
    simp only [Bool.and_eq_true] at h
    have htext := h.1.1.2
    unfold Assertions.admitsText at htext
    simp only [Bool.and_eq_true, decide_eq_true_eq] at htext
    exact htext.1.1
  unfold jstr
  rw [hw]
  rintro rfl
  exact absurd hlength (by decide)

theorem opType_of_literal {name : String} {properties : List (String × Schema)} {required : List String} {op : Json}
    (h : ObjectAdmitted (("op", literal name) :: properties) ("op" :: required) op) : opType op = .ofName name := by
  obtain ⟨w, hw, hadmits⟩ := h.field (s := literal name) List.mem_cons_self rfl
  unfold opType jstr
  rw [hw, eq_of_admits_literal hadmits]
  rfl

/-- A valid operation is malformed only where it adds a module under an alias that is taken. -/
theorem wellFormed_validateOne {variant : Schema} (hvariant : variant ∈ plainVariants) {op : Json}
    (h : variant.admits op = true) (hs : Stringified op) {world : PlanWorld} {st : PreviewState}
    (hfresh : opType op = .addModule → jstr op "alias" ∉ st.aliases) : WellFormed (validateOne world op st) := by
  unfold validateOne
  rw [checkOperationFields_of_admits hvariant h hs]
  dsimp only
  unfold validateBranch
  unfold plainVariants at hvariant
  simp only [List.mem_cons, List.not_mem_nil, or_false] at hvariant
  rcases hvariant with rfl | rfl | rfl | rfl | rfl | rfl | rfl | rfl | rfl | rfl | rfl
  all_goals have hobject := objectAdmitted_of_admits h
  · have htype : opType op = .addModule := opType_of_literal hobject
    obtain ⟨w, hw, hwadmits⟩ : ∃ w, Json.get op "alias" = some w ∧ aliasName.admits w = true :=
      hobject.field (by decide) rfl
    rw [htype]
    refine wellFormed_validateAdd ?_ (hfresh htype)
    exact ne_empty_of_admits hw hwadmits
  · rw [show opType op = .removeModule from opType_of_literal hobject]
    exact wellFormed_validateRemove
  · rw [show opType op = .moveModule from opType_of_literal hobject]
    obtain ⟨w, hw, hwadmits⟩ : ∃ w, Json.get op "position" = some w ∧ gridPosition.admits w = true :=
      hobject.field (by decide) rfl
    refine wellFormed_validateMove ?_
    rw [hw]
    exact readGridPosition_of_admits hwadmits (hs.get hw)
  · rw [show opType op = .duplicateModule from opType_of_literal hobject]
    exact .refuse ErrorCode.noConfusion
  · rw [show opType op = .setParameter from opType_of_literal hobject]
    obtain ⟨w, hw, hwadmits⟩ : ∃ w, Json.get op "paramId" = some w ∧ smallIndex.admits w = true :=
      hobject.field (by decide) rfl
    exact wellFormed_validateModify fun _ => readIntField_of_admits hw hwadmits (hs.get hw)
  · rw [show opType op = .setBypass from opType_of_literal hobject]
    exact wellFormed_validateModify fun h => (by cases h)
  · rw [show opType op = .connect from opType_of_literal hobject]
    obtain ⟨o, ho, hoadmits⟩ : ∃ o, Json.get op "output" = some o ∧ portRef.admits o = true :=
      hobject.field (by decide) rfl
    obtain ⟨i, hi, hiadmits⟩ : ∃ i, Json.get op "input" = some i ∧ portRef.admits i = true :=
      hobject.field (by decide) rfl
    exact wellFormed_validateConnect (readIntField_of_portRef ho hoadmits (hs.get ho)).1
      (readIntField_of_portRef hi hiadmits (hs.get hi)).1
  · rw [show opType op = .disconnect from opType_of_literal hobject]
    exact wellFormed_validateDisconnect
  · rw [show opType op = .disconnectPort from opType_of_literal hobject]
    obtain ⟨w, hw, hwadmits⟩ : ∃ w, Json.get op "port" = some w ∧ portRef.admits w = true :=
      hobject.field (by decide) rfl
    obtain ⟨hread, hmem⟩ := readIntField_of_portRef hw hwadmits (hs.get hw)
    exact wellFormed_validateDisconnectPort hread hmem
  · rw [show opType op = .resetModule from opType_of_literal hobject]
    exact wellFormed_validateModify fun h => (by cases h)
  · rw [show opType op = .randomizeModule from opType_of_literal hobject]
    exact wellFormed_validateModify fun h => (by cases h)

/-- An alias that a preview knows is one it started with, or an earlier operation declared it. -/
theorem alias_of_runs {world : PlanWorld} {ops : List Json} {st st' : PreviewState} {name : String}
    (h : Runs (validateOne world) ops st st') (hname : name ∈ st'.aliases) :
    name ∈ st.aliases ∨ ∃ op ∈ ops, opType op = .addModule ∧ jstr op "alias" = name := by
  induction h with
  | nil => exact .inl hname
  | @cons op ops st st' st'' head tail ih =>
    rcases ih hname with hknown | ⟨op', hop', hadd⟩
    swap
    · exact .inr ⟨op', List.mem_cons_of_mem _ hop', hadd⟩
    have hsame : st'.aliases = st.aliases → name ∈ st.aliases := fun h => h ▸ hknown
    cases validateOne_step head with
    | add kind _ _ _ aliases =>
      rw [aliases, AList.mem_insert] at hknown
      rcases hknown with rfl | hknown
      · exact .inr ⟨op, List.mem_cons_self, kind, rfl⟩
      · exact .inl hknown
    | removeAlias _ _ _ same => exact .inl (same ▸ hknown)
    | removeLive _ _ _ _ _ _ _ _ _ aliases => exact .inl (hsame aliases)
    | modifyAlias _ _ _ same => exact .inl (hsame same.aliases)
    | modifyLive _ _ _ _ _ _ _ _ same => exact .inl (hsame same.aliases)
    | move _ _ same => exact .inl (hsame same.aliases)
    | connect _ _ _ _ _ _ _ _ _ _ _ _ _ _ aliases => exact .inl (hsame aliases)
    | disconnect _ _ _ _ _ same => exact .inl (hsame (same ▸ (PreviewState.removeCables_same st [_]).aliases))
    | disconnectPortAlias _ _ _ same => exact .inl (same ▸ hknown)
    | disconnectPortLive _ _ _ _ _ _ _ _ _ _ _ same => exact .inl (hsame same.aliases)

/-- Operations that are valid against `patch-operation.schema.json`, as the server sends them. -/
def AdmittedPlan (ops : List Json) : Prop :=
  ops ≠ [] ∧ ∀ op ∈ ops, patchOperation.admits op = true ∧ Stringified op

/-- Two operations of the plan add a module under one alias. -/
def RepeatsAlias (ops : List Json) : Prop :=
  ∃ pre op post, ops = pre ++ op :: post ∧ opType op = .addModule ∧
    ∃ earlier ∈ pre, opType earlier = .addModule ∧ jstr earlier "alias" = jstr op "alias"

theorem badShape_of_admitted {ops : List Json}
    (h : ∀ op ∈ ops, patchOperation.admits op = true ∧ Stringified op) : badShape ops = none := by
  unfold badShape
  rw [List.findSome?_eq_none_iff]
  intro entry hentry
  obtain ⟨hadmits, hstringified⟩ := h entry.1 (List.fst_mem_of_mem_zipIdx hentry)
  obtain ⟨variant, hvariant, haugmented⟩ := variant_of_patchOperation hadmits
  rw [checkOperationFields_of_admits hvariant (admits_of_augmentVariant haugmented) hstringified]
  rfl

theorem repeatsAlias_of_validateAll {world : PlanWorld} {ops : List Json} {i : Nat} {e : ValidationError}
    {st : PreviewState} (hops : AdmittedPlan ops) (h : validateAll world ops = .thrown (i, e) st)
    (he : e.code = .badRequest) : RepeatsAlias ops := by
  unfold validateAll at h
  obtain ⟨pre, op, post, u, rfl, -, hpre, hthrow⟩ := runFrom_thrown_iff.mp h
  obtain ⟨hadmits, hstringified⟩ := hops.2 op (List.mem_append_right _ List.mem_cons_self)
  obtain ⟨variant, hvariant, haugmented⟩ := variant_of_patchOperation hadmits
  by_contra hrepeats
  refine wellFormed_validateOne hvariant (admits_of_augmentVariant haugmented) hstringified ?_ e st hthrow he
  intro hadd hknown
  rcases alias_of_runs hpre hknown with hstart | ⟨earlier, hmem, hearlier⟩
  · exact absurd hstart (AList.notMem_empty _)
  · exact hrepeats ⟨pre, op, post, rfl, hadd, earlier, hmem, hearlier⟩

theorem errorCode_rollbackOutcome (failedIndex : Nat) (failMessage : String) (run : InverseRun) (restored : Bool)
    (detail : String) :
    (rollbackOutcome failedIndex failMessage run restored detail).errorCode ≠ some .badRequest := by
  rcases restored
  · exact fun h => (by cases h)
  · exact fun h => (by cases h)

/-- A plan that is valid against the schema of its operations is never malformed for the plugin: no preview answers
BAD_REQUEST unless the plan repeats an alias, and no commit does. -/
theorem admitted_plan_well_formed (rack : Rack) (rs : RackState) (request : Json) (durationMs : Double)
    (ops : List Json) (hops : AdmittedPlan ops) :
    (Json.get request "operations" = some (.array ops) →
      (txnPreview rack request rs).errorCode = some .badRequest → RepeatsAlias ops) ∧
    (Json.get (Json.get request "plan") "operations" = some (.array ops) →
      (txnCommit rack request durationMs rs).1.errorCode ≠ some .badRequest) := by
  constructor
  · intro hget hcode
    unfold txnPreview at hcode
    rw [hget] at hcode
    rcases ops with _ | ⟨op, rest⟩
    · exact absurd rfl hops.1
    dsimp only at hcode
    split at hcode
    · next i e st hthrown => exact repeatsAlias_of_validateAll hops hthrown (Option.some.inj hcode)
    · split at hcode <;> cases hcode
  · intro hget
    have hobject : Json.isObject (Json.get request "plan") = true := by
      rcases h : Json.get request "plan" with _ | plan
      · rw [h] at hget
        cases hget
      · cases plan with
        | object members => rfl
        | _ =>
          rw [h] at hget
          cases hget
    have hplan : planOperations (Json.get request "plan") = ops := by
      unfold planOperations
      rw [hget]
    have hgate : ∀ refusal, commitGate rack request rs = some refusal → refusal.errorCode ≠ some .badRequest := by
      intro refusal hrefusal
      unfold commitGate at hrefusal
      dsimp only at hrefusal
      rw [if_neg (not_not.mpr hobject), hplan, if_neg hops.1, badShape_of_admitted hops.2] at hrefusal
      dsimp only at hrefusal
      split at hrefusal
      · obtain rfl := Option.some.inj hrefusal
        exact fun h => (by cases h)
      split at hrefusal
      · obtain rfl := Option.some.inj hrefusal
        exact fun h => (by cases h)
      split at hrefusal
      · obtain rfl := Option.some.inj hrefusal
        exact fun h => (by cases h)
      · cases hrefusal
    unfold txnCommit
    split
    · next refusal hrefusal => exact hgate refusal hrefusal
    split
    · unfold finishCommit
      dsimp only
      split <;> exact fun h => (by cases h)
    · exact errorCode_rollbackOutcome _ _ _ _ _

/-- A plan that bypasses the oscillator. -/
def bypassOscillator : List Json :=
  [operation "set_bypass" [("bypassed", .bool true), ("module", moduleById "1")]]

theorem admittedPlan_bypassOscillator : AdmittedPlan bypassOscillator := by
  refine ⟨by decide, fun op hop => ?_⟩
  obtain rfl := List.mem_singleton.mp hop
  refine ⟨by decide, ?_⟩
  simp [operation, moduleById, Stringified, StringifiedMembers]

theorem admitted_plan_well_formed_bypass :
    (txnCommit benchRack (.object [("plan", .object [("operations", .array bypassOscillator)])]) (.finite 0)
      { patch := benchPatch }).1.errorCode ≠ some .badRequest :=
  (admitted_plan_well_formed benchRack { patch := benchPatch } _ (.finite 0) bypassOscillator
    admittedPlan_bypassOscillator).2 rfl

/-! ### Every method -/

/-- The table has the row of the method, and only small indices are integers of it. -/
theorem tabled_of_bridgeMethods {method : String} {mutating : Bool} {request : Schema}
    (h : (method, mutating, request) ∈ bridgeMethods) : ∃ properties required,
      request = .object properties required [] ∧
      methodSpecs.find? (·.method == method) = some ⟨method, mutating, requiredFields request⟩ ∧
      ∀ key ∈ required, (fieldRow properties key).jsonType = .integer → properties.lookup key = some smallIndex := by
  unfold bridgeMethods at h
  simp only [List.mem_cons, List.not_mem_nil, or_false, Prod.mk.injEq] at h
  rcases h with ⟨rfl, rfl, rfl⟩ | ⟨rfl, rfl, rfl⟩ | ⟨rfl, rfl, rfl⟩ | ⟨rfl, rfl, rfl⟩ | ⟨rfl, rfl, rfl⟩ |
    ⟨rfl, rfl, rfl⟩ | ⟨rfl, rfl, rfl⟩ | ⟨rfl, rfl, rfl⟩ | ⟨rfl, rfl, rfl⟩ | ⟨rfl, rfl, rfl⟩ | ⟨rfl, rfl, rfl⟩ |
    ⟨rfl, rfl, rfl⟩ | ⟨rfl, rfl, rfl⟩ | ⟨rfl, rfl, rfl⟩ | ⟨rfl, rfl, rfl⟩ | ⟨rfl, rfl, rfl⟩ | ⟨rfl, rfl, rfl⟩ |
    ⟨rfl, rfl, rfl⟩ | ⟨rfl, rfl, rfl⟩ | ⟨rfl, rfl, rfl⟩ | ⟨rfl, rfl, rfl⟩
  all_goals
    refine ⟨_, _, rfl, rfl, ?_⟩
    intro key hkey hinteger
    simp only [List.mem_cons, List.not_mem_nil, or_false] at hkey <;>
      rcases hkey with rfl | rfl | rfl | rfl | rfl <;> first | rfl | cases hinteger

set_option maxRecDepth 4000 in
example : bridgeMethods.map (fun entry => methodRow entry.1 entry.2.1 entry.2.2) = methodSpecs := by decide

/-- A request whose payload is valid against the schema of its method passes every check of its form: where it may
mutate at all, the plugin queues it with that payload, or answers it itself when it is about the lease. -/
theorem admitted_request_queued (cfg : ServiceConfig) (J : Jansson) (rng : Entropy) (r : FrameReadings)
    (sh : Shared) (s : Session) (root payload : Json) (method : String) (mutating : Bool) (request : Schema)
    (deadlineMs : ℤ) (hmethod : (method, mutating, request) ∈ bridgeMethods) (hadmits : request.admits payload = true)
    (hstringified : Stringified payload) (hid : isHex (jstr root "id") 16 = true) (hname : jstr root "method" = method)
    (hpayload : Json.get root "payload" = some payload)
    (hdeadline : Json.get root "deadlineMs" = some (.integer deadlineMs) ∧ 1 ≤ deadlineMs ∧ deadlineMs ≤ 600000)
    (hwriter : mutating = true → (jstr root "operationId").utf8ByteSize = 36 ∧
      (sh.leases.holder r.gateMs).held = true ∧ (sh.leases.holder r.gateMs).connectionId = s.id) :
    if "lease.".toList.isPrefixOf method.toList then
      ∃ sh' reply, handleRequest cfg J rng r sh s root =
        ⟨s, sh', [.leaseHandled s.id method, .outbound s.id reply], true⟩
    else ∃ cmd, cmd.method = method ∧ cmd.payload = payload ∧
      handleRequest cfg J rng r sh s root = ⟨{ s with pending := some cmd }, sh, [], true⟩ := by
  obtain ⟨properties, required, hrequest, hrow, hintegers⟩ := tabled_of_bridgeMethods hmethod
  have hfields : checkDeclaredFields method (requiredFields request) payload = none := by
    rw [hrequest]
    exact checkDeclaredFields_of_admitted hintegers (hrequest ▸ hadmits) hstringified
  obtain ⟨leaseId, hgate⟩ : ∃ leaseId, writerGate ⟨method, mutating, requiredFields request⟩ sh.leases s.id
      (jstr root "operationId") r.gateMs = .ok leaseId := by
    unfold writerGate
    dsimp only
    split
    · exact ⟨_, rfl⟩
    next hmutating =>
    obtain ⟨hsize, hheld, hconnection⟩ := hwriter (not_not.mp hmutating)
    rw [if_neg (not_not.mpr hsize), if_neg (by simp [hheld, hconnection])]
    exact ⟨_, rfl⟩
  have hhandled : handleRequest cfg J rng r sh s root = admitRequest cfg J rng r sh s root (jstr root "id")
      ⟨method, mutating, requiredFields request⟩ (r.nowMs + deadlineMs) := by
    unfold handleRequest
    dsimp only
    rw [if_neg (not_not.mpr hid), hname, hrow]
    dsimp only
    rw [hdeadline.1]
    dsimp only
    rw [if_neg (by omega)]
  rw [hhandled]
  unfold admitRequest
  dsimp only
  rw [hgate, hpayload]
  dsimp only
  rw [hfields]
  dsimp only
  split
  · exact ⟨_, _, rfl⟩
  · exact ⟨_, rfl, rfl, rfl⟩

/-- A request for the readings of a probe. -/
def readProbe : Json :=
  .object [("scope", .object [("instanceId", .string "11111111-1111-4111-8111-111111111111"),
      ("sessionId", .string "22222222-2222-4222-8222-222222222222"), ("patchEpoch", .integer 1)]),
    ("probeModuleId", .string "4"), ("probeInputId", .integer 2)]

theorem admitted_request_queued_probe :
    ∃ cmd : BridgeCommand, cmd.method = "probe.read" ∧ cmd.payload = readProbe ∧
      handleRequest benchConfig benchJansson benchEntropy ⟨1, 0, 0⟩ {} { id := 1, state := .ready }
        (benchRequest "00000000000000a3" "probe.read" readProbe) =
        ⟨{ id := 1, state := .ready, pending := some cmd }, {}, [], true⟩ :=
  admitted_request_queued benchConfig benchJansson benchEntropy ⟨1, 0, 0⟩ {} { id := 1, state := .ready }
    (benchRequest "00000000000000a3" "probe.read" readProbe) readProbe "probe.read" false _ 5000
    (List.mem_of_getElem? (show bridgeMethods[17]? = some _ from rfl)) (by decide)
    (by simp [readProbe, Stringified, StringifiedMembers]) (by decide) rfl rfl ⟨rfl, by decide, by decide⟩
    (fun h => by cases h)

end RackMcp.Schemas
