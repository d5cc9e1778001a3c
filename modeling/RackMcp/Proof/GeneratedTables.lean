import RackMcp.Core.Plan
import RackMcp.Schemas.Documents

/-!
# What the generated tables mean

The plugin checks a request against a table that `gen-cpp.ts` made of its schema. The table is the schema with all but
the required fields and what their keywords declare of type and strings forgotten (`ShallowlyValid`): the check accepts
exactly what is valid in that sense, as long as an integer is not written as a real, and so is what the schema admits.
-/

namespace RackMcp.Schemas

open Gen

deriving instance DecidableEq for FieldSpec, OperationSpec, MethodSpec

/-! ### The keywords of a valid value -/

section admits
variable {a : Assertions} {properties : List (String × Schema)} {closed : Bool} {items : Option Schema}
  {anyOf oneOf allOf : List Schema} {excluded : Option Schema} {ifThen : Option (Schema × Schema)} {v : Json}

/-- What a valid value satisfies, keyword by keyword. -/
structure AdmittedBy (a : Assertions) (properties : List (String × Schema)) (anyOf oneOf allOf : List Schema)
    (v : Json) : Prop where
  assertions : a.admits v = true
  members : admitsMembers properties v = true
  anyOf : anyOf = [] ∨ 0 < countAdmits anyOf v
  oneOf : oneOf = [] ∨ 0 < countAdmits oneOf v
  allOf : countAdmits allOf v = allOf.length

theorem admittedBy_of_admits
    (h : (Schema.node a properties closed items anyOf oneOf allOf excluded ifThen).admits v = true) :
    AdmittedBy a properties anyOf oneOf allOf v := by
  rw [Schema.admits] at h
  simp only [Bool.and_eq_true] at h
  have hanyOf := h.1.1.1.1.2
  have honeOf := h.1.1.1.2
  rw [Bool.or_eq_true, List.isEmpty_iff, decide_eq_true_eq] at hanyOf
  rw [Bool.or_eq_true, List.isEmpty_iff, beq_iff_eq] at honeOf
  exact ⟨h.1.1.1.1.1.1.1.1, h.1.1.1.1.1.1.2, hanyOf, honeOf.imp_right fun h => by omega, eq_of_beq h.1.1.2⟩

theorem admitsKind_of_admits (h : a.admits v = true) : a.admitsKind v = true := by
  unfold Assertions.admits at h
  simp only [Bool.and_eq_true] at h
  exact h.1.1.1.1

theorem admitsKeys_of_admits (h : a.admits v = true) : a.admitsKeys v = true := by
  unfold Assertions.admits at h
  simp only [Bool.and_eq_true] at h
  exact h.2

theorem admits_of_const {c : Scalar} (hc : a.const = some c) (h : a.admits v = true) : c.admits v = true := by
  have hkind := admitsKind_of_admits h
  unfold Assertions.admitsKind at hkind
  rw [hc, Bool.and_eq_true, Bool.and_eq_true] at hkind
  exact hkind.1.2

theorem admits_of_enum {values : List Scalar} (henum : a.enum = some values) (h : a.admits v = true) :
    ∃ c ∈ values, c.admits v = true := by
  have hkind := admitsKind_of_admits h
  unfold Assertions.admitsKind at hkind
  rw [henum, Bool.and_eq_true] at hkind
  exact List.any_eq_true.mp hkind.2

theorem admits_of_type {t : TypeKeyword} (ht : a.type = some t) (h : a.admits v = true) : t.admits v = true := by
  have hkind := admitsKind_of_admits h
  unfold Assertions.admitsKind at hkind
  rw [ht, Bool.and_eq_true, Bool.and_eq_true] at hkind
  exact hkind.1.1

/-- A property that is present is valid. -/
theorem admits_of_lookup {name : String} {s : Schema} {w : Json} (h : admitsMembers properties v = true)
    (hs : properties.lookup name = some s) (hw : Json.get v name = some w) : s.admits w = true := by
  induction properties with
  | nil => cases hs
  | cons p rest ih =>
    obtain ⟨key, s'⟩ := p
    rw [admitsMembers, Bool.and_eq_true] at h
    rw [List.lookup_cons] at hs
    split at hs
    · next hkey =>
      obtain rfl := Option.some.inj hs
      obtain rfl := eq_of_beq hkey
      simpa only [hw] using h.1
    · exact ih h.2 hs

end admits

theorem number_isNumber {v : Json} {q : ℚ} (h : v.number = some q) : v.isNumber = true := by
  cases v with
  | integer n => rfl
  | real x => rfl
  | _ => cases h

/-! ### The type of a schema -/

/-- The value has the type, where a real may be an integer. -/
def Loosely (t : JsonType) (v : Json) : Prop := typeMatches t v = true ∨ t = .integer ∧ v.hasType "integer" = true

theorem loosely_any (v : Json) : Loosely .any v := .inl (by cases v <;> rfl)

theorem loosely_typeOfConst {c : Option Scalar} {t : JsonType} {v : Json} (ht : typeOfConst c = some t)
    (hc : ∀ c', c = some c' → c'.admits v = true) : Loosely t v := by
  left
  rcases c with _ | c
  · cases ht
  have hadmits := hc c rfl
  cases c with
  | null => cases ht
  | bool b =>
    obtain rfl := Option.some.inj ht
    cases v with
    | bool b' => rfl
    | _ => cases hadmits
  | number q =>
    obtain rfl := Option.some.inj ht
    have hnumber : v.number = some q := eq_of_beq (by simpa only [Scalar.admits] using hadmits)
    have := number_isNumber hnumber
    cases v with
    | integer n => rfl
    | real x => rfl
    | _ => cases hnumber
  | string s =>
    obtain rfl := Option.some.inj ht
    cases v with
    | string s' => rfl
    | _ => cases hadmits

/-- Of an enumeration of strings only strings are valid, and only its own. -/
theorem mem_of_stringsOf {values : List Scalar} {strings : List String} (hstrings : stringsOf values = some strings)
    {c : Scalar} (hc : c ∈ values) {v : Json} (hadmits : c.admits v = true) : ∃ s ∈ strings, v = .string s := by
  induction values generalizing strings with
  | nil => cases hc
  | cons d rest ih =>
    unfold stringsOf at hstrings ih
    rw [List.mapM_cons] at hstrings
    cases d with
    | string s =>
      rcases hrest : rest.mapM stringValue with _ | strings'
      · rw [hrest] at hstrings
        cases hstrings
      rw [hrest] at hstrings
      obtain rfl := Option.some.inj hstrings
      rcases List.mem_cons.mp hc with rfl | hc
      · cases v with
        | string s' =>
          have heq : s = s' := eq_of_beq (by simpa only [Scalar.admits] using hadmits)
          exact ⟨s, List.mem_cons_self, by rw [heq]⟩
        | _ => cases hadmits
      · obtain ⟨s', hs', hv⟩ := ih hrest hc
        exact ⟨s', List.mem_cons_of_mem _ hs', hv⟩
    | _ => cases hstrings

theorem loosely_scalarType {a : Assertions} {t : JsonType} {v : Json} (ht : scalarType a = some t)
    (h : a.admits v = true) : Loosely t v := by
  unfold scalarType at ht
  split at ht
  · next hconst =>
    obtain rfl := Option.some.inj ht
    exact loosely_typeOfConst hconst fun c hc => admits_of_const hc h
  · split at ht
    · next c values henum =>
      obtain ⟨strings, hstrings, rfl⟩ := Option.map_eq_some_iff.mp ht
      obtain ⟨d, hd, hadmits⟩ := admits_of_enum henum h
      obtain ⟨s, -, rfl⟩ := mem_of_stringsOf hstrings hd hadmits
      exact .inl rfl
    · cases ht

theorem loosely_typeOfKeyword {a : Assertions} {v : Json} (h : a.admits v = true) :
    Loosely (typeOfKeyword a.type) v := by
  unfold typeOfKeyword
  split
  case h_7 => exact loosely_any v
  all_goals
    next htype =>
    have htyped := admits_of_type htype h
    cases v with
    | _ => first | exact .inl rfl | exact .inr ⟨rfl, htyped⟩ | cases htyped

theorem loosely_commonType {ts : List JsonType} {t : JsonType} {v : Json} (ht : t ∈ ts) (h : Loosely t v) :
    Loosely (commonType ts) v := by
  rcases ts with _ | ⟨t', ts⟩
  · cases ht
  rw [commonType]
  by_cases hall : ts.all (· == t') = true
  · rw [if_pos hall]
    rcases List.mem_cons.mp ht with rfl | ht
    · exact h
    · exact eq_of_beq (List.all_eq_true.mp hall t ht) ▸ h
  · rw [if_neg hall]
    exact loosely_any v

theorem ne_nil_of_jsonTypesOf {ss : List Schema} (h : jsonTypesOf ss ≠ []) : ss ≠ [] := by
  rintro rfl
  exact h (by rw [jsonTypesOf])

mutual

/-- A valid value has the type that the generator finds. -/
theorem loosely_jsonTypeOf (s : Schema) (v : Json) (h : s.admits v = true) : Loosely (jsonTypeOf s) v := by
  match s with
  | .node a properties closed items anyOf oneOf allOf excluded ifThen =>
    have hby := admittedBy_of_admits h
    rw [jsonTypeOf]
    rcases hscalar : scalarType a with _ | t
    swap
    · exact loosely_scalarType hscalar hby.assertions
    rw [Option.getD_none, branchType]
    by_cases hany : jsonTypesOf anyOf = []
    · rw [if_neg (not_not.mpr hany)]
      by_cases hone : jsonTypesOf oneOf = []
      · rw [if_neg (not_not.mpr hone)]
        exact loosely_typeOfKeyword hby.assertions
      · rw [if_pos hone]
        obtain ⟨t, ht, hloose⟩ := loosely_jsonTypesOf oneOf v (hby.oneOf.resolve_left (ne_nil_of_jsonTypesOf hone))
        exact loosely_commonType ht hloose
    · rw [if_pos hany]
      obtain ⟨t, ht, hloose⟩ := loosely_jsonTypesOf anyOf v (hby.anyOf.resolve_left (ne_nil_of_jsonTypesOf hany))
      exact loosely_commonType ht hloose

theorem loosely_jsonTypesOf (ss : List Schema) (v : Json) (h : 0 < countAdmits ss v) :
    ∃ t ∈ jsonTypesOf ss, Loosely t v := by
  match ss with
  | [] =>
    rw [countAdmits] at h
    omega
  | s :: rest =>
    rw [countAdmits] at h
    rw [jsonTypesOf]
    by_cases hs : s.admits v = true
    · exact ⟨jsonTypeOf s, List.mem_cons_self, loosely_jsonTypeOf s v hs⟩
    · rw [if_neg hs, Nat.zero_add] at h
      obtain ⟨t, ht, hloose⟩ := loosely_jsonTypesOf rest v h
      exact ⟨t, List.mem_cons_of_mem _ ht, hloose⟩

end

/-- A valid string is one of those that the generator lists. -/
theorem mem_of_stringEnumOf {a : Assertions} {allowed : List String} (hallowed : stringEnumOf a = some allowed)
    {s : String} (h : a.admits (.string s) = true) : s ∈ allowed := by
  have hconst : ∀ allowed, stringEnumOf.constString a = some allowed → s ∈ allowed := by
    intro allowed hallowed
    unfold stringEnumOf.constString at hallowed
    split at hallowed
    · next c hc =>
      obtain rfl := Option.some.inj hallowed
      have heq : c = s := eq_of_beq (by simpa only [Scalar.admits] using admits_of_const hc h)
      exact List.mem_singleton.mpr heq.symm
    · cases hallowed
  unfold stringEnumOf at hallowed
  split at hallowed
  · next values henum =>
    split at hallowed
    · cases hallowed
    · next strings hne hstrings =>
      obtain rfl := Option.some.inj hallowed
      obtain ⟨c, hc, hadmits⟩ := admits_of_enum henum h
      obtain ⟨s', hs', heq⟩ := mem_of_stringsOf hstrings hc hadmits
      exact Json.string.inj heq ▸ hs'
    · exact hconst allowed hallowed
  · exact hconst allowed hallowed

/-! ### What a schema declares -/

/-- The branches of a schema. -/
def branches (s : Schema) : List Schema := if s.anyOf = [] then s.oneOf else s.anyOf

/-- Neither `const` nor `enum` says of which type the values are. -/
structure Unmarked (a : Assertions) : Prop where
  const : a.const = none ∨ a.const = some .null
  enum : ∀ strings ≠ [], a.enum ≠ some (strings.map .string)

/-- The keywords of a schema give its values one type: `const`, an `enum` of strings, branches that agree on it, or
`type`, each where those before it do not. -/
inductive Declares : Schema → JsonType → Prop where
  | constString {s : Schema} {c : String} (const : s.assertions.const = some (.string c)) : Declares s .string
  | constNumber {s : Schema} {q : ℚ} (const : s.assertions.const = some (.number q)) : Declares s .number
  | constBool {s : Schema} {b : Bool} (const : s.assertions.const = some (.bool b)) : Declares s .boolean
  | enum {s : Schema} {strings : List String} (const : s.assertions.const = none ∨ s.assertions.const = some .null)
      (nonempty : strings ≠ []) (enum : s.assertions.enum = some (strings.map .string)) : Declares s .string
  | branches {s : Schema} {t : JsonType} (unmarked : Unmarked s.assertions) (nonempty : branches s ≠ [])
      (agree : ∀ branch ∈ branches s, Declares branch t) : Declares s t
  | type {s : Schema} {t : JsonType} (unmarked : Unmarked s.assertions) (none : branches s = [])
      (type : s.assertions.type = some (.one t.name)) (proper : t ≠ .any) : Declares s t

/-- The keywords of a schema list the strings that are valid: an `enum` of strings, or else a `const`. -/
inductive DeclaresStrings (a : Assertions) : List String → Prop where
  | enum {strings : List String} (nonempty : strings ≠ []) (enum : a.enum = some (strings.map .string)) :
      DeclaresStrings a strings
  | const {c : String} (const : a.const = some (.string c))
      (enum : ∀ strings : List String, a.enum ≠ some (strings.map .string)) : DeclaresStrings a [c]

/-- The value has the type that the property declares, and is one of the strings if it lists them. -/
structure AsDeclared (properties : List (String × Schema)) (name : String) (w : Json) : Prop where
  type : ∀ s t, properties.lookup name = some s → Declares s t → w.hasType t.name = true
  strings : ∀ s strings, properties.lookup name = some s → Declares s .string →
    DeclaresStrings s.assertions strings → ∃ text ∈ strings, w = .string text

/-- What a table keeps of a schema: the value is an object that has the required fields, without the discriminator, as
declared. -/
def ShallowlyValid (discriminator : String) (s : Schema) (v : Json) : Prop :=
  Json.isObject v = true ∧ ∀ name ∈ s.assertions.required, name ≠ discriminator →
    ∃ w, Json.get v name = some w ∧ AsDeclared s.properties name w

/-- Every required field of type integer is written as one. -/
def IntegersPlain (discriminator : String) (s : Schema) (v : Json) : Prop :=
  ∀ name ∈ s.assertions.required, name ≠ discriminator → ∀ p, s.properties.lookup name = some p →
    Declares p .integer → ∀ x, Json.get v name ≠ some (.real x)

/-! ### What the generator finds -/

theorem stringsOf_eq_some {values : List Scalar} {strings : List String} :
    stringsOf values = some strings ↔ values = strings.map .string := by
  unfold stringsOf
  induction values generalizing strings with
  | nil =>
    rw [List.mapM_nil]
    cases strings with
    | nil => exact ⟨fun _ => rfl, fun _ => rfl⟩
    | cons text rest => exact ⟨fun h => (by cases h), fun h => (by cases h)⟩
  | cons c values ih =>
    rw [List.mapM_cons]
    cases c with
    | string text =>
      rcases hrest : values.mapM stringValue with _ | rest
      · refine ⟨fun h => (by cases h), fun h => ?_⟩
        cases strings with
        | nil => cases h
        | cons text' strings =>
          have hvalues := ih.mpr (List.cons.inj h).2
          rw [hrest] at hvalues
          cases hvalues
      · have hvalues := ih.mp hrest
        show some (text :: rest) = some strings ↔ _
        rw [hvalues, Option.some.injEq, ← List.map_cons (f := Scalar.string)]
        refine ⟨fun h => h ▸ rfl, fun h => ?_⟩
        exact List.map_injective_iff.mpr (fun _ _ h => Scalar.string.inj h) h
    | _ =>
      refine ⟨fun h => (by cases h), fun h => ?_⟩
      cases strings with
      | nil => cases h
      | cons text' strings => cases (List.cons.inj h).1

theorem typeOfConst_eq_none_iff {c : Option Scalar} : typeOfConst c = none ↔ c = none ∨ c = some .null := by
  rcases c with _ | _ | _ | _ | _ <;> simp [typeOfConst]

theorem scalarType_of_enum {a : Assertions} {strings : List String} (hconst : a.const = none ∨ a.const = some .null)
    (hne : strings ≠ []) (henum : a.enum = some (strings.map .string)) : scalarType a = some .string := by
  obtain ⟨text, rest, rfl⟩ := List.exists_cons_of_ne_nil hne
  have hstrings := stringsOf_eq_some.mpr (rfl : (text :: rest).map Scalar.string = _)
  rw [List.map_cons] at henum hstrings
  simp only [scalarType, typeOfConst_eq_none_iff.mpr hconst, henum, hstrings, Option.map_some]

theorem scalarType_eq_none_iff {a : Assertions} : scalarType a = none ↔ Unmarked a := by
  constructor
  · intro h
    have hconst : a.const = none ∨ a.const = some .null := by
      rw [← typeOfConst_eq_none_iff]
      rcases htype : typeOfConst a.const with _ | t
      · rfl
      · rw [scalarType, htype] at h
        cases h
    refine ⟨hconst, fun strings hne henum => ?_⟩
    rw [scalarType_of_enum hconst hne henum] at h
    cases h
  · rintro ⟨hconst, henum⟩
    rw [scalarType, typeOfConst_eq_none_iff.mpr hconst]
    dsimp only
    split
    · next c values hvalues =>
      rcases hstrings : stringsOf (c :: values) with _ | strings
      · rfl
      · have heq := stringsOf_eq_some.mp hstrings
        refine absurd (hvalues.trans (congrArg some heq)) (henum strings ?_)
        rintro rfl
        cases heq
    · rfl

/-- What the scalar keywords say they declare. -/
theorem declares_of_scalarType {s : Schema} {t : JsonType} (h : scalarType s.assertions = some t) : Declares s t := by
  rcases htype : typeOfConst s.assertions.const with _ | t'
  · have hconst := typeOfConst_eq_none_iff.mp htype
    rw [scalarType, htype] at h
    dsimp only at h
    split at h
    · next c values hvalues =>
      obtain ⟨strings, hstrings, rfl⟩ := Option.map_eq_some_iff.mp h
      have heq := stringsOf_eq_some.mp hstrings
      refine .enum hconst ?_ (hvalues.trans (congrArg some heq))
      rintro rfl
      cases heq
    · cases h
  · rw [scalarType, htype] at h
    obtain rfl := Option.some.inj h
    rcases hconst : s.assertions.const with _ | c
    · rw [hconst] at htype
      cases htype
    · rw [hconst] at htype
      cases c with
      | null => cases htype
      | bool b => exact Option.some.inj htype ▸ .constBool hconst
      | number q => exact Option.some.inj htype ▸ .constNumber hconst
      | string c => exact Option.some.inj htype ▸ .constString hconst

theorem jsonTypesOf_eq (ss : List Schema) : jsonTypesOf ss = ss.map jsonTypeOf := by
  induction ss with
  | nil => rw [jsonTypesOf, List.map_nil]
  | cons s rest ih => rw [jsonTypesOf, List.map_cons, ih]

theorem jsonTypeOf_eq (s : Schema) : jsonTypeOf s = (scalarType s.assertions).getD
    (if branches s = [] then typeOfKeyword s.assertions.type else commonType ((branches s).map jsonTypeOf)) := by
  match s with
  | .node a properties closed items anyOf oneOf allOf excluded ifThen =>
    rw [jsonTypeOf, branchType, jsonTypesOf_eq, jsonTypesOf_eq]
    unfold branches Schema.anyOf Schema.oneOf Schema.assertions
    dsimp only
    rcases anyOf with _ | ⟨b, anyOf⟩
    · rcases oneOf with _ | ⟨b, oneOf⟩ <;> rfl
    · rfl

theorem commonType_of_agree {ts : List JsonType} {t : JsonType} (hne : ts ≠ []) (h : ∀ t' ∈ ts, t' = t) :
    commonType ts = t := by
  obtain ⟨t', rest, rfl⟩ := List.exists_cons_of_ne_nil hne
  obtain rfl := h t' List.mem_cons_self
  have hall : rest.all (· == t') = true :=
    List.all_eq_true.mpr fun u hu => beq_iff_eq.mpr (h u (List.mem_cons_of_mem _ hu))
  rw [commonType, if_pos hall]

theorem eq_commonType {ts : List JsonType} {t : JsonType} (hproper : commonType ts ≠ .any) (ht : t ∈ ts) :
    t = commonType ts := by
  rcases ts with _ | ⟨t', rest⟩
  · cases ht
  rw [commonType] at hproper ⊢
  split at hproper
  · next hall =>
    rw [if_pos hall]
    rcases List.mem_cons.mp ht with rfl | ht
    · rfl
    · exact eq_of_beq (List.all_eq_true.mp hall t ht)
  · exact absurd rfl hproper

theorem typeOfKeyword_name {t : JsonType} (h : t ≠ .any) : typeOfKeyword (some (.one t.name)) = t := by
  cases t with
  | any => exact absurd rfl h
  | _ => rfl

theorem eq_name_of_typeOfKeyword {k : Option TypeKeyword} (h : typeOfKeyword k ≠ .any) :
    k = some (.one (typeOfKeyword k).name) := by
  unfold typeOfKeyword at h ⊢
  split at h
  case h_7 => exact absurd rfl h
  all_goals rfl

theorem jsonTypeOf_of_declares {s : Schema} {t : JsonType} (h : Declares s t) : jsonTypeOf s = t ∧ t ≠ .any := by
  induction h with
  | constString const => exact ⟨by rw [jsonTypeOf_eq, scalarType, const]; rfl, JsonType.noConfusion⟩
  | constNumber const => exact ⟨by rw [jsonTypeOf_eq, scalarType, const]; rfl, JsonType.noConfusion⟩
  | constBool const => exact ⟨by rw [jsonTypeOf_eq, scalarType, const]; rfl, JsonType.noConfusion⟩
  | enum const nonempty enum =>
    exact ⟨by rw [jsonTypeOf_eq, scalarType_of_enum const nonempty enum]; rfl, JsonType.noConfusion⟩
  | @branches s t unmarked nonempty agree ih =>
    obtain ⟨branch, hbranch⟩ := List.exists_mem_of_ne_nil _ nonempty
    refine ⟨?_, (ih branch hbranch).2⟩
    rw [jsonTypeOf_eq, scalarType_eq_none_iff.mpr unmarked, Option.getD_none, if_neg nonempty]
    refine commonType_of_agree (List.map_eq_nil_iff.not.mpr nonempty) fun t' ht' => ?_
    obtain ⟨branch, hbranch, rfl⟩ := List.mem_map.mp ht'
    exact (ih branch hbranch).1
  | type unmarked none type proper =>
    refine ⟨?_, proper⟩
    rw [jsonTypeOf_eq, scalarType_eq_none_iff.mpr unmarked, Option.getD_none, if_pos none, type, typeOfKeyword_name proper]

/-- A schema whose branches declare what the generator finds in them does so itself. -/
theorem declares_of_branches {s : Schema} (h : jsonTypeOf s ≠ .any)
    (hbranches : ∀ branch ∈ branches s, jsonTypeOf branch ≠ .any → Declares branch (jsonTypeOf branch)) :
    Declares s (jsonTypeOf s) := by
  rw [jsonTypeOf_eq] at h ⊢
  rcases hscalar : scalarType s.assertions with _ | t
  swap
  · exact declares_of_scalarType hscalar
  have hunmarked := scalarType_eq_none_iff.mp hscalar
  rw [hscalar, Option.getD_none] at h
  rw [Option.getD_none]
  by_cases hnone : branches s = []
  · rw [if_pos hnone] at h ⊢
    exact .type hunmarked hnone (eq_name_of_typeOfKeyword h) h
  · rw [if_neg hnone] at h ⊢
    refine .branches hunmarked hnone fun branch hbranch => ?_
    have hagrees := eq_commonType h (List.mem_map_of_mem (f := jsonTypeOf) hbranch)
    rw [← hagrees] at h ⊢
    exact hbranches branch hbranch h

mutual

theorem declares_jsonTypeOf (s : Schema) (h : jsonTypeOf s ≠ .any) : Declares s (jsonTypeOf s) := by
  match s with
  | .node a properties closed items anyOf oneOf allOf excluded ifThen =>
    refine declares_of_branches h fun branch hbranch => ?_
    unfold branches Schema.anyOf Schema.oneOf at hbranch
    dsimp only at hbranch
    split at hbranch
    · exact declares_each oneOf branch hbranch
    · exact declares_each anyOf branch hbranch

theorem declares_each (ss : List Schema) (s : Schema) (hs : s ∈ ss) (h : jsonTypeOf s ≠ .any) :
    Declares s (jsonTypeOf s) := by
  match ss with
  | [] => cases hs
  | s' :: rest =>
    by_cases heq : s = s'
    · exact heq ▸ declares_jsonTypeOf s' (heq ▸ h)
    · exact declares_each rest s ((List.mem_cons.mp hs).resolve_left heq) h

end

/-- The generator finds the type that the keywords declare, and any type where they declare none. -/
theorem declares_iff {s : Schema} {t : JsonType} : Declares s t ↔ jsonTypeOf s = t ∧ t ≠ .any :=
  ⟨jsonTypeOf_of_declares, fun ⟨heq, hproper⟩ => heq ▸ declares_jsonTypeOf s (heq ▸ hproper)⟩

/-- The generator lists the strings that the keywords declare. -/
theorem declaresStrings_iff {a : Assertions} {strings : List String} :
    DeclaresStrings a strings ↔ stringEnumOf a = some strings := by
  have hlists : ∀ values, stringsOf values = none ↔ ∀ strings : List String, values ≠ strings.map .string := by
    intro values
    rw [Option.eq_none_iff_forall_ne_some]
    exact forall_congr' fun strings => stringsOf_eq_some.not
  have hconst : (∀ strings : List String, a.enum ≠ some (strings.map .string)) →
      stringEnumOf a = stringEnumOf.constString a := by
    intro henum
    unfold stringEnumOf
    split
    · next values hvalues =>
      rw [(hlists values).mpr fun strings heq => henum strings (hvalues.trans (congrArg some heq))]
    · rfl
  constructor
  · rintro (⟨hne, henum⟩ | ⟨hc, henum⟩)
    · unfold stringEnumOf
      rw [henum]
      dsimp only
      rw [stringsOf_eq_some.mpr rfl]
      obtain ⟨text, rest, rfl⟩ := List.exists_cons_of_ne_nil hne
      rfl
    · rw [hconst henum, stringEnumOf.constString, hc]
  · intro h
    by_cases henum : ∃ strings : List String, a.enum = some (strings.map .string)
    · obtain ⟨listed, henum⟩ := henum
      unfold stringEnumOf at h
      rw [henum] at h
      dsimp only at h
      rw [stringsOf_eq_some.mpr rfl] at h
      cases listed with
      | nil => cases h
      | cons text rest =>
        obtain rfl := Option.some.inj h
        exact .enum (List.cons_ne_nil _ _) henum
    · have hnot : ∀ strings : List String, a.enum ≠ some (strings.map .string) := fun strings heq => henum ⟨strings, heq⟩
      rw [hconst hnot, stringEnumOf.constString] at h
      split at h
      · next c hc =>
        obtain rfl := Option.some.inj h
        exact .const hc hnot
      · cases h

/-! ### The meaning of a table -/

theorem hasType_name {t : JsonType} {v : Json} (ht : t ≠ .any) : v.hasType t.name = true ↔ Loosely t v := by
  cases t with
  | any => exact absurd rfl ht
  | integer =>
    refine ⟨fun h => .inr ⟨rfl, h⟩, fun h => ?_⟩
    rcases h with h | h
    · cases v with
      | integer n => rfl
      | _ => cases h
    · exact h.2
  | _ =>
    constructor
    · intro h
      cases v with
      | _ => first | exact .inl rfl | cases h
    · intro h
      have hmatch := h.resolve_right (fun h => JsonType.noConfusion h.1)
      cases v with
      | _ => first | rfl | cases hmatch

theorem scalarType_of_stringEnumOf {a : Assertions} {allowed : List String} (h : stringEnumOf a = some allowed) :
    ∃ t ≠ JsonType.any, scalarType a = some t := by
  rcases htype : typeOfConst a.const with _ | t
  swap
  · refine ⟨t, ?_, by rw [scalarType, htype]⟩
    rintro rfl
    unfold typeOfConst at htype
    split at htype <;> cases htype
  have hconst : stringEnumOf.constString a = none := by
    unfold stringEnumOf.constString
    split
    · next c hc =>
      rw [hc] at htype
      cases htype
    · rfl
  unfold stringEnumOf at h
  rw [hconst] at h
  split at h
  · next values henum =>
    split at h
    · cases h
    · next strings hne hstrings =>
      rcases values with _ | ⟨c, values⟩
      · exact absurd (Option.some.inj hstrings).symm (by simpa using hne)
      · exact ⟨.string, JsonType.noConfusion, by simp only [scalarType, htype, henum, hstrings, Option.map_some]⟩
    · cases h
  · cases h

/-- A field that lists strings is of a type of its own. -/
theorem ne_any_of_allowed {properties : List (String × Schema)} {name : String} {allowed : List String}
    (h : (fieldRow properties name).allowed = some allowed) : (fieldRow properties name).jsonType ≠ .any := by
  unfold fieldRow at h ⊢
  split at h
  swap
  · cases h
  next s hs =>
  obtain ⟨t, ht, hscalar⟩ := scalarType_of_stringEnumOf h
  match s with
  | .node a .. =>
    show jsonTypeOf _ ≠ _
    rw [jsonTypeOf, show scalarType a = some t from hscalar]
    exact ht

/-- The row of a property says what the property declares. -/
theorem asDeclared_iff {properties : List (String × Schema)} {name : String} {w : Json} :
    AsDeclared properties name w ↔ Loosely (fieldRow properties name).jsonType w ∧
      ∀ allowed, (fieldRow properties name).allowed = some allowed → (fieldRow properties name).jsonType = .string →
        ∃ s ∈ allowed, w = .string s := by
  unfold fieldRow
  rcases hlookup : properties.lookup name with _ | s
  · refine ⟨fun _ => ⟨loosely_any w, fun _ h => (by cases h)⟩, fun _ => ⟨fun s t h => ?_, fun s strings h => ?_⟩⟩
    · rw [hlookup] at h
      cases h
    · rw [hlookup] at h
      cases h
  dsimp only
  constructor
  · rintro ⟨htype, hstrings⟩
    refine ⟨?_, fun allowed hallowed hstring => ?_⟩
    · by_cases hany : jsonTypeOf s = .any
      · rw [hany]
        exact loosely_any w
      · exact (hasType_name hany).mp (htype s _ hlookup (declares_jsonTypeOf s hany))
    · exact hstrings s allowed hlookup (declares_iff.mpr ⟨hstring, JsonType.noConfusion⟩)
        (declaresStrings_iff.mpr hallowed)
  · rintro ⟨hloose, hallowed⟩
    refine ⟨fun s' t hs' hdeclares => ?_, fun s' strings hs' hstring hdeclares => ?_⟩
    · obtain rfl := Option.some.inj (hlookup.symm.trans hs')
      obtain ⟨rfl, hproper⟩ := declares_iff.mp hdeclares
      exact (hasType_name hproper).mpr hloose
    · obtain rfl := Option.some.inj (hlookup.symm.trans hs')
      exact hallowed strings (declaresStrings_iff.mp hdeclares) (declares_iff.mp hstring).1

/-! ### Simple schemas -/

theorem admits_leaf (a : Assertions) (v : Json) : (Schema.leaf a).admits v = a.admits v := by
  unfold Schema.leaf
  rw [Schema.admits]
  simp [admitsMembers, admitsItems, countAdmits, rejects, admitsConditional]

theorem admits_string {c : String} {v : Json} : (Scalar.string c).admits v = true ↔ v = .string c := by
  cases v with
  | string s =>
    show (c == s) = true ↔ _
    rw [beq_iff_eq, Json.string.injEq, eq_comm]
  | _ => exact ⟨fun h => (by cases h), fun h => (by cases h)⟩

/-! ### What the check accepts -/

/-- A value that has the type loosely has it, unless it is a real in the place of an integer. -/
theorem typeMatches_iff {t : JsonType} {v : Json} :
    typeMatches t v = true ↔ Loosely t v ∧ (t = .integer → ∀ x, v ≠ .real x) := by
  constructor
  · intro h
    refine ⟨.inl h, ?_⟩
    rintro rfl x rfl
    cases h
  · rintro ⟨h | ⟨rfl, h⟩, hplain⟩
    · exact h
    · cases v with
      | integer n => rfl
      | real x => exact absurd rfl (hplain rfl x)
      | _ => cases h

/-- The check of a field of the table accepts what the property declares, unless it is an integer written as a real. -/
theorem checkDeclaredField_eq_none_iff {what : String} {properties : List (String × Schema)} {name : String}
    {v : Json} :
    checkDeclaredField what (fieldRow properties name) v = none ↔
      ∃ w, Json.get v name = some w ∧ AsDeclared properties name w ∧
        ((fieldRow properties name).jsonType = .integer → ∀ x, w ≠ .real x) := by
  have hname : (fieldRow properties name).name = name := by
    unfold fieldRow
    split <;> rfl
  have hallowed := @ne_any_of_allowed properties name
  have hdeclared := fun w => @asDeclared_iff properties name w
  generalize hfield : fieldRow properties name = field at *
  unfold checkDeclaredField
  rw [hname]
  rcases Json.get v name with _ | w
  · exact ⟨fun h => (by cases h), fun ⟨_, h, _⟩ => (by cases h)⟩
  dsimp only
  by_cases hmatch : typeMatches field.jsonType w = true
  swap
  · rw [if_pos hmatch]
    refine ⟨fun h => (by cases h), fun ⟨w', heq, hadmits, hplain⟩ => ?_⟩
    obtain rfl := Option.some.inj heq
    exact absurd (typeMatches_iff.mpr ⟨((hdeclared _).mp hadmits).1, hplain⟩) hmatch
  rw [if_neg (not_not.mpr hmatch)]
  obtain ⟨hloose, hplain⟩ := typeMatches_iff.mp hmatch
  refine Iff.trans (b := ∀ allowed, field.allowed = some allowed → field.jsonType = .string →
    ∃ s ∈ allowed, w = .string s) ?_ ⟨fun h => ⟨w, rfl, (hdeclared w).mpr ⟨hloose, h⟩, hplain⟩,
      fun ⟨w', heq, hadmits, _⟩ => Option.some.inj heq ▸ ((hdeclared _).mp hadmits).2⟩
  rcases hlist : field.allowed with _ | allowed
  · exact ⟨fun _ _ h => (by cases h), fun _ => rfl⟩
  cases w with
  | string actual =>
    have hstring : field.jsonType = .string := by
      cases htype : field.jsonType with
      | any => exact absurd htype (hallowed hlist)
      | string => rfl
      | _ =>
        rw [htype] at hmatch
        cases hmatch
    dsimp only
    split
    · next hmem => exact ⟨fun _ _ heq _ => ⟨actual, Option.some.inj heq ▸ hmem, rfl⟩, fun _ => rfl⟩
    · next hmem =>
      refine ⟨fun h => (by cases h), fun h => ?_⟩
      obtain ⟨s, hs, heq⟩ := h allowed rfl hstring
      exact absurd (Json.string.inj heq ▸ hs) hmem
  | _ =>
    refine ⟨fun _ _ _ hstring => ?_, fun _ => rfl⟩
    rw [hstring] at hmatch
    cases hmatch

theorem checkDeclaredFields_eq_none_iff {what discriminator : String} {s : Schema} {v : Json} :
    checkDeclaredFields what (requiredRows discriminator s) v = none ↔ Json.isObject v = true ∧
      ∀ name ∈ s.assertions.required, name ≠ discriminator →
        checkDeclaredField what (fieldRow s.properties name) v = none := by
  unfold checkDeclaredFields
  by_cases hobject : Json.isObject v = true
  · rw [if_neg (not_not.mpr hobject), List.findSome?_eq_none_iff]
    unfold requiredRows
    simp only [List.mem_map, List.mem_insertionSort, List.mem_filter, decide_eq_true_eq]
    exact ⟨fun h => ⟨hobject, fun name hname hne => h _ ⟨name, ⟨hname, hne⟩, rfl⟩⟩,
      fun h field ⟨name, hname, heq⟩ => heq ▸ h.2 name hname.1 hname.2⟩
  · rw [if_pos hobject]
    exact ⟨fun h => (by cases h), fun h => absurd h.1 hobject⟩

/-- A valid property is as it declares. -/
theorem asDeclared_of_admits {properties : List (String × Schema)} {name : String} {v w : Json}
    (h : admitsMembers properties v = true) (hw : Json.get v name = some w) :
    AsDeclared properties name w := by
  rw [asDeclared_iff]
  unfold fieldRow
  split
  · next s hs =>
    have hadmits := admits_of_lookup h hs hw
    refine ⟨loosely_jsonTypeOf s w hadmits, fun allowed hallowed htype => ?_⟩
    have htype : jsonTypeOf s = .string := htype
    have hmatch := typeMatches_iff.mpr ⟨loosely_jsonTypeOf s w hadmits, fun h => (by rw [htype] at h; cases h)⟩
    rw [htype] at hmatch
    cases w with
    | string text =>
      match s with
      | .node a .. => exact ⟨text, mem_of_stringEnumOf hallowed (admittedBy_of_admits hadmits).assertions, rfl⟩
    | _ => cases hmatch
  · exact ⟨loosely_any w, fun _ h => (by cases h)⟩

/-- Every real of integer type is that of a row of integer type. -/
theorem integersPlain_iff {discriminator : String} {s : Schema} {v : Json} : IntegersPlain discriminator s v ↔
    ∀ name ∈ s.assertions.required, name ≠ discriminator → (fieldRow s.properties name).jsonType = .integer →
      ∀ x, Json.get v name ≠ some (.real x) := by
  unfold IntegersPlain
  refine forall_congr' fun name => imp_congr_right fun _ => imp_congr_right fun _ => ?_
  unfold fieldRow
  rcases s.properties.lookup name with _ | p
  · exact ⟨fun _ h => (by cases h), fun _ _ h => (by cases h)⟩
  · constructor
    · exact fun h hinteger => h p rfl (declares_iff.mpr ⟨hinteger, JsonType.noConfusion⟩)
    · rintro h p' hp' hdeclares
      obtain rfl := Option.some.inj hp'
      exact h (declares_iff.mp hdeclares).1

/-- The table that the generator makes of a schema means its shallow part: the check accepts exactly the objects that
have the required fields as the keywords declare them, where integers are written as integers, and every object that
the schema admits has them so. -/
theorem generated_table_exact (what discriminator : String) (s : Schema) (v : Json) :
    (checkDeclaredFields what (requiredRows discriminator s) v = none ↔
      ShallowlyValid discriminator s v ∧ IntegersPlain discriminator s v) ∧
    (Json.isObject v = true ∧ s.admits v = true → ShallowlyValid discriminator s v) := by
  constructor
  · rw [checkDeclaredFields_eq_none_iff, ShallowlyValid, integersPlain_iff, and_assoc]
    refine and_congr_right fun _ => ?_
    constructor
    · intro h
      refine ⟨fun name hname hne => ?_, fun name hname hne hinteger x hx => ?_⟩
      · obtain ⟨w, hw, hdeclared, -⟩ := checkDeclaredField_eq_none_iff.mp (h name hname hne)
        exact ⟨w, hw, hdeclared⟩
      · obtain ⟨w, hw, -, hplain⟩ := checkDeclaredField_eq_none_iff.mp (h name hname hne)
        rw [hw] at hx
        exact hplain hinteger x (Option.some.inj hx)
    · rintro ⟨hfields, hplain⟩ name hname hne
      obtain ⟨w, hw, hdeclared⟩ := hfields name hname hne
      refine checkDeclaredField_eq_none_iff.mpr ⟨w, hw, hdeclared, fun hinteger x hx => ?_⟩
      exact hplain name hname hne hinteger x (hx ▸ hw)
  · rintro ⟨hobject, hadmits⟩
    refine ⟨hobject, fun name hname _ => ?_⟩
    match s with
    | .node a properties .. =>
      have hby := admittedBy_of_admits hadmits
      cases v with
      | object members =>
        have hpresent := List.all_eq_true.mp (admitsKeys_of_admits hby.assertions) name hname
        obtain ⟨w, hw⟩ := Option.isSome_iff_exists.mp hpresent
        exact ⟨w, hw, asDeclared_of_admits hby.members hw⟩
      | _ => cases hobject

end RackMcp.Schemas
