import Mathlib.Data.List.Basic
import Mathlib.Data.Rat.Defs

/-!
# JSON values and the accessors of the plugin

`Json` is the value jansson hands the plugin: integers and reals are separate, an object has no
duplicate key (`JSON_REJECT_DUPLICATES`). A `json_t*` that may be NULL is an `Option Json`. The
accessors `jstr` and `jbool` are the lenient ones of `validate.cpp` and `Transaction.cpp`: a value of
the wrong type reads as the default.
-/

namespace RackMcp

/-- A C double: a finite value, an infinity or a NaN. -/
inductive Double where
  | finite (value : ℚ)
  | infinite (negative : Bool)
  | nan
deriving DecidableEq

/-- A JSON value (`json_t`). -/
inductive Json where
  | null
  | bool (value : Bool)
  | integer (value : Int)
  | real (value : Double)
  | string (value : String)
  | array (items : List Json)
  | object (members : List (String × Json))

instance : Inhabited Json := ⟨.null⟩

namespace Json

/-- `json_object_get`: NULL for a missing key, a NULL object or a value that is no object. -/
def get (o : Option Json) (key : String) : Option Json :=
  match o with
  | some (.object members) => members.lookup key
  | _ => none

/-- `json_is_string(v) ? json_string_value(v) : dflt`. -/
def stringOr (v : Option Json) (dflt : String) : String :=
  match v with
  | some (.string s) => s
  | _ => dflt

/-- `json_is_object`. -/
def isObject : Option Json → Bool
  | some (.object _) => true
  | _ => false

/-- `json_is_number`, which admits an integer. -/
def isNumber : Json → Bool
  | .integer _ | .real _ => true
  | _ => false

/-- `json_number_value`; `0.0` for anything that is no number. -/
def numberValue : Json → Double
  | .integer n => .finite n
  | .real r => r
  | _ => .finite 0

/-- `actualTypeName`: the JSON type name, for the failure message. -/
def actualTypeName : Json → String
  | .null => "null"
  | .bool _ => "boolean"
  | .integer _ => "integer"
  | .real _ => "number"
  | .string _ => "string"
  | .array _ => "array"
  | .object _ => "object"

mutual

/-- The values are the same. -/
def same : Json → Json → Bool
  | .null, .null => true
  | .bool a, .bool b => a == b
  | .integer a, .integer b => a == b
  | .real a, .real b => decide (a = b)
  | .string a, .string b => a == b
  | .array a, .array b => sameItems a b
  | .object a, .object b => sameMembers a b
  | _, _ => false

def sameItems : List Json → List Json → Bool
  | [], [] => true
  | a :: as, b :: bs => a.same b && sameItems as bs
  | _, _ => false

def sameMembers : List (String × Json) → List (String × Json) → Bool
  | [], [] => true
  | (k, a) :: as, (l, b) :: bs => k == l && a.same b && sameMembers as bs
  | _, _ => false

end

mutual

theorem same_iff (a b : Json) : a.same b = true ↔ a = b := by
  rcases a with _ | a | a | a | a | a | a <;> rcases b with _ | b | b | b | b | b | b
  case array.array => exact (sameItems_iff a b).trans (by simp)
  case object.object => exact (sameMembers_iff a b).trans (by simp)
  all_goals simp [same]

theorem sameItems_iff (as bs : List Json) : sameItems as bs = true ↔ as = bs := by
  match as, bs with
  | [], [] => simp [sameItems]
  | a :: as, b :: bs => simp [sameItems, same_iff a b, sameItems_iff as bs]
  | [], _ :: _ => simp [sameItems]
  | _ :: _, [] => simp [sameItems]

theorem sameMembers_iff (as bs : List (String × Json)) : sameMembers as bs = true ↔ as = bs := by
  match as, bs with
  | [], [] => simp [sameMembers]
  | (k, a) :: as, (l, b) :: bs => simp [sameMembers, same_iff a b, sameMembers_iff as bs]
  | [], _ :: _ => simp [sameMembers]
  | _ :: _, [] => simp [sameMembers]

end

instance : DecidableEq Json := fun a b => decidable_of_iff (a.same b = true) (same_iff a b)

end Json

/-- `jstr`: the string under `key`, or the default. -/
def jstr (o : Option Json) (key : String) (dflt : String := "") : String :=
  Json.stringOr (Json.get o key) dflt

/-- A string that was read is the same under every default. -/
theorem jstr_eq_of_ne {o : Option Json} {key dflt : String} (dflt' : String) (h : jstr o key dflt ≠ dflt) :
    jstr o key dflt' = jstr o key dflt := by
  unfold jstr Json.stringOr at *
  split at h
  · rfl
  · exact absurd rfl h

/-- `jbool`: the boolean under `key`, or the default. -/
def jbool (o : Option Json) (key : String) (dflt : Bool) : Bool :=
  match Json.get o key with
  | some (.bool b) => b
  | _ => dflt

/-- `jhasKey`. -/
def jhasKey (o : Option Json) (key : String) : Bool := (Json.get o key).isSome

end RackMcp
