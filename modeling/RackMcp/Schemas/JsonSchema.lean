import RackMcp.Json
import Mathlib.Algebra.Order.Ring.Rat

/-!
# JSON Schema

The keywords of `packages/schemas/json/*.schema.json` and what they assert of a JSON value. A number is its value, so
`1.0` is an integer here, although jansson reads it as a real. A pattern is the test of its texts; `const` and `enum`
hold scalars, as everywhere in these documents. No text holds a number that is not finite. The annotations (`description`, `default`, `format`) assert nothing.
-/

namespace RackMcp

/-- `type`: one name, or a list of them. -/
inductive TypeKeyword where
  | one (name : String)
  | many (names : List String)

/-- A value of `const` or `enum`. -/
inductive Scalar where
  | null
  | bool (value : Bool)
  | number (value : ℚ)
  | string (value : String)
deriving DecidableEq

/-- The keywords that hold no schema. -/
structure Assertions where
  type : Option TypeKeyword := none
  const : Option Scalar := none
  enum : Option (List Scalar) := none
  required : List String := []
  minimum : Option ℚ := none
  maximum : Option ℚ := none
  minLength : Nat := 0
  maxLength : Option Nat := none
  minItems : Nat := 0
  maxItems : Option Nat := none
  pattern : String → Bool := fun _ => true

/-- A schema. `closed` is `additionalProperties: false`, `excluded` is `not`; a list of branches that is empty stands
for a keyword that is missing. -/
inductive Schema where
  | node (assertions : Assertions) (properties : List (String × Schema)) (closed : Bool) (items : Option Schema)
    (anyOf oneOf allOf : List Schema) (excluded : Option Schema) (ifThen : Option (Schema × Schema))

/-! ### Values -/

/-- The value of a finite number. -/
def Json.number : Json → Option ℚ
  | .integer n => some n
  | .real (.finite q) => some q
  | _ => none

/-- The value is of the named type. -/
def Json.hasType (v : Json) (name : String) : Bool :=
  match name with
  | "null" => v == .null
  | "boolean" => match v with | .bool _ => true | _ => false
  | "string" => match v with | .string _ => true | _ => false
  | "array" => match v with | .array _ => true | _ => false
  | "object" => match v with | .object _ => true | _ => false
  | "number" => v.isNumber
  | "integer" => v.number.any fun q => q.den == 1
  | _ => false

def TypeKeyword.admits (t : TypeKeyword) (v : Json) : Bool :=
  match t with
  | .one name => v.hasType name
  | .many names => names.any v.hasType

/-- The value is the scalar. -/
def Scalar.admits (c : Scalar) (v : Json) : Bool :=
  match c, v with
  | .null, .null => true
  | .bool b, .bool b' => b == b'
  | .number q, v => v.number == some q
  | .string s, .string s' => s == s'
  | _, _ => false

namespace Assertions

variable (a : Assertions) (v : Json)

/-- `type`, `const` and `enum`. -/
def admitsKind : Bool :=
  a.type.all (·.admits v) && a.const.all (·.admits v) && a.enum.all fun values => values.any (·.admits v)

/-- `minimum` and `maximum`. -/
def admitsNumber : Bool :=
  match v.number with
  | some q => a.minimum.all (decide <| · ≤ q) && a.maximum.all (decide <| q ≤ ·)
  | none => true

/-- `minLength`, `maxLength` and `pattern`; the length counts code points. -/
def admitsText : Bool :=
  match v with
  | .string s => decide (a.minLength ≤ s.length) && a.maxLength.all (decide <| s.length ≤ ·) && a.pattern s
  | _ => true

/-- `minItems` and `maxItems`. -/
def admitsLength : Bool :=
  match v with
  | .array xs => decide (a.minItems ≤ xs.length) && a.maxItems.all (decide <| xs.length ≤ ·)
  | _ => true

/-- `required`. -/
def admitsKeys : Bool :=
  match v with
  | .object members => a.required.all fun key => (members.lookup key).isSome
  | _ => true

def admits : Bool := a.admitsKind v && a.admitsNumber v && a.admitsText v && a.admitsLength v && a.admitsKeys v

end Assertions

/-! ### Validation -/

/-- `additionalProperties: false`. -/
def admitsOnly (names : List String) (v : Json) : Bool :=
  match v with
  | .object members => members.all fun m => names.contains m.1
  | _ => true

mutual

/-- The value is valid against the schema. -/
def Schema.admits : Schema → Json → Bool
  | .node a properties closed items anyOf oneOf allOf excluded ifThen, v =>
    a.admits v && (!closed || admitsOnly (properties.map Prod.fst) v) && admitsMembers properties v &&
      admitsItems items v && (anyOf.isEmpty || decide (0 < countAdmits anyOf v)) &&
      (oneOf.isEmpty || countAdmits oneOf v == 1) && countAdmits allOf v == allOf.length &&
      rejects excluded v && admitsConditional ifThen v

/-- Each property that is present is valid. -/
def admitsMembers : List (String × Schema) → Json → Bool
  | [], _ => true
  | (key, s) :: rest, v =>
    (match Json.get v key with
      | some w => s.admits w
      | none => true) && admitsMembers rest v

/-- How many of the schemas the value is valid against. -/
def countAdmits : List Schema → Json → Nat
  | [], _ => 0
  | s :: rest, v => (if s.admits v then 1 else 0) + countAdmits rest v

/-- `items`. -/
def admitsItems : Option Schema → Json → Bool
  | none, _ => true
  | some s, v =>
    match v with
    | .array xs => xs.all s.admits
    | _ => true

/-- `not`. -/
def rejects : Option Schema → Json → Bool
  | none, _ => true
  | some s, v => !s.admits v

/-- `if` and `then`. -/
def admitsConditional : Option (Schema × Schema) → Json → Bool
  | none, _ => true
  | some (condition, consequence), v => !condition.admits v || consequence.admits v

end

namespace Schema

/-- The keywords of a schema that hold no schema. -/
def assertions : Schema → Assertions
  | .node a .. => a

def properties : Schema → List (String × Schema)
  | .node _ properties .. => properties

def anyOf : Schema → List Schema
  | .node _ _ _ _ anyOf .. => anyOf

def oneOf : Schema → List Schema
  | .node _ _ _ _ _ oneOf .. => oneOf

/-- A schema with no schema inside. -/
def leaf (a : Assertions) : Schema := .node a [] false none [] [] [] none none

/-- An object with these properties and no others. -/
def object (properties : List (String × Schema)) (required : List String) (allOf : List Schema) : Schema :=
  .node { type := some (.one "object"), required } properties true none [] [] allOf none none

/-- A list. -/
def array (a : Assertions) (items : Schema) : Schema :=
  .node { a with type := some (.one "array") } [] false (some items) [] [] [] none none

end Schema

end RackMcp
