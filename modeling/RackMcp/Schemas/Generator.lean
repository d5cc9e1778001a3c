import RackMcp.Gen
import RackMcp.Schemas.JsonSchema
import Mathlib.Data.List.Sort
import Mathlib.Data.String.Basic

/-!
# The generator of the protocol header

What `scripts/gen-cpp.ts` makes of the schema documents: the rows of the method and operation tables and the bounds of
a grid position. Strings are compared by code point, which for the ASCII names of these documents is the order of
`sort` and of `localeCompare`. A `throw` is none. That the rows are printed as C++ is left out.
-/

namespace RackMcp.Schemas

open Gen

/-! ### The fields of a table -/

/-- `typeof`, where it tells a `const` apart. -/
def typeOfConst : Option Scalar → Option JsonType
  | some (.string _) => some .string
  | some (.number _) => some .number
  | some (.bool _) => some .boolean
  | _ => none

/-- `typeof v === "string"`, with the string. -/
def stringValue : Scalar → Option String
  | .string s => some s
  | _ => none

/-- The strings of an `enum` that holds nothing else. -/
def stringsOf (values : List Scalar) : Option (List String) := values.mapM stringValue

/-- The `switch` over `type`. -/
def typeOfKeyword : Option TypeKeyword → JsonType
  | some (.one "string") => .string
  | some (.one "boolean") => .boolean
  | some (.one "object") => .object
  | some (.one "array") => .array
  | some (.one "integer") => .integer
  | some (.one "number") => .number
  | _ => .any

/-- The one type of all branches. -/
def commonType : List JsonType → JsonType
  | [] => .any
  | t :: ts => if ts.all (· == t) then t else .any

/-- `typeof s.const`, or the string type of an `enum`. -/
def scalarType (a : Assertions) : Option JsonType :=
  match typeOfConst a.const with
  | some t => some t
  | none =>
    match a.enum with
    | some (c :: values) => (stringsOf (c :: values)).map fun _ => .string
    | _ => none

/-- The type of the branches of `s.anyOf ?? s.oneOf`; the `type` keyword counts where there are none. -/
def branchType (anyOf oneOf : List JsonType) (type : JsonType) : JsonType :=
  if anyOf ≠ [] then commonType anyOf else if oneOf ≠ [] then commonType oneOf else type

mutual

/-- `jsonTypeOf`. -/
def jsonTypeOf : Schema → JsonType
  | .node a _ _ _ anyOf oneOf _ _ _ =>
    (scalarType a).getD (branchType (jsonTypesOf anyOf) (jsonTypesOf oneOf) (typeOfKeyword a.type))

def jsonTypesOf : List Schema → List JsonType
  | [] => []
  | s :: rest => jsonTypeOf s :: jsonTypesOf rest

end

/-- `stringEnumOf`; an empty list is emitted as `nullptr`. -/
def stringEnumOf (a : Assertions) : Option (List String) :=
  match a.enum with
  | some values =>
    match stringsOf values with
    | some [] => none
    | some strings => some strings
    | none => constString a
  | none => constString a
where
  constString (a : Assertions) : Option (List String) :=
    match a.const with
    | some (.string s) => some [s]
    | _ => none

/-- The row of a field; a property that is missing has any type. -/
def fieldRow (properties : List (String × Schema)) (name : String) : FieldSpec :=
  match properties.lookup name with
  | some s => ⟨name, jsonTypeOf s, stringEnumOf s.assertions⟩
  | none => ⟨name, .any, none⟩

/-- The rows of the required fields without the discriminator. -/
def requiredRows (discriminator : String) (s : Schema) : List FieldSpec :=
  ((s.assertions.required.filter (· ≠ discriminator)).insertionSort (· ≤ ·)).map (fieldRow s.properties)

/-- `requiredFields`. -/
def requiredFields (s : Schema) : List FieldSpec := requiredRows "kind" s

/-! ### The tables -/

/-- The row of a method. -/
def methodRow (method : String) (mutating : Bool) (request : Schema) : MethodSpec :=
  ⟨method, mutating, requiredFields request⟩

/-- `opProp?.const ?? opProp?.enum?.[0]`. -/
def operationName (variant : Schema) : Option String :=
  match variant.properties.lookup "op" with
  | none => none
  | some s =>
    match s.assertions.const with
    | some (.string name) => some name
    | _ =>
      match s.assertions.enum with
      | some (.string name :: _) => some name
      | _ => none

/-- The row of an operation. -/
def operationRow (variant : Schema) : Option OperationSpec :=
  (operationName variant).map fun name => ⟨name, requiredRows "op" variant⟩

/-- `opSchema.anyOf ?? opSchema.oneOf`. -/
def variantsOf (s : Schema) : List Schema :=
  match s.anyOf with
  | [] => s.oneOf
  | branches => branches

/-- `opRows`, sorted by name. -/
def operationRows (opSchema : Schema) : Option (List OperationSpec) :=
  ((variantsOf opSchema).mapM operationRow).map (·.insertionSort fun a b => a.op ≤ b.op)

/-! ### The domain of a grid position -/

mutual

/-- The schemas that `walk` comes by, each before those inside it. -/
def subschemas : Schema → List Schema
  | .node a properties closed items anyOf oneOf allOf excluded ifThen =>
    .node a properties closed items anyOf oneOf allOf excluded ifThen ::
      (subschemasOfMembers properties ++ subschemasOfOption items ++ subschemasOf anyOf ++ subschemasOf oneOf ++
        subschemasOf allOf ++ subschemasOfOption excluded ++ subschemasOfPair ifThen)

def subschemasOfMembers : List (String × Schema) → List Schema
  | [] => []
  | (_, s) :: rest => subschemas s ++ subschemasOfMembers rest

def subschemasOf : List Schema → List Schema
  | [] => []
  | s :: rest => subschemas s ++ subschemasOf rest

def subschemasOfOption : Option Schema → List Schema
  | none => []
  | some s => subschemas s

def subschemasOfPair : Option (Schema × Schema) → List Schema
  | none => []
  | some (condition, consequence) => subschemas condition ++ subschemas consequence

end

/-- The `position` of a schema, if it has both axes: the schema of one of them. -/
def positionAxis (axis : String) (s : Schema) : Option Schema :=
  match s.properties.lookup "position" with
  | none => none
  | some position =>
    if (position.properties.lookup "x").isSome ∧ (position.properties.lookup "y").isSome then
      position.properties.lookup axis
    else none

/-- The bounds of an axis; a missing one is refused. -/
def axisBounds (s : Schema) : Option (ℚ × ℚ) :=
  match s.assertions.minimum, s.assertions.maximum with
  | some min, some max => some (min, max)
  | _, _ => none

/-- `gridDomain`. -/
def gridDomain (opSchema : Schema) (axis : String) : Option (ℚ × ℚ) :=
  match ((subschemas opSchema).filterMap (positionAxis axis)).mapM axisBounds with
  | some (found :: rest) => if rest.all (· == found) then some found else none
  | _ => none

end RackMcp.Schemas
