import RackMcp.Core.Crypto
import RackMcp.Schemas.Generator

/-!
# The schema documents

`packages/schemas/json/patch-operation.schema.json` and the request schemas of `bridge-methods.schema.json`. The first
is the second's item schema after `augmentOperationInvariants` of `scripts/gen-schemas.ts`. The result schemas are left
out: the generator reads the requests.
-/

namespace RackMcp.Schemas

/-! ### Patterns -/

/-- `^(0|[1-9][0-9]{0,18})$`. -/
def decimalIdPattern (s : String) : Bool :=
  match s.toList with
  | ['0'] => true
  | c :: rest => '1' ≤ c && c ≤ '9' && rest.all (fun d => '0' ≤ d && d ≤ '9') && decide (rest.length ≤ 18)
  | [] => false

/-- `[0-9a-fA-F]`. -/
def isAnyHexChar (c : Char) : Bool := isHexChar c || ('A' ≤ c && c ≤ 'F')

/-- `^#[0-9a-fA-F]{6}$`. -/
def cableColorPattern (s : String) : Bool :=
  match s.toList with
  | '#' :: digits => digits.length == 6 && digits.all isAnyHexChar
  | _ => false

/-- `^[0-9a-f]{64}$`. -/
def hexHashPattern (s : String) : Bool := isHex s 64

/-- The pattern of a UUID: the version is 1 to 8 and the variant 8 to b, or all digits are 0, or all are f. -/
def uuidPattern (s : String) : Bool :=
  let digits := s.toList
  s == "00000000-0000-0000-0000-000000000000" || s == "ffffffff-ffff-ffff-ffff-ffffffffffff" ||
    (digits.length == 36 &&
      digits.zipIdx.all fun (c, i) =>
        if i ∈ [8, 13, 18, 23] then c == '-'
        else if i = 14 then '1' ≤ c && c ≤ '8'
        else if i = 19 then c ∈ ['8', '9', 'a', 'b', 'A', 'B']
        else isAnyHexChar c)

/-! ### References -/

def string (a : Assertions) : Schema := .leaf { a with type := some (.one "string") }

def boolean : Schema := .leaf { type := some (.one "boolean") }

def integer (min max : ℚ) : Schema := .leaf { type := some (.one "integer"), minimum := some min, maximum := some max }

def literal (s : String) : Schema := string { const := some (.string s) }

def oneOfStrings (values : List String) : Schema := string { enum := some (values.map .string) }

def union (branches : List Schema) : Schema := .node {} [] false none branches [] [] none none

def decimalId : Schema := string { pattern := decimalIdPattern }

def uuid : Schema := string { pattern := uuidPattern }

def hexHash : Schema := string { pattern := hexHashPattern }

def slug : Schema := string { minLength := 1, maxLength := some 255 }

def aliasName : Schema := string { minLength := 1, maxLength := some 64 }

def smallIndex : Schema := integer 0 65535

/-- `Number.MAX_SAFE_INTEGER`. -/
def maxSafeInteger : ℚ := 9007199254740991

def moduleRef : Schema :=
  union [.object [("moduleId", decimalId)] ["moduleId"] [], .object [("alias", aliasName)] ["alias"] []]

def cableRef : Schema := .object [("cableId", decimalId)] ["cableId"] []

def portRef : Schema :=
  .object [("module", moduleRef), ("portType", oneOfStrings ["input", "output"]), ("portId", smallIndex)]
    ["module", "portType", "portId"] []

def gridPosition : Schema := .object [("x", integer (-4096) 4096), ("y", integer (-256) 256)] ["x", "y"] []

def scope : Schema :=
  .object [("instanceId", uuid), ("sessionId", uuid), ("patchEpoch", integer 1 maxSafeInteger)]
    ["instanceId", "sessionId", "patchEpoch"] []

/-! ### The operations -/

def placement : Schema := oneOfStrings ["auto", "at"]

/-- The three ways to name the target of a parameter. -/
def paramTarget : List (String × Schema) :=
  [("value", .leaf { type := some (.one "number") }),
   ("normalized", .leaf { type := some (.one "number"), minimum := some 0, maximum := some 1 }),
   ("display", string { maxLength := some 256 })]

def initialParam : Schema := .object (("paramId", smallIndex) :: paramTarget) ["paramId"] []

/-- The variants as `z.toJSONSchema` gives them. -/
def plainVariants : List Schema :=
  [.object [("op", literal "add_module"), ("pluginSlug", slug), ("modelSlug", slug), ("alias", aliasName),
      ("placement", placement), ("position", gridPosition),
      ("initialParams", .array { maxItems := some 256 } initialParam), ("bypassed", boolean)]
    ["op", "pluginSlug", "modelSlug", "alias"] [],
   .object [("op", literal "remove_module"), ("module", moduleRef),
      ("cablePolicy", oneOfStrings ["remove_attached", "fail_if_connected"]), ("allowLastBridge", boolean)]
    ["op", "module", "cablePolicy"] [],
   .object [("op", literal "move_module"), ("module", moduleRef), ("position", gridPosition),
      ("collision", oneOfStrings ["fail", "nearest", "force", "squeeze"])]
    ["op", "module", "position", "collision"] [],
   .object [("op", literal "duplicate_module"), ("module", moduleRef), ("alias", aliasName), ("copyCables", boolean),
      ("placement", placement), ("position", gridPosition)]
    ["op", "module", "alias", "copyCables"] [],
   .object ([("op", literal "set_parameter"), ("module", moduleRef), ("paramId", smallIndex)] ++ paramTarget ++
      [("smoothMs", .leaf { type := some (.one "number"), minimum := some 0, maximum := some 10000 })])
    ["op", "module", "paramId"] [],
   .object [("op", literal "set_bypass"), ("module", moduleRef), ("bypassed", boolean)] ["op", "module", "bypassed"] [],
   .object [("op", literal "connect"), ("output", portRef), ("input", portRef),
      ("color", string { pattern := cableColorPattern }),
      ("inputPolicy", oneOfStrings ["fail_if_connected", "stack", "replace_all"])]
    ["op", "output", "input", "inputPolicy"] [],
   .object [("op", literal "disconnect"), ("cable", cableRef)] ["op", "cable"] [],
   .object [("op", literal "disconnect_port"), ("port", portRef), ("policy", oneOfStrings ["top", "all"])]
    ["op", "port", "policy"] [],
   .object [("op", literal "reset_module"), ("module", moduleRef)] ["op", "module"] [],
   .object [("op", literal "randomize_module"), ("module", moduleRef)] ["op", "module"] []]

/-- The value has the keys. -/
def requires (keys : List String) : Schema := .leaf { required := keys }

/-- One branch of `exactlyOne`. -/
def only (key : String) (others : List String) : Schema :=
  .node { required := [key] } [] false none [] [] [] (some (union (others.map fun other => requires [other]))) none

/-- `exactlyOne`. -/
def exactlyOne : Schema :=
  .node {} [] false none [] [only "value" ["normalized", "display"], only "normalized" ["value", "display"],
    only "display" ["value", "normalized"]] [] none none

/-- `positionWhenAt`. -/
def positionWhenAt : Schema :=
  .node {} [] false none [] [] [] none (some
    (.node { required := ["placement"] } [("placement", .leaf { const := some (.string "at") })] false none [] [] []
      none none, requires ["position"]))

/-- `v.allOf = [...(v.allOf ?? []), added]`. -/
def addAllOf (added : Schema) : Schema → Schema
  | .node a properties closed items anyOf oneOf allOf excluded ifThen =>
    .node a properties closed items anyOf oneOf (allOf ++ [added]) excluded ifThen

/-- The loop of `augmentOperationInvariants` on one variant. -/
def augmentVariant (variant : Schema) : Schema :=
  match operationName variant with
  | some "set_parameter" => addAllOf exactlyOne variant
  | some "add_module" | some "duplicate_module" => addAllOf positionWhenAt variant
  | _ => variant

/-- The schema of a patch operation. -/
def patchOperation : Schema :=
  .node {} [] false none [] (plainVariants.map augmentVariant) [] none none

/-- What the methods' document says of an operation. -/
def plainOperation : Schema := .node {} [] false none [] plainVariants [] none none

/-! ### The requests -/

def pathText (minLength : Nat) : Schema := string { minLength, maxLength := some 4096 }

def operations : Schema := .array { minItems := 1, maxItems := some 128 } plainOperation

def transactionLabel : Schema := string { minLength := 1, maxLength := some 128 }

/-- An object that may have these properties. -/
def optional (properties : List (String × Schema)) : Schema := .object properties [] []

/-- The methods, whether they mutate, and the schemas of their requests. -/
def bridgeMethods : List (String × Bool × Schema) :=
  [("status.get", false, optional []),
   ("lease.acquire", false, .object [("clientName", string { maxLength := some 128 })] ["clientName"] []),
   ("lease.renew", false, .object [("leaseId", uuid)] ["leaseId"] []),
   ("lease.release", false, .object [("leaseId", uuid)] ["leaseId"] []),
   ("catalog.listModels", false, optional [("cursor", string { maxLength := some 256 }), ("limit", integer 1 500)]),
   ("catalog.inspectModel", false, .object [("pluginSlug", string { maxLength := some 255 }),
      ("modelSlug", string { maxLength := some 255 })] ["pluginSlug", "modelSlug"] []),
   ("patch.snapshot", false, optional [("includeOpaqueState", boolean), ("maxBytes", integer 1024 4194304)]),
   ("patch.fingerprint", false, optional []),
   ("module.inspect", false, .object [("scope", scope), ("moduleId", decimalId), ("includeOpaqueState", boolean)]
      ["scope", "moduleId"] []),
   ("txn.preview", false, .object [("scope", scope), ("label", transactionLabel), ("operations", operations)]
      ["scope", "label", "operations"] []),
   ("txn.commit", true, .object [("scope", scope), ("operationId", uuid),
      ("plan", .object [("label", transactionLabel), ("operations", operations)] ["label", "operations"] []),
      ("planHash", hexHash), ("expectedFingerprint", hexHash)]
      ["scope", "operationId", "plan", "planHash", "expectedFingerprint"] []),
   ("txn.undoLast", true, .object [("scope", scope), ("expectedOperationId", uuid), ("operationId", uuid)]
      ["scope", "expectedOperationId", "operationId"] []),
   ("patchfile.save", true, .object [("scope", scope), ("path", pathText 0), ("operationId", uuid)]
      ["scope", "path", "operationId"] []),
   ("patchfile.saveCopy", true, .object [("scope", scope), ("path", pathText 1), ("operationId", uuid)]
      ["scope", "path", "operationId"] []),
   ("patchfile.load", true, .object [("scope", scope), ("path", pathText 1), ("setPath", boolean),
      ("operationId", uuid)] ["scope", "path", "operationId"] []),
   ("patchfile.clear", true, .object [("scope", scope), ("operationId", uuid)] ["scope", "operationId"] []),
   ("probe.list", false, optional []),
   ("probe.read", false, .object [("scope", scope), ("probeModuleId", decimalId), ("probeInputId", smallIndex)]
      ["scope", "probeModuleId", "probeInputId"] []),
   ("metrics.get", false, optional []),
   ("chat.poll", false, optional [("sinceSeq", integer 0 maxSafeInteger)]),
   ("chat.post", false, .object [("text", string { minLength := 1, maxLength := some 2000 }),
      ("ackThroughSeq", integer 0 maxSafeInteger)] ["text"] [])]

end RackMcp.Schemas
