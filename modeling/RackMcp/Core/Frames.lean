import RackMcp.Gen

/-!
# Bridge frames

The limits a frame must keep (`checkJsonLimits` of `core/canonical.cpp`) and the frame builders of
`core/frames.cpp`. jansson is not part of the repository: its decoders and encoders are the
parameters of `Jansson`. An encoder that fails yields none. A string here is UTF-8 by its type, so
`json_pack` has no string to reject and always packs.
-/

namespace RackMcp

open Gen

/-! ### jansson -/

/-- The decoders and encoders of jansson the plugin calls. -/
structure Jansson where
  /-- `json_loadb` with `JSON_REJECT_DUPLICATES`, on the bytes of a frame. -/
  loadb : List UInt8 → Option Json
  /-- `json_loads`. -/
  loads : String → Option Json
  /-- `json_dumps` with `JSON_COMPACT`. -/
  dumps : Json → Option String
  /-- `json_dumps` with the flags of `canonicalDumps`. -/
  dumpsSorted : Json → Option String

/-! ### Limits -/

/-- `strlen`, of a string in UTF-8. -/
def strlen (s : String) : Nat := (s.toUTF8.data.toList.takeWhile (· ≠ 0)).length

section Limits

variable (maxDepth maxNodes : Int) (maxStringBytes : Nat)

mutual

/-- `checkRec`: the verdict, and the counter of nodes it leaves behind. -/
def checkRec (depth nodes : Int) (value : Json) : Bool × Int :=
  if depth > maxDepth then (false, nodes)
  else if nodes + 1 > maxNodes then (false, nodes + 1)
  else
    match value with
    | .object members => checkMembers depth (nodes + 1) members
    | .array items => checkItems depth (nodes + 1) items
    | .string s => (s.utf8ByteSize ≤ maxStringBytes, nodes + 1)
    | .real (.finite _) => (true, nodes + 1)
    | .real _ => (false, nodes + 1)
    | .null | .bool _ | .integer _ => (true, nodes + 1)

/-- The members of an object at this depth, in order. -/
def checkMembers (depth nodes : Int) : List (String × Json) → Bool × Int
  | [] => (true, nodes)
  | (key, child) :: rest =>
    if strlen key > maxStringBytes then (false, nodes)
    else
      let (ok, nodes) := checkRec (depth + 1) nodes child
      if ok then checkMembers depth nodes rest else (false, nodes)

/-- The items of an array at this depth, in order. -/
def checkItems (depth nodes : Int) : List Json → Bool × Int
  | [] => (true, nodes)
  | item :: rest =>
    let (ok, nodes) := checkRec (depth + 1) nodes item
    if ok then checkItems depth nodes rest else (false, nodes)

end

/-- `checkJsonLimits`. -/
def checkJsonLimits (value : Option Json) : Bool :=
  match value with
  | none => false
  | some value => (checkRec maxDepth maxNodes maxStringBytes 1 0 value).1

end Limits

/-- A continuation byte, `10xxxxxx`. -/
def isContinuation (c : UInt8) : Bool := c &&& 0xc0 == 0x80

/-- The walk of `truncateUtf8` back over continuation bytes. -/
def walkBack (s : List UInt8) : Nat → Nat
  | 0 => 0
  | cut + 1 => if (s[cut + 1]?).any isContinuation then walkBack s cut else cut + 1

/-- `truncateUtf8`, on the bytes of the text. -/
def truncateUtf8Bytes (s : List UInt8) (maxBytes : Nat) : List UInt8 :=
  if s.length ≤ maxBytes then s else s.take (walkBack s maxBytes)

def chatMaxTextBytes : Nat := 2000

/-- `clampChatText`, which walks back the same way. -/
def clampChatText (text : List UInt8) : List UInt8 := truncateUtf8Bytes text chatMaxTextBytes

/-- `truncateUtf8`, of a text in UTF-8: the characters that fit into so many bytes. -/
def truncateUtf8 (s : String) (maxBytes : Nat) : String := String.ofList (fits maxBytes s.toList)
where
  fits : Nat → List Char → List Char
    | _, [] => []
    | room, c :: rest => if c.utf8Size ≤ room then c :: fits (room - c.utf8Size) rest else []

/-! ### Versions and the challenge -/

/-- `selectProtocolVersion`: the highest offered version both sides speak, 0 when there is none. -/
def selectProtocolVersion (versions : Option Json) (minSupported maxSupported : Int) : Int :=
  match versions with
  | some (.array items) =>
    items.foldl (fun selected v =>
      match v with
      | .integer offered =>
        if minSupported ≤ offered ∧ offered ≤ maxSupported ∧ offered > selected then offered else selected
      | _ => selected) 0
  | _ => 0

/-- `authMessage`. -/
def authMessage (nonce instanceId sessionId : String) : String :=
  nonce ++ "|" ++ instanceId ++ "|" ++ sessionId

/-! ### Builders -/

/-- `WelcomeInfo`. -/
structure WelcomeInfo where
  version : Int
  instanceId : String
  sessionId : String
  bridgeVersion : String
  rackVersion : String
  rackEdition : String
  patchEpoch : Int
  nonce : String

/-- `kAuthResultInternal`. -/
def authResultInternal : String :=
  "\x7b\"kind\":\"authResult\",\"ok\":false,\"error\":\x7b\"code\":\"INTERNAL\"," ++
  "\"message\":\"frame encoding failed\",\"retrySafe\":false," ++
  "\"mutationMayHaveOccurred\":false\x7d\x7d"

/-- `isSafeId`. -/
def isSafeId (id : String) : Bool :=
  id ≠ "" && id.utf8ByteSize ≤ 64 && id.toList.all fun c =>
    ('0' ≤ c && c ≤ '9') || ('a' ≤ c && c ≤ 'z') || ('A' ≤ c && c ≤ 'Z') || c == '-' || c == '_'

/-- `resInternalError`: built by hand, so that it cannot fail to encode. -/
def resInternalError (id : String) (mutationMayHaveOccurred : Bool) : String :=
  if ¬ isSafeId id then ""
  else
    "\x7b\"kind\":\"res\",\"id\":\"" ++ id ++
      "\",\"ok\":false,\"error\":\x7b\"code\":\"INTERNAL\",\"message\":\"response encoding " ++
      "failed\",\"retrySafe\":false,\"mutationMayHaveOccurred\":" ++
      (if mutationMayHaveOccurred then "true" else "false") ++ "\x7d\x7d"

/-- The error object of a frame. -/
def errorObject (code message : String) (retrySafe mutationMayHaveOccurred : Bool) : Json :=
  .object [("code", .string code), ("message", .string message), ("retrySafe", .bool retrySafe),
    ("mutationMayHaveOccurred", .bool mutationMayHaveOccurred)]

/-- The object of a successful response; a NULL payload becomes an empty object. -/
def resOk (id : String) (payload : Option Json) : List (String × Json) :=
  [("kind", .string "res"), ("id", .string id), ("ok", .bool true), ("payload", payload.getD (.object []))]

/-- The object of a failed response. -/
def resError (id : String) (code : ErrorCode) (message : String)
    (retrySafe mutationMayHaveOccurred : Bool) : List (String × Json) :=
  [("kind", .string "res"), ("id", .string id), ("ok", .bool false),
   ("error", errorObject (errorCodeToString code) message retrySafe mutationMayHaveOccurred)]

variable (J : Jansson)

/-- `buildWelcome`. -/
def buildWelcome (info : WelcomeInfo) : String :=
  (J.dumps (.object [("kind", .string "welcome"), ("version", .integer info.version),
    ("instanceId", .string info.instanceId), ("sessionId", .string info.sessionId),
    ("bridgeVersion", .string info.bridgeVersion), ("rackVersion", .string info.rackVersion),
    ("rackEdition", .string info.rackEdition), ("patchEpoch", .integer info.patchEpoch),
    ("nonce", .string info.nonce), ("authRequired", .bool true)])).getD authResultInternal

/-- `buildAuthResult` of a success. -/
def buildAuthOk : String :=
  (J.dumps (.object [("kind", .string "authResult"), ("ok", .bool true), ("role", .string "readonly")])).getD
    authResultInternal

/-- `buildAuthResult` of a failure. -/
def buildAuthError (code : ErrorCode) (message : String) : String :=
  (J.dumps (.object [("kind", .string "authResult"), ("ok", .bool false),
    ("error", errorObject (errorCodeToString code) message false false)])).getD authResultInternal

/-- `buildPong`. -/
def buildPong (id : String) : String :=
  (J.dumps (.object [("kind", .string "pong"), ("id", .string id)])).getD ""

/-- `buildResOk`. -/
def buildResOk (id : String) (payload : Option Json) : String :=
  (J.dumps (.object (resOk id payload))).getD (resInternalError id true)

/-- `buildResError`. -/
def buildResError (id : String) (code : ErrorCode) (message : String)
    (retrySafe mutationMayHaveOccurred : Bool) : String :=
  (J.dumps (.object (resError id code message retrySafe mutationMayHaveOccurred))).getD
    (resInternalError id mutationMayHaveOccurred)

/-- `capResponseFrame`: a result over the frame limit is answered, not dropped. -/
def capResponseFrame (frame id method : String) (maxFrameBytes : Nat) (mutating : Bool) : String :=
  if frame.utf8ByteSize ≤ maxFrameBytes then frame
  else
    buildResError J id .resultTooLarge
      ((truncateUtf8 method 64) ++ " result is " ++ toString frame.utf8ByteSize ++ " bytes, over the " ++
        toString maxFrameBytes ++ "-byte bridge frame limit") false mutating

end RackMcp
