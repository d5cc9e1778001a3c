import RackMcp.Json

/-!
# The generated protocol tables

`gen/rackmcp_protocol_gen.hpp`: the limits, the error codes, the risk flags and the field tables of
patch operations and bridge methods, as the generator wrote them.
-/

namespace RackMcp.Gen

def bridgeProtocolVersion : Int := 1
def bridgeProtocolMinSupported : Int := 1

def limitBridgeFrameBytes : Nat := 1048576
def limitTxnMaxOperations : Int := 128
def limitIdempotencyCacheMs : Int := 600000
def limitJsonMaxDepth : Nat := 64
def limitJsonMaxStringBytes : Nat := 262144
def limitJsonMaxTotalNodes : Nat := 250000
def limitPumpCommandsPerFrame : Nat := 4
def limitPumpFrameBudgetMs : Int := 4

def gridPositionXMin : Int := -4096
def gridPositionXMax : Int := 4096
def gridPositionYMin : Int := -256
def gridPositionYMax : Int := 256

/-- The stable error codes. -/
inductive ErrorCode where
  | rackNotFound | rackDisconnected | bridgeNotReady | writerLeaseRequired | authenticationFailed
  | protocolVersionMismatch | staleSession | stalePatchEpoch | patchConflict | modelNotInstalled
  | moduleNotFound | cableNotFound | parameterNotFound | portNotFound | validationFailed
  | confirmationRequired | confirmationExpired | pathNotAllowed | transactionTooLarge
  | rollbackFailed | timeout | unsupportedOperation | opaqueStateUnsupported | telemetryUnavailable
  | badRequest | rateLimited | leaseHeld | instanceNotSelected | resultTooLarge | internal
deriving DecidableEq

/-- `errorCodeToString`. -/
def errorCodeToString : ErrorCode → String
  | .rackNotFound => "RACK_NOT_FOUND"
  | .rackDisconnected => "RACK_DISCONNECTED"
  | .bridgeNotReady => "BRIDGE_NOT_READY"
  | .writerLeaseRequired => "WRITER_LEASE_REQUIRED"
  | .authenticationFailed => "AUTHENTICATION_FAILED"
  | .protocolVersionMismatch => "PROTOCOL_VERSION_MISMATCH"
  | .staleSession => "STALE_SESSION"
  | .stalePatchEpoch => "STALE_PATCH_EPOCH"
  | .patchConflict => "PATCH_CONFLICT"
  | .modelNotInstalled => "MODEL_NOT_INSTALLED"
  | .moduleNotFound => "MODULE_NOT_FOUND"
  | .cableNotFound => "CABLE_NOT_FOUND"
  | .parameterNotFound => "PARAMETER_NOT_FOUND"
  | .portNotFound => "PORT_NOT_FOUND"
  | .validationFailed => "VALIDATION_FAILED"
  | .confirmationRequired => "CONFIRMATION_REQUIRED"
  | .confirmationExpired => "CONFIRMATION_EXPIRED"
  | .pathNotAllowed => "PATH_NOT_ALLOWED"
  | .transactionTooLarge => "TRANSACTION_TOO_LARGE"
  | .rollbackFailed => "ROLLBACK_FAILED"
  | .timeout => "TIMEOUT"
  | .unsupportedOperation => "UNSUPPORTED_OPERATION"
  | .opaqueStateUnsupported => "OPAQUE_STATE_UNSUPPORTED"
  | .telemetryUnavailable => "TELEMETRY_UNAVAILABLE"
  | .badRequest => "BAD_REQUEST"
  | .rateLimited => "RATE_LIMITED"
  | .leaseHeld => "LEASE_HELD"
  | .instanceNotSelected => "INSTANCE_NOT_SELECTED"
  | .resultTooLarge => "RESULT_TOO_LARGE"
  | .internal => "INTERNAL"

/-- The risk flags of a transaction. -/
inductive RiskFlag where
  | removesBridge | affectsAudioPath | randomize | removesModules | removesCables | replacesCables
  | stacksInputs | possibleFeedback | adapterUncertainty | missingModules | largeTransaction
  | clearsPatch | replacesPatch
deriving DecidableEq

/-- `riskFlagToString`. -/
def riskFlagToString : RiskFlag → String
  | .removesBridge => "removes_bridge"
  | .affectsAudioPath => "affects_audio_path"
  | .randomize => "randomize"
  | .removesModules => "removes_modules"
  | .removesCables => "removes_cables"
  | .replacesCables => "replaces_cables"
  | .stacksInputs => "stacks_inputs"
  | .possibleFeedback => "possible_feedback"
  | .adapterUncertainty => "adapter_uncertainty"
  | .missingModules => "missing_modules"
  | .largeTransaction => "large_transaction"
  | .clearsPatch => "clears_patch"
  | .replacesPatch => "replaces_patch"

/-- The JSON types a field table declares. -/
inductive JsonType where
  | any | string | boolean | integer | number | object | array
deriving DecidableEq

def JsonType.name : JsonType → String
  | .any => "any"
  | .string => "string"
  | .boolean => "boolean"
  | .integer => "integer"
  | .number => "number"
  | .object => "object"
  | .array => "array"

/-- A required field: its name, its type and, for a string enumeration, the strings it admits. -/
structure FieldSpec where
  name : String
  jsonType : JsonType
  allowed : Option (List String) := none

/-- A patch operation and its required fields. -/
structure OperationSpec where
  op : String
  fields : List FieldSpec

/-- A bridge method, whether it mutates, and its required request fields. -/
structure MethodSpec where
  method : String
  mutating : Bool
  fields : List FieldSpec

/-- `OPERATION_SPECS`. -/
def operationSpecs : List OperationSpec :=
  [⟨"add_module", [⟨"alias", .string, none⟩, ⟨"modelSlug", .string, none⟩, ⟨"pluginSlug", .string, none⟩]⟩,
   ⟨"connect", [⟨"input", .object, none⟩,
     ⟨"inputPolicy", .string, some ["fail_if_connected", "stack", "replace_all"]⟩,
     ⟨"output", .object, none⟩]⟩,
   ⟨"disconnect", [⟨"cable", .object, none⟩]⟩,
   ⟨"disconnect_port", [⟨"policy", .string, some ["top", "all"]⟩, ⟨"port", .object, none⟩]⟩,
   ⟨"duplicate_module", [⟨"alias", .string, none⟩, ⟨"copyCables", .boolean, none⟩,
     ⟨"module", .object, none⟩]⟩,
   ⟨"move_module", [⟨"collision", .string, some ["fail", "nearest", "force", "squeeze"]⟩,
     ⟨"module", .object, none⟩, ⟨"position", .object, none⟩]⟩,
   ⟨"randomize_module", [⟨"module", .object, none⟩]⟩,
   ⟨"remove_module", [⟨"cablePolicy", .string, some ["remove_attached", "fail_if_connected"]⟩,
     ⟨"module", .object, none⟩]⟩,
   ⟨"reset_module", [⟨"module", .object, none⟩]⟩,
   ⟨"set_bypass", [⟨"bypassed", .boolean, none⟩, ⟨"module", .object, none⟩]⟩,
   ⟨"set_parameter", [⟨"module", .object, none⟩, ⟨"paramId", .integer, none⟩]⟩]

/-- `METHOD_SPECS`. -/
def methodSpecs : List MethodSpec :=
  [⟨"status.get", false, []⟩,
   ⟨"lease.acquire", false, [⟨"clientName", .string, none⟩]⟩,
   ⟨"lease.renew", false, [⟨"leaseId", .string, none⟩]⟩,
   ⟨"lease.release", false, [⟨"leaseId", .string, none⟩]⟩,
   ⟨"catalog.listModels", false, []⟩,
   ⟨"catalog.inspectModel", false, [⟨"modelSlug", .string, none⟩, ⟨"pluginSlug", .string, none⟩]⟩,
   ⟨"patch.snapshot", false, []⟩,
   ⟨"patch.fingerprint", false, []⟩,
   ⟨"module.inspect", false, [⟨"moduleId", .string, none⟩, ⟨"scope", .object, none⟩]⟩,
   ⟨"txn.preview", false, [⟨"label", .string, none⟩, ⟨"operations", .array, none⟩,
     ⟨"scope", .object, none⟩]⟩,
   ⟨"txn.commit", true, [⟨"expectedFingerprint", .string, none⟩, ⟨"operationId", .string, none⟩,
     ⟨"plan", .object, none⟩, ⟨"planHash", .string, none⟩, ⟨"scope", .object, none⟩]⟩,
   ⟨"txn.undoLast", true, [⟨"expectedOperationId", .string, none⟩, ⟨"operationId", .string, none⟩,
     ⟨"scope", .object, none⟩]⟩,
   ⟨"patchfile.save", true, [⟨"operationId", .string, none⟩, ⟨"path", .string, none⟩,
     ⟨"scope", .object, none⟩]⟩,
   ⟨"patchfile.saveCopy", true, [⟨"operationId", .string, none⟩, ⟨"path", .string, none⟩,
     ⟨"scope", .object, none⟩]⟩,
   ⟨"patchfile.load", true, [⟨"operationId", .string, none⟩, ⟨"path", .string, none⟩,
     ⟨"scope", .object, none⟩]⟩,
   ⟨"patchfile.clear", true, [⟨"operationId", .string, none⟩, ⟨"scope", .object, none⟩]⟩,
   ⟨"probe.list", false, []⟩,
   ⟨"probe.read", false, [⟨"probeInputId", .integer, none⟩, ⟨"probeModuleId", .string, none⟩,
     ⟨"scope", .object, none⟩]⟩,
   ⟨"metrics.get", false, []⟩,
   ⟨"chat.poll", false, []⟩,
   ⟨"chat.post", false, [⟨"text", .string, none⟩]⟩]

end RackMcp.Gen
