import RackMcp.Gen
import RackMcp.Server.Text

/-!
# What a tool call throws

`ToolError`, `BridgeRequestError` and `toErrorPayload` of `apps/mcp-server/src/errors.ts`.
-/

namespace RackMcp.Server

open Gen

/-- `RackMcpError`, the error object of a response. -/
structure RpcError where
  code : String
  message : String
  retrySafe : Bool
  mutationMayHaveOccurred : Bool
  details : Option Json := none
  rollback : Option Json := none

/-- What the server throws: a `ToolError`, a `BridgeRequestError`, or any other error. -/
inductive Thrown where
  | tool (code : ErrorCode) (message : String) (retrySafe mutationMayHaveOccurred : Bool) (details : Option Json)
  | bridge (rpcError : RpcError)
  | error (message : String)

/-- `new ToolError(code, message, retrySafe)`. -/
def toolError (code : ErrorCode) (message : String) (retrySafe : Bool := false) : Thrown :=
  .tool code message retrySafe false none

/-- All stable codes. -/
def errorCodes : List ErrorCode :=
  [.rackNotFound, .rackDisconnected, .bridgeNotReady, .writerLeaseRequired, .authenticationFailed,
   .protocolVersionMismatch, .staleSession, .stalePatchEpoch, .patchConflict, .modelNotInstalled,
   .moduleNotFound, .cableNotFound, .parameterNotFound, .portNotFound, .validationFailed,
   .confirmationRequired, .confirmationExpired, .pathNotAllowed, .transactionTooLarge,
   .rollbackFailed, .timeout, .unsupportedOperation, .opaqueStateUnsupported, .telemetryUnavailable,
   .badRequest, .rateLimited, .leaseHeld, .instanceNotSelected, .resultTooLarge, .internal]

/-- `normalizeErrorCode`. -/
def normalizeErrorCode (code : String) : ErrorCode :=
  (errorCodes.find? (errorCodeToString · == code)).getD .internal

/-- `MAX_MESSAGE` and `TRUNCATION_MARK`. -/
def maxMessage : Nat := 4096
def truncationMark : String := "... [truncated]"

/-- `clampMessage`. -/
def clampMessage (message : String) : String :=
  if utf16Length message ≤ maxMessage then message
  else String.ofList (takeUtf16 (maxMessage - utf16Length truncationMark) message.toList) ++ truncationMark

/-- The error payload of a tool call. -/
structure ErrorPayload where
  code : ErrorCode
  message : String
  retrySafe : Bool
  mutationMayHaveOccurred : Bool
  details : Option Json := none
  rollback : Option Json := none

/-- `toErrorPayload`. -/
def toErrorPayload : Thrown → ErrorPayload
  | .tool code message retrySafe mutationMayHaveOccurred details =>
    { code, message := clampMessage message, retrySafe, mutationMayHaveOccurred, details }
  | .bridge e =>
    { code := normalizeErrorCode e.code, message := clampMessage e.message, retrySafe := e.retrySafe
      mutationMayHaveOccurred := e.mutationMayHaveOccurred, details := e.details, rollback := e.rollback }
  | .error message =>
    { code := .internal, message := clampMessage message, retrySafe := false, mutationMayHaveOccurred := false }

/-- What the thrown value says about the patch. -/
def Thrown.mayHave (e : Thrown) : Bool := (toErrorPayload e).mutationMayHaveOccurred

@[simp] theorem mayHave_tool (code : ErrorCode) (message : String) (retrySafe mayHave : Bool)
    (details : Option Json) : (Thrown.tool code message retrySafe mayHave details).mayHave = mayHave := rfl

@[simp] theorem mayHave_bridge (e : RpcError) : (Thrown.bridge e).mayHave = e.mutationMayHaveOccurred := rfl

@[simp] theorem mayHave_error (message : String) : (Thrown.error message).mayHave = false := rfl

end RackMcp.Server
