import RackMcp.Core.Crypto
import RackMcp.Server.Text

/-!
# The pairing secret on the side of the server

`loadPairingSecret` of `packages/protocol/src/discovery.ts`, of what the file holds. An error that is thrown is none.
-/

namespace RackMcp

/-- The value of a hex digit, in either case. -/
def hexCharVal (c : Char) : Option UInt8 := if c.toNat < 128 then hexVal c.toNat.toUInt8 else none

/-- `Buffer.from(text, "hex")`: the bytes up to the first pair that is none. -/
def bufferFromHex : List Char → List UInt8
  | hi :: lo :: rest =>
    match hexCharVal hi, hexCharVal lo with
    | some h, some l => ((h <<< 4) ||| l) :: bufferFromHex rest
    | _, _ => []
  | _ => []

/-- `loadPairingSecret`: 64 lowercase hex digits, `/^[0-9a-f]{64}$/`, once white space is trimmed. -/
def loadPairingSecret (contents : List UInt8) : Option (List UInt8) :=
  let hex := trim (decodeUtf8 contents)
  if hex.length = 64 ∧ hex.all isHexChar then some (bufferFromHex hex) else none

end RackMcp
