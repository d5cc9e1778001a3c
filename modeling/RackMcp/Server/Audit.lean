import RackMcp.Json
import RackMcp.Server.Text

/-!
# The audit log

`AuditLog.tailLines` and `AuditLog.recent` of `apps/mcp-server/src/audit.ts`. A log is its bytes, or nothing if it is
missing or cannot be read; `JSON.parse` and `AuditEntry.safeParse` are functions of their own.
-/

namespace RackMcp.Server

/-- `TAIL_BYTES`. -/
def tailBytes : ℕ := 256 * 1024

/-- The lines of a text that are not blank. -/
def notBlank (lines : List (List Char)) : List (List Char) := lines.filter fun l => (trim l).length > 0

/-- `tailLines`. -/
def tailLines : Option (List UInt8) → List (List Char)
  | none => []
  | some contents =>
    let size := contents.length
    let length := min size tailBytes
    let lines := (decodeUtf8 (contents.drop (size - length))).splitOn '\n'
    let lines := if size > length ∧ lines.length > 0 then lines.tail else lines
    notBlank lines

/-- `slice` with one argument: a negative one counts from the end. -/
def slice {α : Type} (l : List α) (start : Int) : List α :=
  l.drop (if start < 0 then (l.length + start).toNat else start.toNat)

/-- What `recent` returns. -/
structure RecentAudit (E : Type) where
  entries : List E
  skipped : ℕ

variable {E : Type} (jsonParse : List Char → Option Json) (safeParse : Json → Option E)

/-- The loop of `recent`; a line that is no JSON or no entry is skipped. -/
def acceptLines : List (List Char) → RecentAudit E → RecentAudit E
  | [], r => r
  | line :: tail, r =>
    match jsonParse line with
    | none => acceptLines tail { r with skipped := r.skipped + 1 }
    | some raw =>
      match safeParse raw with
      | some entry => acceptLines tail { r with entries := r.entries ++ [entry] }
      | none => acceptLines tail { r with skipped := r.skipped + 1 }

/-- The lines that `recent` looks at; `file` tells whether `ensureFile` finds the directory. -/
def consideredLines (file : Bool) (live rotated : Option (List UInt8)) (limit : ℕ) : List (List Char) :=
  if !file then []
  else
    let lines := tailLines live
    let lines := if lines.length < limit then tailLines rotated ++ lines else lines
    slice lines (-limit)

/-- `recent`, for a limit that is not negative. -/
def recent (file : Bool) (live rotated : Option (List UInt8)) (limit : ℕ) : RecentAudit E :=
  acceptLines jsonParse safeParse (consideredLines file live rotated limit) ⟨[], 0⟩

end RackMcp.Server
