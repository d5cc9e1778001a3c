import RackMcp.Lib.Trace
import RackMcp.Server.Paths

/-!
# Checkpoint reservations

Any number of calls that reserve a checkpoint path, in any number of processes, over one file system: each system call
of `reserveCheckpointPath` and `releaseCheckpointReservation` (`apps/mcp-server/src/paths.ts`) is a step of its own, and
so is the rename at the end of `savePatchAtomic` (`rackside/PatchFiles.cpp`). A call gives its reservation back only
after the plugin has reported a failure (`createCheckpoint` and `commitLoadOrClear` in `patchfiles.ts`).
-/

namespace RackMcp.Server

open Gen

/-! ### The stamp -/

/-- The decimal digits, with zeros in front up to `width` of them. -/
def padded (width n : ℕ) : String :=
  let digits := Nat.toDigits 10 n
  String.ofList (List.replicate (width - digits.length) '0' ++ digits)

/-- The year of an ISO date: four digits, or a sign and six. -/
def isoYear (year : ℤ) : String :=
  if 0 ≤ year ∧ year ≤ 9999 then padded 4 year.toNat
  else if year < 0 then "-" ++ padded 6 year.natAbs
  else "+" ++ padded 6 year.natAbs

/-- An ISO date with the milliseconds of its day. -/
def isoText (year : ℤ) (month day time : ℕ) : String :=
  isoYear year ++ "-" ++ padded 2 month ++ "-" ++ padded 2 day ++ "T" ++ padded 2 (time / 3600000) ++ ":" ++
    padded 2 (time / 60000 % 60) ++ ":" ++ padded 2 (time / 1000 % 60) ++ "." ++ padded 3 (time % 1000) ++ "Z"

/-- `Date.prototype.toISOString`; none where it throws a RangeError. -/
def toISOString (ms : ℤ) : Option String :=
  if ms.natAbs > 8640000000000000 then none
  else
    -- days from 1 March of the year 0, in eras of 400 years; a year begins in March
    let days := ms / 86400000 + 719468
    let dayOfEra := (days % 146097).toNat
    let yearOfEra := (dayOfEra - dayOfEra / 1460 + dayOfEra / 36524 - dayOfEra / 146096) / 365
    let dayOfYear := dayOfEra - (365 * yearOfEra + yearOfEra / 4 - yearOfEra / 100)
    let monthFromMarch := (5 * dayOfYear + 2) / 153
    let month := if monthFromMarch < 10 then monthFromMarch + 3 else monthFromMarch - 9
    some (isoText (days / 146097 * 400 + yearOfEra + (if month ≤ 2 then 1 else 0)) month
      (dayOfYear - (153 * monthFromMarch + 2) / 5 + 1) (ms % 86400000).toNat)

example : toISOString 951827696789 = some "2000-02-29T12:34:56.789Z" := by decide +kernel

/-! ### Calls -/

/-- Where one call stands. -/
inductive Reservation where
  | idle
  /-- Before attempt `n`, with `left` attempts to make. -/
  | trying (stem : String) (n left : ℕ)
  | refused (e : Thrown)
  /-- The path was returned; the plugin may be asked to save there. -/
  | reserved (path : String)
  /-- The plugin has reported a failure. -/
  | failed (path : String)
  /-- `statSync` found the file empty. -/
  | inspected (path : String)
  /-- `releaseCheckpointReservation` is through. -/
  | released

/-- The sizes of the files that there are, and the calls. -/
structure Checkpoints where
  files : String → Option ℕ
  calls : ℕ → Reservation

inductive CheckpointEvent where
  | reserve (c : ℕ) (config : ServerConfig) (fs : FileSystem) (label : Option String) (stampMs : ℤ)
  /-- The exclusive create of the next candidate; `error` is what the kernel answers when nothing has that name. -/
  | create (c : ℕ) (error : Option String)
  /-- The plugin moves a saved patch of this size onto the path. -/
  | rename (c : ℕ) (size : ℕ)
  | reportFailure (c : ℕ)
  | stat (c : ℕ)
  | unlink (c : ℕ)

inductive CheckpointAct where
  /-- `reserveCheckpointPath` returns the path. -/
  | returned (c : ℕ) (path : String)
  /-- `releaseCheckpointReservation` removes the file. -/
  | removed (c : ℕ) (path : String)
deriving DecidableEq

namespace Checkpoints

/-- Call `c` goes on. -/
def setCall (s : Checkpoints) (c : ℕ) (r : Reservation) : Checkpoints :=
  { s with calls := Function.update s.calls c r }

/-- The file of this name. -/
def setFile (s : Checkpoints) (path : String) (file : Option ℕ) : Checkpoints :=
  { s with files := Function.update s.files path file }

/-- `checkpointPath` and the start of the loop of `reserveCheckpointPath`. -/
def begins (config : ServerConfig) (fs : FileSystem) (label : Option String) (stampMs : ℤ) : Reservation :=
  match toISOString stampMs with
  | none => .refused (.error "Invalid time value")
  | some isoStamp =>
    match checkpointStem config fs label isoStamp with
    | .error e => .refused e
    | .ok stem => .trying stem 1 maxCheckpointAttempts

/-- What the exclusive create answers. -/
def createAnswer (s : Checkpoints) (error : Option String) (path : String) : Option String :=
  if (s.files path).isSome then some "EEXIST" else error

/-- One turn of the loop of `reserveCheckpointPath`. -/
def attempt (s : Checkpoints) (c : ℕ) (error : Option String) (stem : String) (n : ℕ) :
    ℕ → Checkpoints × List CheckpointAct
  | 0 =>
    (s.setCall c (.refused (toolError .internal (toString maxCheckpointAttempts ++
      " checkpoints already exist for this label and millisecond; use a different label") true)), [])
  | left + 1 =>
    let path := checkpointCandidate stem n
    match s.createAnswer error path with
    | none => ((s.setFile path (some 0)).setCall c (.reserved path), [.returned c path])
    | some "EEXIST" => (s.setCall c (.trying stem (n + 1) left), [])
    | some code =>
      (s.setCall c (.refused (toolError .internal ("the checkpoint file could not be created (" ++ code ++
        "); make the checkpoints directory writable with free space, then retry") true)), [])

/-- The state after an event, and what the call does. -/
def step (s : Checkpoints) : CheckpointEvent → Checkpoints × List CheckpointAct
  | .reserve c config fs label stampMs =>
    match s.calls c with
    | .idle => (s.setCall c (begins config fs label stampMs), [])
    | _ => (s, [])
  | .create c error =>
    match s.calls c with
    | .trying stem n left => s.attempt c error stem n left
    | _ => (s, [])
  | .rename c size =>
    match s.calls c with
    | .reserved path => (s.setFile path (some size), [])
    | _ => (s, [])
  | .reportFailure c =>
    match s.calls c with
    | .reserved path => (s.setCall c (.failed path), [])
    | _ => (s, [])
  | .stat c =>
    match s.calls c with
    | .failed path => (s.setCall c (if s.files path = some 0 then .inspected path else .released), [])
    | _ => (s, [])
  | .unlink c =>
    match s.calls c with
    | .inspected path => ((s.setFile path none).setCall c .released, [.removed c path])
    | _ => (s, [])

/-- A file system with these files, before any call. -/
def start (files : String → Option ℕ) : Checkpoints := ⟨files, fun _ => .idle⟩

/-- The state before the event at index `k`. -/
def checkpointsAt (files : String → Option ℕ) (es : List CheckpointEvent) (k : ℕ) : Checkpoints :=
  Trace.stateAt step (start files) es k

/-- The call does `act` on the event at index `k`. -/
def Acts (files : String → Option ℕ) (es : List CheckpointEvent) (k : ℕ) (act : CheckpointAct) : Prop :=
  Trace.Emits step (start files) es k act

end Checkpoints

end RackMcp.Server
