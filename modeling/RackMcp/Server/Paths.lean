import RackMcp.Server.Errors

/-!
# The patch-path policy

`apps/mcp-server/src/paths.ts` on POSIX, over the answers of the file system at one moment (`FileSystem`). What
the policy does within one call is synchronous, so one moment is enough for each call. A link is followed at
most 32 times, as the source does; giving a checkpoint reservation back changes only the file system and is
left out.
-/

namespace RackMcp.Server

open Gen

/-- What the file system answers at one moment. -/
structure FileSystem where
  /-- `realpathSync.native`, or the code of its error. -/
  realpath : String → Except String String
  /-- The target of a symbolic link, none for anything else. -/
  readlink : String → Option String
  /-- `statSync(path).isFile()`, none where nothing exists. -/
  isFile : String → Option Bool
  /-- `statSync(path).size`. -/
  size : String → Nat
  /-- The error of `mkdirSync`. -/
  mkdir : String → Option String
  /-- The code of the error of an exclusive create. -/
  create : String → Option String

/-- `existsSync`. -/
def FileSystem.existsSync (fs : FileSystem) (path : String) : Bool := (fs.isFile path).isSome

/-- `ServerConfig`: the roots and the deadlines. -/
structure ServerConfig where
  checkpointsDir : String
  patchesDir : String
  requestDeadlineMs : Int := 5000
  patchIoTimeoutMs : Int := 60000
  txnCommitTimeoutMs : Int := 30000

/-- `PatchRoot`. -/
inductive PatchRoot where
  | patches | checkpoints
deriving DecidableEq

/-! ### Paths as text -/

/-- The segments of an absolute path, with `.` and `..` resolved. -/
def normalizeSegments (segments : List String) : List String :=
  segments.foldl (fun path segment =>
    if segment = "" ∨ segment = "." then path
    else if segment = ".." then path.dropLast
    else path ++ [segment]) []

/-- The absolute path of these segments. -/
def joinSegments (segments : List String) : String := "/" ++ "/".intercalate segments

/-- The parts of a path between its slashes. -/
def splitPath (p : String) : List String := (p.toList.splitOn '/').map String.ofList

/-- The segments of `path.resolve(base, p)`. -/
def resolveSegments (base p : String) : List String :=
  normalizeSegments (splitPath (if p.toList.head? = some '/' then p else base ++ "/" ++ p))

/-- A letter, whatever its case. -/
def isAsciiLetter (c : Char) : Bool := ('a' ≤ c && c ≤ 'z') || ('A' ≤ c && c ≤ 'Z')

def isAsciiDigit (c : Char) : Bool := '0' ≤ c && c ≤ '9'

/-- The ASCII lower case of a character. -/
def asciiLower (c : Char) : Char := if 'A' ≤ c ∧ c ≤ 'Z' then Char.ofNat (c.toNat + 32) else c

/-- A scheme of at least two characters, then `://`. -/
def hasUrlScheme : List Char → Bool
  | [] => false
  | c :: rest =>
    let scheme := rest.takeWhile fun d => isAsciiLetter d || isAsciiDigit d || d == '+' || d == '.' || d == '-'
    isAsciiLetter c && scheme ≠ [] && (rest.drop scheme.length).take 3 == [':', '/', '/']

/-- `isUrl`. -/
def isUrl (p : String) : Bool :=
  hasUrlScheme p.toList || (p.toList.take 5).map asciiLower == "file:".toList

/-- The name ends in `.vcv`, whatever its case. -/
def endsWithVcv (p : String) : Bool :=
  (p.toList.drop (p.toList.length - 4)).map asciiLower == ".vcv".toList

/-! ### Canonical paths -/

/-- `MAX_LINK_HOPS`. -/
def maxLinkHops : Nat := 32

def notResolved : Thrown := toolError .pathNotAllowed "path could not be resolved"

/-- `canonicalAllowingMissing`, on the segments of the path from its end; `hops` links may still be followed. -/
def canonicalAllowingMissing (fs : FileSystem) (hops : Nat) (path : List String) : Except Thrown String :=
  match fs.realpath (joinSegments path.reverse) with
  | .ok real => .ok real
  | .error code =>
    if code ≠ "ENOENT" then .error notResolved
    else
      match path with
      | [] => .error notResolved
      | name :: parent =>
        match canonicalAllowingMissing fs hops parent with
        | .error e => .error e
        | .ok canonicalParent =>
          let child := joinSegments (resolveSegments canonicalParent name)
          match fs.readlink child, hops with
          | none, _ => .ok child
          | some _, 0 => .error notResolved
          | some target, hops + 1 =>
            canonicalAllowingMissing fs hops (resolveSegments canonicalParent target).reverse
termination_by (hops, path.length)

/-- `canonicalDir`. -/
def canonicalDir (fs : FileSystem) (dir : String) : Except Thrown String :=
  match fs.mkdir dir with
  | some e => .error (.error e)
  | none => (fs.realpath dir).mapError .error

/-- `within`. -/
def within (root target : String) : Bool :=
  target == root ||
    (if root.toList.getLast? = some '/' then root else root ++ "/").toList.isPrefixOf target.toList

/-- `ResolvedPath`. -/
structure ResolvedPath where
  absolute : String
  root : PatchRoot
  present : Bool

/-- The root a canonical path lies in. -/
def rootOf (patchesRoot checkpointsRoot canonical : String) : Option PatchRoot :=
  if within patchesRoot canonical then some .patches
  else if within checkpointsRoot canonical then some .checkpoints
  else none

/-- What `resolvePatchPath` refuses by the text of the path alone. -/
def refusedByName (requested : String) : Option Thrown :=
  if requested = "" ∨ isUrl requested then
    some (toolError .pathNotAllowed "path must be a local filesystem path, not a URL")
  else if '\x00' ∈ requested.toList then some (toolError .pathNotAllowed "path contains a null byte")
  else if ¬ endsWithVcv requested then some (toolError .pathNotAllowed "only .vcv patch files are permitted")
  else none

/-- The checks of `resolvePatchPath` on a canonical path. -/
def admitCanonical (fs : FileSystem) (patchesRoot checkpointsRoot canonical : String) (mustExist : Bool) :
    Except Thrown ResolvedPath :=
  let present := fs.existsSync canonical
  if fs.isFile canonical = some false then .error (toolError .pathNotAllowed "path is not a regular file")
  else
    match rootOf patchesRoot checkpointsRoot canonical with
    | none =>
      .error (toolError .pathNotAllowed "path is outside the configured patch and checkpoint roots")
    | some root =>
      if ¬ present ∧ ¬ fs.existsSync (joinSegments (resolveSegments canonical "..")) then
        .error (toolError .pathNotAllowed "parent directory does not exist")
      else if mustExist ∧ ¬ present then .error (toolError .pathNotAllowed "patch file does not exist")
      else if mustExist ∧ fs.size canonical = 0 then
        .error (toolError .pathNotAllowed ("patch file is empty, so it holds no patch to load; it is most likely " ++
          "a write that never completed"))
      else .ok ⟨canonical, root, present⟩

/-- `resolvePatchPath`, in the working directory `cwd`. -/
def resolvePatchPath (config : ServerConfig) (cwd : String) (fs : FileSystem) (requested : String)
    (mustExist : Bool) : Except Thrown ResolvedPath :=
  match refusedByName requested with
  | some e => .error e
  | none => do
    let patchesRoot ← canonicalDir fs config.patchesDir
    let checkpointsRoot ← canonicalDir fs config.checkpointsDir
    let canonical ← canonicalAllowingMissing fs maxLinkHops (resolveSegments cwd requested).reverse
    admitCanonical fs patchesRoot checkpointsRoot canonical mustExist

/-- `requireRoot`. -/
def requireRoot (resolved : ResolvedPath) (want : PatchRoot) (what : String) : Except Thrown Unit :=
  if resolved.root = want then .ok ()
  else
    .error (toolError .pathNotAllowed (match want with
      | .patches => what ++ " must be in the patches root; checkpoints are written by create_checkpoint and " ++
          "read by restore_checkpoint"
      | .checkpoints => what ++ " must be a checkpoint file"))

/-! ### Checkpoints -/

/-- The characters of a label that stay in a file name; a character outside the BMP is two code units. -/
def safeLabelChars (c : Char) : List Char :=
  if isAsciiLetter c || isAsciiDigit c || c == '_' || c == '-' then [c]
  else if c.toNat > 0xFFFF then ['_', '_'] else ['_']

/-- The label as a part of a file name. -/
def safeLabel (label : Option String) : String :=
  String.ofList (((label.getD "checkpoint").toList.flatMap safeLabelChars).take 40)

/-- The stamp as a part of a file name. -/
def safeStamp (isoStamp : String) : String :=
  String.ofList (isoStamp.toList.map fun c => if c == ':' || c == '.' then '-' else c)

/-- `checkpointPath` without its extension. -/
def checkpointStem (config : ServerConfig) (fs : FileSystem) (label : Option String) (isoStamp : String) :
    Except Thrown String := do
  let root ← canonicalDir fs config.checkpointsDir
  .ok (joinSegments (resolveSegments root (safeStamp isoStamp ++ "_" ++ safeLabel label)))

/-- `MAX_CHECKPOINT_ATTEMPTS`. -/
def maxCheckpointAttempts : Nat := 100

/-- The name of attempt `n`. -/
def checkpointCandidate (stem : String) (n : Nat) : String :=
  if n = 1 then stem ++ ".vcv" else stem ++ "-" ++ toString n ++ ".vcv"

/-- The loop of `reserveCheckpointPath`, from attempt `n` on, `left` attempts before it gives up. -/
def reserveFrom (fs : FileSystem) (stem : String) (n : Nat) : Nat → Except Thrown String
  | 0 =>
    .error (toolError .internal (toString maxCheckpointAttempts ++
      " checkpoints already exist for this label and millisecond; use a different label") true)
  | left + 1 =>
    match fs.create (checkpointCandidate stem n) with
    | none => .ok (checkpointCandidate stem n)
    | some "EEXIST" => reserveFrom fs stem (n + 1) left
    | some code =>
      .error (toolError .internal ("the checkpoint file could not be created (" ++ code ++
        "); make the checkpoints directory writable with free space, then retry") true)

/-- `reserveCheckpointPath`. -/
def reserveCheckpointPath (config : ServerConfig) (fs : FileSystem) (label : Option String) (isoStamp : String) :
    Except Thrown String := do
  let stem ← checkpointStem config fs label isoStamp
  reserveFrom fs stem 1 maxCheckpointAttempts

end RackMcp.Server
