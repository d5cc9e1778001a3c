import RackMcp.Lib.FileTree
import RackMcp.Server.Paths
import RackMcp.Server.Text

/-!
# The file system of a machine

What the calls of `paths.ts` answer on a tree of directories, files and links: `realpathSync.native`, `statSync` and
`existsSync` follow links as the kernel does, `lstatSync` and `readlinkSync` leave the last name. To the kernel names and
links are bytes: a path is handed over in UTF-8, and what comes back is decoded, with U+FFFD for what is none. Every
directory may be searched.
-/

namespace RackMcp.Server

open FileTree

/-- The bytes are the name of an entry of a directory. -/
structure IsName (bytes : List UInt8) : Prop where
  nonempty : bytes ≠ []
  not_dot : bytes ≠ [0x2e]
  not_dotdot : bytes ≠ [0x2e, 0x2e]
  no_slash : 0x2f ∉ bytes

instance (bytes : List UInt8) : Decidable (IsName bytes) :=
  decidable_of_iff (bytes ≠ [] ∧ bytes ≠ [0x2e] ∧ bytes ≠ [0x2e, 0x2e] ∧ 0x2f ∉ bytes)
    ⟨fun ⟨h, hdot, hdotdot, hslash⟩ => ⟨h, hdot, hdotdot, hslash⟩,
      fun h => ⟨h.nonempty, h.not_dot, h.not_dotdot, h.no_slash⟩⟩

/-- The name of an entry. -/
structure Name where
  bytes : List UInt8
  isName : IsName bytes
deriving DecidableEq

/-- What the bytes between two slashes say. -/
def parsePart (bytes : List UInt8) : PathPart Name :=
  if h : IsName bytes then .name ⟨bytes, h⟩
  else if bytes = [0x2e, 0x2e] then .up
  else .here

/-- The parts of a path between its slashes. -/
def splitBytes (bytes : List UInt8) : List (PathPart Name) := (bytes.splitOn 0x2f).map parsePart

/-- What a link says: whether it begins at the root, and its parts. -/
def parseTarget (target : List UInt8) : Bool × List (PathPart Name) := (target.head? = some 0x2f, splitBytes target)

/-- The path to a location. -/
def pathBytes (loc : List Name) : List UInt8 := 0x2f :: [0x2f].intercalate (loc.map Name.bytes)

/-- The code of the error. -/
def failureCode : Failure Name → String
  | .missing .. => "ENOENT"
  | .notDir => "ENOTDIR"
  | .loop => "ELOOP"

/-- A path as it is handed to the kernel. -/
def encodePath (p : String) : List UInt8 := encodeUtf8 p.toList

/-- A path or a link as it comes back. -/
def decodePath (bytes : List UInt8) : String := String.ofList (decodeUtf8 bytes)

/-- A tree with how many links the kernel follows in one path, the working directory, and what `mkdirSync` and an
exclusive create answer. -/
structure Machine where
  tree : Volume Name (List UInt8)
  links : ℕ
  cwd : List Name
  mkdir : String → Option String
  create : String → Option String

namespace Machine

/-- Where the kernel begins with a path. -/
def origin (m : Machine) (p : String) : List Name := if p.toList.head? = some '/' then [] else m.cwd

/-- Where the kernel comes to with a path. -/
def resolve (m : Machine) (p : String) : Except (Failure Name) (List Name) :=
  if p = "" then .error (.missing [] [])
  else (m.tree.walk parseTarget m.links (m.origin p) (splitBytes (encodePath p))).map Prod.fst

/-- Where the kernel would open or create a file of this name. -/
def locate (m : Machine) (p : String) : Except (Failure Name) (List Name) :=
  if p = "" then .error (.missing [] [])
  else m.tree.locate parseTarget m.links (m.origin p) (splitBytes (encodePath p))

/-- What there is, links followed. -/
def stat (m : Machine) (p : String) : Option (Inode (List UInt8)) :=
  match m.resolve p with
  | .ok loc => m.tree.entry loc
  | .error _ => none

/-- What there is, the last name not followed. -/
def lstat (m : Machine) (p : String) : Option (Inode (List UInt8)) :=
  let parts := splitBytes (encodePath p)
  match m.tree.walk parseTarget m.links (m.origin p) parts.dropLast, parts.getLast? with
  | .ok spot, some (.name name) => m.tree.entry (spot.1 ++ [name])
  | .ok _, some _ => m.stat p
  | _, _ => none

def fileSystem (m : Machine) : FileSystem where
  realpath p := ((m.resolve p).map fun loc => decodePath (pathBytes loc)).mapError failureCode
  readlink p :=
    match m.lstat p with
    | some (.link target) => some (decodePath target)
    | _ => none
  isFile p := (m.stat p).map fun
    | .file _ => true
    | _ => false
  size p :=
    match m.stat p with
    | some (.file size) => size
    | _ => 0
  mkdir := m.mkdir
  create := m.create

end Machine

end RackMcp.Server
