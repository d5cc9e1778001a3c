import RackMcp.Core.JsonText
import RackMcp.Core.Plan
import Mathlib.Data.List.Lex
import Mathlib.Data.List.Sort

/-!
# The canonical form of a JSON value

`canonicalDumps` of `core/canonical.cpp`: jansson writes the text of the value with `JSON_SORT_KEYS`, which orders the
members of every object by the bytes of their keys.
-/

namespace RackMcp

/-- What `memcmp` compares of a key. -/
def keyBytes (key : String) : List ℕ := (utf8 key).map UInt8.toNat

mutual

/-- The value with the members of its objects in the order of their keys. -/
def sortKeys : Json → Json
  | .array items => .array (sortItems items)
  | .object members => .object ((sortMembers members).insertionSort fun m n => keyBytes m.1 ≤ keyBytes n.1)
  | .null => .null
  | .bool b => .bool b
  | .integer n => .integer n
  | .real x => .real x
  | .string s => .string s

def sortItems : List Json → List Json
  | [] => []
  | v :: rest => sortKeys v :: sortItems rest

def sortMembers : List (String × Json) → List (String × Json)
  | [] => []
  | (key, v) :: rest => (key, sortKeys v) :: sortMembers rest

end

/-- What `canonicalDumps` writes. -/
def canonicalText (numeral : Double → String) (v : Json) : String := jsonText numeral (sortKeys v)

example : canonicalText (fun _ => "0.0") (.object [("b", .integer 1), ("a", .object [("d", .null), ("c", .null)])]) =
    "\x7b\"a\":\x7b\"c\":null,\"d\":null\x7d,\"b\":1\x7d" := by decide

theorem sortItems_eq_map (items : List Json) : sortItems items = items.map sortKeys := by
  induction items with
  | nil => rfl
  | cons v rest ih => rw [sortItems, ih, List.map_cons]

theorem sortMembers_eq_map (members : List (String × Json)) :
    sortMembers members = members.map fun m => (m.1, sortKeys m.2) := by
  induction members with
  | nil => rfl
  | cons m rest ih =>
    obtain ⟨key, v⟩ := m
    rw [sortMembers, ih, List.map_cons]

end RackMcp
