import Mathlib.Data.List.AList
import Mathlib.Algebra.Order.Monoid.WithTop
import Mathlib.Algebra.Order.Ring.Rat

/-!
# Panel geometry

`core/layout.cpp`. A coordinate is a rational or `INFINITY`, the top element of `WithTop ℚ`: every
pixel coordinate the plugin computes is a small multiple of Rack's grid, on which the float arithmetic
of the source is exact.
-/

namespace RackMcp.Layout

structure Point where
  x : WithTop ℚ
  y : WithTop ℚ
deriving DecidableEq

structure Box where
  pos : Point
  size : Point
deriving DecidableEq

/-- The right edge, `pos.x + size.x`. -/
def Box.right (b : Box) : WithTop ℚ := b.pos.x + b.size.x

/-- Grid geometry; the origin is Rack's 2000 columns and 100 rows. -/
structure Grid where
  width : ℚ
  height : ℚ
  originColumns : Int := 2000
  originRows : Int := 100

/-- A panel on the rack: one entry per ModuleWidget, with no id when its module is NULL. -/
structure Occupant where
  moduleId : Option Int
  box : Box
deriving DecidableEq

/-- What earlier operations of the same plan already did to the layout. -/
structure PlanLayout where
  removedModules : List Int
  plannedBoxes : AList (fun _ : Int => Box)

/-- Rack's own rectangle overlap test, with strict comparisons. -/
def intersects (a b : Box) : Bool :=
  (b.size.x = ⊤ ∨ a.pos.x < b.pos.x + b.size.x) ∧
  (a.size.x = ⊤ ∨ b.pos.x < a.pos.x + a.size.x) ∧
  (b.size.y = ⊤ ∨ a.pos.y < b.pos.y + b.size.y) ∧
  (a.size.y = ⊤ ∨ b.pos.y < a.pos.y + a.size.y)

/-- Grid coordinates to pixels. -/
def gridToPixel (gx gy : Int) (grid : Grid) : Point where
  x := (((gx + grid.originColumns : Int) : ℚ) * grid.width : ℚ)
  y := (((gy + grid.originRows : Int) : ℚ) * grid.height : ℚ)

/-- Rightmost occupied pixel x over the panels that carry a module id; never less than the origin. -/
def rightmostEdge (occupants : List Occupant) (grid : Grid) : WithTop ℚ :=
  occupants.foldl
    (fun maxX o => if o.moduleId.isSome ∧ maxX < o.box.right then o.box.right else maxX)
    (gridToPixel 0 0 grid).x

/-- The box `other` is judged at: none when the plan removed its module, the planned box when an
earlier operation moved it, its own box otherwise. -/
def PlanLayout.boxOf (plan : PlanLayout) (other : Occupant) : Option Box :=
  match other.moduleId with
  | none => some other.box
  | some id =>
    if id ∈ plan.removedModules then none
    else some ((plan.plannedBoxes.lookup id).getD other.box)

/-- Whether `box` is clear of every occupant except the one at `selfIndex`. -/
def positionFree (occupants : List Occupant) (selfIndex : Option Nat) (box : Box)
    (plan : PlanLayout) : Bool :=
  occupants.zipIdx.all fun entry =>
    some entry.2 == selfIndex ||
      match plan.boxOf entry.1 with
      | none => true
      | some otherBox => !intersects box otherBox

end RackMcp.Layout
