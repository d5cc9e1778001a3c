import Mathlib.Data.Set.Basic
import Mathlib.Order.Defs.LinearOrder

/-!
# Expiring leases under fresh ids

One lease at a time: an owner holds it under an id until it expires, is extended, ended, or granted
anew. A grant is made only when no unexpired tenure stands and under an id no earlier tenure had. The
point of such a discipline is `Step.holds_before`: who holds the lease under an old id holds it under
that id ever since, so two sightings of one id enclose an unbroken tenure.
-/

namespace Leasing

variable {ω ι τ : Type*} [LinearOrder τ]

/-- Who holds the lease, under which id and until when. -/
structure Tenure (ω ι τ : Type*) where
  owner : ω
  id : ι
  expires : τ

/-- At `now` the owner `o` holds the lease under the id `i`. -/
def Holds (lease : Option (Tenure ω ι τ)) (o : ω) (i : ι) (now : τ) : Prop :=
  ∃ x, lease = some x ∧ x.owner = o ∧ x.id = i ∧ now < x.expires

/-- What may happen to the lease at the instant `now`, when the ids of `used` were granted before. -/
inductive Step (used : Set ι) (now : τ) : Option (Tenure ω ι τ) → Option (Tenure ω ι τ) → Prop where
  | keep (lease) : Step used now lease lease
  | ended (lease) : Step used now lease none
  | extended (x : Tenure ω ι τ) (expires : τ) (valid : now < x.expires) :
      Step used now (some x) (some { x with expires })
  | granted (lease) (x : Tenure ω ι τ) (lapsed : ∀ o i, ¬ Holds lease o i now) (fresh : x.id ∉ used) :
      Step used now lease (some x)

/-- Holding is a matter of the instant: who holds the lease held it, as it stands, earlier too. -/
theorem Holds.earlier {lease : Option (Tenure ω ι τ)} {o : ω} {i : ι} {now t : τ}
    (h : Holds lease o i now) (ht : t ≤ now) : Holds lease o i t := by
  obtain ⟨x, hx, ho, hi, hnow⟩ := h
  exact ⟨x, hx, ho, hi, lt_of_le_of_lt ht hnow⟩

/-- At one instant there is one holder, under one id. -/
theorem Holds.unique {lease : Option (Tenure ω ι τ)} {o o' : ω} {i i' : ι} {now t : τ}
    (h : Holds lease o i now) (h' : Holds lease o' i' t) : o = o' ∧ i = i' := by
  obtain ⟨x, hx, rfl, rfl, -⟩ := h
  obtain ⟨y, hy, rfl, rfl, -⟩ := h'
  cases hx.symm.trans hy
  exact ⟨rfl, rfl⟩

/-- Who holds the lease after a step under an id used before it held it before the step. -/
theorem Step.holds_before {used : Set ι} {now t : τ} {l l' : Option (Tenure ω ι τ)} {o : ω} {i : ι}
    (h : Step used now l l') (hi : i ∈ used) (ht : now ≤ t) (hold : Holds l' o i t) :
    Holds l o i now := by
  cases h with
  | keep => exact hold.earlier ht
  | ended =>
    obtain ⟨x, hx, -⟩ := hold
    cases hx
  | extended x expires valid =>
    obtain ⟨y, hy, rfl, rfl, -⟩ := hold
    cases hy
    exact ⟨x, rfl, rfl, rfl, valid⟩
  | granted _ x lapsed fresh =>
    obtain ⟨y, hy, -, rfl, -⟩ := hold
    cases hy
    exact absurd hi fresh

end Leasing
