import Mathlib.Order.Lattice
import Mathlib.Data.List.TakeWhile
import Mathlib.Data.List.Count

/-!
# A queue of recent instants

A queue keeps the recent part of a log of instants that is only ever appended to. `prune` drops from the front
what is not later than a cutoff, and `Tracks` says that the queue is what the log holds after a floor. Over a
sorted log, pruning counts what is later than the cutoff.
-/

namespace SlidingWindow

variable {T : Type*} [LinearOrder T] {cutoff cutoff' floor at_ : T} {queue log : List T}

/-- Drops the instants at the front that are not later than the cutoff. -/
def prune (cutoff : T) (queue : List T) : List T := queue.dropWhile (· ≤ cutoff)

theorem prune_cons_of_le (h : at_ ≤ cutoff) : prune cutoff (at_ :: queue) = prune cutoff queue :=
  List.dropWhile_cons_of_pos (by simpa using h)

theorem prune_cons_of_lt (h : cutoff < at_) : prune cutoff (at_ :: queue) = at_ :: queue :=
  List.dropWhile_cons_of_neg (by simpa using h)

/-- An earlier pruning makes no difference. -/
theorem prune_prune (h : cutoff ≤ cutoff') : prune cutoff' (prune cutoff queue) = prune cutoff' queue := by
  induction queue with
  | nil => rfl
  | cons x queue ih =>
    by_cases hx : x ≤ cutoff
    · rw [prune_cons_of_le hx, ih, prune_cons_of_le (hx.trans h)]
    · rw [prune_cons_of_lt (not_le.mp hx)]

theorem prune_suffix : prune cutoff queue <:+ queue := List.dropWhile_suffix _

/-- A later cutoff keeps no more. -/
theorem length_prune_anti (h : cutoff ≤ cutoff') : (prune cutoff' queue).length ≤ (prune cutoff queue).length := by
  rw [← prune_prune h]
  exact prune_suffix.length_le

/-- What is left of a sorted queue is later than the cutoff. -/
theorem lt_of_mem_prune (hsorted : queue.Pairwise (· ≤ ·)) : ∀ x ∈ prune cutoff queue, cutoff < x := by
  induction queue with
  | nil => exact fun x hx => absurd hx List.not_mem_nil
  | cons y queue ih =>
    rw [List.pairwise_cons] at hsorted
    by_cases hy : y ≤ cutoff
    · rw [prune_cons_of_le hy]
      exact ih hsorted.2
    · rw [prune_cons_of_lt (not_le.mp hy)]
      intro x hx
      rcases List.mem_cons.mp hx with rfl | hx
      · exact not_le.mp hy
      · exact (not_le.mp hy).trans_le (hsorted.1 x hx)

/-- What pruning drops is not later than the cutoff. -/
theorem exists_pruned (cutoff : T) (queue : List T) :
    ∃ gone, queue = gone ++ prune cutoff queue ∧ ∀ x ∈ gone, x ≤ cutoff := by
  refine ⟨queue.takeWhile (· ≤ cutoff), List.takeWhile_append_dropWhile.symm, fun x hx => ?_⟩
  simpa using List.mem_takeWhile_imp hx

/-- The queue is what the sorted log holds after the floor. -/
structure Tracks (floor : T) (queue log : List T) : Prop where
  sorted : log.Pairwise (· ≤ ·)
  suffix : ∃ gone, log = gone ++ queue ∧ ∀ x ∈ gone, x ≤ floor

namespace Tracks

theorem nil : Tracks floor ([] : List T) [] := ⟨List.Pairwise.nil, [], rfl, fun _ h => absurd h List.not_mem_nil⟩

theorem mono {floor' : T} (h : Tracks floor queue log) (hfloor : floor ≤ floor') : Tracks floor' queue log := by
  obtain ⟨gone, hlog, hgone⟩ := h.suffix
  exact ⟨h.sorted, gone, hlog, fun x hx => (hgone x hx).trans hfloor⟩

theorem queue_sorted (h : Tracks floor queue log) : queue.Pairwise (· ≤ ·) := by
  obtain ⟨gone, hlog, -⟩ := h.suffix
  have hsorted := h.sorted
  rw [hlog] at hsorted
  exact (List.pairwise_append.mp hsorted).2.1

/-- The queue tracks the log after every cutoff from the floor on. -/
theorem prune (h : Tracks floor queue log) (hcutoff : floor ≤ cutoff) :
    Tracks cutoff (prune cutoff queue) log := by
  obtain ⟨gone, hlog, hgone⟩ := h.suffix
  obtain ⟨dropped, hqueue, hdropped⟩ := exists_pruned cutoff queue
  refine ⟨h.sorted, gone ++ dropped, ?_, fun x hx => ?_⟩
  · rw [List.append_assoc, ← hqueue, hlog]
  · rcases List.mem_append.mp hx with hx | hx
    · exact (hgone x hx).trans hcutoff
    · exact hdropped x hx

/-- New instants go to both. -/
theorem append (h : Tracks floor queue log) (n : ℕ) (hat : ∀ x ∈ log, x ≤ at_) :
    Tracks floor (queue ++ List.replicate n at_) (log ++ List.replicate n at_) := by
  obtain ⟨gone, hlog, hgone⟩ := h.suffix
  refine ⟨List.pairwise_append.mpr ⟨h.sorted, List.pairwise_replicate.mpr (.inr le_rfl), ?_⟩, gone, ?_, hgone⟩
  · intro x hx y hy
    rw [List.eq_of_mem_replicate hy]
    exact hat x hx
  · rw [hlog, List.append_assoc]

/-- What is later than the floor is in the queue. -/
theorem countP_le (h : Tracks floor queue log) {p : T → Bool} (hp : ∀ x, p x = true → floor < x) :
    log.countP p ≤ queue.length := by
  obtain ⟨gone, hlog, hgone⟩ := h.suffix
  have hzero : gone.countP p = 0 :=
    List.countP_eq_zero.mpr fun x hx hpx => absurd (hp x hpx) (not_lt.mpr (hgone x hx))
  rw [hlog, List.countP_append, hzero, Nat.zero_add]
  exact List.countP_le_length

/-- A pruned queue is as long as the log has instants after the cutoff. -/
theorem length_prune (h : Tracks floor queue log) (hcutoff : floor ≤ cutoff) :
    (SlidingWindow.prune cutoff queue).length = log.countP (cutoff < ·) := by
  obtain ⟨gone, hlog, hgone⟩ := (h.prune hcutoff).suffix
  have hzero : gone.countP (cutoff < ·) = 0 :=
    List.countP_eq_zero.mpr fun x hx hlt => absurd (of_decide_eq_true hlt) (not_lt.mpr (hgone x hx))
  have hall : (SlidingWindow.prune cutoff queue).countP (cutoff < ·) =
      (SlidingWindow.prune cutoff queue).length :=
    List.countP_eq_length.mpr fun x hx => decide_eq_true (lt_of_mem_prune h.queue_sorted x hx)
  rw [hlog, List.countP_append, hzero, hall, Nat.zero_add]

end Tracks

end SlidingWindow
