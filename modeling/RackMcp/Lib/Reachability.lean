import RackMcp.Lib.WhileLoop
import Mathlib.Algebra.GroupWithZero.Nat
import Mathlib.Logic.Relation
import Mathlib.Data.List.Nodup
import Mathlib.Data.Finset.Dedup

/-!
# What leads to some nodes

`sources v` lists the nodes with an edge to `v`. The search takes a node off a stack, and if it is new, notes it and
puts its sources on the stack. It ends with the nodes that lead to one of the roots, each once.
-/

namespace Reachability

open WhileLoop

variable {α : Type*}

/-- There is a way along the edges, of any length. -/
abbrev Leads (sources : α → List α) : α → α → Prop := Relation.ReflTransGen fun u w => u ∈ sources w

variable [DecidableEq α]

/-- Adds to a set that keeps the order of insertion. -/
def setAdd (set : List α) (v : α) : List α := if v ∈ set then set else set ++ [v]

section SetAdd

variable {set l : List α} {v x : α}

@[simp] theorem mem_setAdd : x ∈ setAdd set v ↔ x ∈ set ∨ x = v := by
  unfold setAdd
  split
  · rename_i hv
    exact ⟨.inl, fun h => h.elim id (· ▸ hv)⟩
  · simp

@[simp] theorem mem_foldl_setAdd : x ∈ l.foldl setAdd set ↔ x ∈ set ∨ x ∈ l := by
  induction l generalizing set with
  | nil => simp
  | cons v l ih => rw [List.foldl_cons, ih, mem_setAdd, List.mem_cons, or_assoc]

theorem nodup_setAdd (h : set.Nodup) : (setAdd set v).Nodup := by
  unfold setAdd
  split
  · exact h
  · next hv =>
    rw [← List.concat_eq_append, List.nodup_concat]
    exact ⟨hv, h⟩

theorem nodup_foldl_setAdd (h : set.Nodup) : (l.foldl setAdd set).Nodup := by
  induction l generalizing set with
  | nil => exact h
  | cons v l ih => exact ih (nodup_setAdd h)

theorem prefix_setAdd : set <+: setAdd set v := by
  unfold setAdd
  split
  · exact List.prefix_rfl
  · exact List.prefix_append set [v]

theorem prefix_foldl_setAdd : set <+: l.foldl setAdd set := by
  induction l generalizing set with
  | nil => exact List.prefix_rfl
  | cons v l ih => exact prefix_setAdd.trans ih

end SetAdd

/-- The nodes found, and those still to look at, the next one first. -/
structure State (α : Type*) where
  reached : List α := []
  stack : List α

/-- One round of the loop. -/
def step (sources : α → List α) (s : State α) : Option (State α) :=
  match s.stack with
  | [] => none
  | id :: stack =>
    if id ∈ s.reached then some { s with stack := stack }
    else some { reached := setAdd s.reached id, stack := (sources id).reverse ++ stack }

/-- The search from the roots, the last of which is on top of the stack. -/
def reaching (sources : α → List α) (roots : List α) (fuel : ℕ) : Option (List α) :=
  (run (step sources) fuel { stack := roots.reverse }).map (·.reached)

variable {sources : α → List α} {roots : List α} {nodes : Finset α} {s s' : State α}

/-- The invariant of the search. -/
structure Inv (sources : α → List α) (roots : List α) (nodes : Finset α) (s : State α) : Prop where
  nodup : s.reached.Nodup
  mem_nodes : ∀ v ∈ s.stack, v ∈ nodes
  sound : ∀ v, v ∈ s.reached ∨ v ∈ s.stack → ∃ root ∈ roots, Leads sources v root
  roots_mem : ∀ v ∈ roots, v ∈ s.reached ∨ v ∈ s.stack
  closed : ∀ v ∈ s.reached, ∀ u ∈ sources v, u ∈ s.reached ∨ u ∈ s.stack

/-- How many nodes have not been found. -/
def unseen (nodes : Finset α) (s : State α) : ℕ := (nodes.filter (· ∉ s.reached)).card

/-- What one round of the loop does: it keeps the invariant, and finds a node or has less on the stack. -/
theorem step_inv (hclosed : ∀ v ∈ nodes, ∀ u ∈ sources v, u ∈ nodes) (h : Inv sources roots nodes s)
    (hstep : step sources s = some s') :
    Inv sources roots nodes s' ∧ toLex (unseen nodes s', s'.stack.length) < toLex (unseen nodes s, s.stack.length) := by
  obtain ⟨reached, stack⟩ := s
  rcases stack with _ | ⟨id, stack⟩
  · cases hstep
  have hid : id ∈ id :: stack := List.mem_cons_self
  have hrest : ∀ v ∈ stack, v ∈ id :: stack := fun v => List.mem_cons_of_mem id
  by_cases hold : id ∈ reached
  · have hs' : s' = ⟨reached, stack⟩ := (Option.some.inj ((if_pos hold).symm.trans hstep)).symm
    subst hs'
    have hmoved : ∀ v, v ∈ reached ∨ v ∈ id :: stack → v ∈ reached ∨ v ∈ stack := by
      rintro v (hv | hv)
      · exact .inl hv
      · rcases List.mem_cons.mp hv with rfl | hv
        · exact .inl hold
        · exact .inr hv
    exact
      ⟨{ nodup := h.nodup
         mem_nodes := fun v hv => h.mem_nodes v (hrest v hv)
         sound := fun v hv => h.sound v (hv.imp_right (hrest v))
         roots_mem := fun v hv => hmoved v (h.roots_mem v hv)
         closed := fun v hv u hu => hmoved u (h.closed v hv u hu) },
        lex_lt (.inr ⟨rfl, Nat.lt_succ_self _⟩)⟩
  · have hs' : s' = ⟨setAdd reached id, (sources id).reverse ++ stack⟩ :=
      (Option.some.inj ((if_neg hold).symm.trans hstep)).symm
    subst hs'
    obtain ⟨root, hroot, hleads⟩ := h.sound id (.inr hid)
    have hmem : ∀ v, v ∈ (sources id).reverse ++ stack ↔ v ∈ sources id ∨ v ∈ stack := fun v => by
      rw [List.mem_append, List.mem_reverse]
    have hmoved : ∀ v, v ∈ reached ∨ v ∈ id :: stack → v ∈ setAdd reached id ∨ v ∈ (sources id).reverse ++ stack := by
      intro v hv
      rw [mem_setAdd, hmem]
      rcases hv with hv | hv
      · exact .inl (.inl hv)
      · rcases List.mem_cons.mp hv with rfl | hv
        · exact .inl (.inr rfl)
        · exact .inr (.inr hv)
    refine ⟨{ nodup := nodup_setAdd h.nodup, mem_nodes := ?_, sound := ?_, roots_mem := ?_, closed := ?_ }, ?_⟩
    · intro v hv
      rcases (hmem v).mp hv with hv | hv
      · exact hclosed id (h.mem_nodes id hid) v hv
      · exact h.mem_nodes v (hrest v hv)
    · intro v hv
      rw [mem_setAdd, hmem] at hv
      rcases hv with (hv | rfl) | hv | hv
      · exact h.sound v (.inl hv)
      · exact ⟨root, hroot, hleads⟩
      · exact ⟨root, hroot, .head hv hleads⟩
      · exact h.sound v (.inr (hrest v hv))
    · exact fun v hv => hmoved v (h.roots_mem v hv)
    · intro v hv u hu
      rcases mem_setAdd.mp hv with hv | rfl
      · exact hmoved u (h.closed v hv u hu)
      · exact .inr ((hmem u).mpr (.inl hu))
    · refine lex_lt (.inl (unseen_lt (h.mem_nodes id hid) hold ?_ fun v hv hmem => ?_))
      · exact fun hnot => hnot (mem_setAdd.mpr (.inr rfl))
      · exact hv (mem_setAdd.mpr (.inl hmem))

/-- The search ends with the nodes that lead to a root. -/
theorem reaching_returns (hroots : ∀ v ∈ roots, v ∈ nodes) (hclosed : ∀ v ∈ nodes, ∀ u ∈ sources v, u ∈ nodes) :
    ∃ reached, Returns (reaching sources roots) reached ∧ reached.Nodup ∧
      ∀ v, v ∈ reached ↔ ∃ root ∈ roots, Leads sources v root := by
  have hinit : Inv sources roots nodes { stack := roots.reverse } :=
    { nodup := List.nodup_nil
      mem_nodes := fun v hv => hroots v (List.mem_reverse.mp hv)
      sound := fun v hv => ⟨v, List.mem_reverse.mp (hv.resolve_left List.not_mem_nil), .refl⟩
      roots_mem := fun v hv => .inr (List.mem_reverse.mpr hv)
      closed := fun v hv => absurd hv List.not_mem_nil }
  obtain ⟨t, ht, hinv, hend⟩ := run_rule (step sources)
    (fun s => toLex (unseen nodes s, s.stack.length)) (Inv sources roots nodes) (fun _ _ => step_inv hclosed) hinit
  have hstack : t.stack = [] := by
    unfold step at hend
    split at hend
    · next hnil => exact hnil
    · split at hend <;> cases hend
  have hout : ∀ v, ¬ v ∈ t.stack := fun v hv => by
    rw [hstack] at hv
    exact absurd hv List.not_mem_nil
  refine ⟨t.reached, ht.map, hinv.nodup, fun v => ⟨fun hv => hinv.sound v (.inl hv), ?_⟩⟩
  intro ⟨root, hroot, hleads⟩
  induction hleads using Relation.ReflTransGen.head_induction_on with
  | refl => exact (hinv.roots_mem root hroot).resolve_right (hout root)
  | head hedge _ ih => exact (hinv.closed _ ih _ hedge).resolve_right (hout _)

end Reachability
