import Mathlib.Data.Prod.Lex
import Mathlib.Data.Finset.Card
import Mathlib.Order.WellFounded
import Mathlib.Tactic.Common

/-!
# Loops that need not end

A `while` loop is a step function whose `none` says that the loop is left. `run` takes at most the steps its fuel
pays for and is `none` when that did not suffice, so that a body that goes round for ever never gives a value.
`Returns f b` says that the computation ends: from some fuel on it gives `b`. The rule for a loop is `run_rule`: an
invariant, and a measure in a well-founded order that every step lowers.
-/

namespace WhileLoop

variable {σ β γ : Type*}

/-- The loop, for at most `fuel` tests of its condition. -/
def run (step : σ → Option σ) : ℕ → σ → Option σ
  | 0, _ => none
  | fuel + 1, s =>
    match step s with
    | none => some s
    | some s' => run step fuel s'

/-- The computation ends with `b`. -/
def Returns (f : ℕ → Option β) (b : β) : Prop := ∃ n, ∀ fuel, n ≤ fuel → f fuel = some b

namespace Returns

variable {f : ℕ → Option β} {b : β}

theorem pure (b : β) : Returns (fun _ => some b) b := ⟨0, fun _ _ => rfl⟩

/-- A computation has one value. -/
theorem unique {b' : β} (h : Returns f b) (h' : Returns f b') : b = b' := by
  obtain ⟨n, hn⟩ := h
  obtain ⟨n', hn'⟩ := h'
  have hmax := hn (max n n') (le_max_left n n')
  rw [hn' (max n n') (le_max_right n n')] at hmax
  exact (Option.some.inj hmax).symm

/-- One computation after another. -/
theorem bind {g : ℕ → β → Option γ} {c : γ} (h : Returns f b) (hg : Returns (g · b) c) :
    Returns (fun fuel => (f fuel).bind (g fuel)) c := by
  obtain ⟨n, hn⟩ := h
  obtain ⟨n', hn'⟩ := hg
  refine ⟨max n n', fun fuel hfuel => ?_⟩
  show (f fuel).bind (g fuel) = some c
  rw [hn fuel (le_trans (le_max_left n n') hfuel)]
  exact hn' fuel (le_trans (le_max_right n n') hfuel)

theorem map {g : β → γ} (h : Returns f b) : Returns (fun fuel => (f fuel).map g) (g b) := by
  obtain ⟨n, hn⟩ := h
  exact ⟨n, fun fuel hfuel => congrArg (Option.map g) (hn fuel hfuel)⟩

end Returns

section Rule

variable {step : σ → Option σ} {s t : σ}

theorem returns_of_none (h : step s = none) : Returns (run step · s) s := by
  refine ⟨1, fun fuel hfuel => ?_⟩
  obtain ⟨fuel, rfl⟩ := Nat.exists_eq_add_of_le' hfuel
  show (match step s with | none => some s | some s' => run step fuel s') = some s
  rw [h]

theorem returns_of_some {s' : σ} (h : step s = some s') (ht : Returns (run step · s') t) :
    Returns (run step · s) t := by
  obtain ⟨n, hn⟩ := ht
  refine ⟨n + 1, fun fuel hfuel => ?_⟩
  obtain ⟨fuel, rfl⟩ : ∃ k, fuel = k + 1 := ⟨fuel - 1, by omega⟩
  show (match step s with | none => some s | some s' => run step fuel s') = some t
  rw [h]
  exact hn fuel (by omega)

/-- More fuel gives the same. -/
theorem run_mono {n m : ℕ} (h : run step n s = some t) (hle : n ≤ m) : run step m s = some t := by
  induction n generalizing s m with
  | zero => cases h
  | succ n ih =>
    obtain ⟨m, rfl⟩ : ∃ k, m = k + 1 := ⟨m - 1, by omega⟩
    rw [run] at h ⊢
    split at h
    · exact h
    · exact ih h (by omega)

/-- A loop whose body keeps an invariant and lowers a measure ends in a state of the invariant. -/
theorem run_rule (step : σ → Option σ) {μ : Type*} [Preorder μ] [WellFoundedLT μ] (measure : σ → μ) (Inv : σ → Prop)
    {s : σ} (hstep : ∀ s s', Inv s → step s = some s' → Inv s' ∧ measure s' < measure s) (hs : Inv s) :
    ∃ t, Returns (run step · s) t ∧ Inv t ∧ step t = none := by
  induction hm : measure s using WellFoundedLT.induction generalizing s with
  | ind m ih =>
    rcases hstep_s : step s with _ | s'
    · exact ⟨s, returns_of_none hstep_s, hs, hstep_s⟩
    · obtain ⟨hs', hlt⟩ := hstep s s' hs hstep_s
      obtain ⟨t, ht, hinv, hend⟩ := ih (measure s') (hm ▸ hlt) hs' rfl
      exact ⟨t, returns_of_some hstep_s ht, hinv, hend⟩

end Rule

/-- A fold whose body is a computation that need not end. -/
theorem returns_foldlM {α : Type*} {f : ℕ → σ → α → Option σ} (Inv : List α → σ → Prop) {s : σ} {l : List α}
    (hf : ∀ (before : List α) (s : σ) (a : α), a ∈ l → Inv before s → ∃ t, Returns (f · s a) t ∧ Inv (before ++ [a]) t)
    (hs : Inv [] s) : ∃ t, Returns (fun fuel => l.foldlM (f fuel) s) t ∧ Inv l t := by
  suffices h : ∀ (after before : List α) (s : σ), (∀ a ∈ after, a ∈ l) → Inv before s →
      ∃ t, Returns (fun fuel => after.foldlM (f fuel) s) t ∧ Inv (before ++ after) t from h l [] s (fun _ ha => ha) hs
  intro after
  induction after with
  | nil => exact fun before s _ hs => ⟨s, .pure s, by rwa [List.append_nil]⟩
  | cons a after ih =>
    intro before s hmem hs
    obtain ⟨s', hs', hinv⟩ := hf before s a (hmem a List.mem_cons_self) hs
    obtain ⟨t, ht, hinv⟩ := ih (before ++ [a]) s' (fun b hb => hmem b (List.mem_cons_of_mem _ hb)) hinv
    refine ⟨t, hs'.bind ht, ?_⟩
    rwa [List.append_cons]

/-- A computation for every element of a list. -/
theorem returns_mapM {α : Type*} {f : ℕ → α → Option β} {P : α → β → Prop} {l : List α}
    (hf : ∀ a ∈ l, ∃ b, Returns (f · a) b ∧ P a b) :
    ∃ bs, Returns (fun fuel => l.mapM (f fuel)) bs ∧ List.Forall₂ P l bs := by
  induction l with
  | nil => exact ⟨[], .pure [], .nil⟩
  | cons a l ih =>
    obtain ⟨b, hb, hpb⟩ := hf a List.mem_cons_self
    obtain ⟨bs, hbs, hall⟩ := ih fun a' ha' => hf a' (List.mem_cons_of_mem a ha')
    refine ⟨b :: bs, ?_, .cons hpb hall⟩
    obtain ⟨n, hn⟩ := hb.bind (g := fun fuel b => (l.mapM (f fuel)).bind fun bs => some (b :: bs))
      (hbs.bind (g := fun _ bs => some (b :: bs)) (.pure (b :: bs)))
    refine ⟨n, fun fuel hfuel => ?_⟩
    show (a :: l).mapM (f fuel) = some (b :: bs)
    rw [List.mapM_cons]
    exact hn fuel hfuel

/-- A step of a search either finds a new node or works off what is left to do. -/
theorem lex_lt {unseen unseen' todo todo' : ℕ} (h : unseen' < unseen ∨ unseen' = unseen ∧ todo' < todo) :
    toLex (unseen', todo') < toLex (unseen, todo) := by
  rw [Prod.Lex.toLex_lt_toLex]
  exact h

/-- Finding a node leaves fewer unseen. -/
theorem unseen_lt {α : Type*} [DecidableEq α] {p q : α → Prop} [DecidablePred p] [DecidablePred q] {nodes : Finset α}
    {a : α} (ha : a ∈ nodes) (hp : p a) (hq : ¬ q a) (himp : ∀ b, q b → p b) :
    (nodes.filter q).card < (nodes.filter p).card := by
  refine Finset.card_lt_card (Finset.ssubset_iff_of_subset ?_ |>.mpr ⟨a, ?_, ?_⟩)
  · exact Finset.monotone_filter_right _ fun b _ => himp b
  · exact Finset.mem_filter.mpr ⟨ha, hp⟩
  · exact fun h => hq (Finset.mem_filter.mp h).2

end WhileLoop
