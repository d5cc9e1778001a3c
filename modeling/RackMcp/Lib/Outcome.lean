import Mathlib.Data.List.Basic
import Mathlib.Data.List.Infix

/-!
# Steps that may throw

A stateful operation either finishes in a new state or throws, and a throw keeps the state reached so
far (nothing is rolled back by throwing). `runFrom` is the loop over a list of inputs that stops at
the first throw and reports its index; `Runs` is the relation of the runs that finish. Everything a
development proves about a loop goes through `runFrom_done_iff`, `runFrom_thrown_iff`,
`Runs.invariant` and `Runs.simulate`.
-/

namespace Outcomes

variable {ε σ τ α : Type*}

/-- The result of a step: finished in `s`, or thrown with `e` when the state was `s`. -/
inductive Outcome (ε σ : Type*) where
  | done (s : σ)
  | thrown (e : ε) (s : σ)
deriving DecidableEq

namespace Outcome

/-- The state in which the step stopped, thrown or not. -/
def state : Outcome ε σ → σ
  | .done s => s
  | .thrown _ s => s

/-- The step finished. -/
def isDone : Outcome ε σ → Bool
  | .done _ => true
  | .thrown _ _ => false

/-- The error of a step that threw. -/
def error? : Outcome ε σ → Option ε
  | .done _ => none
  | .thrown e _ => some e

/-- The same result with its error rewritten. -/
def mapError {ε' : Type*} (f : ε → ε') : Outcome ε σ → Outcome ε' σ
  | .done s => .done s
  | .thrown e s => .thrown (f e) s

/-- Sequential composition: `f` runs on the finished state. -/
def bind (x : Outcome ε σ) (f : σ → Outcome ε σ) : Outcome ε σ :=
  match x with
  | .done s => f s
  | .thrown e s => .thrown e s

@[simp] theorem state_done (s : σ) : (Outcome.done s : Outcome ε σ).state = s := rfl
@[simp] theorem state_thrown (e : ε) (s : σ) : (Outcome.thrown e s).state = s := rfl
@[simp] theorem bind_done (s : σ) (f : σ → Outcome ε σ) : (Outcome.done s).bind f = f s := rfl
@[simp] theorem bind_thrown (e : ε) (s : σ) (f : σ → Outcome ε σ) :
    (Outcome.thrown e s).bind f = .thrown e s := rfl

theorem eq_done_of_isDone {x : Outcome ε σ} (h : x.isDone) : x = .done x.state := by
  cases x with
  | done s => rfl
  | thrown e s => cases h

theorem eq_thrown_of_error {x : Outcome ε σ} {e : ε} (h : x.error? = some e) : x = .thrown e x.state := by
  cases x with
  | done s => cases h
  | thrown e' s =>
    cases h
    rfl

theorem isDone_iff {x : Outcome ε σ} : x.isDone ↔ ∃ s, x = .done s := by
  cases x <;> simp [isDone]

@[simp] theorem isDone_done (s : σ) : (Outcome.done s : Outcome ε σ).isDone = true := rfl
@[simp] theorem isDone_thrown (e : ε) (s : σ) : (Outcome.thrown e s).isDone = false := rfl

theorem isDone_bind {x : Outcome ε σ} {f : σ → Outcome ε σ} :
    (x.bind f).isDone ↔ ∃ s, x = .done s ∧ (f s).isDone := by
  cases x <;> simp

@[simp] theorem mapError_eq_done {ε' : Type*} {x : Outcome ε σ} {f : ε → ε'} {s : σ} :
    x.mapError f = .done s ↔ x = .done s := by
  cases x <;> simp [mapError]

theorem mapError_eq_thrown {ε' : Type*} {x : Outcome ε σ} {f : ε → ε'} {e : ε'} {s : σ} :
    x.mapError f = .thrown e s ↔ ∃ e', x = .thrown e' s ∧ f e' = e := by
  cases x <;> simp [mapError, and_comm]

theorem bind_eq_done {x : Outcome ε σ} {f : σ → Outcome ε σ} {s' : σ} :
    x.bind f = .done s' ↔ ∃ s, x = .done s ∧ f s = .done s' := by
  cases x <;> simp

theorem state_bind {x : Outcome ε σ} {f : σ → Outcome ε σ} :
    (x.bind f).state = x.state ∨ ∃ s, x = .done s ∧ (x.bind f).state = (f s).state := by
  cases x <;> simp

end Outcome

/-! ### Runs -/

/-- Every step of the list finishes, leading from `s` to `s'`. -/
inductive Runs (step : α → σ → Outcome ε σ) : List α → σ → σ → Prop where
  | nil (s : σ) : Runs step [] s s
  | cons {a : α} {as : List α} {s t u : σ} (head : step a s = .done t) (tail : Runs step as t u) :
      Runs step (a :: as) s u

/-- The loop: steps `as` in order from index `i`, stopping at the first throw. -/
def runFrom (step : α → σ → Outcome ε σ) : Nat → List α → σ → Outcome (Nat × ε) σ
  | _, [], s => .done s
  | i, a :: as, s =>
    match step a s with
    | .done s' => runFrom step (i + 1) as s'
    | .thrown e s' => .thrown (i, e) s'

/-- The loop without the index: the error is the one the failing step threw. -/
def forEach (step : α → σ → Outcome ε σ) (as : List α) (s : σ) : Outcome ε σ :=
  (runFrom step 0 as s).mapError Prod.snd

variable {step : α → σ → Outcome ε σ} {a : α} {as bs : List α} {s s' t u : σ}

namespace Runs

@[simp] theorem nil_iff : Runs step [] s t ↔ t = s := by
  constructor
  · intro h
    cases h
    rfl
  · rintro rfl
    exact .nil _

theorem cons_iff : Runs step (a :: as) s u ↔ ∃ t, step a s = .done t ∧ Runs step as t u := by
  constructor
  · intro h
    cases h with
    | cons head tail => exact ⟨_, head, tail⟩
  · rintro ⟨t, head, tail⟩
    exact .cons head tail

theorem append_iff : Runs step (as ++ bs) s u ↔ ∃ t, Runs step as s t ∧ Runs step bs t u := by
  induction as generalizing s with
  | nil => simp
  | cons a as ih =>
    simp only [List.cons_append, cons_iff, ih]
    constructor
    · rintro ⟨t, head, v, mid, last⟩
      exact ⟨v, ⟨t, head, mid⟩, last⟩
    · rintro ⟨v, ⟨t, head, mid⟩, last⟩
      exact ⟨t, head, v, mid, last⟩

theorem snoc_iff : Runs step (as ++ [a]) s u ↔ ∃ t, Runs step as s t ∧ step a t = .done u := by
  simp [append_iff, cons_iff]

/-- The state a run ends in is determined by where it starts. -/
theorem unique (h : Runs step as s t) (h' : Runs step as s u) : t = u := by
  induction h with
  | nil s => exact (nil_iff.mp h').symm
  | cons head _ ih =>
    obtain ⟨_, head', tail'⟩ := cons_iff.mp h'
    rw [head, Outcome.done.injEq] at head'
    exact ih (head' ▸ tail')

/-- The run rule: what every finishing step of the list keeps, the run keeps. -/
theorem invariant {I : σ → Prop} (h : Runs step as s t)
    (keep : ∀ a ∈ as, ∀ s t, I s → step a s = .done t → I t) (hs : I s) : I t := by
  induction h with
  | nil => exact hs
  | @cons a as s t u head tail ih =>
    exact ih (fun b hb => keep b (List.mem_cons_of_mem _ hb))
      (keep a List.mem_cons_self _ _ hs head)

/-- The run rule for a reflexive transitive relation between the first and the last state. -/
theorem relation {R : σ → σ → Prop} (h : Runs step as s t) (refl : ∀ s, R s s)
    (trans : ∀ s t u, R s t → R t u → R s u)
    (keep : ∀ a ∈ as, ∀ s t, step a s = .done t → R s t) : R s t := by
  refine h.invariant (I := R s) (fun a ha s' t' hs hstep => ?_) (refl s)
  exact trans _ _ _ hs (keep a ha _ _ hstep)

/-- A property that fails at the start of a run and holds at its end starts to hold at some step. -/
theorem exists_change {P : σ → Prop} (h : Runs step as s t) (hs : ¬ P s) (ht : P t) :
    ∃ pre a post u v, as = pre ++ a :: post ∧ Runs step pre s u ∧ step a u = .done v ∧
      Runs step post v t ∧ ¬ P u ∧ P v := by
  induction h with
  | nil => exact absurd ht hs
  | @cons a as s v t head tail ih =>
    by_cases hv : P v
    · exact ⟨[], a, as, s, v, rfl, .nil s, head, tail, hs, hv⟩
    · obtain ⟨pre, b, post, u, v', rfl, hpre, hstep, hpost, hu, hv'⟩ := ih hv ht
      exact ⟨a :: pre, b, post, u, v', rfl, .cons head hpre, hstep, hpost, hu, hv'⟩

/-- The simulation rule: two loops over one list, with a relation every pair of finishing steps
keeps. -/
theorem simulate {ε' : Type*} {stepB : α → τ → Outcome ε' τ}
    {R : σ → τ → Prop} {x y : τ} (h : Runs step as s t) (h' : Runs stepB as x y)
    (keep : ∀ a ∈ as, ∀ s x t y, R s x → step a s = .done t → stepB a x = .done y → R t y)
    (hR : R s x) : R t y := by
  induction h generalizing x with
  | nil =>
    rw [nil_iff] at h'
    exact h' ▸ hR
  | @cons a as s t u head tail ih =>
    obtain ⟨x', head', tail'⟩ := cons_iff.mp h'
    exact ih tail' (fun b hb => keep b (List.mem_cons_of_mem _ hb))
      (keep a List.mem_cons_self _ _ _ _ hR head head')

end Runs

/-! ### The loop and the relation -/

theorem runFrom_done_iff {i : Nat} : runFrom step i as s = .done t ↔ Runs step as s t := by
  induction as generalizing i s with
  | nil => simp [runFrom, eq_comm]
  | cons a as ih =>
    rw [runFrom, Runs.cons_iff]
    cases step a s with
    | done s' => simp [ih]
    | thrown e s' => simp

/-- A loop that throws finished the inputs before the failing one and threw there. -/
theorem runFrom_thrown_iff {i j : Nat} {e : ε} :
    runFrom step i as s = .thrown (j, e) t ↔
      ∃ pre a post u, as = pre ++ a :: post ∧ j = i + pre.length ∧ Runs step pre s u ∧
        step a u = .thrown e t := by
  induction as generalizing i s with
  | nil => simp [runFrom]
  | cons a as ih =>
    rw [runFrom]
    constructor
    · intro h
      cases hstep : step a s with
      | done s' =>
        rw [hstep] at h
        obtain ⟨pre, b, post, u, rfl, rfl, hruns, hthrow⟩ := ih.mp h
        exact ⟨a :: pre, b, post, u, rfl, by simp [Nat.add_comm, Nat.add_left_comm],
          .cons hstep hruns, hthrow⟩
      | thrown e' s' =>
        simp only [hstep, Outcome.thrown.injEq, Prod.mk.injEq] at h
        obtain ⟨⟨rfl, rfl⟩, rfl⟩ := h
        exact ⟨[], a, as, s, rfl, rfl, .nil s, hstep⟩
    · rintro ⟨pre, b, post, u, has, rfl, hruns, hthrow⟩
      cases pre with
      | nil =>
        simp only [List.nil_append, List.cons.injEq] at has
        obtain ⟨rfl, rfl⟩ := has
        rw [Runs.nil_iff] at hruns
        subst hruns
        simp [hthrow]
      | cons c pre =>
        simp only [List.cons_append, List.cons.injEq] at has
        obtain ⟨rfl, rfl⟩ := has
        obtain ⟨s', head, tail⟩ := Runs.cons_iff.mp hruns
        rw [head]
        exact ih.mpr ⟨pre, b, post, u, rfl, by simp [Nat.add_comm, Nat.add_left_comm], tail, hthrow⟩

theorem forEach_done_iff : forEach step as s = .done t ↔ Runs step as s t := by
  rw [forEach, Outcome.mapError_eq_done, runFrom_done_iff]

/-- What every step keeps, thrown or not, the loop keeps. -/
theorem forEach_state {I : σ → Prop} (keep : ∀ a ∈ as, ∀ s, I s → I (step a s).state) (hs : I s) :
    I (forEach step as s).state := by
  have hrun : ∀ i, I (runFrom step i as s).state := by
    induction as generalizing s with
    | nil => exact fun _ => hs
    | cons a as ih =>
      intro i
      have hhead := keep a List.mem_cons_self s hs
      rw [runFrom]
      cases hstep : step a s with
      | done s' =>
        rw [hstep] at hhead
        exact ih (fun b hb => keep b (List.mem_cons_of_mem _ hb)) hhead (i + 1)
      | thrown e s' =>
        rw [hstep] at hhead
        exact hhead
  rw [forEach]
  have := hrun 0
  cases h : runFrom step 0 as s <;> simpa [Outcome.mapError, h] using this

/-- A loop finishes exactly when no input throws in the state the inputs before it lead to. -/
theorem runs_iff_no_throw :
    (∃ t, Runs step as s t) ↔
      ∀ pre a post u, as = pre ++ a :: post → Runs step pre s u → ∃ v, step a u = .done v := by
  constructor
  · rintro ⟨t, h⟩ pre a post u rfl hpre
    obtain ⟨u', hpre', hrest⟩ := Runs.append_iff.mp h
    obtain ⟨v, head, _⟩ := Runs.cons_iff.mp hrest
    exact ⟨v, hpre.unique hpre' ▸ head⟩
  · intro h
    cases hrun : runFrom step 0 as s with
    | done t => exact ⟨t, runFrom_done_iff.mp hrun⟩
    | thrown e t =>
      obtain ⟨pre, a, post, u, has, _, hpre, hthrow⟩ := runFrom_thrown_iff.mp hrun
      obtain ⟨v, hdone⟩ := h pre a post u has hpre
      rw [hdone] at hthrow
      cases hthrow

end Outcomes
