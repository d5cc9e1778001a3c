import Mathlib.Data.List.Basic

/-!
# Cooperative tasks

Tasks that share a state and run one at a time. Between two points at which a task waits, for a condition on
the state or for the answer to a call it made, its steps are atomic. `settle` runs a task to its next such
point and `resume` runs one that can go on.

`Safe` is the logic of one task among others: an invariant of the state, what the state can only grow by, what
the others leave untouched, and what has to hold when a call is made (`Discipline`). It is proved of a task by
the rules for `bind` and `attempt`, and `PoolSafe` carries it through every interleaving.
-/

namespace Cooperative

/-- A task: it has returned or failed, it takes an atomic step on the state, which is told the number of the task, it
waits for a condition, or it makes a call and waits for the answer. -/
inductive Task (σ ρ β ε : Type) (α : Type) : Type where
  | done (a : α)
  | fail (e : ε)
  | step (act : ℕ → σ → σ) (next : ℕ → σ → Task σ ρ β ε α)
  | wait (ready : σ → Bool) (next : Task σ ρ β ε α)
  | call (request : ρ) (next : β → Task σ ρ β ε α)

variable {σ ρ β ε α γ : Type}

namespace Task

/-- Runs `f` on the result. -/
def bind (t : Task σ ρ β ε α) (f : α → Task σ ρ β ε γ) : Task σ ρ β ε γ :=
  match t with
  | .done a => f a
  | .fail e => .fail e
  | .step act next => .step act fun i s => (next i s).bind f
  | .wait ready next => .wait ready (next.bind f)
  | .call r next => .call r fun b => (next b).bind f

instance : Monad (Task σ ρ β ε) where
  pure := .done
  bind := .bind

/-- The result or the error, as a result. -/
def attempt : Task σ ρ β ε α → Task σ ρ β ε (Except ε α)
  | .done a => .done (.ok a)
  | .fail e => .done (.error e)
  | .step act next => .step act fun i s => (next i s).attempt
  | .wait ready next => .wait ready next.attempt
  | .call r next => .call r fun b => (next b).attempt

/-- Reads the state. -/
def read : Task σ ρ β ε σ := .step (fun _ => id) fun _ => .done

/-- Changes the state. -/
def modify (f : σ → σ) : Task σ ρ β ε Unit := .step (fun _ => f) fun _ _ => .done ()

/-- Changes the state by something that names the task. -/
def record (f : ℕ → σ → σ) : Task σ ρ β ε Unit := .step f fun _ _ => .done ()

/-- Reads a value and changes the state, in one step. -/
def update (f : σ → α × σ) : Task σ ρ β ε α := .step (fun _ s => (f s).2) fun _ s => .done (f s).1

/-- Lets other tasks run. -/
def pause : Task σ ρ β ε Unit := .wait (fun _ => true) (.done ())

/-- Makes a call. -/
def ask (request : ρ) : Task σ ρ β ε β := .call request .done

/-- Goes on with the value, or fails with the error. -/
def ofExcept : Except ε α → Task σ ρ β ε α
  | .ok a => .done a
  | .error e => .fail e

/-- Waits until the condition holds. -/
def waitFor (ready : σ → Bool) : Task σ ρ β ε Unit := .wait ready (.done ())

/-- Never goes on. -/
def stuck (e : ε) : Task σ ρ β ε α := .wait (fun _ => false) (.fail e)

/-- Runs a task that ends before others run on. -/
def await (t : Task σ ρ β ε α) : Task σ ρ β ε α := do
  let result ← t.attempt
  pause
  ofExcept result

end Task

/-! ### What a task may return -/

namespace Task

/-- The task returns this in some run in which every call gets an answer it may get, whatever the state is at its steps. -/
inductive Yields (answers : ρ → β → Prop) : Task σ ρ β ε α → α → Prop
  | done (a : α) : Yields answers (.done a) a
  | step {act : ℕ → σ → σ} {next : ℕ → σ → Task σ ρ β ε α} {a : α} (i : ℕ) (s : σ) (h : Yields answers (next i s) a) :
    Yields answers (.step act next) a
  | wait {ready : σ → Bool} {next : Task σ ρ β ε α} {a : α} (h : Yields answers next a) : Yields answers (.wait ready next) a
  | call {r : ρ} {next : β → Task σ ρ β ε α} {a : α} (b : β) (hb : answers r b) (h : Yields answers (next b) a) :
    Yields answers (.call r next) a

variable {answers : ρ → β → Prop} {a : α} {c : γ}

theorem Yields.of_bind {t : Task σ ρ β ε α} {f : α → Task σ ρ β ε γ} (h : Yields answers (t.bind f) c) :
    ∃ a, Yields answers t a ∧ Yields answers (f a) c := by
  induction t with
  | done a => exact ⟨a, .done a, h⟩
  | fail e => cases h
  | step act next ih =>
    obtain _ | ⟨i, s, h⟩ := h
    obtain ⟨a, ht, hf⟩ := ih i s h
    exact ⟨a, .step i s ht, hf⟩
  | wait ready next ih =>
    obtain _ | _ | h := h
    obtain ⟨a, ht, hf⟩ := ih h
    exact ⟨a, .wait ht, hf⟩
  | call r next ih =>
    obtain _ | _ | _ | ⟨b, hb, h⟩ := h
    obtain ⟨a, ht, hf⟩ := ih b h
    exact ⟨a, .call b hb ht, hf⟩

theorem Yields.of_attempt {t : Task σ ρ β ε α} (h : Yields answers t.attempt (.ok a)) : Yields answers t a := by
  induction t with
  | done a' =>
    obtain _ | _ := h
    exact .done a
  | fail e => cases h
  | step act next ih =>
    obtain _ | ⟨i, s, h⟩ := h
    exact .step i s (ih i s h)
  | wait ready next ih =>
    obtain _ | _ | h := h
    exact .wait (ih h)
  | call r next ih =>
    obtain _ | _ | _ | ⟨b, hb, h⟩ := h
    exact .call b hb (ih b h)

theorem Yields.of_ofExcept {x : Except ε α} (h : Yields answers (ofExcept x : Task σ ρ β ε α) a) : x = .ok a := by
  rcases x with e | a'
  · cases h
  · obtain _ | _ := h
    rfl

theorem Yields.of_await {t : Task σ ρ β ε α} (h : Yields answers t.await a) : Yields answers t a := by
  obtain ⟨result, ht, h⟩ := h.of_bind
  obtain ⟨-, -, h⟩ := h.of_bind
  rw [h.of_ofExcept] at ht
  exact ht.of_attempt

theorem Yields.bind {t : Task σ ρ β ε α} {f : α → Task σ ρ β ε γ} (ht : Yields answers t a) (hf : Yields answers (f a) c) :
    Yields answers (t.bind f) c := by
  induction ht with
  | done a => exact hf
  | step i s _ ih => exact .step i s (ih hf)
  | wait _ ih => exact .wait (ih hf)
  | call b hb _ ih => exact .call b hb (ih hf)

theorem Yields.await {t : Task σ ρ β ε α} (ht : Yields answers t a) : Yields answers t.await a := by
  have hresult : Yields answers t.attempt (.ok a) := by
    induction ht with
    | done a => exact .done _
    | step i s _ ih => exact .step i s ih
    | wait _ ih => exact .wait ih
    | call b hb _ ih => exact .call b hb ih
  exact hresult.bind (.wait (.done a))

end Task

/-! ### Running -/

/-- What a call does to the state when it is made, and where its answer is found. -/
structure Comm (σ ρ β : Type) where
  post : ℕ → ρ → σ → σ
  answer : ℕ → σ → Option β

variable (C : Comm σ ρ β)

/-- Runs a task to its end or to the next point where it waits. -/
def settle (i : ℕ) : Task σ ρ β ε α → σ → Task σ ρ β ε α × σ
  | .step act next, s => settle i (next i s) (act i s)
  | .call r next, s => (.call r next, C.post i r s)
  | .done a, s => (.done a, s)
  | .fail e, s => (.fail e, s)
  | .wait ready next, s => (.wait ready next, s)

/-- Runs a waiting task on, if it can go on. -/
def resume (i : ℕ) (t : Task σ ρ β ε α) (s : σ) : Task σ ρ β ε α × σ :=
  match t with
  | .wait ready next => if ready s then settle C i next s else (t, s)
  | .call _ next =>
    match C.answer i s with
    | some b => settle C i (next b) s
    | none => (t, s)
  | _ => (t, s)

/-! ### The logic of a task -/

/-- What all tasks keep, and what each can rely on: the state satisfies `Inv` and only grows, the tasks themselves do
no more than `Works`, what is a task's own is left untouched by the others, and a call is made only where it is
`Allowed`. -/
structure Discipline where
  Inv : σ → Prop
  Grows : σ → σ → Prop
  Works : σ → σ → Prop
  Untouched : ℕ → σ → σ → Prop
  Allowed : ℕ → ρ → σ → Prop
  grows_refl : ∀ s, Grows s s
  grows_trans : ∀ {s s' s''}, Grows s s' → Grows s' s'' → Grows s s''
  works_refl : ∀ s, Works s s
  works_trans : ∀ {s s' s''}, Works s s' → Works s' s'' → Works s s''
  untouched_refl : ∀ i s, Untouched i s s
  untouched_trans : ∀ {i s s' s''}, Untouched i s s' → Untouched i s' s'' → Untouched i s s''
  post_ok : ∀ {i r s}, Inv s → Allowed i r s →
    Inv (C.post i r s) ∧ Grows s (C.post i r s) ∧ Works s (C.post i r s) ∧ ∀ j ≠ i, Untouched j s (C.post i r s)

namespace Discipline

variable {C} (D : Discipline C)

/-- What a step of task `i` does. -/
def Step (i : ℕ) (s s' : σ) : Prop := D.Inv s' ∧ D.Grows s s' ∧ D.Works s s' ∧ ∀ j ≠ i, D.Untouched j s s'

/-- What happens while task `i` waits. -/
def Rely (i : ℕ) (s s' : σ) : Prop := D.Inv s' ∧ D.Grows s s' ∧ D.Untouched i s s'

variable {D} {i : ℕ} {s s' s'' : σ}

theorem Step.rely {j : ℕ} (h : D.Step i s s') (hj : j ≠ i) : D.Rely j s s' := ⟨h.1, h.2.1, h.2.2.2 j hj⟩

theorem Step.trans (h : D.Step i s s') (h' : D.Step i s' s'') : D.Step i s s'' :=
  ⟨h'.1, D.grows_trans h.2.1 h'.2.1, D.works_trans h.2.2.1 h'.2.2.1,
    fun j hj => D.untouched_trans (h.2.2.2 j hj) (h'.2.2.2 j hj)⟩

theorem Step.refl (hinv : D.Inv s) : D.Step i s s :=
  ⟨hinv, D.grows_refl s, D.works_refl s, fun j _ => D.untouched_refl j s⟩

theorem Rely.trans (h : D.Rely i s s') (h' : D.Rely i s' s'') : D.Rely i s s'' :=
  ⟨h'.1, D.grows_trans h.2.1 h'.2.1, D.untouched_trans h.2.2 h'.2.2⟩

theorem Rely.refl (hinv : D.Inv s) : D.Rely i s s := ⟨hinv, D.grows_refl s, D.untouched_refl i s⟩

theorem step_post {r : ρ} (hinv : D.Inv s) (h : D.Allowed i r s) : D.Step i s (C.post i r s) := D.post_ok hinv h

end Discipline

variable {C} (D : Discipline C) (i : ℕ)

/-- From the state, the task keeps the discipline as task `i`, and ends with `Q` or fails with `E`. -/
def Safe (Q : α → σ → Prop) (E : ε → σ → Prop) : Task σ ρ β ε α → σ → Prop
  | .done a, s => Q a s
  | .fail e, s => E e s
  | .step act next, s => D.Step i s (act i s) ∧ Safe Q E (next i s) (act i s)
  | .wait ready next, s => ∀ s', D.Rely i s s' → ready s' = true → Safe Q E next s'
  | .call r next, s =>
    D.Allowed i r s ∧ ∀ s' b, D.Rely i (C.post i r s) s' → C.answer i s' = some b → Safe Q E (next b) s'

variable {D i} {Q Q' : α → σ → Prop} {E E' : ε → σ → Prop} {t : Task σ ρ β ε α} {s s' : σ}

theorem Safe.mono (hQ : ∀ a s, Q a s → Q' a s) (hE : ∀ e s, E e s → E' e s) (h : Safe D i Q E t s) :
    Safe D i Q' E' t s := by
  induction t generalizing s with
  | done a => exact hQ a s h
  | fail e => exact hE e s h
  | step act next ih => exact ⟨h.1, ih i s h.2⟩
  | wait ready next ih => exact fun s' hrely hready => ih (h s' hrely hready)
  | call r next ih => exact ⟨h.1, fun s' b hrely hb => ih b (h.2 s' b hrely hb)⟩

theorem safe_bind {f : α → Task σ ρ β ε γ} {R : γ → σ → Prop} :
    Safe D i R E (t.bind f) s ↔ Safe D i (fun a s => Safe D i R E (f a) s) E t s := by
  induction t generalizing s with
  | done a => exact Iff.rfl
  | fail e => exact Iff.rfl
  | step act next ih => exact and_congr_right fun _ => ih i s
  | wait ready next ih => exact forall_congr' fun s' => imp_congr_right fun _ => imp_congr_right fun _ => ih
  | call r next ih =>
    exact and_congr_right fun _ => forall_congr' fun s' => forall_congr' fun b =>
      imp_congr_right fun _ => imp_congr_right fun _ => ih b

theorem Safe.bind {f : α → Task σ ρ β ε γ} {R : γ → σ → Prop} (h : Safe D i Q E t s)
    (hf : ∀ a s, Q a s → Safe D i R E (f a) s) : Safe D i R E (t >>= f) s :=
  safe_bind.mpr (h.mono hf fun _ _ he => he)

theorem safe_attempt {R : Except ε α → σ → Prop} {E : ε → σ → Prop} :
    Safe D i R E t.attempt s ↔ Safe D i (fun a s => R (.ok a) s) (fun e s => R (.error e) s) t s := by
  induction t generalizing s with
  | done a => exact Iff.rfl
  | fail e => exact Iff.rfl
  | step act next ih => exact and_congr_right fun _ => ih i s
  | wait ready next ih => exact forall_congr' fun s' => imp_congr_right fun _ => imp_congr_right fun _ => ih
  | call r next ih =>
    exact and_congr_right fun _ => forall_congr' fun s' => forall_congr' fun b =>
      imp_congr_right fun _ => imp_congr_right fun _ => ih b

/-- A task that is awaited ends as it does by itself, if what then holds is left untouched. -/
theorem Safe.await (hQ : ∀ a s s', D.Rely i s s' → Q a s → Q a s') (hE : ∀ e s s', D.Rely i s s' → E e s → E e s')
    (h : Safe D i Q E t s) : Safe D i Q E t.await s := by
  refine safe_bind.mpr (safe_attempt.mpr ?_)
  refine Safe.mono (fun a s ha => ?_) (fun e s he => ?_) h
  · exact fun s' hrely _ => hQ a s s' hrely ha
  · exact fun s' hrely _ => hE e s s' hrely he

/-- Where a task ends the invariant holds, and so does every fact that growing keeps. -/
theorem Safe.frame {P : σ → Prop} (hP : ∀ s s', D.Grows s s' → P s → P s') (hinv : D.Inv s) (hs : P s)
    (h : Safe D i Q E t s) :
    Safe D i (fun a s => D.Inv s ∧ P s ∧ Q a s) (fun e s => D.Inv s ∧ P s ∧ E e s) t s := by
  induction t generalizing s with
  | done a => exact ⟨hinv, hs, h⟩
  | fail e => exact ⟨hinv, hs, h⟩
  | step act next ih => exact ⟨h.1, ih i s h.1.1 (hP _ _ h.1.2.1 hs) h.2⟩
  | wait ready next ih =>
    exact fun s' hrely hready => ih hrely.1 (hP _ _ hrely.2.1 hs) (h s' hrely hready)
  | call r next ih =>
    refine ⟨h.1, fun s' b hrely hb => ih b hrely.1 ?_ (h.2 s' b hrely hb)⟩
    exact hP _ _ hrely.2.1 (hP _ _ (D.post_ok hinv h.1).2.1 hs)

/-! ### Pools -/

variable (D) in
/-- A task at a point where it waits goes on safely, whatever happens until then. -/
def Suspended (i : ℕ) : Task σ ρ β ε α → σ → Prop
  | .done _, _ | .fail _, _ => True
  | .step _ _, _ => False
  | .wait ready next, s =>
    ∀ s', D.Rely i s s' → ready s' = true → Safe D i (fun _ _ => True) (fun _ _ => True) next s'
  | .call _ next, s =>
    ∀ s' b, D.Rely i s s' → C.answer i s' = some b → Safe D i (fun _ _ => True) (fun _ _ => True) (next b) s'

variable (D) in
/-- A task at a point where it waits goes on safely, and when it is done `Q` holds. -/
def Heading (i : ℕ) (Q : α → σ → Prop) : Task σ ρ β ε α → σ → Prop
  | .done a, s => Q a s
  | .fail _, _ => True
  | .step _ _, _ => False
  | .wait ready next, s => ∀ s', D.Rely i s s' → ready s' = true → Safe D i Q (fun _ _ => True) next s'
  | .call _ next, s =>
    ∀ s' b, D.Rely i s s' → C.answer i s' = some b → Safe D i Q (fun _ _ => True) (next b) s'

theorem suspended_iff : Suspended D i t s ↔ Heading D i (fun _ _ => True) t s := by
  rcases t with a | e | ⟨act, next⟩ | ⟨ready, next⟩ | ⟨r, next⟩ <;> exact Iff.rfl

theorem Heading.rely (hQ : ∀ a s s', D.Rely i s s' → Q a s → Q a s') (h : Heading D i Q t s)
    (hrely : D.Rely i s s') : Heading D i Q t s' := by
  rcases t with a | e | ⟨act, next⟩ | ⟨ready, next⟩ | ⟨r, next⟩
  · exact hQ a s s' hrely h
  · trivial
  · exact h
  · exact fun s'' hrely' hready => h s'' (hrely.trans hrely') hready
  · exact fun s'' b hrely' hb => h s'' b (hrely.trans hrely') hb

theorem settle_heading (hinv : D.Inv s) (h : Safe D i Q (fun _ _ => True) t s) :
    D.Step i s (settle C i t s).2 ∧ Heading D i Q (settle C i t s).1 (settle C i t s).2 := by
  induction t generalizing s with
  | done a => exact ⟨.refl hinv, h⟩
  | fail e => exact ⟨.refl hinv, trivial⟩
  | step act next ih =>
    obtain ⟨hstep, hnext⟩ := ih i s h.1.1 h.2
    exact ⟨h.1.trans hstep, hnext⟩
  | wait ready next ih => exact ⟨.refl hinv, h⟩
  | call r next ih => exact ⟨D.step_post hinv h.1, h.2⟩

theorem resume_heading (hinv : D.Inv s) (h : Heading D i Q t s) :
    D.Step i s (resume C i t s).2 ∧ Heading D i Q (resume C i t s).1 (resume C i t s).2 := by
  rcases t with a | e | ⟨act, next⟩ | ⟨ready, next⟩ | ⟨r, next⟩
  · exact ⟨.refl hinv, h⟩
  · exact ⟨.refl hinv, trivial⟩
  · exact h.elim
  · unfold resume
    dsimp only
    split
    · next hready => exact settle_heading hinv (h s (.refl hinv) hready)
    · exact ⟨.refl hinv, h⟩
  · unfold resume
    dsimp only
    split
    · next b hb => exact settle_heading hinv (h s b (.refl hinv) hb)
    · exact ⟨.refl hinv, h⟩

variable (D) in
/-- The invariant holds and every task of the pool waits safely; the index of a task is its name. -/
def PoolSafe (tasks : List (Task σ ρ β ε α)) (s : σ) : Prop :=
  D.Inv s ∧ ∀ i t, tasks[i]? = some t → Suspended D i t s

variable (D) in
/-- The invariant holds, every task of the pool waits safely, and where one is done its `Q` holds. -/
def PoolHeading (Q : ℕ → α → σ → Prop) (tasks : List (Task σ ρ β ε α)) (s : σ) : Prop :=
  D.Inv s ∧ ∀ i t, tasks[i]? = some t → Heading D i (Q i) t s

variable {tasks : List (Task σ ρ β ε α)}

theorem poolSafe_iff : PoolSafe D tasks s ↔ PoolHeading D (fun _ _ _ => True) tasks s :=
  and_congr_right fun _ => forall_congr' fun _ => forall_congr' fun _ => imp_congr_right fun _ => suspended_iff

theorem PoolSafe.nil (hinv : D.Inv s) : PoolSafe D ([] : List (Task σ ρ β ε α)) s :=
  ⟨hinv, fun _ _ h => by cases h⟩

section heading
variable {Q : ℕ → α → σ → Prop} (hQ : ∀ i a s s', D.Rely i s s' → Q i a s → Q i a s')
include hQ

/-- Something else than a task happens. -/
theorem PoolHeading.env (h : PoolHeading D Q tasks s) (hinv : D.Inv s') (hgrows : D.Grows s s')
    (huntouched : ∀ i < tasks.length, D.Untouched i s s') : PoolHeading D Q tasks s' :=
  ⟨hinv, fun i t ht =>
    (h.2 i t ht).rely (hQ i) ⟨hinv, hgrows, huntouched i (List.getElem?_eq_some_iff.mp ht).1⟩⟩

/-- A task is started. -/
theorem PoolHeading.start (h : PoolHeading D Q tasks s)
    (ht : Safe D tasks.length (Q tasks.length) (fun _ _ => True) t s) :
    D.Step tasks.length s (settle C tasks.length t s).2 ∧
      PoolHeading D Q (tasks ++ [(settle C tasks.length t s).1]) (settle C tasks.length t s).2 := by
  obtain ⟨hstep, hheading⟩ := settle_heading h.1 ht
  refine ⟨hstep, hstep.1, fun i u hu => ?_⟩
  rcases Nat.lt_or_ge i tasks.length with hi | hi
  · rw [List.getElem?_append_left hi] at hu
    exact (h.2 i u hu).rely (hQ i) (hstep.rely (Nat.ne_of_lt hi))
  · have hlt : i < (tasks ++ [(settle C tasks.length t s).1]).length := (List.getElem?_eq_some_iff.mp hu).1
    rw [List.length_append, List.length_singleton] at hlt
    obtain rfl : i = tasks.length := by omega
    rw [List.getElem?_concat_length, Option.some.injEq] at hu
    rw [← hu]
    exact hheading

/-- A task of the pool goes on. -/
theorem PoolHeading.resume (h : PoolHeading D Q tasks s) {i : ℕ} (ht : tasks[i]? = some t) :
    D.Step i s (Cooperative.resume C i t s).2 ∧
      PoolHeading D Q (tasks.set i (Cooperative.resume C i t s).1) (Cooperative.resume C i t s).2 := by
  obtain ⟨hstep, hheading⟩ := resume_heading h.1 (h.2 i t ht)
  refine ⟨hstep, hstep.1, fun j u hu => ?_⟩
  rw [List.getElem?_set] at hu
  split at hu
  · next hij =>
    subst hij
    split at hu
    · rw [Option.some.injEq] at hu
      rw [← hu]
      exact hheading
    · cases hu
  · next hij => exact (h.2 j u hu).rely (hQ j) (hstep.rely (Ne.symm hij))

end heading

/-- Something else than a task happens. -/
theorem PoolSafe.env (h : PoolSafe D tasks s) (hinv : D.Inv s') (hgrows : D.Grows s s')
    (huntouched : ∀ i < tasks.length, D.Untouched i s s') : PoolSafe D tasks s' :=
  poolSafe_iff.mpr ((poolSafe_iff.mp h).env (fun _ _ _ _ _ _ => trivial) hinv hgrows huntouched)

/-- A task is started. -/
theorem PoolSafe.start (h : PoolSafe D tasks s)
    (ht : Safe D tasks.length (fun _ _ => True) (fun _ _ => True) t s) :
    D.Step tasks.length s (settle C tasks.length t s).2 ∧
      PoolSafe D (tasks ++ [(settle C tasks.length t s).1]) (settle C tasks.length t s).2 := by
  obtain ⟨hstep, hpool⟩ := (poolSafe_iff.mp h).start (fun _ _ _ _ _ _ => trivial) ht
  exact ⟨hstep, poolSafe_iff.mpr hpool⟩

/-- A task of the pool goes on. -/
theorem PoolSafe.resume (h : PoolSafe D tasks s) {i : ℕ} (ht : tasks[i]? = some t) :
    D.Step i s (Cooperative.resume C i t s).2 ∧
      PoolSafe D (tasks.set i (Cooperative.resume C i t s).1) (Cooperative.resume C i t s).2 := by
  obtain ⟨hstep, hpool⟩ := (poolSafe_iff.mp h).resume (fun _ _ _ _ _ _ => trivial) ht
  exact ⟨hstep, poolSafe_iff.mpr hpool⟩

end Cooperative
