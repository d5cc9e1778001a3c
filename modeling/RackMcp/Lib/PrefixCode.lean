import Mathlib.Data.List.Basic

/-!
# Texts that can be read back

A text is put together from the codes of its parts, and two texts are equal only when their parts are. A code is
`Readable` when what comes after it cannot change where it ends, over all rests that `follow` admits.
-/

namespace PrefixCode

variable {α β : Type*}

/-- Of two equal texts that begin with codes of `s` and go on with rests of `follow`, the first parts are equal, and so
are the rests. -/
def Readable (code : α → List β) (s : α → Prop) (follow : List β → Prop) : Prop :=
  ∀ x y a b, s x → s y → follow a → follow b → code x ++ a = code y ++ b → x = y ∧ a = b

/-- The rest is empty or goes on with a symbol outside `p`. -/
def Stops (p : β → Prop) (a : List β) : Prop := ∀ c ∈ a.head?, ¬ p c

/-- A run of symbols of `p` ends where the first other symbol stands. -/
theorem run_unique {p : β → Prop} {l l' a b : List β} (hl : ∀ c ∈ l, p c) (hl' : ∀ c ∈ l', p c) (ha : Stops p a)
    (hb : Stops p b) (h : l ++ a = l' ++ b) : l = l' ∧ a = b := by
  induction l generalizing l' with
  | nil =>
    cases l' with
    | nil => exact ⟨rfl, h⟩
    | cons c l' =>
      refine absurd (hl' c List.mem_cons_self) (ha c ?_)
      rw [show a = c :: (l' ++ b) from h]
      rfl
  | cons c l ih =>
    cases l' with
    | nil =>
      refine absurd (hl c List.mem_cons_self) (hb c ?_)
      rw [← show c :: (l ++ a) = b from h]
      rfl
    | cons d l' =>
      rw [List.cons_append, List.cons_append, List.cons.injEq] at h
      obtain ⟨rfl, h⟩ := h
      obtain ⟨rfl, rfl⟩ := ih (fun x hx => hl x (List.mem_cons_of_mem _ hx))
        (fun x hx => hl' x (List.mem_cons_of_mem _ hx)) h
      exact ⟨rfl, rfl⟩

/-- What a decoder reads back is readable. -/
theorem readable_of_decode {code : α → List β} {s : α → Prop} {follow : List β → Prop}
    (decode : List β → Option (α × List β)) (h : ∀ x a, s x → follow a → decode (code x ++ a) = some (x, a)) :
    Readable code s follow := by
  intro x y a b hx hy ha hb heq
  have hread := h x a hx ha
  rw [heq, h y b hy hb] at hread
  obtain ⟨rfl, rfl⟩ := Prod.mk.inj (Option.some.inj hread)
  exact ⟨rfl, rfl⟩

/-- A list of codes ends at the symbol that none of them begins with. -/
theorem readable_terminated {code : α → List β} {s : α → Prop} {stop : β} (hcode : Readable code s fun _ => True)
    (hstart : ∀ x, s x → ∃ c rest, code x = c :: rest ∧ c ≠ stop) :
    Readable (fun xs : List α => xs.flatMap code ++ [stop]) (fun xs => ∀ x ∈ xs, s x) fun _ => True := by
  intro xs ys a b hxs hys _ _ h
  dsimp only at h
  induction xs generalizing ys with
  | nil =>
    cases ys with
    | nil => exact ⟨rfl, (List.cons.inj h).2⟩
    | cons y ys =>
      obtain ⟨c, rest, hc, hne⟩ := hstart y (hys y List.mem_cons_self)
      simp only [List.flatMap_nil, List.flatMap_cons, hc, List.cons_append, List.nil_append, List.cons.injEq] at h
      exact absurd h.1.symm hne
  | cons x xs ih =>
    cases ys with
    | nil =>
      obtain ⟨c, rest, hc, hne⟩ := hstart x (hxs x List.mem_cons_self)
      simp only [List.flatMap_nil, List.flatMap_cons, hc, List.cons_append, List.nil_append, List.cons.injEq] at h
      exact absurd h.1 hne
    | cons y ys =>
      simp only [List.flatMap_cons, List.append_assoc] at h
      obtain ⟨rfl, hrest⟩ := hcode x y _ _ (hxs x List.mem_cons_self) (hys y List.mem_cons_self) trivial trivial h
      obtain ⟨rfl, rfl⟩ := ih ys (fun x hx => hxs x (List.mem_cons_of_mem _ hx))
        (fun y hy => hys y (List.mem_cons_of_mem _ hy)) (by simpa only [List.append_assoc] using hrest)
      exact ⟨rfl, rfl⟩

end PrefixCode
