import Mathlib.Data.List.Nodup
import Mathlib.Data.List.Perm.Basic

/-!
# Lists of records with unique keys

A collection is a list of records, each under a key no other record has. The lemmas say what looking a
key up, taking a record away, putting it back and changing one record do, up to the order in which the
records are listed.
-/

namespace Keyed

variable {α κ : Type*} {key : α → κ} {l : List α} {a b : α} {k : κ}

/-! ### Looking up -/

section lookup
variable [BEq κ] [LawfulBEq κ]

theorem find?_eq_some (h : (l.map key).Nodup) (ha : a ∈ l) : l.find? (key · == key a) = some a := by
  induction l with
  | nil => cases ha
  | cons b l ih =>
    rw [List.map_cons, List.nodup_cons] at h
    rcases List.mem_cons.mp ha with rfl | ha
    · simp
    · have hne : key b ≠ key a := fun heq => h.1 (heq ▸ List.mem_map_of_mem ha)
      rw [List.find?_cons_of_neg (by simpa using hne)]
      exact ih h.2 ha

theorem mem_of_find? (h : l.find? (key · == k) = some a) : a ∈ l ∧ key a = k :=
  ⟨List.mem_of_find?_eq_some h, by simpa using List.find?_some h⟩

theorem find?_isSome : (l.find? (key · == k)).isSome ↔ k ∈ l.map key := by
  rw [List.find?_isSome, List.mem_map]
  simp only [beq_iff_eq]

theorem find?_eq_none : l.find? (key · == k) = none ↔ k ∉ l.map key := by
  rw [← find?_isSome, Option.not_isSome_iff_eq_none]

/-- Looking up keys that are there gives records under these keys. -/
theorem map_key_filterMap_find? {ks : List κ} (h : ∀ k ∈ ks, k ∈ l.map key) :
    (ks.filterMap fun k => l.find? (key · == k)).map key = ks := by
  induction ks with
  | nil => rfl
  | cons k ks ih =>
    obtain ⟨a, ha⟩ := Option.isSome_iff_exists.mp (find?_isSome.mpr (h k List.mem_cons_self))
    have hrest := ih fun k' hk' => h k' (List.mem_cons_of_mem k hk')
    simp only [List.filterMap_cons, ha, List.map_cons, hrest, (mem_of_find? ha).2]

end lookup

theorem eq_of_key_eq (h : (l.map key).Nodup) (ha : a ∈ l) (hb : b ∈ l) (hab : key a = key b) : a = b :=
  List.inj_on_of_nodup_map h ha hb hab

/-! ### Taking away and putting back -/

variable [DecidableEq κ]

theorem filter_ne_eq_self (h : k ∉ l.map key) : l.filter (key · ≠ k) = l := by
  rw [List.filter_eq_self]
  intro a ha
  have hne : key a ≠ k := by
    rintro rfl
    exact h (List.mem_map_of_mem ha)
  simpa using hne

theorem filter_ne_append_singleton (h : key a ∉ l.map key) :
    (l ++ [a]).filter (key · ≠ key a) = l := by
  rw [List.filter_append, filter_ne_eq_self h]
  simp

/-- Records under optional keys, no key twice: taking one away and putting it back. -/
theorem filter_ne_append_perm {f : α → Option κ} (h : (l.filterMap f).Nodup) (ha : a ∈ l)
    (hf : f a = some k) : (l.filter (f · ≠ some k) ++ [a]).Perm l := by
  refine List.perm_append_comm.trans ?_
  induction l with
  | nil => cases ha
  | cons b l ih =>
    have htail : (l.filterMap f).Nodup := h.sublist (List.Sublist.filterMap f (List.sublist_cons_self b l))
    by_cases hb : f b = some k
    · rw [List.filterMap_cons_some hb, List.nodup_cons] at h
      have hnone : ∀ c ∈ l, f c ≠ some k := fun c hc hck => h.1 (List.mem_filterMap.mpr ⟨c, hc, hck⟩)
      obtain rfl : a = b := by
        rcases List.mem_cons.mp ha with rfl | ha
        · rfl
        · exact absurd hf (hnone a ha)
      rw [List.filter_cons_of_neg (by simpa using hb), List.filter_eq_self.mpr]
      · rfl
      · exact fun c hc => by simpa using hnone c hc
    · have ha : a ∈ l := by
        rcases List.mem_cons.mp ha with rfl | ha
        · exact absurd hf hb
        · exact ha
      rw [List.filter_cons_of_pos (by simpa using hb)]
      exact (List.Perm.swap b a _).trans ((ih htail ha).cons b)

/-- Two records under one key are the same. -/
theorem eq_of_some_eq {f : α → Option κ} (h : (l.filterMap f).Nodup) (ha : a ∈ l) (hb : b ∈ l)
    (hfa : f a = some k) (hfb : f b = some k) : a = b := by
  have hperm := filter_ne_append_perm h ha hfa
  rcases List.mem_append.mp (hperm.mem_iff.mpr hb) with hb | hb
  · exact absurd hfb (by simpa using (List.mem_filter.mp hb).2)
  · exact (List.mem_singleton.mp hb).symm

/-! ### Changing one record -/

/-- Changes the records under one key. -/
def update (key : α → κ) (k : κ) (f : α → α) (l : List α) : List α :=
  l.map fun a => if key a = k then f a else a

theorem map_update (f : α → α) {β : Type*} (g : α → β) (hg : ∀ a ∈ l, key a = k → g (f a) = g a) :
    (update key k f l).map g = l.map g := by
  rw [update, List.map_map]
  refine List.map_congr_left fun a ha => ?_
  by_cases hk : key a = k <;> simp [hk, hg a ha]

theorem update_update (f g : α → α) (hkey : ∀ a, key (f a) = key a) :
    update key k g (update key k f l) = update key k (g ∘ f) l := by
  rw [update, update, update, List.map_map]
  refine List.map_congr_left fun a _ => ?_
  by_cases hk : key a = k <;> simp [hk, hkey]

theorem update_eq_self (f : α → α) (hf : ∀ a ∈ l, key a = k → f a = a) : update key k f l = l := by
  rw [update]
  refine (List.map_congr_left fun a ha => ?_).trans (List.map_id l)
  by_cases hk : key a = k <;> simp [hk, hf a ha]

theorem find?_update_self [BEq κ] [LawfulBEq κ] (f : α → α) (h : l.find? (key · == k) = some a)
    (hf : ∀ a, key (f a) = k) : (update key k f l).find? (key · == k) = some (f a) := by
  induction l with
  | nil => cases h
  | cons b l ih =>
    rw [update, List.map_cons, ← update]
    by_cases hb : key b = k
    · rw [List.find?_cons_of_pos (by simpa using hb)] at h
      obtain rfl := Option.some.inj h
      rw [if_pos hb, List.find?_cons_of_pos (by simpa using hf b)]
    · rw [List.find?_cons_of_neg (by simpa using hb)] at h
      rw [if_neg hb, List.find?_cons_of_neg (by simpa using hb)]
      exact ih h

theorem find?_update_of_ne [BEq κ] [LawfulBEq κ] (f : α → α) {k' : κ} (hne : k' ≠ k)
    (hf : ∀ a, key (f a) = k) : (update key k f l).find? (key · == k') = l.find? (key · == k') := by
  induction l with
  | nil => rfl
  | cons b l ih =>
    rw [update, List.map_cons, ← update]
    by_cases hb : key b = k
    · rw [if_pos hb, List.find?_cons_of_neg (by simpa [hf b] using hne.symm),
        List.find?_cons_of_neg (by simpa [hb] using hne.symm), ih]
    · rw [if_neg hb, List.find?_cons, List.find?_cons, ih]

/-! ### The last match -/

/-- A list with a match splits at its last one. -/
theorem exists_last {p : α → Prop} (h : ∃ a ∈ l, p a) :
    ∃ pre a post, l = pre ++ a :: post ∧ p a ∧ ∀ b ∈ post, ¬ p b := by
  induction l with
  | nil =>
    obtain ⟨a, ha, -⟩ := h
    cases ha
  | cons b l ih =>
    by_cases hl : ∃ a ∈ l, p a
    · obtain ⟨pre, a, post, rfl, ha, hpost⟩ := ih hl
      exact ⟨b :: pre, a, post, rfl, ha, hpost⟩
    · obtain ⟨a, ha, hpa⟩ := h
      rcases List.mem_cons.mp ha with rfl | ha
      · exact ⟨[], a, l, rfl, hpa, fun c hc hpc => hl ⟨c, hc, hpc⟩⟩
      · exact absurd ⟨a, ha, hpa⟩ hl

theorem getLast?_filter_of_pos {p : α → Bool} (h : l.getLast? = some a) (hp : p a) :
    (l.filter p).getLast? = some a := by
  obtain ⟨init, rfl⟩ := List.getLast?_eq_some_iff.mp h
  simp [List.filter_append, hp]

end Keyed
