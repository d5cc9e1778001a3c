import Mathlib.Data.List.Nodup

/-!
# Bounded caches with a lifetime

A cache lists its entries oldest first. Recording drops the entries that are no longer live, then the
oldest when the bound is reached, and appends. What was recorded stays while it is live and fewer
further entries than the bound were recorded: `Within n` counts those behind it.
-/

namespace ExpiringCache

variable {α κ : Type*} {live : α → Bool} {bound n : ℕ} {l : List α} {a b : α}

/-- Records `a`. -/
def record (live : α → Bool) (bound : ℕ) (l : List α) (a : α) : List α :=
  let kept := l.filter live
  (if kept.length ≥ bound then kept.tail else kept) ++ [a]

/-- At most `n` entries are behind `a`. -/
def Within (n : ℕ) (a : α) (l : List α) : Prop := ∃ pre post, l = pre ++ a :: post ∧ post.length ≤ n

theorem Within.mem (h : Within n a l) : a ∈ l := by
  obtain ⟨pre, post, rfl, -⟩ := h
  simp

/-- The entries before `a` are among the live ones of before. -/
theorem record_eq (live : α → Bool) (bound : ℕ) (l : List α) (a : α) :
    ∃ kept, record live bound l a = kept ++ [a] ∧ kept.Sublist (l.filter live) := by
  unfold record
  dsimp only
  split
  · exact ⟨_, rfl, List.tail_sublist _⟩
  · exact ⟨_, rfl, List.Sublist.refl _⟩

theorem length_record_le (hbound : 0 < bound) (h : l.length ≤ bound) : (record live bound l a).length ≤ bound := by
  have hkept := List.length_filter_le live l
  unfold record
  dsimp only
  split
  · rw [List.length_append, List.length_tail, List.length_singleton]
    omega
  · rw [List.length_append, List.length_singleton]
    omega

/-- Under a key that no live entry has, recording keeps the keys apart. -/
theorem nodup_record {key : α → κ} (h : (l.map key).Nodup) (hnew : ∀ b ∈ l, live b = true → key b ≠ key a) :
    ((record live bound l a).map key).Nodup := by
  obtain ⟨kept, heq, hsub⟩ := record_eq live bound l a
  rw [heq, List.map_append, List.map_singleton]
  refine List.Nodup.append (h.sublist ((hsub.trans List.filter_sublist).map key)) (List.nodup_singleton _) ?_
  rw [List.disjoint_singleton]
  intro hmem
  obtain ⟨b, hb, hkey⟩ := List.mem_map.mp hmem
  obtain ⟨hb, hlive⟩ := List.mem_filter.mp (hsub.subset hb)
  exact hnew b hb hlive hkey

/-- What was just recorded has nothing behind it. -/
theorem within_record_self : Within 0 a (record live bound l a) := by
  obtain ⟨kept, heq, -⟩ := record_eq live bound l a
  exact ⟨kept, [], heq, Nat.le_refl _⟩

/-- A live entry stays while fewer entries than the bound are behind it. -/
theorem Within.record (h : Within n a l) (hlive : live a = true) (hn : n + 1 < bound) :
    Within (n + 1) a (record live bound l b) := by
  obtain ⟨pre, post, rfl, hpost⟩ := h
  have hkept := List.length_filter_le live post
  unfold ExpiringCache.record
  dsimp only
  rw [List.filter_append, List.filter_cons_of_pos hlive]
  split
  · next hfull =>
    rw [List.length_append, List.length_cons] at hfull
    rcases hpre : pre.filter live with _ | ⟨c, rest⟩
    · rw [hpre, List.length_nil] at hfull
      omega
    · refine ⟨rest, post.filter live ++ [b], by simp, ?_⟩
      rw [List.length_append, List.length_singleton]
      omega
  · refine ⟨pre.filter live, post.filter live ++ [b], by simp, ?_⟩
    rw [List.length_append, List.length_singleton]
    omega

theorem Within.mono {m : ℕ} (h : Within n a l) (hnm : n ≤ m) : Within m a l := by
  obtain ⟨pre, post, heq, hpost⟩ := h
  exact ⟨pre, post, heq, Nat.le_trans hpost hnm⟩

end ExpiringCache
