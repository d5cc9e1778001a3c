import Mathlib.Data.List.Induction
import Mathlib.Data.List.Nodup

/-!
# What settles first

Promises are numbered in the order in which they are opened. Things happen that may each settle some of them:
`concerns n o` is what `o` settles promise `n` with, if it does. The `Ledger` of a history settles whatever waits and
is concerned, and `settlement` says what that comes to for one promise: the first thing after it was opened that
concerns it.
-/

namespace Settling

variable {ω υ : Type*}

/-- An entry of a history: the next promise is opened, or something happens. -/
inductive Entry (ω : Type*) where
  | opens
  | happens (o : ω)

/-- The promises opened so far, those that wait, and what the others were settled with. -/
structure Ledger (υ : Type*) where
  opened : ℕ := 0
  waiting : List ℕ := []
  settled : List (ℕ × υ) := []

variable (concerns : ℕ → ω → Option υ)

/-- Opens the next promise, or settles every promise that is concerned. -/
def Ledger.enter (l : Ledger υ) : Entry ω → Ledger υ
  | .opens => { l with opened := l.opened + 1, waiting := l.waiting ++ [l.opened] }
  | .happens o =>
    { l with
      waiting := l.waiting.filter fun n => (concerns n o).isNone
      settled := l.settled ++ l.waiting.filterMap fun n => (concerns n o).map (n, ·) }

/-- The ledger of a history. -/
def ledger (history : List (Entry ω)) : Ledger υ := history.foldl (Ledger.enter concerns) {}

/-- What promise `n` is settled with, when `k` promises were open before. -/
def settlement (n : ℕ) : ℕ → List (Entry ω) → Option υ
  | _, [] => none
  | k, .opens :: history => settlement n (k + 1) history
  | k, .happens o :: history => ((if n < k then concerns n o else none)).or (settlement n k history)

/-- The promises that a history opens. -/
def opens : List (Entry ω) → ℕ
  | [] => 0
  | .opens :: history => opens history + 1
  | .happens _ :: history => opens history

variable {concerns} {history : List (Entry ω)} {l : Ledger υ}

@[simp] theorem ledger_concat (e : Entry ω) : ledger concerns (history ++ [e]) = (ledger concerns history).enter concerns e := by
  simp [ledger]

theorem opens_concat (e : Entry ω) : opens (history ++ [e]) = opens history + opens [e] := by
  induction history with
  | nil => simp [opens]
  | cons e' history ih =>
    rcases e' with _ | o
    · show opens (history ++ [e]) + 1 = opens history + 1 + opens [e]
      omega
    · exact ih

theorem opened_ledger (concerns : ℕ → ω → Option υ) (history : List (Entry ω)) : (ledger concerns history).opened = opens history := by
  induction history using List.reverseRecOn with
  | nil => rfl
  | append_singleton history e ih =>
    rw [ledger_concat, opens_concat, ← ih]
    rcases e with _ | o <;> rfl

theorem settlement_opens (n k : ℕ) : settlement concerns n k (history ++ [.opens]) = settlement concerns n k history := by
  induction history generalizing k with
  | nil => rfl
  | cons e history ih =>
    rcases e with _ | o
    · exact ih (k + 1)
    · show (if n < k then concerns n o else none).or (settlement concerns n k (history ++ [.opens])) = _
      rw [ih]
      rfl

theorem settlement_happens (n k : ℕ) (o : ω) : settlement concerns n k (history ++ [.happens o]) =
    (settlement concerns n k history).or (if n < k + opens history then concerns n o else none) := by
  induction history generalizing k with
  | nil =>
    show (if n < k then concerns n o else none).or none = Option.or none (if n < k + 0 then concerns n o else none)
    rw [Option.or_none, Option.none_or, Nat.add_zero]
  | cons e history ih =>
    rcases e with _ | o'
    · show settlement concerns n (k + 1) (history ++ [.happens o]) = _
      rw [ih, Nat.add_assoc, Nat.add_comm 1]
      rfl
    · show (if n < k then concerns n o' else none).or (settlement concerns n k (history ++ [.happens o])) = _
      rw [ih, ← Option.or_assoc]
      rfl

/-- The promises that were opened wait or are settled, and none is settled twice. -/
structure Ledger.Balanced (l : Ledger υ) : Prop where
  waiting_nodup : l.waiting.Nodup
  settled_nodup : (l.settled.map Prod.fst).Nodup
  waits_iff : ∀ n, n ∈ l.waiting ↔ n < l.opened ∧ n ∉ l.settled.map Prod.fst
  opened : ∀ n ∈ l.settled.map Prod.fst, n < l.opened

theorem map_fst_filterMap (waiting : List ℕ) (f : ℕ → Option υ) :
    (waiting.filterMap fun n => (f n).map (n, ·)).map Prod.fst = waiting.filter fun n => (f n).isSome := by
  induction waiting with
  | nil => rfl
  | cons n waiting ih =>
    rcases hn : f n with _ | v
    · rw [List.filterMap_cons_none (by rw [hn]; rfl), List.filter_cons_of_neg (by simp [hn]), ih]
    · rw [List.filterMap_cons_some (by rw [hn]; rfl), List.filter_cons_of_pos (by simp [hn]), List.map_cons, ih]

theorem Ledger.Balanced.enter (h : l.Balanced) (e : Entry ω) : (l.enter concerns e).Balanced := by
  rcases e with _ | o
  · have hfresh : l.opened ∉ l.waiting := fun hmem => absurd ((h.waits_iff _).mp hmem).1 (Nat.lt_irrefl _)
    have hunsettled : l.opened ∉ l.settled.map Prod.fst := fun hmem => absurd (h.opened _ hmem) (Nat.lt_irrefl _)
    refine ⟨?_, h.settled_nodup, fun n => ?_, fun n hn => Nat.lt_succ_of_lt (h.opened n hn)⟩
    · exact List.nodup_append.mpr ⟨h.waiting_nodup, List.nodup_singleton _, fun a ha b hb => by
        rintro rfl
        exact hfresh (List.mem_singleton.mp hb ▸ ha)⟩
    · show n ∈ l.waiting ++ [l.opened] ↔ n < l.opened + 1 ∧ n ∉ l.settled.map Prod.fst
      rw [List.mem_append, h.waits_iff, List.mem_singleton]
      constructor
      · rintro (⟨hn, hout⟩ | rfl)
        · exact ⟨Nat.lt_succ_of_lt hn, hout⟩
        · exact ⟨Nat.lt_succ_self _, hunsettled⟩
      · rintro ⟨hn, hout⟩
        by_cases heq : n = l.opened
        · exact .inr heq
        · exact .inl ⟨by omega, hout⟩
  · have hfst : (l.enter concerns (.happens o)).settled.map Prod.fst =
        l.settled.map Prod.fst ++ l.waiting.filter fun n => (concerns n o).isSome := by
      show (l.settled ++ _).map Prod.fst = _
      rw [List.map_append, map_fst_filterMap]
    refine ⟨h.waiting_nodup.filter _, ?_, fun n => ?_, fun n hn => ?_⟩
    · rw [hfst]
      refine List.nodup_append.mpr ⟨h.settled_nodup, h.waiting_nodup.filter _, fun a ha b hb => ?_⟩
      rintro rfl
      exact ((h.waits_iff a).mp (List.mem_of_mem_filter hb)).2 ha
    · rw [hfst]
      show n ∈ l.waiting.filter (fun n => (concerns n o).isNone) ↔ n < l.opened ∧ _
      rw [List.mem_filter, List.mem_append, List.mem_filter, h.waits_iff]
      rcases concerns n o with _ | v <;> simp
      tauto
    · rw [hfst, List.mem_append, List.mem_filter] at hn
      rcases hn with hn | hn
      · exact h.opened n hn
      · exact ((h.waits_iff n).mp hn.1).1

theorem balanced_ledger (concerns : ℕ → ω → Option υ) (history : List (Entry ω)) : (ledger concerns history).Balanced := by
  induction history using List.reverseRecOn with
  | nil => exact ⟨List.nodup_nil, List.nodup_nil, by simp [ledger], by simp [ledger]⟩
  | append_singleton history e ih =>
    rw [ledger_concat]
    exact ih.enter e

/-- What concerns no promise that waits changes nothing. -/
theorem enter_none {o : ω} (h : ∀ n ∈ l.waiting, concerns n o = none) : l.enter concerns (.happens o) = l := by
  have hwaiting : l.waiting.filter (fun n => (concerns n o).isNone) = l.waiting :=
    List.filter_eq_self.mpr fun n hn => by rw [h n hn]; rfl
  have hsettled : (l.waiting.filterMap fun n => (concerns n o).map (n, ·)) = [] :=
    List.filterMap_eq_nil_iff.mpr fun n hn => by rw [h n hn]; rfl
  unfold Ledger.enter
  dsimp only
  rw [hwaiting, hsettled, List.append_nil]

/-- What concerns one promise settles it. -/
theorem enter_one {o : ω} {c : ℕ} {v : υ} (hnodup : l.waiting.Nodup) (hc : c ∈ l.waiting)
    (h : ∀ n ∈ l.waiting, concerns n o = if n = c then some v else none) :
    l.enter concerns (.happens o) =
      { l with waiting := l.waiting.filter (· ≠ c), settled := l.settled ++ [(c, v)] } := by
  have hwaiting : l.waiting.filter (fun n => (concerns n o).isNone) = l.waiting.filter (· ≠ c) := by
    refine List.filter_congr fun n hn => ?_
    rw [h n hn]
    by_cases heq : n = c <;> simp [heq]
  have hsettled : (l.waiting.filterMap fun n => (concerns n o).map (n, ·)) = [(c, v)] := by
    obtain ⟨before, after, hsplit⟩ := List.append_of_mem hc
    rw [hsplit] at h hnodup ⊢
    have hnone : ∀ part : List ℕ, (∀ n ∈ part, n ∈ before ++ c :: after) → c ∉ part →
        (part.filterMap fun n => (concerns n o).map (n, ·)) = [] := by
      refine fun part hpart hout => List.filterMap_eq_nil_iff.mpr fun n hn => ?_
      have hne : n ≠ c := fun heq => hout (heq ▸ hn)
      rw [h n (hpart n hn), if_neg hne]
      rfl
    have hbefore : c ∉ before := fun hmem =>
      (List.nodup_append.mp hnodup).2.2 c hmem c List.mem_cons_self rfl
    have hafter : c ∉ after := (List.nodup_cons.mp (List.nodup_append.mp hnodup).2.1).1
    have hself : concerns c o = some v := by
      rw [h c (by simp), if_pos rfl]
    rw [List.filterMap_append, hnone before (fun n hn => List.mem_append_left _ hn) hbefore,
      List.filterMap_cons_some (by rw [hself]; rfl),
      hnone after (fun n hn => List.mem_append_right _ (List.mem_cons_of_mem _ hn)) hafter, List.nil_append]
  unfold Ledger.enter
  dsimp only
  rw [hwaiting, hsettled]

/-- A promise that is settled as soon as it is opened. -/
theorem enter_opened {o : ω} {v : υ} (hbalanced : l.Balanced)
    (h : ∀ n, concerns n o = if n = l.opened then some v else none) :
    (l.enter concerns .opens).enter concerns (.happens o) =
      { l with opened := l.opened + 1, settled := l.settled ++ [(l.opened, v)] } := by
  have hopened : l.enter concerns .opens = { l with opened := l.opened + 1, waiting := l.waiting ++ [l.opened] } := rfl
  have hfilter : (l.waiting ++ [l.opened]).filter (· ≠ l.opened) = l.waiting := by
    have hrest : l.waiting.filter (· ≠ l.opened) = l.waiting := by
      refine List.filter_eq_self.mpr fun n hn => decide_eq_true ?_
      rintro rfl
      exact absurd ((hbalanced.waits_iff _).mp hn).1 (Nat.lt_irrefl _)
    rw [List.filter_append, hrest]
    simp
  have hmem : l.opened ∈ (l.enter concerns .opens).waiting := List.mem_append_right _ (List.mem_singleton_self _)
  rw [enter_one (hbalanced.enter _).waiting_nodup hmem fun n _ => h n, hopened]
  dsimp only
  rw [hfilter]

/-- What concerns every promise that waits settles them all. -/
theorem enter_all {o : ω} {v : υ} (h : ∀ n, concerns n o = some v) : l.enter concerns (.happens o) =
    { l with waiting := [], settled := l.settled ++ l.waiting.map (·, v) } := by
  have hwaiting : l.waiting.filter (fun n => (concerns n o).isNone) = [] :=
    List.filter_eq_nil_iff.mpr fun n _ => by simp [h n]
  have hsettled : (l.waiting.filterMap fun n => (concerns n o).map (n, ·)) = l.waiting.map (·, v) := by
    rw [← List.filterMap_eq_map]
    exact List.filterMap_congr fun n _ => by rw [h n]; rfl
  unfold Ledger.enter
  dsimp only
  rw [hwaiting, hsettled]

/-! ### What one promise is settled with -/

/-- What a promise was settled with is what something in the history settles it with. -/
theorem exists_of_mem_settled {n : ℕ} {v : υ} (h : (n, v) ∈ (ledger concerns history).settled) :
    ∃ o, .happens o ∈ history ∧ concerns n o = some v := by
  induction history using List.reverseRecOn with
  | nil => exact absurd h List.not_mem_nil
  | append_singleton history e ih =>
    rw [ledger_concat] at h
    have hprefix : (n, v) ∈ (ledger concerns history).settled →
        ∃ o, .happens o ∈ history ++ [e] ∧ concerns n o = some v := fun h => by
      obtain ⟨o, ho, hconcerns⟩ := ih h
      exact ⟨o, List.mem_append_left _ ho, hconcerns⟩
    rcases e with _ | o
    · exact hprefix h
    · rcases List.mem_append.mp h with h | h
      · exact hprefix h
      · obtain ⟨m, -, hm⟩ := List.mem_filterMap.mp h
        obtain ⟨w, hw, heq⟩ := Option.map_eq_some_iff.mp hm
        obtain ⟨rfl, rfl⟩ := Prod.mk.inj heq
        exact ⟨o, by simp, hw⟩

theorem lookup_filterMap (waiting : List ℕ) (f : ℕ → Option υ) (n : ℕ) :
    (waiting.filterMap fun n => (f n).map (n, ·)).lookup n = if n ∈ waiting then f n else none := by
  induction waiting with
  | nil => rfl
  | cons m waiting ih =>
    by_cases heq : n = m
    · subst heq
      rw [if_pos List.mem_cons_self]
      rcases hn : f n with _ | v
      · rw [List.filterMap_cons_none (by rw [hn]; rfl), ih, hn, ite_self]
      · rw [List.filterMap_cons_some (by rw [hn]; rfl), List.lookup_cons, beq_self_eq_true]
    · have hmem : n ∈ m :: waiting ↔ n ∈ waiting := by simp [heq]
      rw [if_congr hmem rfl rfl]
      rcases hm : f m with _ | v
      · rw [List.filterMap_cons_none (by rw [hm]; rfl), ih]
      · rw [List.filterMap_cons_some (by rw [hm]; rfl), List.lookup_cons, beq_eq_false_iff_ne.mpr heq, ih]

theorem lookup_eq_none {settled : List (ℕ × υ)} {n : ℕ} : settled.lookup n = none ↔ n ∉ settled.map Prod.fst := by
  induction settled with
  | nil => simp
  | cons p settled ih =>
    rw [List.lookup_cons, List.map_cons, List.mem_cons, not_or, ← ih]
    by_cases heq : n = p.1
    · simp [heq]
    · simp [heq, beq_eq_false_iff_ne.mpr heq]

/-- The ledger has for each promise what first concerned it. -/
theorem lookup_settled (n : ℕ) : (ledger concerns history).settled.lookup n = settlement concerns n 0 history := by
  induction history using List.reverseRecOn with
  | nil => rfl
  | append_singleton history e ih =>
    have hbalanced := balanced_ledger concerns history
    rw [ledger_concat]
    rcases e with _ | o
    · rw [settlement_opens]
      exact ih
    · show ((ledger concerns history).settled ++ _).lookup n = _
      rw [settlement_happens, Nat.zero_add, List.lookup_append, ih, lookup_filterMap, ← opened_ledger concerns history]
      rcases hsettled : settlement concerns n 0 history with _ | v
      · rw [hsettled, lookup_eq_none] at ih
        rw [if_congr (hbalanced.waits_iff n) rfl rfl]
        simp [ih]
      · rfl

end Settling
