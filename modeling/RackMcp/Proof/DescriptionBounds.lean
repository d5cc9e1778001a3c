import RackMcp.Proof.SignalPath
import Mathlib.Algebra.Order.BigOperators.Group.List
import Mathlib.Data.Set.Card

/-!
# The bounds of a patch description

The texts of a description against their schema. Once a first clause is shown, the budget holds whatever follows it
(`length_showExtras`), but the headline is not counted against it, nor are the destinations against the number of
chains. `describePatch_admitted_iff` says for which snapshots the description meets its schema.
-/

namespace RackMcp.Analysis

open Reachability WhileLoop

/-! ### Lengths of texts -/

@[simp] theorem utf16Length_append (a b : String) : utf16Length (a ++ b) = utf16Length a + utf16Length b := by
  simp [utf16Length]

@[simp] theorem utf16Length_empty : utf16Length "" = 0 := rfl

/-- The text of a number has a unit for each digit. -/
theorem utf16Length_toString_le {n k : ℕ} (hk : 0 < k) (h : n < 10 ^ k) : utf16Length (toString n) ≤ k := by
  have hdigits : utf16Length (toString n) = (Nat.toDigits 10 n).length := by
    rw [Nat.toString_eq_repr, utf16Length, Nat.toList_repr]
    refine (List.sum_eq_card_nsmul _ 1 fun x hx => ?_).trans (by simp)
    obtain ⟨c, hc, rfl⟩ := List.mem_map.mp hx
    have hdigit := Nat.isDigit_of_mem_toDigits (by decide) le_rfl hc
    have hle : c.toNat ≤ 57 := by
      simp only [Char.isDigit, Bool.and_eq_true, decide_eq_true_eq] at hdigit
      exact hdigit.2
    exact if_pos (by omega)
  rw [hdigits]
  exact (Nat.length_toDigits_le_iff (by decide) hk).mpr h

theorem utf16Length_andMore_le {n : ℕ} (h : n ≤ 16384) : utf16Length (andMore n) ≤ 14 := by
  have hand : utf16Length "and " = 4 := by decide
  have hmore : utf16Length " more" = 5 := by decide
  have hdigits : utf16Length (toString n) ≤ 5 := utf16Length_toString_le (by decide) (by omega)
  rw [andMore, utf16Length_append, utf16Length_append]
  omega

/-- Joining texts with one of length `k`. -/
theorem utf16Length_intercalate_le (sep : String) (texts : List String) :
    utf16Length (sep.intercalate texts) ≤ (texts.map fun text => utf16Length text + utf16Length sep).sum := by
  induction texts with
  | nil => exact Nat.zero_le _
  | cons text texts ih =>
    rcases texts with _ | ⟨text', texts⟩
    · simp
    · rw [String.intercalate_cons_cons, utf16Length_append, utf16Length_append, List.map_cons, List.sum_cons]
      omega

/-- One more text. -/
theorem utf16Length_intercalate_concat {sep : String} {texts : List String} (h : texts ≠ []) (text : String) :
    utf16Length (sep.intercalate (texts ++ [text])) =
      utf16Length (sep.intercalate texts) + utf16Length sep + utf16Length text := by
  rw [String.intercalate_append_of_ne_nil h (List.cons_ne_nil _ _), utf16Length_append, utf16Length_append,
    String.intercalate_singleton]

/-! ### The budget -/

section Budget

variable {nameOf : String → String} {description : String} {count : ℕ} {pair : String × String}
  {extras : List (String × String)} {shown moduleIds : List String}

/-- Once a clause has been shown, the text stays within its budget. -/
theorem length_showExtras (hcount : count ≤ 16384) (hshown : shown ≠ [])
    (hfits : utf16Length description + utf16Length (", ".intercalate shown) ≤ 978) :
    utf16Length description +
      utf16Length (", ".intercalate (showExtras nameOf description count extras shown moduleIds).1) ≤ 994 := by
  have hsep : utf16Length ", " = 2 := by decide
  induction extras generalizing shown moduleIds with
  | nil =>
    show utf16Length description + utf16Length (", ".intercalate shown) ≤ 994
    omega
  | cons pair extras ih =>
    rw [showExtras]
    split
    · rw [utf16Length_intercalate_concat hshown]
      have hmore : utf16Length (andMore (count - shown.length)) ≤ 14 := utf16Length_andMore_le (by omega)
      omega
    · next hbudget =>
      refine ih (by simp) ?_
      rw [utf16Length_intercalate_concat hshown]
      omega

/-- The text of the other connections, where the first of them fits. -/
theorem length_showExtras_of_fits (extras : List (String × String)) (moduleIds : List String) (hcount : count ≤ 16384)
    (hfits : utf16Length description + utf16Length (clause nameOf pair) + 24 ≤ 1000) :
    utf16Length description +
      utf16Length (", ".intercalate (showExtras nameOf description count (pair :: extras) [] moduleIds).1) ≤ 994 := by
  have hempty : utf16Length (", ".intercalate []) = 0 := rfl
  rw [showExtras, if_neg (by omega)]
  refine length_showExtras hcount (by simp) ?_
  show _ + utf16Length (", ".intercalate [clause nameOf pair]) ≤ 978
  rw [String.intercalate_singleton]
  omega

/-- Where it does not fit, only their number is given. -/
theorem showExtras_of_not_fits
    (hlong : ¬ utf16Length description + utf16Length (clause nameOf pair) + 24 ≤ 1000) :
    (showExtras nameOf description count (pair :: extras) [] moduleIds).1 = [andMore count] := by
  have hempty : utf16Length (", ".intercalate []) = 0 := rfl
  rw [showExtras, if_pos (by omega)]
  rfl

/-- What a chain names: the path and the ends of the other connections. -/
theorem mem_showExtras {id : String}
    (h : id ∈ (showExtras nameOf description count extras shown moduleIds).2) :
    id ∈ moduleIds ∨ ∃ pair ∈ extras, id = pair.1 ∨ id = pair.2 := by
  induction extras generalizing shown moduleIds with
  | nil => exact .inl h
  | cons pair extras ih =>
    rw [showExtras] at h
    split at h
    · exact .inl h
    · rcases ih h with hid | ⟨pair', hpair', hid⟩
      · rw [mem_foldl_setAdd] at hid
        exact hid.imp_right fun hid => ⟨pair, List.mem_cons_self, by simpa using hid⟩
      · exact .inr ⟨pair', List.mem_cons_of_mem pair hpair', hid⟩

end Budget

/-! ### The other connections -/

namespace DecimalId

variable {id : String}

/-- Module ids have no sign that a pair's key has between them. -/
theorem dash_not_mem (h : DecimalId id) : '-' ∉ id.toList := by
  rcases h with rfl | ⟨hfirst, hrest, -⟩
  · decide
  intro hmem
  rcases hlist : id.toList with _ | ⟨c, digits⟩
  · rw [hlist] at hmem
    exact absurd hmem List.not_mem_nil
  · rw [hlist] at hmem hfirst hrest
    rcases List.mem_cons.mp hmem with rfl | hmem
    · have hfirst : decide ('1' ≤ '-' ∧ '-' ≤ '9') = true := hfirst
      exact absurd hfirst (by decide)
    · have hdigit : decide ('0' ≤ '-' ∧ '-' ≤ '9') = true := List.all_eq_true.mp hrest _ hmem
      exact absurd hdigit (by decide)

/-- The key of a pair of module ids tells them apart. -/
theorem pairKey_inj {a b c d : String} (ha : DecimalId a) (hb : DecimalId b) (h : pairKey a b = pairKey c d) :
    a = c ∧ b = d := by
  have hlists : a.toList ++ '-' :: ('>' :: b.toList) = c.toList ++ '-' :: ('>' :: d.toList) := by
    have hkeys := congrArg String.toList h
    simpa [pairKey] using hkeys
  have hdash : '-' ∉ '>' :: b.toList := List.not_mem_cons_of_ne_of_not_mem (by decide) hb.dash_not_mem
  obtain ⟨hac, -, hbd⟩ := (List.append_cons_inj_of_notMem ha.dash_not_mem hdash).mp hlists
  exact ⟨String.toList_inj.mp hac, String.toList_inj.mp (List.cons_inj_right _ |>.mp hbd)⟩

end DecimalId

/-- The one module follows the other on the path. -/
def Consecutive (path : List String) (a b : String) : Prop := ∃ before after, path = before ++ a :: b :: after

theorem mem_onPath {path : List String} {key : String} :
    key ∈ onPath path ↔ ∃ a b, Consecutive path a b ∧ key = pairKey a b := by
  induction path with
  | nil =>
    refine ⟨fun h => absurd h List.not_mem_nil, ?_⟩
    rintro ⟨a, b, ⟨before, after, heq⟩, -⟩
    exact absurd heq.symm (by simp)
  | cons x path ih =>
    rcases path with _ | ⟨y, path⟩
    · refine ⟨fun h => absurd h List.not_mem_nil, ?_⟩
      rintro ⟨a, b, ⟨before, after, heq⟩, -⟩
      have hlen := congrArg List.length heq
      simp only [List.length_append, List.length_cons, List.length_nil] at hlen
      omega
    · rw [onPath, List.mem_cons, ih]
      constructor
      · rintro (rfl | ⟨a, b, ⟨before, after, heq⟩, hkey⟩)
        · exact ⟨x, y, ⟨[], path, rfl⟩, rfl⟩
        · exact ⟨a, b, ⟨x :: before, after, by rw [heq]; rfl⟩, hkey⟩
      · rintro ⟨a, b, ⟨before, after, heq⟩, hkey⟩
        rcases before with _ | ⟨z, before⟩
        · obtain ⟨rfl, rfl, -⟩ : x = a ∧ y = b ∧ path = after := by simpa using heq
          exact .inl hkey
        · exact .inr ⟨a, b, ⟨before, after, (List.cons.inj heq).2⟩, hkey⟩

section Extras

variable {ancestors seenPair : List String} {cables : List CableS}

/-- The pair of modules that a cable joins. -/
def CableS.ends (c : CableS) : String × String := (c.outputModuleId, c.inputModuleId)

/-- The cable is between ancestors, and its pair has not been seen. -/
def Collected (ancestors seenPair : List String) (c : CableS) : Prop :=
  c.outputModuleId ∈ ancestors ∧ c.inputModuleId ∈ ancestors ∧ pairKey c.outputModuleId c.inputModuleId ∉ seenPair

theorem collectExtras_cons (ancestors seenPair : List String) (c : CableS) (cables : List CableS) :
    (Collected ancestors seenPair c ∧ collectExtras ancestors (c :: cables) seenPair =
      c.ends :: collectExtras ancestors cables (pairKey c.outputModuleId c.inputModuleId :: seenPair)) ∨
    (¬ Collected ancestors seenPair c ∧
      collectExtras ancestors (c :: cables) seenPair = collectExtras ancestors cables seenPair) := by
  rw [collectExtras]
  split
  · next hskip =>
    refine .inr ⟨?_, rfl⟩
    rintro ⟨hout, hin, hnew⟩
    rcases hskip with hskip | hskip | hskip
    · exact hskip hout
    · exact hskip hin
    · exact hnew hskip
  · next hkeep =>
    rw [not_or, not_or, not_not, not_not] at hkeep
    exact .inl ⟨hkeep, rfl⟩

/-- The first collected pair is that of the first such cable. -/
theorem collectExtras_eq_cons {pair : String × String} {extras : List (String × String)}
    (h : collectExtras ancestors cables seenPair = pair :: extras) :
    ∃ before c after, cables = before ++ c :: after ∧ pair = c.ends ∧ Collected ancestors seenPair c ∧
      ∀ c' ∈ before, ¬ Collected ancestors seenPair c' := by
  induction cables with
  | nil => cases h
  | cons c cables ih =>
    rcases collectExtras_cons ancestors seenPair c cables with
      ⟨hc, heq⟩ | ⟨hc, heq⟩
    · rw [heq] at h
      exact ⟨[], c, cables, rfl, (List.cons.inj h).1.symm, hc, fun c' hc' => absurd hc' List.not_mem_nil⟩
    · rw [heq] at h
      obtain ⟨before, c', after, rfl, hpair, hc', hbefore⟩ := ih h
      refine ⟨c :: before, c', after, rfl, hpair, hc', fun d hd => ?_⟩
      rcases List.mem_cons.mp hd with rfl | hd
      · exact hc
      · exact hbefore d hd

/-- Where keys tell pairs apart, each pair is collected once. -/
theorem mem_collectExtras (ancestors seenPair : List String)
    (hdecimal : ∀ c ∈ cables, DecimalId c.outputModuleId ∧ DecimalId c.inputModuleId) :
    (collectExtras ancestors cables seenPair).Nodup ∧
      ∀ pair, pair ∈ collectExtras ancestors cables seenPair ↔
        ∃ c ∈ cables, c.ends = pair ∧ Collected ancestors seenPair c := by
  induction cables generalizing seenPair with
  | nil => exact ⟨List.nodup_nil, fun pair => ⟨fun h => absurd h List.not_mem_nil, fun ⟨c, hc, _⟩ => absurd hc List.not_mem_nil⟩⟩
  | cons c cables ih =>
    have ih := fun seenPair => ih seenPair fun c' hc' => hdecimal c' (List.mem_cons_of_mem c hc')
    rcases collectExtras_cons ancestors seenPair c cables with
      ⟨hc, heq⟩ | ⟨hc, heq⟩
    · obtain ⟨hnodup, hmem⟩ := ih (pairKey c.outputModuleId c.inputModuleId :: seenPair)
      obtain ⟨hout, hin⟩ := hdecimal c List.mem_cons_self
      rw [heq]
      refine ⟨List.nodup_cons.mpr ⟨fun hcollected => ?_, hnodup⟩, fun pair => ?_⟩
      · obtain ⟨c', -, hends, -, -, hnew⟩ := (hmem _).mp hcollected
        obtain ⟨hout', hin'⟩ := Prod.mk.inj hends
        rw [hout', hin'] at hnew
        exact hnew List.mem_cons_self
      · rw [List.mem_cons, hmem]
        constructor
        · rintro (rfl | ⟨c', hc', hends, hanc, hanc', hnew⟩)
          · exact ⟨c, List.mem_cons_self, rfl, hc⟩
          · exact ⟨c', List.mem_cons_of_mem c hc', hends, hanc, hanc', fun hin => hnew (List.mem_cons_of_mem _ hin)⟩
        · intro ⟨c', hc', hends, hanc, hanc', hnew⟩
          by_cases hsame : c'.ends = c.ends
          · exact .inl (hends.symm.trans hsame)
          · right
            refine ⟨c', (List.mem_cons.mp hc').resolve_left fun heq => hsame (heq ▸ rfl), hends, hanc, hanc', ?_⟩
            rw [List.mem_cons, not_or]
            refine ⟨fun hkey => hsame ?_, hnew⟩
            obtain ⟨hl, hr⟩ := hout.pairKey_inj hin hkey.symm
            exact (Prod.ext hl hr).symm
    · obtain ⟨hnodup, hmem⟩ := ih seenPair
      rw [heq]
      refine ⟨hnodup, fun pair => ?_⟩
      rw [hmem]
      constructor
      · intro ⟨c', hc', hends, hcollected⟩
        exact ⟨c', List.mem_cons_of_mem c hc', hends, hcollected⟩
      · intro ⟨c', hc', hends, hcollected⟩
        refine ⟨c', (List.mem_cons.mp hc').resolve_left fun heq => hc (heq ▸ hcollected), hends, hcollected⟩

end Extras

namespace Snapshot

variable (snap : Snapshot)

/-- The cable is on the way to the destination, but not between modules that follow each other on the path. -/
def Beside (dest : String) (path : List String) (c : CableS) : Prop :=
  Relation.ReflTransGen snap.Cabled c.outputModuleId dest ∧ Relation.ReflTransGen snap.Cabled c.inputModuleId dest ∧
    ¬ Consecutive path c.outputModuleId c.inputModuleId

/-- The pairs of modules that such cables join. -/
def otherPairs (dest : String) (path : List String) : Set (String × String) :=
  {pair | ∃ c ∈ snap.cables, c.ends = pair ∧ snap.Beside dest path c}

/-- The first such cable. -/
def FirstBeside (dest : String) (path : List String) (c : CableS) : Prop :=
  ∃ before after, snap.cables = before ++ c :: after ∧ snap.Beside dest path c ∧
    ∀ c' ∈ before, ¬ snap.Beside dest path c'

/-- The headline alone keeps to the bound where it is the whole text. Elsewhere there is room after it for a first
clause within the budget, or for the number of the other connections within the bound. -/
structure DescriptionFits (dest : ModuleS) (path : List String) : Prop where
  alone : snap.otherPairs dest.moduleId path = ∅ → utf16Length (headline snap dest path) ≤ 1024
  others : ∀ c, snap.FirstBeside dest.moduleId path c →
    utf16Length (headline snap dest path) + utf16Length (clause snap.nameOf c.ends) + 24 ≤ 1000 ∨
      utf16Length (headline snap dest path) + utf16Length "; also feeding it: " +
        utf16Length (andMore (snap.otherPairs dest.moduleId path).ncard) ≤ 1024

end Snapshot

section Chain

variable {snap : Snapshot} {dest : ModuleS} {ancestors path : List String}

theorem collected_iff (h : snap.Admitted)
    (hancestors : ∀ id, id ∈ ancestors ↔ Relation.ReflTransGen snap.Cabled id dest.moduleId) {c : CableS}
    (hc : c ∈ snap.cables) : Collected ancestors (onPath path) c ↔ snap.Beside dest.moduleId path c := by
  obtain ⟨hout, hin⟩ := h.cable_ends c hc
  rw [Collected, Snapshot.Beside, hancestors, hancestors, mem_onPath]
  refine and_congr_right fun _ => and_congr_right fun _ => not_congr ⟨?_, fun hnext => ⟨_, _, hnext, rfl⟩⟩
  intro ⟨a, b, hnext, hkey⟩
  obtain ⟨rfl, rfl⟩ := hout.pairKey_inj hin hkey
  exact hnext

/-- What is collected for a chain: the pairs of the cables beside the path, each once, the first cable's first. -/
theorem collectExtras_spec (path : List String) (h : snap.Admitted)
    (hancestors : ∀ id, id ∈ ancestors ↔ Relation.ReflTransGen snap.Cabled id dest.moduleId) :
    (∀ pair, pair ∈ collectExtras ancestors snap.cables (onPath path) ↔ pair ∈ snap.otherPairs dest.moduleId path) ∧
      (collectExtras ancestors snap.cables (onPath path)).length = (snap.otherPairs dest.moduleId path).ncard := by
  obtain ⟨hnodup, hmem⟩ := mem_collectExtras ancestors (onPath path) h.cable_ends
  have hset : ∀ pair, pair ∈ collectExtras ancestors snap.cables (onPath path) ↔
      pair ∈ snap.otherPairs dest.moduleId path := by
    intro pair
    rw [hmem]
    exact exists_congr fun c => and_congr_right fun hc => and_congr_right fun _ => collected_iff h hancestors hc
  refine ⟨hset, ?_⟩
  rw [← List.toFinset_card_of_nodup hnodup, ← Set.ncard_coe_finset]
  congr 1
  ext pair
  rw [Finset.mem_coe, List.mem_toFinset, hset]

theorem collectExtras_length_le (ancestors seenPair : List String) (cables : List CableS) :
    (collectExtras ancestors cables seenPair).length ≤ cables.length := by
  induction cables generalizing seenPair with
  | nil => exact Nat.zero_le _
  | cons c cables ih =>
    rcases collectExtras_cons ancestors seenPair c cables with ⟨-, heq⟩ | ⟨-, heq⟩
    · rw [heq]
      exact Nat.succ_le_succ (ih _)
    · rw [heq]
      exact (ih _).trans (Nat.le_succ _)

theorem firstBeside_unique {c c' : CableS} {dest : String} (h : snap.FirstBeside dest path c)
    (h' : snap.FirstBeside dest path c') : c = c' := by
  obtain ⟨before, after, heq, hc, hbefore⟩ := h
  obtain ⟨before', after', heq', hc', hbefore'⟩ := h'
  rcases List.append_eq_append_iff.mp (heq.symm.trans heq') with ⟨between, hbegins, hsuffix⟩ | ⟨between, hbegins, hsuffix⟩
  · rcases between with _ | ⟨d, between⟩
    · exact (List.cons.inj hsuffix).1
    · have hd : c = d := (List.cons.inj hsuffix).1
      have hmem : c ∈ before' := by
        rw [hbegins, hd]
        exact List.mem_append_right _ List.mem_cons_self
      exact absurd hc (hbefore' c hmem)
  · rcases between with _ | ⟨d, between⟩
    · exact (List.cons.inj hsuffix).1.symm
    · have hd : c' = d := (List.cons.inj hsuffix).1
      have hmem : c' ∈ before := by
        rw [hbegins, hd]
        exact List.mem_append_right _ List.mem_cons_self
      exact absurd hc' (hbefore c' hmem)

/-- The description of a chain keeps to its bound exactly where there is room. -/
theorem description_le_iff (h : snap.Admitted)
    (hancestors : ∀ id, id ∈ ancestors ↔ Relation.ReflTransGen snap.Cabled id dest.moduleId) :
    utf16Length (chainFrom snap dest ancestors path).description ≤ 1024 ↔ snap.DescriptionFits dest path := by
  obtain ⟨hmem, hlength⟩ := collectExtras_spec path h hancestors
  have hcount := (collectExtras_length_le ancestors (onPath path) snap.cables).trans h.cables_length
  have halso : utf16Length "; also feeding it: " = 19 := by decide
  unfold chainFrom
  rcases hextras : collectExtras ancestors snap.cables (onPath path) with _ | ⟨pair, extras⟩
  · -- the headline is the whole text
    rw [hextras] at hmem
    have hempty : snap.otherPairs dest.moduleId path = ∅ :=
      Set.eq_empty_of_forall_notMem fun pair hpair => absurd ((hmem pair).mpr hpair) List.not_mem_nil
    refine ⟨fun hle => ⟨fun _ => hle, fun c hfirst => ?_⟩, fun hfits => hfits.alone hempty⟩
    obtain ⟨before, after, heq, hc, -⟩ := hfirst
    have hcable : c ∈ snap.cables := heq ▸ List.mem_append_right _ List.mem_cons_self
    exact absurd ((hmem c.ends).mpr ⟨c, hcable, rfl, hc⟩) List.not_mem_nil
  · obtain ⟨before, c, after, heq, rfl, hc, hbefore⟩ := collectExtras_eq_cons hextras
    have hcables : ∀ d ∈ before, d ∈ snap.cables := fun d hd => heq ▸ List.mem_append_left _ hd
    have hcable : c ∈ snap.cables := heq ▸ List.mem_append_right _ List.mem_cons_self
    have hfirst : snap.FirstBeside dest.moduleId path c :=
      ⟨before, after, heq, (collected_iff h hancestors hcable).mp hc, fun d hd hbeside =>
        hbefore d hd ((collected_iff h hancestors (hcables d hd)).mpr hbeside)⟩
    have hsome : snap.otherPairs dest.moduleId path ≠ ∅ :=
      Set.nonempty_iff_ne_empty.mp ⟨c.ends, c, hcable, rfl, hfirst.choose_spec.choose_spec.2.1⟩
    rw [hextras] at hlength hcount
    -- the condition is one on the first cable
    have hfits : snap.DescriptionFits dest path ↔
        utf16Length (headline snap dest path) + utf16Length (clause snap.nameOf c.ends) + 24 ≤ 1000 ∨
          utf16Length (headline snap dest path) + utf16Length "; also feeding it: " +
            utf16Length (andMore (c.ends :: extras).length) ≤ 1024 := by
      rw [hlength]
      refine ⟨fun hfits => hfits.others c hfirst, fun hroom => ⟨fun hempty => absurd hempty hsome, fun c' hc' => ?_⟩⟩
      rwa [firstBeside_unique hc' hfirst]
    rw [hfits]
    dsimp only
    rw [utf16Length_append, utf16Length_append]
    by_cases hroom : utf16Length (headline snap dest path) + utf16Length (clause snap.nameOf c.ends) + 24 ≤ 1000
    · have hlen := length_showExtras_of_fits extras path hcount hroom
      refine ⟨fun _ => .inl hroom, fun _ => ?_⟩
      omega
    · rw [showExtras_of_not_fits hroom, String.intercalate_singleton]
      exact (or_iff_right hroom).symm

/-- Every module id of a chain is one of the snapshot. -/
theorem chainFrom_decimal (h : snap.Admitted) (hdest : DecimalId dest.moduleId) (hpath : snap.CablePath path dest.moduleId) :
    ∀ id ∈ (chainFrom snap dest ancestors path).moduleIds, DecimalId id := by
  have honPath : ∀ id ∈ path, DecimalId id := by
    intro id hid
    have hleads := (Snapshot.isPath_iff.mpr hpath).reach id hid
    rw [LongestPath.Reach, Snapshot.incoming_rel] at hleads
    rcases Relation.ReflTransGen.cases_head hleads with rfl | ⟨next, ⟨c, hc, rfl, -⟩, -⟩
    · exact hdest
    · exact (h.cable_ends c hc).1
  unfold chainFrom
  dsimp only
  split
  · exact fun id hid => honPath id (List.mem_of_mem_take hid)
  · intro id hid
    rcases mem_showExtras (List.mem_of_mem_take hid) with hid | ⟨pair, hpair, hid⟩
    · exact honPath id hid
    · obtain ⟨c, hc, rfl, -⟩ := ((mem_collectExtras _ _ h.cable_ends).2 pair).mp hpair
      rcases hid with rfl | rfl
      · exact (h.cable_ends c hc).1
      · exact (h.cable_ends c hc).2

/-- A chain meets its schema exactly where there is room for its description. -/
theorem chain_admitted_iff (h : snap.Admitted) (hdest : dest ∈ snap.modules) {chain : SignalChain}
    (hchain : Returns (chainOf snap · dest) chain) :
    chain.Admitted ↔ ∀ path, Returns (longestCablePathTo snap dest.moduleId) path → snap.DescriptionFits dest path := by
  obtain ⟨ancestors, path, hancestors, hpath, hcable, hfrom⟩ := chainOf_returns snap dest
  rw [hchain.unique hfrom]
  constructor
  · intro hadmitted path' hpath'
    rw [← hpath.unique hpath']
    exact (description_le_iff h hancestors).mp hadmitted.description
  · intro hfits
    obtain ⟨ids, hids, -, -⟩ := chainFrom_moduleIds snap dest ancestors hcable.nodup
    refine ⟨(description_le_iff h hancestors).mpr (hfits path hpath), ?_, ?_⟩
    · exact chainFrom_decimal h (h.moduleId dest hdest) hcable
    · rw [hids, List.length_take]
      exact min_le_left _ _

end Chain

/-! ### The other texts -/

theorem utf16Length_warnings (snap : Snapshot) :
    (∀ warning ∈ warnings snap, utf16Length warning ≤ 1024) ∧ (warnings snap).length ≤ 128 := by
  unfold warnings
  by_cases hdest : snap.destinations.length = 0 <;> by_cases hbridge : snap.bridgeModuleCount = 0
  all_goals
    simp only [hdest, hbridge, if_true, if_false]
    decide

theorem utf16Length_summary_le {snap : Snapshot} (hasAdapter : String → String → Bool) (h : snap.Admitted) :
    utf16Length (" ".intercalate (summaryParts hasAdapter snap)) ≤ 8192 := by
  have hcount : ∀ {n}, n ≤ 16384 → utf16Length (toString n) ≤ 5 := fun hn =>
    utf16Length_toString_le (by decide) (by omega)
  have hmodules := h.modules_length
  have hmodulesText := hcount (hmodules.trans (by decide))
  have hcablesText := hcount h.cables_length
  have hdestText : utf16Length (toString snap.destinations.length) ≤ 5 :=
    hcount ((List.length_filter_le _ _).trans (hmodules.trans (by decide)))
  have hunknownText : utf16Length (toString (unknownModuleCount hasAdapter snap)) ≤ 5 :=
    hcount ((List.length_filter_le _ _).trans (hmodules.trans (by decide)))
  refine (utf16Length_intercalate_le _ _).trans ?_
  refine (List.Sublist.sum_le_sum (List.filter_sublist.map _) fun _ _ => Nat.zero_le _).trans ?_
  have h1 : utf16Length " modules, " = 10 := by decide
  have h2 : utf16Length " cables." = 8 := by decide
  have h3 : utf16Length " audio destination(s)." = 22 := by decide
  have h4 : utf16Length "No audio destination." = 21 := by decide
  have h5 : utf16Length " module(s) without a verified adapter, described heuristically." = 63 := by decide
  have h6 : utf16Length " " = 1 := by decide
  simp only [List.map_cons, List.map_nil, List.sum_cons, List.sum_nil, utf16Length_append]
  split <;> split <;> simp only [utf16Length_append, utf16Length_empty] <;> omega

theorem forall_iff_of_forall₂ {α β : Type*} {P : α → Prop} {Q : β → Prop} {l : List α} {l' : List β}
    (h : List.Forall₂ (fun a b => Q b ↔ P a) l l') : (∀ b ∈ l', Q b) ↔ ∀ a ∈ l, P a := by
  induction h with
  | nil => simp
  | cons hab _ ih => rw [List.forall_mem_cons, List.forall_mem_cons, hab, ih]

/-- Of a snapshot that its schema admits, the description ends. It meets its own schema exactly where there are at most
128 destinations and, for each, room for the description of its chain. -/
theorem describePatch_admitted_iff (hasAdapter : String → String → Bool) {snap : Snapshot} (h : snap.Admitted) :
    ∃ output, Returns (describePatch hasAdapter snap) output ∧
      (output.Admitted ↔ snap.destinations.length ≤ 128 ∧ ∀ dest ∈ snap.destinations, ∀ path,
        Returns (longestCablePathTo snap dest.moduleId) path → snap.DescriptionFits dest path) := by
  obtain ⟨output, hreturns, hsummary, hwarnings, hchains⟩ := describePatch_returns hasAdapter snap
  refine ⟨output, hreturns, ?_⟩
  have hfits := forall_iff_of_forall₂ (hchains.imp fun dest chain ⟨hdest, hchain⟩ => chain_admitted_iff h hdest hchain)
  constructor
  · intro hadmitted
    exact ⟨hchains.length_eq ▸ hadmitted.chains_length, hfits.mp hadmitted.chains⟩
  · intro ⟨hlength, hroom⟩
    refine ⟨?_, hfits.mpr hroom, hchains.length_eq ▸ hlength, ?_, ?_⟩
    · rw [hsummary]
      exact utf16Length_summary_le hasAdapter h
    · rw [hwarnings]
      exact (utf16Length_warnings snap).1
    · rw [hwarnings]
      exact (utf16Length_warnings snap).2

def audioInterface : ModuleS := ⟨"100", "Audio 8", "AudioInterface", "Core"⟩

/-- A name as long as the schema admits. -/
def effectName : String := String.ofList (List.replicate 256 'e')

/-- The interface, and so many effects of that name in a row that play through it. -/
def effectChain (n : ℕ) : Snapshot where
  modules := (List.range n).map (fun i => ⟨toString (i + 1), effectName, "Effect", "Effects"⟩) ++ [audioInterface]
  cables := (List.range n).map fun i => ⟨toString (i + 1), if i + 1 = n then "100" else toString (i + 2)⟩
  bridgeModuleCount := 1

theorem utf16Length_replicate (n : ℕ) : utf16Length (String.ofList (List.replicate n 'e')) = n := by
  simp [utf16Length]

theorem utf16Length_effectName : utf16Length effectName = 256 := utf16Length_replicate 256

/-- Up to four effects, the schema of the snapshot admits it. -/
theorem effectChain_admitted {n : ℕ} (hn : n ≤ 4) : (effectChain n).Admitted := by
  have hid : ∀ i < 5, DecimalId (toString (i + 1)) := by decide
  have hlast : DecimalId "100" := by decide
  have hmodules : ∀ m ∈ (effectChain n).modules, (∃ i < n, m = ⟨toString (i + 1), effectName, "Effect", "Effects"⟩) ∨
      m = audioInterface := by
    intro m hm
    rcases List.mem_append.mp hm with hm | hm
    · obtain ⟨i, hi, rfl⟩ := List.mem_map.mp hm
      exact .inl ⟨i, List.mem_range.mp hi, rfl⟩
    · exact .inr (List.mem_singleton.mp hm)
  constructor
  case modules_length =>
    simp only [effectChain, List.length_append, List.length_map, List.length_range, List.length_singleton]
    omega
  case cables_length =>
    simp only [effectChain, List.length_map, List.length_range]
    omega
  case moduleId =>
    intro m hm
    rcases hmodules m hm with ⟨i, hi, rfl⟩ | rfl
    · exact hid i (by omega)
    · exact hlast
  case modelName =>
    intro m hm
    rcases hmodules m hm with ⟨i, -, rfl⟩ | rfl
    · exact utf16Length_effectName.le
    · have hname : utf16Length "Audio 8" ≤ 256 := by decide
      exact hname
  case slugs =>
    have heffect : Slug "Effects" ∧ Slug "Effect" := by decide
    have haudio : Slug "Core" ∧ Slug "AudioInterface" := by decide
    intro m hm
    rcases hmodules m hm with ⟨i, -, rfl⟩ | rfl
    · exact heffect
    · exact haudio
  case cable_ends =>
    intro c hc
    obtain ⟨i, hi, rfl⟩ := List.mem_map.mp hc
    have hi := List.mem_range.mp hi
    refine ⟨hid i (by omega), ?_⟩
    show DecimalId (if i + 1 = n then "100" else toString (i + 2))
    split
    · exact hlast
    · exact hid (i + 1) (by omega)

/-- What the loop has found with some fuel is what it finds. -/
theorem longestCablePathTo_returns_of_eq {snap : Snapshot} {dest : String} {fuel : ℕ} {path : List String}
    (h : longestCablePathTo snap dest fuel = some path) : Returns (longestCablePathTo snap dest) path := by
  obtain ⟨t, ht, rfl⟩ := Option.map_eq_some_iff.mp h
  refine ⟨fuel, fun fuel' hle => ?_⟩
  rw [longestCablePathTo, LongestPath.longestPathTo, run_mono ht hle]
  rfl

theorem utf16Length_append₄ {a b c d : String} {k m : ℕ} (ha : utf16Length a = k) (hc : utf16Length c = m) :
    utf16Length (a ++ b ++ c ++ d) = k + utf16Length b + m + utf16Length d := by
  subst ha hc
  simp only [utf16Length_append]

theorem utf16Length_headline (snap : Snapshot) (dest : ModuleS) (path : List String) :
    utf16Length (headline snap dest path) =
      17 + utf16Length dest.modelName + 2 + utf16Length (" → ".intercalate (path.map snap.nameOf)) :=
  utf16Length_append₄ (by decide) (by decide)

/-- One effect fits. -/
theorem describePatch_admitted_single :
    ∃ output, Returns (describePatch (fun _ _ => true) (effectChain 1)) output ∧ output.Admitted := by
  obtain ⟨output, hreturns, hiff⟩ := describePatch_admitted_iff (fun _ _ => true) (effectChain_admitted (n := 1) (by decide))
  refine ⟨output, hreturns, hiff.mpr ⟨by decide, fun dest hdest path hpath => ?_⟩⟩
  have hdests : (effectChain 1).destinations = [audioInterface] := rfl
  rw [hdests, List.mem_singleton] at hdest
  subst hdest
  have hfound : longestCablePathTo (effectChain 1) audioInterface.moduleId 20 = some ["1", "100"] := by decide +kernel
  rw [hpath.unique (longestCablePathTo_returns_of_eq hfound)]
  have hnames : (["1", "100"] : List String).map (effectChain 1).nameOf = [effectName, "Audio 8"] := rfl
  constructor
  · intro _
    rw [utf16Length_headline, hnames, String.intercalate_cons_cons, String.intercalate_singleton, utf16Length_append,
      utf16Length_append, utf16Length_effectName]
    decide
  · -- its only cable is on the path
    rintro c ⟨before, after, hcables, hbeside, -⟩
    have hmem : c ∈ (effectChain 1).cables := hcables ▸ List.mem_append_right _ List.mem_cons_self
    obtain rfl : c = ⟨"1", "100"⟩ := List.mem_singleton.mp hmem
    exact absurd ⟨[], [], rfl⟩ hbeside.2.2

/-- A description starts with its headline. -/
theorem headline_le (snap : Snapshot) (dest : ModuleS) (ancestors path : List String) :
    utf16Length (headline snap dest path) ≤ utf16Length (chainFrom snap dest ancestors path).description := by
  unfold chainFrom
  dsimp only
  split
  · exact le_rfl
  · rw [utf16Length_append, utf16Length_append]
    omega

/-- Joining texts that have at least the length `k` each. -/
theorem le_utf16Length_intercalate (sep : String) (k : ℕ) (texts : List String) (h : ∀ text ∈ texts, k ≤ utf16Length text) :
    texts.length * (k + utf16Length sep) ≤ utf16Length (sep.intercalate texts) + utf16Length sep := by
  induction texts with
  | nil => simp
  | cons text texts ih =>
    have htext := h text List.mem_cons_self
    have ih := ih fun text' htext' => h text' (List.mem_cons_of_mem _ htext')
    rw [List.length_cons, Nat.succ_mul]
    rcases texts with _ | ⟨text', texts⟩
    · rw [String.intercalate_singleton]
      simpa using htext
    · rw [String.intercalate_cons_cons, utf16Length_append, utf16Length_append]
      omega

theorem exists_of_forall₂ {α β : Type*} {R : α → β → Prop} {l : List α} {l' : List β} (h : List.Forall₂ R l l') {a : α}
    (ha : a ∈ l) : ∃ b ∈ l', R a b := by
  induction h with
  | nil => exact absurd ha List.not_mem_nil
  | cons hab _ ih =>
    rcases List.mem_cons.mp ha with rfl | ha
    · exact ⟨_, List.mem_cons_self, hab⟩
    · obtain ⟨b, hb, hr⟩ := ih ha
      exact ⟨b, List.mem_cons_of_mem _ hb, hr⟩

theorem effectPath_returns :
    Returns (longestCablePathTo (effectChain 4) audioInterface.moduleId) ["1", "2", "3", "4", "100"] := by
  have hfound : longestCablePathTo (effectChain 4) audioInterface.moduleId 20 = some ["1", "2", "3", "4", "100"] := by
    decide +kernel
  exact longestCablePathTo_returns_of_eq hfound

theorem effectPath_names : (["1", "2", "3", "4", "100"] : List String).map (effectChain 4).nameOf =
    List.replicate 4 effectName ++ ["Audio 8"] := rfl

theorem le_headline_effectPath :
    1024 < utf16Length (headline (effectChain 4) audioInterface ["1", "2", "3", "4", "100"]) := by
  have hnames := utf16Length_headline (effectChain 4) audioInterface ["1", "2", "3", "4", "100"]
  have heffects := le_utf16Length_intercalate " → " 256 (List.replicate 4 effectName) fun text htext =>
    ((congrArg utf16Length (List.eq_of_mem_replicate htext)).trans utf16Length_effectName).ge
  have hjoined : utf16Length (" → ".intercalate (List.replicate 4 effectName ++ ["Audio 8"])) = _ :=
    utf16Length_intercalate_concat (by simp) _
  have harrow : utf16Length " → " = 3 := by decide
  have hlast : utf16Length "Audio 8" = 7 := by decide
  have hdest : utf16Length audioInterface.modelName = 7 := hlast
  rw [effectPath_names, hjoined] at hnames
  rw [List.length_replicate] at heffects
  generalize utf16Length (headline _ _ _) = total at *
  generalize utf16Length (String.intercalate _ _) = effects at *
  rw [harrow] at heffects hnames
  omega

/-- The headline through four effects is too long for the schema. -/
theorem description_overlong :
    (effectChain 4).Admitted ∧ ∃ output, Returns (describePatch (fun _ _ => true) (effectChain 4)) output ∧
      ¬ output.Admitted := by
  refine ⟨effectChain_admitted le_rfl, ?_⟩
  obtain ⟨output, hreturns, -, -, hchains⟩ := describePatch_returns (fun _ _ => true) (effectChain 4)
  refine ⟨output, hreturns, fun hadmitted => ?_⟩
  have hdest : audioInterface ∈ (effectChain 4).destinations :=
    List.mem_filter.mpr ⟨List.mem_append_right _ List.mem_cons_self, by decide⟩
  obtain ⟨chain, hmem, -, hchain⟩ := exists_of_forall₂ hchains hdest
  obtain ⟨ancestors, path, -, hpath, -, hfrom⟩ := chainOf_returns (effectChain 4) audioInterface
  have hlong := headline_le (effectChain 4) audioInterface ancestors path
  rw [← hchain.unique hfrom, hpath.unique effectPath_returns] at hlong
  have hshort := (hadmitted.chains chain hmem).description
  exact absurd (le_headline_effectPath.trans_le hlong) (not_lt.mpr hshort)

end RackMcp.Analysis
