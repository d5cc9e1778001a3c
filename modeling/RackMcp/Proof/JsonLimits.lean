import RackMcp.Core.Frames

/-!
# What the limit check of a frame means

`checkRec` stops at the first value that breaks a limit and threads its counter through the values before it. Against
it stands the list of all values of a document with their depths (`Json.values`). `checkCalls` lists the calls of
`checkRec`, so that what the check may cost is bounded by the limits too.
-/

namespace RackMcp

/-! ### The values of a document -/

namespace Json

mutual

/-- Every value with its depth, the outermost one at `depth`. -/
def values (depth : Int) (value : Json) : List (Int × Json) :=
  (depth, value) ::
    match value with
    | .object members => memberValues depth members
    | .array items => itemValues depth items
    | _ => []

def memberValues (depth : Int) : List (String × Json) → List (Int × Json)
  | [] => []
  | (_, child) :: rest => child.values (depth + 1) ++ memberValues depth rest

def itemValues (depth : Int) : List Json → List (Int × Json)
  | [] => []
  | item :: rest => item.values (depth + 1) ++ itemValues depth rest

end

/-- The keys are short enough. -/
def KeysFit (maxStringBytes : Nat) (members : List (String × Json)) : Prop :=
  ∀ m ∈ members, strlen m.1 ≤ maxStringBytes

/-- The value itself is a short enough string, has short enough keys, or is a finite real. -/
def Plain (maxStringBytes : Nat) : Json → Prop
  | .string s => s.utf8ByteSize ≤ maxStringBytes
  | .object members => KeysFit maxStringBytes members
  | .real x => ∃ q, x = .finite q
  | _ => True

/-- Some values of a document are admitted, where the document may still have so many. -/
structure Admitted (maxDepth room : Int) (maxStringBytes : Nat) (vs : List (Int × Json)) : Prop where
  depth : ∀ v ∈ vs, v.1 ≤ maxDepth
  count : (vs.length : Int) ≤ room
  plain : ∀ v ∈ vs, v.2.Plain maxStringBytes

/-- A document keeps the limits. -/
def WithinLimits (maxDepth maxNodes : Int) (maxStringBytes : Nat) (root : Json) : Prop :=
  Admitted maxDepth maxNodes maxStringBytes (root.values 1)

variable {maxDepth room : Int} {maxStringBytes : Nat}

theorem admitted_nil : Admitted maxDepth room maxStringBytes [] ↔ 0 ≤ room := by
  constructor
  · intro h
    exact h.count
  · intro h
    exact ⟨by simp, h, by simp⟩

theorem admitted_cons {v : Int × Json} {vs : List (Int × Json)} :
    Admitted maxDepth room maxStringBytes (v :: vs) ↔
      v.1 ≤ maxDepth ∧ v.2.Plain maxStringBytes ∧ Admitted maxDepth (room - 1) maxStringBytes vs := by
  constructor
  · intro ⟨hdepth, hcount, hplain⟩
    rw [List.forall_mem_cons] at hdepth hplain
    rw [List.length_cons] at hcount
    exact ⟨hdepth.1, hplain.1, hdepth.2, by omega, hplain.2⟩
  · intro ⟨hdepth, hplain, hrest⟩
    have hcount := hrest.count
    refine ⟨List.forall_mem_cons.mpr ⟨hdepth, hrest.depth⟩, ?_, List.forall_mem_cons.mpr ⟨hplain, hrest.plain⟩⟩
    rw [List.length_cons]
    omega

theorem admitted_append {vs ws : List (Int × Json)} :
    Admitted maxDepth room maxStringBytes (vs ++ ws) ↔
      Admitted maxDepth room maxStringBytes vs ∧ Admitted maxDepth (room - vs.length) maxStringBytes ws := by
  constructor
  · intro ⟨hdepth, hcount, hplain⟩
    rw [List.forall_mem_append] at hdepth hplain
    rw [List.length_append] at hcount
    exact ⟨⟨hdepth.1, by omega, hplain.1⟩, hdepth.2, by omega, hplain.2⟩
  · intro ⟨hvs, hws⟩
    have hcount := hws.count
    refine ⟨List.forall_mem_append.mpr ⟨hvs.depth, hws.depth⟩, ?_, List.forall_mem_append.mpr ⟨hvs.plain, hws.plain⟩⟩
    rw [List.length_append]
    omega

end Json

/-! ### The check -/

section Check

variable (maxDepth maxNodes : Int) (maxStringBytes : Nat)

/-- The verdict is that the values are admitted, and a good one has counted them. -/
structure Checked (nodes : Int) (vs : List (Int × Json)) (keys : Prop) (result : Bool × Int) : Prop where
  verdict : result.1 = true ↔ keys ∧ Json.Admitted maxDepth (maxNodes - nodes) maxStringBytes vs
  counter : result.1 = true → result.2 = nodes + vs.length

variable {maxDepth maxNodes maxStringBytes}

/-- A child, and what comes behind it when it was good. -/
theorem Checked.append {nodes : Int} {vs ws : List (Int × Json)} {keys : Prop} {child rest : Bool × Int}
    (hchild : Checked maxDepth maxNodes maxStringBytes nodes vs True child)
    (hrest : child.1 = true → Checked maxDepth maxNodes maxStringBytes child.2 ws keys rest) :
    Checked maxDepth maxNodes maxStringBytes nodes (vs ++ ws) keys (if child.1 then rest else (false, child.2)) := by
  by_cases hok : child.1 = true
  · have hvs := (hchild.verdict.mp hok).2
    have hcounter := hchild.counter hok
    have hrest := hrest hok
    rw [if_pos hok]
    refine ⟨hrest.verdict.trans ?_, fun h => ?_⟩
    · rw [Json.admitted_append, hcounter, show maxNodes - (nodes + vs.length) = maxNodes - nodes - vs.length by omega]
      exact ⟨fun ⟨hkeys, hws⟩ => ⟨hkeys, hvs, hws⟩, fun ⟨hkeys, _, hws⟩ => ⟨hkeys, hws⟩⟩
    · rw [hrest.counter h, hcounter, List.length_append]
      omega
  · rw [if_neg hok]
    refine ⟨⟨fun h => absurd h Bool.false_ne_true, fun ⟨_, h⟩ => ?_⟩, fun h => absurd h Bool.false_ne_true⟩
    exact absurd (hchild.verdict.mpr ⟨trivial, (Json.admitted_append.mp h).1⟩) hok

/-- A good verdict leaves the counter within its bound. -/
theorem Checked.counter_le {nodes : Int} {vs : List (Int × Json)} {keys : Prop} {result : Bool × Int}
    (h : Checked maxDepth maxNodes maxStringBytes nodes vs keys result) (hok : result.1 = true) :
    result.2 ≤ maxNodes := by
  have hcount := (h.verdict.mp hok).2.count
  rw [h.counter hok]
  omega

/-- A value that has none below it. -/
theorem Checked.leaf {depth nodes : Int} {value : Json} {ok : Bool} (hdepth : depth ≤ maxDepth)
    (hnodes : nodes + 1 ≤ maxNodes) (hok : ok = true ↔ value.Plain maxStringBytes) :
    Checked maxDepth maxNodes maxStringBytes nodes [(depth, value)] True (ok, nodes + 1) := by
  refine ⟨?_, fun _ => rfl⟩
  rw [Json.admitted_cons, Json.admitted_nil]
  constructor
  · intro h
    exact ⟨trivial, hdepth, hok.mp h, by omega⟩
  · intro ⟨_, _, hplain, _⟩
    exact hok.mpr hplain

/-- A value that is itself admitted, by what is below it. -/
theorem Checked.node {depth nodes : Int} {value : Json} {vs : List (Int × Json)} {keys : Prop} {result : Bool × Int}
    (hdepth : depth ≤ maxDepth) (hplain : value.Plain maxStringBytes ↔ keys)
    (hbelow : Checked maxDepth maxNodes maxStringBytes (nodes + 1) vs keys result) :
    Checked maxDepth maxNodes maxStringBytes nodes ((depth, value) :: vs) True result := by
  refine ⟨hbelow.verdict.trans ?_, fun h => ?_⟩
  · rw [Json.admitted_cons, show maxNodes - nodes - 1 = maxNodes - (nodes + 1) by omega, hplain]
    exact ⟨fun ⟨hkeys, hvs⟩ => ⟨trivial, hdepth, hkeys, hvs⟩, fun ⟨_, _, hkeys, hvs⟩ => ⟨hkeys, hvs⟩⟩
  · rw [hbelow.counter h, List.length_cons]
    omega

mutual

theorem checkRec_checked (depth nodes : Int) (value : Json) :
    Checked maxDepth maxNodes maxStringBytes nodes (value.values depth) True
      (checkRec maxDepth maxNodes maxStringBytes depth nodes value) := by
  by_cases hdeep : depth > maxDepth
  · rw [checkRec.eq_def, if_pos hdeep, Json.values.eq_def]
    refine ⟨⟨fun h => absurd h Bool.false_ne_true, fun ⟨_, h⟩ => ?_⟩, fun h => absurd h Bool.false_ne_true⟩
    have hdepth := (Json.admitted_cons.mp h).1
    omega
  by_cases hmany : nodes + 1 > maxNodes
  · rw [checkRec.eq_def, if_neg hdeep, if_pos hmany, Json.values.eq_def]
    refine ⟨⟨fun h => absurd h Bool.false_ne_true, fun ⟨_, h⟩ => ?_⟩, fun h => absurd h Bool.false_ne_true⟩
    have hcount := h.count
    rw [List.length_cons] at hcount
    omega
  rw [checkRec.eq_def, if_neg hdeep, if_neg hmany, Json.values.eq_def]
  have hdepth : depth ≤ maxDepth := by omega
  have hnodes : nodes + 1 ≤ maxNodes := by omega
  match value with
  | .object members => exact .node hdepth Iff.rfl (checkMembers_checked depth (nodes + 1) hnodes members)
  | .array items => exact .node hdepth Iff.rfl (checkItems_checked depth (nodes + 1) hnodes items)
  | .string s => exact .leaf hdepth hnodes decide_eq_true_iff
  | .real (.finite q) => exact .leaf hdepth hnodes ⟨fun _ => ⟨q, rfl⟩, fun _ => rfl⟩
  | .real (.infinite _) => exact .leaf hdepth hnodes ⟨fun h => absurd h Bool.false_ne_true, fun ⟨_, h⟩ => nomatch h⟩
  | .real .nan => exact .leaf hdepth hnodes ⟨fun h => absurd h Bool.false_ne_true, fun ⟨_, h⟩ => nomatch h⟩
  | .null => exact .leaf hdepth hnodes ⟨fun _ => trivial, fun _ => rfl⟩
  | .bool _ => exact .leaf hdepth hnodes ⟨fun _ => trivial, fun _ => rfl⟩
  | .integer _ => exact .leaf hdepth hnodes ⟨fun _ => trivial, fun _ => rfl⟩

theorem checkMembers_checked (depth nodes : Int) (hnodes : nodes ≤ maxNodes) (members : List (String × Json)) :
    Checked maxDepth maxNodes maxStringBytes nodes (Json.memberValues depth members)
      (Json.KeysFit maxStringBytes members) (checkMembers maxDepth maxNodes maxStringBytes depth nodes members) := by
  match members with
  | [] =>
    unfold checkMembers Json.memberValues
    refine ⟨⟨fun _ => ⟨by simp [Json.KeysFit], Json.admitted_nil.mpr (by omega)⟩, fun _ => rfl⟩, fun _ => ?_⟩
    simp
  | (key, child) :: rest =>
    have hkeys : Json.KeysFit maxStringBytes ((key, child) :: rest) ↔
        strlen key ≤ maxStringBytes ∧ Json.KeysFit maxStringBytes rest := List.forall_mem_cons
    have hchild := checkRec_checked (depth + 1) nodes child
    unfold checkMembers Json.memberValues
    by_cases hlong : strlen key > maxStringBytes
    · rw [if_pos hlong, hkeys]
      refine ⟨⟨fun h => absurd h Bool.false_ne_true, fun ⟨⟨hkey, _⟩, _⟩ => ?_⟩, fun h => absurd h Bool.false_ne_true⟩
      omega
    · have hrest := hchild.append fun hok => checkMembers_checked depth _ (hchild.counter_le hok) rest
      rw [if_neg hlong]
      refine ⟨hrest.verdict.trans ?_, hrest.counter⟩
      rw [hkeys]
      exact ⟨fun ⟨hrest, hvs⟩ => ⟨⟨by omega, hrest⟩, hvs⟩, fun ⟨⟨_, hrest⟩, hvs⟩ => ⟨hrest, hvs⟩⟩

theorem checkItems_checked (depth nodes : Int) (hnodes : nodes ≤ maxNodes) (items : List Json) :
    Checked maxDepth maxNodes maxStringBytes nodes (Json.itemValues depth items) True
      (checkItems maxDepth maxNodes maxStringBytes depth nodes items) := by
  match items with
  | [] =>
    unfold checkItems Json.itemValues
    refine ⟨⟨fun _ => ⟨trivial, Json.admitted_nil.mpr (by omega)⟩, fun _ => rfl⟩, fun _ => ?_⟩
    simp
  | item :: rest =>
    have hchild := checkRec_checked (depth + 1) nodes item
    unfold checkItems Json.itemValues
    exact hchild.append fun hok => checkItems_checked depth _ (hchild.counter_le hok) rest

end

end Check

/-! ### The calls -/

section Calls

variable (maxDepth maxNodes : Int) (maxStringBytes : Nat)

mutual

/-- The calls of `checkRec` that this one makes, itself the first: the depth of each, and the counter after it has
counted its value. -/
def checkCalls (depth nodes : Int) (value : Json) : List (Int × Int) :=
  if depth > maxDepth then [(depth, nodes)]
  else if nodes + 1 > maxNodes then [(depth, nodes + 1)]
  else
    (depth, nodes + 1) ::
      match value with
      | .object members => memberCalls depth (nodes + 1) members
      | .array items => itemCalls depth (nodes + 1) items
      | _ => []

def memberCalls (depth nodes : Int) : List (String × Json) → List (Int × Int)
  | [] => []
  | (key, child) :: rest =>
    if strlen key > maxStringBytes then []
    else
      let (ok, nodes') := checkRec maxDepth maxNodes maxStringBytes (depth + 1) nodes child
      checkCalls (depth + 1) nodes child ++ if ok then memberCalls depth nodes' rest else []

def itemCalls (depth nodes : Int) : List Json → List (Int × Int)
  | [] => []
  | item :: rest =>
    let (ok, nodes') := checkRec maxDepth maxNodes maxStringBytes (depth + 1) nodes item
    checkCalls (depth + 1) nodes item ++ if ok then itemCalls depth nodes' rest else []

end

variable {maxDepth maxNodes maxStringBytes}

/-- The calls of a child are bounded, and so are those behind it, made when it was good. -/
theorem forall_calls_append {P : Int × Int → Prop} {calls rest : List (Int × Int)} {ok : Bool}
    (hcalls : ∀ c ∈ calls, P c) (hrest : ok = true → ∀ c ∈ rest, P c) :
    ∀ c ∈ calls ++ (if ok then rest else []), P c := by
  intro c hc
  rcases List.mem_append.mp hc with hc | hc
  · exact hcalls c hc
  · by_cases hok : ok = true
    · rw [if_pos hok] at hc
      exact hrest hok c hc
    · rw [if_neg hok] at hc
      exact absurd hc List.not_mem_nil

mutual

/-- A call goes one level deeper than one that has not given up, and counts one value more. -/
theorem checkCalls_le (depth nodes : Int) (value : Json) (hdepth : depth ≤ maxDepth + 1) (hnodes : nodes ≤ maxNodes) :
    ∀ c ∈ checkCalls maxDepth maxNodes maxStringBytes depth nodes value, c.1 ≤ maxDepth + 1 ∧ c.2 ≤ maxNodes + 1 := by
  by_cases hdeep : depth > maxDepth
  · rw [checkCalls.eq_def, if_pos hdeep, List.forall_mem_singleton]
    exact ⟨hdepth, by omega⟩
  by_cases hmany : nodes + 1 > maxNodes
  · rw [checkCalls.eq_def, if_neg hdeep, if_pos hmany, List.forall_mem_singleton]
    exact ⟨hdepth, by omega⟩
  rw [checkCalls.eq_def, if_neg hdeep, if_neg hmany, List.forall_mem_cons]
  refine ⟨⟨hdepth, by omega⟩, ?_⟩
  match value with
  | .object members => exact memberCalls_le depth (nodes + 1) (by omega) (by omega) members
  | .array items => exact itemCalls_le depth (nodes + 1) (by omega) (by omega) items
  | .string _ | .real _ | .null | .bool _ | .integer _ => exact fun c hc => absurd hc List.not_mem_nil

theorem memberCalls_le (depth nodes : Int) (hdepth : depth ≤ maxDepth) (hnodes : nodes ≤ maxNodes)
    (members : List (String × Json)) :
    ∀ c ∈ memberCalls maxDepth maxNodes maxStringBytes depth nodes members, c.1 ≤ maxDepth + 1 ∧ c.2 ≤ maxNodes + 1 := by
  match members with
  | [] =>
    unfold memberCalls
    exact fun c hc => absurd hc List.not_mem_nil
  | (key, child) :: rest =>
    unfold memberCalls
    by_cases hlong : strlen key > maxStringBytes
    · rw [if_pos hlong]
      exact fun c hc => absurd hc List.not_mem_nil
    · rw [if_neg hlong]
      refine forall_calls_append (checkCalls_le (depth + 1) nodes child (by omega) hnodes) fun hok => ?_
      exact memberCalls_le depth _ hdepth ((checkRec_checked (depth + 1) nodes child).counter_le hok) rest

theorem itemCalls_le (depth nodes : Int) (hdepth : depth ≤ maxDepth) (hnodes : nodes ≤ maxNodes) (items : List Json) :
    ∀ c ∈ itemCalls maxDepth maxNodes maxStringBytes depth nodes items, c.1 ≤ maxDepth + 1 ∧ c.2 ≤ maxNodes + 1 := by
  match items with
  | [] =>
    unfold itemCalls
    exact fun c hc => absurd hc List.not_mem_nil
  | item :: rest =>
    unfold itemCalls
    refine forall_calls_append (checkCalls_le (depth + 1) nodes item (by omega) hnodes) fun hok => ?_
    exact itemCalls_le depth _ hdepth ((checkRec_checked (depth + 1) nodes item).counter_le hok) rest

end

/-- A bound below zero ends the check at its first call. -/
theorem checkCalls_root (value : Json) :
    ∀ c ∈ checkCalls maxDepth maxNodes maxStringBytes 1 0 value, c.1 ≤ maxDepth.toNat + 1 ∧ c.2 ≤ maxNodes.toNat + 1 := by
  by_cases hbounds : 0 ≤ maxDepth ∧ 0 ≤ maxNodes
  · rw [Int.toNat_of_nonneg hbounds.1, Int.toNat_of_nonneg hbounds.2]
    exact checkCalls_le 1 0 value (by omega) hbounds.2
  · rw [checkCalls.eq_def]
    have hfirst : (1 : Int) > maxDepth ∨ (0 : Int) + 1 > maxNodes := by omega
    by_cases hdeep : (1 : Int) > maxDepth
    · rw [if_pos hdeep, List.forall_mem_singleton]
      constructor
      · show (1 : Int) ≤ _
        omega
      · show (0 : Int) ≤ _
        omega
    · rw [if_neg hdeep, if_pos (hfirst.resolve_left hdeep), List.forall_mem_singleton]
      constructor
      · show (1 : Int) ≤ _
        omega
      · show (0 : Int) + 1 ≤ _
        omega

end Calls

/-- The check says whether a document keeps the limits, and whatever the document is, it goes no deeper and counts no
further than one beyond them. -/
theorem checkJsonLimits_exact (maxDepth maxNodes : Int) (maxStringBytes : Nat) (value : Json) :
    (checkJsonLimits maxDepth maxNodes maxStringBytes (some value) = true ↔
        value.WithinLimits maxDepth maxNodes maxStringBytes) ∧
      ∀ c ∈ checkCalls maxDepth maxNodes maxStringBytes 1 0 value,
        c.1 ≤ maxDepth.toNat + 1 ∧ c.2 ≤ maxNodes.toNat + 1 := by
  refine ⟨?_, checkCalls_root value⟩
  have hchecked : Checked maxDepth maxNodes maxStringBytes 0 (value.values 1) True
      (checkRec maxDepth maxNodes maxStringBytes 1 0 value) := checkRec_checked 1 0 value
  have hverdict := hchecked.verdict
  rw [Int.sub_zero, true_and] at hverdict
  exact hverdict

end RackMcp
