import RackMcp.Lib.Reachability

/-!
# Cycles of a directed graph, found by depth-first search

The graph is given by its adjacency lists. The search keeps its own stack of frames, each with a cursor into the
adjacency list of its node, numbers the nodes in the order in which it finds them, and cuts a strongly connected
component off the stack of open nodes when the low-link of a node comes out as its own number. The nodes of the
components that are larger than one node are collected, on top of those that are given at the start.
-/

namespace Tarjan

open WhileLoop Reachability

variable {α : Type*} [DecidableEq α]

/-- A node of the search and how many of its neighbours have been looked at. -/
structure Frame (α : Type*) where
  v : α
  i : ℕ

/-- What the search knows: numbers and low-links, the open nodes (latest first), the collected nodes, and the frames. -/
structure State (α : Type*) where
  index : α → Option ℕ := fun _ => none
  low : α → ℕ := fun _ => 0
  onStack : α → Bool := fun _ => false
  tstack : List α := []
  inCycle : List α
  counter : ℕ := 0
  work : List (Frame α) := []

/-- The nodes above and including `v` on the stack, and what stays. -/
def popComponent (v : α) : List α → Option (List α × List α)
  | [] => none
  | w :: tstack =>
    if w = v then some ([w], tstack)
    else (popComponent v tstack).map fun (comp, tstack) => (w :: comp, tstack)

namespace State

/-- Numbers a node, opens it, and puts a frame for it on top. -/
def discover (s : State α) (w : α) : State α :=
  { s with
    index := Function.update s.index w (some s.counter)
    low := Function.update s.low w s.counter
    counter := s.counter + 1
    tstack := w :: s.tstack
    onStack := Function.update s.onStack w true
    work := ⟨w, 0⟩ :: s.work }

/-- Takes the top frame off and passes its low-link to the frame below. -/
def popFrame (s : State α) (v : α) (rest : List (Frame α)) : State α :=
  { s with
    work := rest
    low :=
      match rest with
      | [] => s.low
      | parent :: _ => Function.update s.low parent.v (min (s.low parent.v) (s.low v)) }

/-- Closes a component. -/
def close (s : State α) (comp tstack : List α) : State α :=
  { s with
    tstack := tstack
    onStack := fun x => s.onStack x && !comp.contains x
    inCycle := if 1 < comp.length then comp.foldl setAdd s.inCycle else s.inCycle }

end State

/-- One round of the loop: the next neighbour of the top frame, or the end of that frame. Popping from a stack that does
not hold the node would never end, which a round that changes nothing stands for. -/
def step (adj : α → List α) (s : State α) : Option (State α) :=
  match s.work with
  | [] => none
  | frame :: rest =>
    match (adj frame.v)[frame.i]? with
    | some w =>
      let s := { s with work := ⟨frame.v, frame.i + 1⟩ :: rest }
      match s.index w with
      | none => some (s.discover w)
      | some k =>
        if s.onStack w then some { s with low := Function.update s.low frame.v (min (s.low frame.v) k) } else some s
    | none =>
      if s.index frame.v = some (s.low frame.v) then
        match popComponent frame.v s.tstack with
        | none => some s
        | some (comp, tstack) => some ((s.close comp tstack).popFrame frame.v rest)
      else some (s.popFrame frame.v rest)

/-- The search from one node. -/
def explore (adj : α → List α) (fuel : ℕ) (s : State α) (start : α) : Option (State α) :=
  if (s.index start).isSome then some s else run (step adj) fuel (({ s with work := [] } : State α).discover start)

/-- The search from every node of a list, with the nodes it collects. -/
def inCycles (adj : α → List α) (keys selfLoop : List α) (fuel : ℕ) : Option (List α) :=
  (keys.foldlM (explore adj fuel) { inCycle := selfLoop }).map (·.inCycle)

/-! ## Reachability -/

/-- There is a path, of any length. -/
abbrev Reach (adj : α → List α) : α → α → Prop := Relation.ReflTransGen fun u v => v ∈ adj u

/-- There is a directed cycle through the node. -/
abbrev OnCycle (adj : α → List α) (v : α) : Prop := Relation.TransGen (fun u v => v ∈ adj u) v v

variable {adj : α → List α} {s : State α} {base : List α} {nodes : Finset α}

omit [DecidableEq α] in
/-- A cycle is an edge from the node to itself, or goes through another node. -/
theorem onCycle_iff (adj : α → List α) (v : α) : OnCycle adj v ↔ v ∈ adj v ∨ ∃ u, u ≠ v ∧ Reach adj v u ∧ Reach adj u v := by
  constructor
  · intro h
    obtain ⟨u, hvu, huv⟩ := Relation.TransGen.head'_iff.mp h
    by_cases hu : u = v
    · exact .inl (hu ▸ hvu)
    · exact .inr ⟨u, hu, .single hvu, huv⟩
  · rintro (h | ⟨u, hu, hvu, huv⟩)
    · exact .single h
    · rcases Relation.reflTransGen_iff_eq_or_transGen.mp hvu with heq | htrans
      · exact absurd heq hu
      · exact htrans.trans_left huv

omit [DecidableEq α] in
/-- A set closed under edges is closed under paths. -/
theorem Reach.mem_of_closed {P : α → Prop} (hclosed : ∀ u w, P u → w ∈ adj u → P w) {u w : α} (h : Reach adj u w)
    (hu : P u) : P w := by
  induction h with
  | refl => exact hu
  | tail _ hedge ih => exact hclosed _ _ ih hedge

/-! ## What the search keeps -/

namespace State

/-- The number of a node. -/
def num (s : State α) (v : α) : ℕ := (s.index v).getD 0

/-- The nodes of the frames: the path from the start to the node that is being looked at, latest first. -/
def path (s : State α) : List α := s.work.map (·.v)

/-- The node has been found and its component is closed. -/
def Done (s : State α) (v : α) : Prop := (s.index v).isSome ∧ v ∉ s.tstack

end State

/-- An edge that has been looked at, from an open node: all edges of a node that has no frame, and those before the
cursor of one that has. -/
def Examined (adj : α → List α) (work : List (Frame α)) (u w : α) : Prop :=
  w ∈ adj u ∧ ∀ f ∈ work, f.v = u → w ∈ (adj u).take f.i

/-- The invariant of the search. Two facts carry it: from a node of the path every later open node can be reached
(`reaches`), and every open node reaches a node of the path that is not later (`returns`). What the low-links add is
`low_bounds`: an examined edge to an open node is accounted for by the low-link of a node of the path. -/
structure Inv (adj : α → List α) (nodes : Finset α) (base : List α) (s : State α) : Prop where
  index_lt : ∀ v k, s.index v = some k → k < s.counter
  index_inj : ∀ u v k, s.index u = some k → s.index v = some k → u = v
  onStack_iff : ∀ v, s.onStack v = true ↔ v ∈ s.tstack
  sorted : s.tstack.Pairwise fun u v => s.num v < s.num u
  indexed : ∀ v ∈ s.tstack, (s.index v).isSome
  path_sorted : s.path.Pairwise fun u v => s.num v < s.num u
  path_open : ∀ v ∈ s.path, v ∈ s.tstack
  path_nodes : ∀ v ∈ s.path, v ∈ nodes
  done_closed : ∀ u w, s.Done u → w ∈ adj u → s.Done w
  examined_indexed : ∀ u ∈ s.tstack, ∀ w, Examined adj s.work u w → (s.index w).isSome
  low_bounds : ∀ v ∈ s.path, ∀ u ∈ s.tstack, s.num v ≤ s.num u → ∀ w ∈ s.tstack, Examined adj s.work u w →
    ∃ g ∈ s.path, s.num v ≤ s.num g ∧ s.low g ≤ s.num w
  reaches : ∀ v ∈ s.path, ∀ u ∈ s.tstack, s.num v ≤ s.num u → Reach adj v u
  returns : ∀ u ∈ s.tstack, ∃ v ∈ s.path, s.num v ≤ s.num u ∧ Reach adj u v
  low_le : ∀ v ∈ s.path, s.low v ≤ s.num v
  low_met : ∀ v ∈ s.path, ∃ w ∈ s.tstack, s.num w = s.low v ∧ Reach adj v w
  inCycle_nodup : base.Nodup → s.inCycle.Nodup
  inCycle_iff : ∀ v, v ∈ s.inCycle ↔ v ∈ base ∨ s.Done v ∧ ∃ u, u ≠ v ∧ Reach adj v u ∧ Reach adj u v

omit [DecidableEq α] in
theorem Inv.init : Inv adj nodes base { inCycle := base } where
  index_lt := by simp
  index_inj := by simp
  onStack_iff := by simp
  sorted := .nil
  indexed := by simp
  path_sorted := .nil
  path_open := by simp [State.path]
  path_nodes := by simp [State.path]
  done_closed := by simp [State.Done]
  examined_indexed := by simp
  low_bounds := by simp
  reaches := by simp
  returns := by simp
  low_le := by simp [State.path]
  low_met := by simp [State.path]
  inCycle_nodup := id
  inCycle_iff := by simp [State.Done]

omit [DecidableEq α] in
theorem index_eq_num {v : α} (h : (s.index v).isSome) : s.index v = some (s.num v) := by
  obtain ⟨k, hk⟩ := Option.isSome_iff_exists.mp h
  rw [hk, State.num, hk]
  rfl

namespace Inv

variable {rest : List (Frame α)} {v w : α} {i : ℕ}

omit [DecidableEq α] in
theorem num_lt (h : Inv adj nodes base s) (hv : v ∈ s.tstack) : s.num v < s.counter :=
  h.index_lt v _ (index_eq_num (h.indexed v hv))

/-! ### A node is found -/

theorem num_discover (s : State α) (w x : α) : (s.discover w).num x = if x = w then s.counter else s.num x := by
  show (Function.update s.index w (some s.counter) x).getD 0 = _
  by_cases hx : x = w
  · rw [hx, Function.update_self, if_pos rfl]
    rfl
  · rw [Function.update_of_ne hx, if_neg hx]
    rfl

theorem low_discover (s : State α) (w x : α) : (s.discover w).low x = if x = w then s.counter else s.low x :=
  Function.update_apply _ _ _ _

theorem index_discover (s : State α) (w x : α) :
    (s.discover w).index x = if x = w then some s.counter else s.index x :=
  Function.update_apply _ _ _ _

theorem isSome_index_discover (s : State α) (w x : α) :
    ((s.discover w).index x).isSome ↔ x = w ∨ (s.index x).isSome := by
  rw [index_discover]
  by_cases hx : x = w <;> simp [hx]

omit [DecidableEq α] in
theorem ne_of_open (h : Inv adj nodes base s) (hw : s.index w = none) {x : α} (hx : x ∈ s.tstack) : x ≠ w := by
  intro heq
  have hsome := h.indexed x hx
  rw [heq, hw] at hsome
  cases hsome

/-- A new node opens with a frame of its own. The frames below may have moved on by edges to it. -/
theorem discover (h : Inv adj nodes base s) {work : List (Frame α)} (hpath : work.map (·.v) = s.path)
    (hexamined : ∀ u ∈ s.tstack, ∀ x, Examined adj work u x → Examined adj s.work u x ∨ x = w)
    (hreach : ∀ v ∈ s.path, Reach adj v w) (hw : s.index w = none) (hnode : w ∈ nodes) :
    Inv adj nodes base (({ s with work := work } : State α).discover w) := by
  have hne : ∀ x ∈ s.tstack, x ≠ w := fun x hx => h.ne_of_open hw hx
  have hnum : ∀ x ∈ s.tstack, (({ s with work := work } : State α).discover w).num x = s.num x := fun x hx => by
    rw [num_discover, if_neg (hne x hx)]
    rfl
  have hlow : ∀ x ∈ s.tstack, (({ s with work := work } : State α).discover w).low x = s.low x := fun x hx => by
    rw [low_discover, if_neg (hne x hx)]
  have hnumw : (({ s with work := work } : State α).discover w).num w = s.counter := by rw [num_discover, if_pos rfl]
  have hlow_w : (({ s with work := work } : State α).discover w).low w = s.counter := by rw [low_discover, if_pos rfl]
  have hpath' : (({ s with work := work } : State α).discover w).path = w :: s.path := congrArg (w :: ·) hpath
  have hdone : ∀ x, (({ s with work := work } : State α).discover w).Done x ↔ s.Done x := by
    intro x
    show (_ ∧ x ∉ w :: s.tstack) ↔ _
    rw [isSome_index_discover, List.mem_cons, not_or]
    constructor
    · rintro ⟨hx, hxw, hopen⟩
      exact ⟨hx.resolve_left hxw, hopen⟩
    · intro ⟨hx, hopen⟩
      refine ⟨.inr hx, fun heq => ?_, hopen⟩
      rw [heq, hw] at hx
      cases hx
  -- an examined edge starts at an older node, and is an old one or leads to the new node
  have hold : ∀ u ∈ w :: s.tstack, ∀ x, Examined adj (⟨w, 0⟩ :: work) u x →
      u ∈ s.tstack ∧ (Examined adj s.work u x ∨ x = w) := by
    intro u hu x ⟨hx, hframes⟩
    rcases List.mem_cons.mp hu with rfl | hu
    · have hnone := hframes ⟨u, 0⟩ List.mem_cons_self rfl
      exact absurd hnone List.not_mem_nil
    · exact ⟨hu, hexamined u hu x ⟨hx, fun f hf => hframes f (List.mem_cons_of_mem _ hf)⟩⟩
  constructor
  case index_lt =>
    intro x k hk
    rw [index_discover] at hk
    show k < s.counter + 1
    split at hk
    · cases hk
      exact Nat.lt_succ_self _
    · exact Nat.lt_succ_of_lt (h.index_lt x k hk)
  case index_inj =>
    intro x y k hx hy
    rw [index_discover] at hx hy
    split at hx
    · next hxw =>
      cases hx
      split at hy
      · next hyw => exact hxw.trans hyw.symm
      · exact absurd (h.index_lt y _ hy) (lt_irrefl _)
    · split at hy
      · cases hy
        exact absurd (h.index_lt x _ hx) (lt_irrefl _)
      · exact h.index_inj x y k hx hy
  case onStack_iff =>
    intro x
    show Function.update s.onStack w true x = true ↔ x ∈ w :: s.tstack
    rw [List.mem_cons, Function.update_apply]
    by_cases hx : x = w
    · simp [hx]
    · simp [hx, h.onStack_iff x]
  case sorted =>
    refine List.pairwise_cons.mpr ⟨fun x hx => ?_, h.sorted.imp_of_mem fun hx hy hlt => ?_⟩
    · rw [hnum x hx, hnumw]
      exact h.num_lt hx
    · rwa [hnum _ hx, hnum _ hy]
  case indexed =>
    intro x hx
    rw [isSome_index_discover]
    exact (List.mem_cons.mp hx).imp_right (h.indexed x)
  case path_sorted =>
    rw [hpath']
    refine List.pairwise_cons.mpr ⟨fun x hx => ?_, h.path_sorted.imp_of_mem fun hx hy hlt => ?_⟩
    · rw [hnum x (h.path_open x hx), hnumw]
      exact h.num_lt (h.path_open x hx)
    · rwa [hnum _ (h.path_open _ hx), hnum _ (h.path_open _ hy)]
  case path_open =>
    rw [hpath']
    exact fun x hx => List.mem_cons.mpr ((List.mem_cons.mp hx).imp_right (h.path_open x))
  case path_nodes =>
    rw [hpath']
    intro x hx
    rcases List.mem_cons.mp hx with rfl | hx
    · exact hnode
    · exact h.path_nodes x hx
  case done_closed =>
    intro u x hu hx
    rw [hdone] at hu ⊢
    exact h.done_closed u x hu hx
  case examined_indexed =>
    intro u hu x hx
    rw [isSome_index_discover]
    obtain ⟨hu, hold | hold⟩ := hold u hu x hx
    · exact .inr (h.examined_indexed u hu x hold)
    · exact .inl hold
  case low_bounds =>
    rw [hpath']
    intro v hv u hmem hle x hx hex
    obtain ⟨hu, hex⟩ := hold u hmem x hex
    rw [hnum u hu] at hle
    have hv : v ∈ s.path := by
      refine (List.mem_cons.mp hv).resolve_left fun heq => ?_
      rw [heq, hnumw] at hle
      exact absurd (h.num_lt hu) (not_lt.mpr hle)
    have hvopen := h.path_open v hv
    rw [hnum v hvopen] at hle ⊢
    by_cases hxw : x = w
    · refine ⟨v, List.mem_cons_of_mem _ hv, (hnum v hvopen).ge, ?_⟩
      rw [hlow v hvopen, hxw, hnumw]
      exact (h.low_le v hv).trans (h.num_lt hvopen).le
    · have hx : x ∈ s.tstack := (List.mem_cons.mp hx).resolve_left hxw
      obtain ⟨g, hg, hvg, hgx⟩ := h.low_bounds v hv u hu hle x hx (hex.resolve_right hxw)
      have hgopen := h.path_open g hg
      exact ⟨g, List.mem_cons_of_mem _ hg, by rwa [hnum g hgopen], by rwa [hlow g hgopen, hnum x hx]⟩
  case reaches =>
    rw [hpath']
    intro v hv u hu hle
    rcases List.mem_cons.mp hv with heq_v | hv <;> rcases List.mem_cons.mp hu with heq_u | hu
    · rw [heq_v, heq_u]
    · rw [heq_v, hnumw, hnum u hu] at hle
      exact absurd (h.num_lt hu) (not_lt.mpr hle)
    · rw [heq_u]
      exact hreach v hv
    · rw [hnum v (h.path_open v hv), hnum u hu] at hle
      exact h.reaches v hv u hu hle
  case returns =>
    rw [hpath']
    intro u hu
    rcases List.mem_cons.mp hu with rfl | hu
    · exact ⟨u, List.mem_cons_self, le_rfl, .refl⟩
    · obtain ⟨v, hv, hle, hreach⟩ := h.returns u hu
      exact ⟨v, List.mem_cons_of_mem _ hv, by rwa [hnum v (h.path_open v hv), hnum u hu], hreach⟩
  case low_le =>
    rw [hpath']
    intro v hv
    rcases List.mem_cons.mp hv with rfl | hv
    · rw [hnumw, hlow_w]
    · rw [hnum v (h.path_open v hv), hlow v (h.path_open v hv)]
      exact h.low_le v hv
  case low_met =>
    rw [hpath']
    intro v hv
    rcases List.mem_cons.mp hv with rfl | hv
    · exact ⟨v, List.mem_cons_self, by rw [hnumw, hlow_w], .refl⟩
    · obtain ⟨x, hx, hnumx, hreach⟩ := h.low_met v hv
      exact ⟨x, List.mem_cons_of_mem _ hx, by rwa [hnum x hx, hlow v (h.path_open v hv)], hreach⟩
  case inCycle_nodup => exact h.inCycle_nodup
  case inCycle_iff =>
    intro x
    rw [hdone]
    exact h.inCycle_iff x

/-! ### An edge is looked at -/

omit [DecidableEq α] in
/-- Moving the cursor on examines one more edge. -/
theorem examined_advance (hw : (adj v)[i]? = some w) {u x : α} (h : Examined adj (⟨v, i + 1⟩ :: rest) u x) :
    Examined adj (⟨v, i⟩ :: rest) u x ∨ u = v ∧ x = w := by
  obtain ⟨hx, hframes⟩ := h
  have hrest : ∀ f ∈ rest, f.v = u → x ∈ (adj u).take f.i := fun f hf => hframes f (List.mem_cons_of_mem _ hf)
  by_cases huv : u = v
  · have htake := hframes ⟨v, i + 1⟩ List.mem_cons_self huv.symm
    rw [huv, List.take_add_one, hw, List.mem_append] at htake
    rcases htake with htake | hxw
    · refine .inl ⟨hx, fun f hf hfu => ?_⟩
      rcases List.mem_cons.mp hf with rfl | hf
      · rwa [huv]
      · exact hrest f hf hfu
    · exact .inr ⟨huv, by simpa using hxw⟩
  · refine .inl ⟨hx, fun f hf hfu => ?_⟩
    rcases List.mem_cons.mp hf with rfl | hf
    · exact absurd hfu.symm huv
    · exact hrest f hf hfu

/-- The cursor moves past an edge to a node that has been found, and the low-link takes account of it. -/
theorem advance (h : Inv adj nodes base { s with work := ⟨v, i⟩ :: rest }) (hw : (adj v)[i]? = some w)
    (hfound : (s.index w).isSome) {l : ℕ} (hle : l ≤ s.low v) (hbound : w ∈ s.tstack → l ≤ s.num w)
    (hmet : ∃ x ∈ s.tstack, s.num x = l ∧ Reach adj v x) :
    Inv adj nodes base { s with work := ⟨v, i + 1⟩ :: rest, low := Function.update s.low v l } := by
  have hlow : ∀ x, Function.update s.low v l x ≤ s.low x := fun x => by
    rw [Function.update_apply]
    split
    · next hx => rwa [hx]
    · exact le_rfl
  exact
    { index_lt := h.index_lt
      index_inj := h.index_inj
      onStack_iff := h.onStack_iff
      sorted := h.sorted
      indexed := h.indexed
      path_sorted := h.path_sorted
      path_open := h.path_open
      path_nodes := h.path_nodes
      done_closed := h.done_closed
      reaches := h.reaches
      returns := h.returns
      inCycle_nodup := h.inCycle_nodup
      inCycle_iff := h.inCycle_iff
      examined_indexed := fun u hu x hx => by
        rcases examined_advance hw hx with hx | ⟨-, rfl⟩
        · exact h.examined_indexed u hu x hx
        · exact hfound
      low_bounds := fun u hu y hy hle x hx hex => by
        rcases examined_advance hw hex with hex | ⟨rfl, rfl⟩
        · obtain ⟨g, hg, hug, hgx⟩ := h.low_bounds u hu y hy hle x hx hex
          exact ⟨g, hg, hug, (hlow g).trans hgx⟩
        · refine ⟨y, List.mem_cons_self, hle, ?_⟩
          show Function.update s.low y l y ≤ s.num x
          rw [Function.update_self]
          exact hbound hx
      low_le := fun u hu => (hlow u).trans (h.low_le u hu)
      low_met := fun u hu => by
        show ∃ x ∈ s.tstack, s.num x = Function.update s.low v l u ∧ Reach adj u x
        rw [Function.update_apply]
        split
        · next huv => rwa [huv]
        · exact h.low_met u hu }

/-! ### A frame ends -/

omit [DecidableEq α] in
/-- Once the cursor is past the last edge, taking the frame off examines nothing more. -/
theorem examined_retreat (hend : (adj v)[i]? = none) {u x : α} (h : Examined adj rest u x) :
    Examined adj (⟨v, i⟩ :: rest) u x := by
  refine ⟨h.1, fun f hf hfu => ?_⟩
  rcases List.mem_cons.mp hf with rfl | hf
  · show x ∈ (adj u).take i
    have hlen : (adj u).length ≤ i := hfu ▸ List.getElem?_eq_none_iff.mp hend
    rw [List.take_of_length_le hlen]
    exact h.1
  · exact h.2 f hf hfu

omit [DecidableEq α] in
/-- All edges of the nodes from the top frame's on have been examined: they lead to closed nodes or to such nodes, as the
low-link says when it is the node's own number. -/
theorem closed_above (h : Inv adj nodes base { s with work := ⟨v, i⟩ :: rest }) (hend : (adj v)[i]? = none)
    (hroot : s.low v = s.num v) {u x : α} (hu : u ∈ s.tstack ∧ s.num v ≤ s.num u) (hx : x ∈ adj u) :
    s.Done x ∨ x ∈ s.tstack ∧ s.num v ≤ s.num x := by
  have htop : ∀ g ∈ v :: rest.map (·.v), s.num v ≤ s.num g → g = v := by
    intro g hg hle
    rcases List.mem_cons.mp hg with rfl | hg
    · rfl
    · exact absurd ((List.pairwise_cons.mp h.path_sorted).1 g hg) (not_lt.mpr hle)
  have hexamined : Examined adj (⟨v, i⟩ :: rest) u x := by
    refine examined_retreat hend ⟨hx, fun f hf hfu => ?_⟩
    have hmem : f.v ∈ rest.map (·.v) := List.mem_map_of_mem hf
    have heq : f.v = v := htop f.v (List.mem_cons_of_mem _ hmem) (hfu ▸ hu.2)
    exact absurd ((List.pairwise_cons.mp h.path_sorted).1 f.v hmem) (heq ▸ lt_irrefl _)
  have hfound := h.examined_indexed u hu.1 x hexamined
  by_cases hopen : x ∈ s.tstack
  · obtain ⟨g, hg, hvg, hgx⟩ := h.low_bounds v List.mem_cons_self u hu.1 hu.2 x hopen hexamined
    rw [htop g hg hvg] at hgx
    exact .inr ⟨hopen, hroot ▸ hgx⟩
  · exact .inl ⟨hfound, hopen⟩

omit [DecidableEq α] in
/-- The open nodes from the top frame's on are in its component. -/
theorem mutual_above (h : Inv adj nodes base { s with work := ⟨v, i⟩ :: rest }) {u : α}
    (hu : u ∈ s.tstack ∧ s.num v ≤ s.num u) : Reach adj v u ∧ Reach adj u v := by
  refine ⟨h.reaches v List.mem_cons_self u hu.1 hu.2, ?_⟩
  obtain ⟨g, hg, -, hug⟩ := h.returns u hu.1
  refine hug.trans (h.reaches g hg v (h.path_open v List.mem_cons_self) ?_)
  rcases List.mem_cons.mp hg with rfl | hg
  · exact le_rfl
  · exact ((List.pairwise_cons.mp h.path_sorted).1 g hg).le

end Inv

omit [DecidableEq α] in
theorem one_lt_length_iff {l : List α} (hnodup : l.Nodup) {x : α} (hx : x ∈ l) : 1 < l.length ↔ ∃ u ∈ l, u ≠ x := by
  constructor
  · intro hlen
    by_contra hall
    have hall : ∀ u ∈ l, u = x := fun u hu => by_contra fun hne => hall ⟨u, hu, hne⟩
    have hrep := List.eq_replicate_length.mpr hall
    rw [hrep, List.nodup_replicate] at hnodup
    omega
  · intro ⟨u, hu, hne⟩
    rcases l with _ | ⟨a, _ | ⟨b, l⟩⟩
    · exact absurd hu List.not_mem_nil
    · rw [List.mem_singleton] at hu hx
      exact absurd (hu.trans hx.symm) hne
    · simp

/-- A stack that is sorted by a number is cut at a node of it by that number. -/
theorem popComponent_of_sorted {num : α → ℕ} {v : α} {tstack : List α} (hsorted : tstack.Pairwise fun u v => num v < num u)
    (hv : v ∈ tstack) : ∃ comp rest, popComponent v tstack = some (comp, rest) ∧ tstack = comp ++ rest ∧
      (∀ x, x ∈ comp ↔ x ∈ tstack ∧ num v ≤ num x) ∧ ∀ x, x ∈ rest ↔ x ∈ tstack ∧ num x < num v := by
  induction tstack with
  | nil => exact absurd hv List.not_mem_nil
  | cons w tstack ih =>
    obtain ⟨hw, hsorted⟩ := List.pairwise_cons.mp hsorted
    by_cases hwv : w = v
    · subst hwv
      refine ⟨[w], tstack, if_pos rfl, rfl, fun x => ?_, fun x => ?_⟩
      · rw [List.mem_singleton, List.mem_cons]
        constructor
        · rintro rfl
          exact ⟨.inl rfl, le_rfl⟩
        · intro ⟨hx, hle⟩
          exact hx.resolve_right fun hx => absurd (hw x hx) (not_lt.mpr hle)
      · rw [List.mem_cons]
        constructor
        · exact fun hx => ⟨.inr hx, hw x hx⟩
        · intro ⟨hx, hlt⟩
          exact hx.resolve_left fun heq => absurd hlt (heq ▸ lt_irrefl _)
    · have hv : v ∈ tstack := (List.mem_cons.mp hv).resolve_left (Ne.symm hwv)
      obtain ⟨comp, rest, hpop, heq, hcomp, hrest⟩ := ih hsorted hv
      refine ⟨w :: comp, rest, ?_, by rw [heq]; rfl, fun x => ?_, fun x => ?_⟩
      · rw [popComponent, if_neg hwv, hpop]
        rfl
      · rw [List.mem_cons, List.mem_cons, hcomp]
        constructor
        · rintro (heq | ⟨hx, hle⟩)
          · exact ⟨.inl heq, heq ▸ (hw v hv).le⟩
          · exact ⟨.inr hx, hle⟩
        · intro ⟨hx, hle⟩
          exact hx.imp_right fun hx => ⟨hx, hle⟩
      · rw [hrest, List.mem_cons]
        constructor
        · exact fun ⟨hx, hlt⟩ => ⟨.inr hx, hlt⟩
        · intro ⟨hx, hlt⟩
          refine ⟨hx.resolve_left fun heq => ?_, hlt⟩
          rw [heq] at hlt
          exact absurd (hw v hv) (not_lt.mpr hlt.le)

/-- What the frame below makes of the low-link. -/
theorem low_popFrame (s : State α) (v : α) (rest : List (Frame α)) (x : α) :
    (s.popFrame v rest).low x = s.low x ∨
      x ∈ rest.map (·.v) ∧ (s.popFrame v rest).low x = min (s.low x) (s.low v) := by
  rcases rest with _ | ⟨parent, rest⟩
  · exact .inl rfl
  · by_cases hx : x = parent.v
    · refine .inr ⟨hx ▸ List.mem_cons_self, ?_⟩
      show Function.update s.low parent.v _ x = _
      rw [hx, Function.update_self]
    · exact .inl (Function.update_of_ne hx _ _)

theorem low_popFrame_le (s : State α) (v : α) (rest : List (Frame α)) (x : α) : (s.popFrame v rest).low x ≤ s.low x := by
  rcases low_popFrame s v rest x with h | ⟨-, h⟩
  · exact h.le
  · exact h ▸ min_le_left _ _

namespace Inv

variable {rest : List (Frame α)} {v w : α} {i : ℕ}

/-- The top frame ends and its component is closed. -/
theorem close (h : Inv adj nodes base { s with work := ⟨v, i⟩ :: rest }) (hend : (adj v)[i]? = none)
    (hroot : s.low v = s.num v) {comp tstack : List α} (heq : s.tstack = comp ++ tstack)
    (hcomp : ∀ x, x ∈ comp ↔ x ∈ s.tstack ∧ s.num v ≤ s.num x)
    (hrest : ∀ x, x ∈ tstack ↔ x ∈ s.tstack ∧ s.num x < s.num v) :
    Inv adj nodes base ((s.close comp tstack).popFrame v rest) := by
  obtain ⟨hbelow, hpath⟩ := List.pairwise_cons.mp h.path_sorted
  have hopen : ∀ x ∈ tstack, x ∈ s.tstack := fun x hx => ((hrest x).mp hx).1
  have hmem : ∀ g ∈ rest.map (·.v), g ∈ v :: rest.map (·.v) := fun g => List.mem_cons_of_mem v
  have hlow : ∀ g ∈ rest.map (·.v), ((s.close comp tstack).popFrame v rest).low g = s.low g := by
    intro g hg
    rcases low_popFrame (s.close comp tstack) v rest g with hlow | ⟨-, hlow⟩
    · exact hlow
    · rw [hlow]
      show min (s.low g) (s.low v) = s.low g
      have hle : s.low g ≤ s.num g := h.low_le g (hmem g hg)
      have hlt : s.num g < s.num v := hbelow g hg
      omega
  have hdone : ∀ x, ((s.close comp tstack).popFrame v rest).Done x ↔ s.Done x ∨ x ∈ comp := by
    intro x
    show (s.index x).isSome ∧ x ∉ tstack ↔ ((s.index x).isSome ∧ x ∉ s.tstack) ∨ x ∈ comp
    have hindexed := h.indexed x
    rw [heq, List.mem_append] at hindexed ⊢
    constructor
    · intro ⟨hx, hout⟩
      by_cases hc : x ∈ comp
      · exact .inr hc
      · exact .inl ⟨hx, fun hx => hx.elim hc hout⟩
    · rintro (⟨hx, hout⟩ | hc)
      · exact ⟨hx, fun hx => hout (.inr hx)⟩
      · refine ⟨hindexed (.inl hc), fun hx => ?_⟩
        exact absurd ((hrest x).mp hx).2 (not_lt.mpr ((hcomp x).mp hc).2)
  have hsorted : s.tstack.Pairwise fun u v => s.num v < s.num u := h.sorted
  rw [heq] at hsorted
  have hnodup : comp.Nodup := (List.pairwise_append.mp hsorted).1.imp fun hlt heq => by
    rw [heq] at hlt
    exact lt_irrefl _ hlt
  have hclosed : ∀ u x, s.Done u ∨ u ∈ comp → x ∈ adj u → s.Done x ∨ x ∈ comp := by
    rintro u x (hu | hu) hx
    · exact .inl (h.done_closed u x hu hx)
    · rw [hcomp] at hu ⊢
      exact h.closed_above hend hroot hu hx
  exact
    { index_lt := h.index_lt
      index_inj := h.index_inj
      onStack_iff := fun x => by
        have hold := h.onStack_iff x
        show (s.onStack x && !comp.contains x) = true ↔ x ∈ tstack
        rw [Bool.and_eq_true, hold, hrest, Bool.not_eq_true', List.contains_eq_mem, decide_eq_false_iff_not, hcomp]
        show x ∈ s.tstack ∧ ¬ (x ∈ s.tstack ∧ s.num v ≤ s.num x) ↔ _
        rw [not_and, not_le]
        exact and_congr_right fun hx => ⟨fun hlt => hlt hx, fun hlt _ => hlt⟩
      sorted := (List.pairwise_append.mp hsorted).2.1
      indexed := fun x hx => h.indexed x (hopen x hx)
      path_sorted := hpath
      path_open := fun g hg => (hrest g).mpr ⟨h.path_open g (hmem g hg), hbelow g hg⟩
      path_nodes := fun g hg => h.path_nodes g (hmem g hg)
      done_closed := fun u x hu hx => (hdone x).mpr (hclosed u x ((hdone u).mp hu) hx)
      examined_indexed := fun u hu x hx => h.examined_indexed u (hopen u hu) x (examined_retreat hend hx)
      low_bounds := fun g hg u hu hle x hx hex => by
        obtain ⟨g', hg', hgg', hgx⟩ :=
          h.low_bounds g (hmem g hg) u (hopen u hu) hle x (hopen x hx) (examined_retreat hend hex)
        rcases List.mem_cons.mp hg' with rfl | hg'
        · have hgx : s.low g' ≤ s.num x := hgx
          exact absurd ((hrest x).mp hx).2 (not_lt.mpr (hroot ▸ hgx))
        · exact ⟨g', hg', hgg', (hlow g' hg').le.trans hgx⟩
      reaches := fun g hg u hu hle => h.reaches g (hmem g hg) u (hopen u hu) hle
      returns := fun u hu => by
        obtain ⟨g, hg, hle, hreach⟩ := h.returns u (hopen u hu)
        rcases List.mem_cons.mp hg with rfl | hg
        · exact absurd ((hrest u).mp hu).2 (not_lt.mpr hle)
        · exact ⟨g, hg, hle, hreach⟩
      low_le := fun g hg => (hlow g hg).le.trans (h.low_le g (hmem g hg))
      low_met := fun g hg => by
        obtain ⟨x, hx, hnum, hreach⟩ := h.low_met g (hmem g hg)
        refine ⟨x, (hrest x).mpr ⟨hx, ?_⟩, hnum.trans (hlow g hg).symm, hreach⟩
        have hle : s.low g ≤ s.num g := h.low_le g (hmem g hg)
        have hlt : s.num g < s.num v := hbelow g hg
        have hnum : s.num x = s.low g := hnum
        omega
      inCycle_nodup := fun hbase => by
        show (if 1 < comp.length then comp.foldl setAdd s.inCycle else s.inCycle).Nodup
        split
        · exact nodup_foldl_setAdd (h.inCycle_nodup hbase)
        · exact h.inCycle_nodup hbase
      inCycle_iff := fun x => by
        rw [hdone]
        have hold := h.inCycle_iff x
        have hadded : x ∈ (s.close comp tstack).inCycle ↔ x ∈ s.inCycle ∨ 1 < comp.length ∧ x ∈ comp := by
          show x ∈ (if 1 < comp.length then comp.foldl setAdd s.inCycle else s.inCycle) ↔ _
          split
          · next hlen => simp [hlen]
          · next hlen => simp [hlen]
        have hlarge : x ∈ comp → (1 < comp.length ↔ ∃ u, u ≠ x ∧ Reach adj x u ∧ Reach adj u x) := by
          intro hx
          rw [one_lt_length_iff hnodup hx]
          obtain ⟨hvx, hxv⟩ := h.mutual_above ((hcomp x).mp hx)
          constructor
          · intro ⟨u, hu, hne⟩
            obtain ⟨hvu, huv⟩ := h.mutual_above ((hcomp u).mp hu)
            exact ⟨u, hne, hxv.trans hvu, huv.trans hvx⟩
          · intro ⟨u, hne, hxu, hux⟩
            refine ⟨u, (hxu.mem_of_closed hclosed (.inr hx)).resolve_left fun hu => ?_, hne⟩
            exact (hux.mem_of_closed h.done_closed hu).2 ((hcomp x).mp hx).1
        show x ∈ (s.close comp tstack).inCycle ↔ _
        rw [hadded, hold]
        show (x ∈ base ∨ s.Done x ∧ _) ∨ _ ↔ _
        constructor
        · rintro ((hx | ⟨hx, hcycle⟩) | ⟨hlen, hx⟩)
          · exact .inl hx
          · exact .inr ⟨.inl hx, hcycle⟩
          · exact .inr ⟨.inr hx, (hlarge hx).mp hlen⟩
        · rintro (hx | ⟨hx | hx, hcycle⟩)
          · exact .inl (.inl hx)
          · exact .inl (.inr ⟨hx, hcycle⟩)
          · exact .inr ⟨(hlarge hx).mpr hcycle, hx⟩ }

omit [DecidableEq α] in
/-- A node that is not the root of its component reaches a node of the path below it. -/
theorem exists_below (h : Inv adj nodes base { s with work := ⟨v, i⟩ :: rest }) (hroot : s.low v ≠ s.num v) :
    ∃ g ∈ rest.map (·.v), s.num g < s.num v ∧ Reach adj v g := by
  have hle : s.low v ≤ s.num v := h.low_le v List.mem_cons_self
  obtain ⟨x, hx, hnum, hvx⟩ := h.low_met v List.mem_cons_self
  have hnum : s.num x = s.low v := hnum
  obtain ⟨g, hg, hgx, hxg⟩ := h.returns x hx
  have hgx : s.num g ≤ s.num x := hgx
  have hlt : s.num g < s.num v := by omega
  exact ⟨g, (List.mem_cons.mp hg).resolve_left fun heq => absurd hlt (heq ▸ lt_irrefl _), hlt, hvx.trans hxg⟩

/-- The top frame ends and its component stays open. -/
theorem retreat (h : Inv adj nodes base { s with work := ⟨v, i⟩ :: rest }) (hend : (adj v)[i]? = none)
    (hroot : s.low v ≠ s.num v) : Inv adj nodes base (s.popFrame v rest) := by
  obtain ⟨hbelow, hpath⟩ := List.pairwise_cons.mp h.path_sorted
  have hmem : ∀ g ∈ rest.map (·.v), g ∈ v :: rest.map (·.v) := fun g => List.mem_cons_of_mem v
  have hlow := low_popFrame_le s v rest
  have hvopen : v ∈ s.tstack := h.path_open v List.mem_cons_self
  exact
    { index_lt := h.index_lt
      index_inj := h.index_inj
      onStack_iff := h.onStack_iff
      sorted := h.sorted
      indexed := h.indexed
      path_sorted := hpath
      path_open := fun g hg => h.path_open g (hmem g hg)
      path_nodes := fun g hg => h.path_nodes g (hmem g hg)
      done_closed := h.done_closed
      inCycle_nodup := h.inCycle_nodup
      inCycle_iff := h.inCycle_iff
      examined_indexed := fun u hu x hx => h.examined_indexed u hu x (examined_retreat hend hx)
      low_bounds := fun g hg u hu hle x hx hex => by
        obtain ⟨g', hg', hgg', hgx⟩ := h.low_bounds g (hmem g hg) u hu hle x hx (examined_retreat hend hex)
        rcases List.mem_cons.mp hg' with heq | hg'
        · -- the frame below takes over from the one that ends
          rcases rest with _ | ⟨parent, rest⟩
          · exact absurd hg List.not_mem_nil
          refine ⟨parent.v, List.mem_cons_self, ?_, ?_⟩
          · rcases List.mem_cons.mp hg with rfl | hg
            · exact le_rfl
            · exact ((List.pairwise_cons.mp hpath).1 g hg).le
          · show Function.update s.low parent.v (min (s.low parent.v) (s.low v)) parent.v ≤ s.num x
            rw [Function.update_self]
            rw [heq] at hgx
            exact (min_le_right _ _).trans hgx
        · exact ⟨g', hg', hgg', (hlow g').trans hgx⟩
      reaches := fun g hg u hu hle => h.reaches g (hmem g hg) u hu hle
      returns := fun u hu => by
        obtain ⟨g, hg, hle, hug⟩ := h.returns u hu
        rcases List.mem_cons.mp hg with rfl | hg
        · obtain ⟨g', hg', hlt, hreach⟩ := h.exists_below hroot
          exact ⟨g', hg', hlt.le.trans hle, hug.trans hreach⟩
        · exact ⟨g, hg, hle, hug⟩
      low_le := fun g hg => (hlow g).trans (h.low_le g (hmem g hg))
      low_met := fun g hg => by
        rcases low_popFrame s v rest g with heq | ⟨-, heq⟩
        · rw [heq]
          exact h.low_met g (hmem g hg)
        rw [heq]
        rcases min_choice (s.low g) (s.low v) with heq | heq
        · rw [heq]
          exact h.low_met g (hmem g hg)
        · rw [heq]
          obtain ⟨x, hx, hnum, hvx⟩ := h.low_met v List.mem_cons_self
          exact ⟨x, hx, hnum, (h.reaches g (hmem g hg) v hvopen (hbelow g hg).le).trans hvx⟩ }

end Inv

/-! ## The search ends with the cycles -/

/-- How many edges the frames still have to look at, and the frames themselves. -/
def todo (adj : α → List α) (work : List (Frame α)) : ℕ := (work.map fun f => (adj f.v).length - f.i + 1).sum

/-- How many nodes have not been found. -/
def unseen (nodes : Finset α) (s : State α) : ℕ := (nodes.filter fun v => s.index v = none).card

/-- What a round of the loop can be. -/
theorem step_cases {s' : State α} {v : α} {i : ℕ} {rest : List (Frame α)} (hwork : s.work = ⟨v, i⟩ :: rest)
    (h : step adj s = some s') :
    (∃ w, (adj v)[i]? = some w ∧ s.index w = none ∧
      s' = ({ s with work := ⟨v, i + 1⟩ :: rest } : State α).discover w) ∨
    (∃ w l, (adj v)[i]? = some w ∧ (s.index w).isSome ∧
      (s.onStack w = true ∧ l = min (s.low v) (s.num w) ∨ s.onStack w = false ∧ l = s.low v) ∧
      s' = { s with work := ⟨v, i + 1⟩ :: rest, low := Function.update s.low v l }) ∨
    ((adj v)[i]? = none ∧ s.index v = some (s.low v) ∧
      ((popComponent v s.tstack = none ∧ s' = s) ∨
        ∃ comp tstack, popComponent v s.tstack = some (comp, tstack) ∧ s' = (s.close comp tstack).popFrame v rest)) ∨
    ((adj v)[i]? = none ∧ s.index v ≠ some (s.low v) ∧ s' = s.popFrame v rest) := by
  unfold step at h
  rw [hwork] at h
  dsimp only at h
  split at h
  · next w hw =>
    split at h
    · next hnone => exact .inl ⟨w, hw, hnone, (Option.some.inj h).symm⟩
    · next k hk =>
      have hnum : s.num w = k := by
        rw [State.num, hk]
        rfl
      refine .inr (.inl ?_)
      split at h
      · next hopen =>
        exact ⟨w, min (s.low v) k, hw, hk ▸ rfl, .inl ⟨hopen, by rw [hnum]⟩, (Option.some.inj h).symm⟩
      · next hclosed =>
        refine ⟨w, s.low v, hw, hk ▸ rfl, .inr ⟨Bool.eq_false_iff.mpr hclosed, rfl⟩, ?_⟩
        rw [Function.update_eq_self]
        exact (Option.some.inj h).symm
  · next hend =>
    refine .inr (.inr ?_)
    split at h
    · next hroot =>
      refine .inl ⟨hend, hroot, ?_⟩
      split at h
      · next hpop => exact .inl ⟨hpop, (Option.some.inj h).symm⟩
      · next comp tstack hpop => exact .inr ⟨comp, tstack, hpop, (Option.some.inj h).symm⟩
    · next hroot => exact .inr ⟨hend, hroot, (Option.some.inj h).symm⟩

omit [DecidableEq α] in
theorem todo_advance {v w : α} {i : ℕ} {rest : List (Frame α)} (hw : (adj v)[i]? = some w) :
    todo adj (⟨v, i + 1⟩ :: rest) < todo adj (⟨v, i⟩ :: rest) := by
  have hi : i < (adj v).length := (List.getElem?_eq_some_iff.mp hw).1
  simp only [todo, List.map_cons, List.sum_cons]
  omega

omit [DecidableEq α] in
theorem todo_rest {v : α} {i : ℕ} {rest : List (Frame α)} : todo adj rest < todo adj (⟨v, i⟩ :: rest) := by
  simp only [todo, List.map_cons, List.sum_cons]
  omega

/-- What one round of the loop does: it keeps the invariant and what has been found, and finds a node or has less to
do. -/
theorem step_inv (hclosed : ∀ v ∈ nodes, ∀ w ∈ adj v, w ∈ nodes) {s' : State α} (h : Inv adj nodes base s)
    (hstep : step adj s = some s') :
    Inv adj nodes base s' ∧ (∀ v, (s.index v).isSome → (s'.index v).isSome) ∧
      toLex (unseen nodes s', todo adj s'.work) < toLex (unseen nodes s, todo adj s.work) := by
  rcases hwork : s.work with _ | ⟨⟨v, i⟩, rest⟩
  · rw [step, hwork] at hstep
    cases hstep
  have h' : Inv adj nodes base { s with work := ⟨v, i⟩ :: rest } := by
    rw [← hwork]
    exact h
  have hvopen : v ∈ s.tstack := h'.path_open v List.mem_cons_self
  have hindex : s.index v = some (s.num v) := index_eq_num (h.indexed v hvopen)
  rcases step_cases hwork hstep with ⟨w, hw, hnone, rfl⟩ | ⟨w, l, hw, hfound, hl, rfl⟩ | ⟨hend, hroot, hpop⟩ |
    ⟨hend, hroot, rfl⟩
  · -- a new node
    have hedge : w ∈ adj v := List.mem_of_getElem? hw
    have hnode : w ∈ nodes := hclosed v (h'.path_nodes v List.mem_cons_self) w hedge
    refine ⟨?_, fun x hx => ?_, lex_lt (.inl ?_)⟩
    · refine h'.discover rfl (fun u _ x hx => ?_) (fun g hg => ?_) hnone hnode
      · exact (Inv.examined_advance hw hx).imp_right And.right
      · refine (h'.reaches g hg v hvopen ?_).tail hedge
        rcases List.mem_cons.mp hg with rfl | hg
        · exact le_rfl
        · exact ((List.pairwise_cons.mp h'.path_sorted).1 g hg).le
    · exact (Inv.isSome_index_discover _ _ _).mpr (.inr hx)
    · refine unseen_lt hnode hnone ?_ fun x hx => ?_
      · rw [Inv.index_discover, if_pos rfl]
        exact Option.some_ne_none _
      · rw [Inv.index_discover] at hx
        split at hx
        · cases hx
        · exact hx
  · -- an edge to a node that has been found
    refine ⟨?_, fun x hx => hx, lex_lt (.inr ⟨rfl, todo_advance hw⟩)⟩
    have hwnum : w ∈ s.tstack ↔ s.onStack w = true := (h.onStack_iff w).symm
    have hmet := h'.low_met v List.mem_cons_self
    rcases hl with ⟨hopen, rfl⟩ | ⟨hshut, rfl⟩
    · refine h'.advance hw hfound (min_le_left _ _) (fun _ => min_le_right _ _) ?_
      rcases min_choice (s.low v) (s.num w) with heq | heq
      · rw [heq]
        exact hmet
      · rw [heq]
        exact ⟨w, hwnum.mpr hopen, rfl, .single (List.mem_of_getElem? hw)⟩
    · refine h'.advance hw hfound le_rfl (fun hopen => ?_) hmet
      rw [hwnum, hshut] at hopen
      cases hopen
  · -- the root of a component
    have hroot : s.low v = s.num v := Option.some.inj (hroot.symm.trans hindex)
    obtain ⟨comp, tstack, hpop', heq, hcomp, hrest⟩ := popComponent_of_sorted h.sorted hvopen
    rw [hpop'] at hpop
    rcases hpop with ⟨hnone, -⟩ | ⟨comp, tstack, hsome, rfl⟩
    · cases hnone
    · cases hsome
      exact ⟨h'.close hend hroot heq hcomp hrest, fun x hx => hx, lex_lt (.inr ⟨rfl, todo_rest⟩)⟩
  · -- a node whose component stays open
    have hroot : s.low v ≠ s.num v := fun heq => hroot (heq ▸ hindex)
    exact ⟨h'.retreat hend hroot, fun x hx => hx, lex_lt (.inr ⟨rfl, todo_rest⟩)⟩

theorem work_eq_nil (h : step adj s = none) : s.work = [] := by
  unfold step at h
  split at h
  · next hwork => exact hwork
  · dsimp only at h
    split at h
    · split at h
      · cases h
      · split at h <;> cases h
    · split at h
      · split at h <;> cases h
      · cases h

/-- Between two searches nothing is open. -/
structure Settled (adj : α → List α) (nodes : Finset α) (base : List α) (s : State α) : Prop where
  inv : Inv adj nodes base s
  work_eq : s.work = []

omit [DecidableEq α] in
theorem Settled.tstack_eq (h : Settled adj nodes base s) : s.tstack = [] := by
  refine List.eq_nil_iff_forall_not_mem.mpr fun u hu => ?_
  obtain ⟨v, hv, -⟩ := h.inv.returns u hu
  rw [State.path, h.work_eq] at hv
  exact absurd hv List.not_mem_nil

/-- The search from a node ends, and has found it. -/
theorem explore_returns (hclosed : ∀ v ∈ nodes, ∀ w ∈ adj v, w ∈ nodes) (h : Settled adj nodes base s) {start : α}
    (hstart : start ∈ nodes) :
    ∃ t, Returns (explore adj · s start) t ∧ Settled adj nodes base t ∧ (t.index start).isSome ∧
      ∀ v, (s.index v).isSome → (t.index v).isSome := by
  by_cases hfound : (s.index start).isSome
  · refine ⟨s, ⟨0, fun fuel _ => if_pos hfound⟩, h, hfound, fun v hv => hv⟩
  have hs : Inv adj nodes base (({ s with work := [] } : State α).discover start) := by
    have hpath : [] = s.path := by rw [State.path, h.work_eq, List.map_nil]
    refine h.inv.discover hpath (fun u hu => ?_) (fun v hv => ?_) (Option.not_isSome_iff_eq_none.mp hfound) hstart
    · rw [h.tstack_eq] at hu
      exact absurd hu List.not_mem_nil
    · rw [← hpath] at hv
      exact absurd hv List.not_mem_nil
  obtain ⟨t, ht, ⟨hinv, hkept⟩, hend⟩ := run_rule (step adj)
    (fun s => toLex (unseen nodes s, todo adj s.work))
    (fun t => Inv adj nodes base t ∧ ∀ v, v = start ∨ (s.index v).isSome → (t.index v).isSome)
    (fun t t' ht hstep => by
      obtain ⟨hinv, hmore, hlt⟩ := step_inv hclosed ht.1 hstep
      exact ⟨⟨hinv, fun v hv => hmore v (ht.2 v hv)⟩, hlt⟩)
    ⟨hs, fun v hv => (Inv.isSome_index_discover _ _ _).mpr hv⟩
  refine ⟨t, ?_, ⟨hinv, ?_⟩, hkept start (.inl rfl), fun v hv => hkept v (.inr hv)⟩
  · obtain ⟨n, hn⟩ := ht
    exact ⟨n, fun fuel hfuel => (if_neg hfound).trans (hn fuel hfuel)⟩
  · exact work_eq_nil hend

/-- The search from every listed node ends. Where the nodes that have edges are listed, it has collected, besides the
nodes given at the start, those that reach another node and are reached from it. -/
theorem inCycles_returns {keys : List α} (base : List α) (hlisted : ∀ v, adj v ≠ [] → v ∈ keys) :
    ∃ result, Returns (inCycles adj keys base) result ∧ (base.Nodup → result.Nodup) ∧
      ∀ v, v ∈ result ↔ v ∈ base ∨ ∃ u, u ≠ v ∧ Reach adj v u ∧ Reach adj u v := by
  let nodes := (keys ++ keys.flatMap adj).toFinset
  have hkeys : ∀ v ∈ keys, v ∈ nodes := fun v hv => List.mem_toFinset.mpr (List.mem_append_left _ hv)
  have hclosed : ∀ v ∈ nodes, ∀ w ∈ adj v, w ∈ nodes := fun v _ w hw =>
    List.mem_toFinset.mpr (List.mem_append_right _
      (List.mem_flatMap.mpr ⟨v, hlisted v (List.ne_nil_of_mem hw), hw⟩))
  obtain ⟨t, ht, hsettled, hfound⟩ := returns_foldlM (f := fun fuel => explore adj fuel) (l := keys)
    (fun before s => Settled adj nodes base s ∧ ∀ v ∈ before, (s.index v).isSome)
    (fun before s a ha hs => by
      obtain ⟨t, ht, hsettled, hfound, hkept⟩ := explore_returns hclosed hs.1 (hkeys a ha)
      refine ⟨t, ht, hsettled, fun v hv => ?_⟩
      rcases List.mem_append.mp hv with hv | hv
      · exact hkept v (hs.2 v hv)
      · rwa [List.mem_singleton.mp hv])
    ⟨⟨.init, rfl⟩, fun v hv => absurd hv List.not_mem_nil⟩
  refine ⟨t.inCycle, ht.map, hsettled.inv.inCycle_nodup, fun v => ?_⟩
  rw [hsettled.inv.inCycle_iff]
  refine or_congr_right ⟨And.right, fun ⟨u, hne, hvu, huv⟩ => ⟨⟨?_, ?_⟩, u, hne, hvu, huv⟩⟩
  · refine hfound v (hlisted v fun hnil => ?_)
    rcases Relation.ReflTransGen.cases_head hvu with heq | ⟨w, hw, -⟩
    · exact hne heq.symm
    · rw [hnil] at hw
      exact absurd hw List.not_mem_nil
  · rw [hsettled.tstack_eq]
    exact List.not_mem_nil

end Tarjan
