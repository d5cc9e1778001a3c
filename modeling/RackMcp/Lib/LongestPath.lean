import RackMcp.Lib.WhileLoop
import Mathlib.Algebra.GroupWithZero.Nat
import Mathlib.Logic.Relation
import Mathlib.Data.List.Chain
import Mathlib.Data.List.Induction
import Mathlib.Data.Finset.Dedup

/-!
# A long path to a node

`sources v` lists the nodes with an edge to `v`. The search goes backwards from a node, depth first, on a stack of
frames of its own: it skips an edge from a node that is on the stack, remembers for each node the best path found to it,
and takes over a path only when the node is not on it already. The path that comes out is a path of the graph; it is a
longest one when no cycle leads to the node, since then no edge is skipped and no path is turned down.
-/

namespace LongestPath

open WhileLoop

variable {α : Type*}

/-- A path to a node: no node twice, the last one is the node, and each has an edge to the next. -/
structure IsPath (sources : α → List α) (p : List α) (v : α) : Prop where
  nodup : p.Nodup
  last : p.getLast? = some v
  chain : p.IsChain fun u w => u ∈ sources w

/-- There is a way along the edges, of any length. -/
abbrev Reach (sources : α → List α) : α → α → Prop := Relation.ReflTransGen fun u w => u ∈ sources w

/-- There is a directed cycle through the node. -/
abbrev OnCycle (sources : α → List α) (v : α) : Prop := Relation.TransGen (fun u w => u ∈ sources w) v v

namespace IsPath

variable {sources : α → List α} {p : List α} {u v : α}

theorem single (v : α) : IsPath sources [v] v := ⟨List.nodup_singleton v, rfl, .singleton v⟩

/-- A path goes on along an edge. -/
theorem snoc (h : IsPath sources p u) (hedge : u ∈ sources v) (hv : v ∉ p) : IsPath sources (p ++ [v]) v := by
  refine ⟨?_, List.getLast?_concat, ?_⟩
  · rw [← List.concat_eq_append, List.nodup_concat]
    exact ⟨hv, h.nodup⟩
  · refine List.isChain_append.mpr ⟨h.chain, .singleton v, fun x hx y hy => ?_⟩
    rw [h.last] at hx
    cases hx
    cases hy
    exact hedge

/-- The path but for its last node leads to a source of that node, unless there is nothing else on it. -/
theorem exists_init (h : IsPath sources p v) :
    ∃ q, p = q ++ [v] ∧ v ∉ q ∧ (q = [] ∨ ∃ u, u ∈ sources v ∧ IsPath sources q u) := by
  obtain ⟨q, rfl⟩ := List.getLast?_eq_some_iff.mp h.last
  have hnodup := h.nodup
  rw [← List.concat_eq_append, List.nodup_concat] at hnodup
  refine ⟨q, rfl, hnodup.1, ?_⟩
  obtain ⟨hchain, -, hedge⟩ := List.isChain_append.mp h.chain
  rcases hlast : q.getLast? with _ | u
  · exact .inl (List.getLast?_eq_none_iff.mp hlast)
  · exact .inr ⟨u, hedge u hlast v rfl, hnodup.2, hlast, hchain⟩

/-- The node can be reached from every node of the path. -/
theorem reach (h : IsPath sources p v) : ∀ u ∈ p, Reach sources u v := by
  induction p using List.reverseRecOn generalizing v with
  | nil => exact fun u hu => absurd hu List.not_mem_nil
  | append_singleton p x ih =>
    obtain ⟨q, heq, -, hq⟩ := h.exists_init
    obtain ⟨rfl, hx⟩ := List.append_inj' heq rfl
    cases hx
    intro u hu
    rcases List.mem_append.mp hu with hu | hu
    · rcases hq with rfl | ⟨w, hedge, hpath⟩
      · exact absurd hu List.not_mem_nil
      · exact (ih hpath u hu).tail hedge
    · rw [List.mem_singleton.mp hu]

end IsPath

/-- A node of the search, how many of its sources have been looked at, and the best path to one of them. -/
structure Frame (α : Type*) where
  id : α
  i : ℕ
  best : List α

/-- The best path to each node whose search has ended, the nodes with a frame, and the frames, latest first. -/
structure State (α : Type*) where
  memo : α → Option (List α) := fun _ => none
  onStack : α → Bool
  work : List (Frame α)

variable [DecidableEq α]

/-- Takes a path over if it is longer and does not go through the node. -/
def Frame.offer (frame : Frame α) (path : List α) : Frame α :=
  if frame.best.length < path.length ∧ frame.id ∉ path then { frame with best := path } else frame

/-- Offers a path to the frame that is now on top, if there is one. -/
def offerTop (path : List α) : List (Frame α) → List (Frame α)
  | [] => []
  | parent :: rest => parent.offer path :: rest

/-- One round of the loop: the next source of the top frame, or the end of that frame. -/
def step (sources : α → List α) (s : State α) : Option (State α) :=
  match s.work with
  | [] => none
  | frame :: rest =>
    match (sources frame.id)[frame.i]? with
    | some src =>
      let frame := { frame with i := frame.i + 1 }
      if s.onStack src then some { s with work := frame :: rest }
      else
        match s.memo src with
        | some cached => some { s with work := frame.offer cached :: rest }
        | none =>
          some { s with onStack := Function.update s.onStack src true, work := ⟨src, 0, []⟩ :: frame :: rest }
    | none =>
      let path := frame.best ++ [frame.id]
      some
        { memo := Function.update s.memo frame.id (some path)
          onStack := Function.update s.onStack frame.id false
          work := offerTop path rest }

/-- The search from a node. -/
def longestPathTo (sources : α → List α) (dest : α) (fuel : ℕ) : Option (List α) :=
  (run (step sources) fuel
    { onStack := Function.update (fun _ => false) dest true, work := [⟨dest, 0, []⟩] }).map
    fun s => (s.memo dest).getD [dest]

variable {sources : α → List α} {s s' : State α} {dest : α} {nodes : Finset α}

namespace Frame

variable {frame : Frame α} {path : List α}

@[simp] theorem offer_id : (frame.offer path).id = frame.id := by
  unfold offer
  split <;> rfl

@[simp] theorem offer_i : (frame.offer path).i = frame.i := by
  unfold offer
  split <;> rfl

theorem length_le_offer (frame : Frame α) (path : List α) : frame.best.length ≤ (frame.offer path).best.length := by
  unfold offer
  split
  · next h => exact h.1.le
  · exact le_rfl

/-- A path that does not go through the node counts. -/
theorem length_le_offer_of_not_mem (h : frame.id ∉ path) : path.length ≤ (frame.offer path).best.length := by
  unfold offer
  split
  · exact le_rfl
  · next hnot =>
    by_contra hlt
    exact hnot ⟨not_le.mp hlt, h⟩

theorem offer_isPath (h : IsPath sources (frame.best ++ [frame.id]) frame.id) {src : α}
    (hpath : IsPath sources path src) (hedge : src ∈ sources frame.id) :
    IsPath sources ((frame.offer path).best ++ [frame.id]) frame.id := by
  unfold offer
  split
  · next hnew => exact hpath.snoc hedge hnew.2
  · exact h

end Frame

/-- No path to the node is longer. -/
def Bounded (sources : α → List α) (v : α) (n : ℕ) : Prop := ∀ q, IsPath sources q v → q.length ≤ n

/-- No cycle leads to the node. -/
def Acyclic (sources : α → List α) (dest : α) : Prop := ∀ v, Reach sources v dest → ¬ OnCycle sources v

/-- Each frame's best path is as long as any to a source it has looked at, but for the source that has the frame above
it. -/
def Accounted (sources : α → List α) : Option α → List (Frame α) → Prop
  | _, [] => True
  | child, frame :: rest =>
    (∀ src ∈ (sources frame.id).take frame.i, child = some src ∨ Bounded sources src frame.best.length) ∧
      Accounted sources (some frame.id) rest

/-- The invariant of the search. -/
structure Inv (sources : α → List α) (dest : α) (nodes : Finset α) (s : State α) : Prop where
  best_path : ∀ frame ∈ s.work, IsPath sources (frame.best ++ [frame.id]) frame.id
  memo_path : ∀ v p, s.memo v = some p → IsPath sources p v
  linked : (s.work.map (·.id)).IsChain fun u w => u ∈ sources w
  nodup : (s.work.map (·.id)).Nodup
  onStack_iff : ∀ v, s.onStack v = true ↔ v ∈ s.work.map (·.id)
  memo_none : ∀ v ∈ s.work.map (·.id), s.memo v = none
  mem_nodes : ∀ v ∈ s.work.map (·.id), v ∈ nodes
  leads : ∀ v ∈ s.work.map (·.id), Reach sources v dest
  bottom : (s.memo dest).isSome ∨ (s.work.map (·.id)).getLast? = some dest
  longest : Acyclic sources dest →
    (∀ v p, s.memo v = some p → Bounded sources v p.length) ∧ Accounted sources none s.work

omit [DecidableEq α] in
theorem Bounded.mono {v : α} {m n : ℕ} (h : Bounded sources v m) (hle : m ≤ n) : Bounded sources v n :=
  fun q hq => (h q hq).trans hle

omit [DecidableEq α] in
/-- A frame may move on and get a better path, as long as what it has looked at stays accounted for. -/
theorem Accounted.change {child child' : Option α} {frame frame' : Frame α} {rest : List (Frame α)}
    (h : Accounted sources child (frame :: rest)) (hid : frame'.id = frame.id)
    (hle : frame.best.length ≤ frame'.best.length)
    (hnew : ∀ src ∈ (sources frame.id).take frame'.i,
      src ∈ (sources frame.id).take frame.i ∧ child ≠ some src ∨ child' = some src ∨
        Bounded sources src frame'.best.length) : Accounted sources child' (frame' :: rest) := by
  obtain ⟨hold, hrest⟩ := h
  refine ⟨fun src hsrc => ?_, hid ▸ hrest⟩
  rw [hid] at hsrc
  rcases hnew src hsrc with ⟨hmem, hne⟩ | h
  · exact .inr (((hold src hmem).resolve_left hne).mono hle)
  · exact h

omit [DecidableEq α] in
/-- Every node with a frame can be reached from the node of the top frame. -/
theorem reach_of_linked {v : α} {ids : List α} (h : (v :: ids).IsChain fun u w => u ∈ sources w) :
    ∀ u ∈ v :: ids, Reach sources v u := by
  induction ids generalizing v with
  | nil =>
    intro u hu
    rw [List.mem_singleton.mp hu]
  | cons w ids ih =>
    obtain ⟨hedge, hrest⟩ := List.isChain_cons_cons.mp h
    intro u hu
    rcases List.mem_cons.mp hu with rfl | hu
    · exact .refl
    · exact .head hedge (ih hrest u hu)

namespace Inv

variable {frame frame' : Frame α} {rest : List (Frame α)} {src : α}

omit [DecidableEq α] in
/-- A source of the top node that has a frame closes a cycle. -/
theorem onCycle (h : Inv sources dest nodes { s with work := frame :: rest }) (hedge : src ∈ sources frame.id)
    (hsrc : src ∈ frame.id :: rest.map (·.id)) : ¬ Acyclic sources dest := by
  intro hacyclic
  exact hacyclic src (h.leads src hsrc) (.head' hedge (reach_of_linked h.linked src hsrc))

omit [DecidableEq α] in
/-- A path to a source of a node that goes through the node closes a cycle. -/
theorem onCycle_of_mem {v : α} {p : List α} (hleads : Reach sources v dest) (hedge : src ∈ sources v)
    (hp : IsPath sources p src) (hv : v ∈ p) : ¬ Acyclic sources dest := by
  intro hacyclic
  exact hacyclic v hleads (.tail' (hp.reach v hv) hedge)

omit [DecidableEq α] in
/-- The top frame moves on. -/
theorem moveOn (h : Inv sources dest nodes { s with work := frame :: rest }) (hid : frame'.id = frame.id)
    (hbest : IsPath sources (frame'.best ++ [frame.id]) frame.id)
    (hlongest : Acyclic sources dest → Accounted sources none (frame' :: rest)) :
    Inv sources dest nodes { s with work := frame' :: rest } := by
  have hids : (frame' :: rest).map (·.id) = (frame :: rest).map (·.id) := by
    rw [List.map_cons, hid, List.map_cons]
  exact
    { best_path := fun f hf => by
        rcases List.mem_cons.mp hf with rfl | hf
        · rwa [hid]
        · exact h.best_path f (List.mem_cons_of_mem _ hf)
      memo_path := h.memo_path
      linked := hids ▸ h.linked
      nodup := hids ▸ h.nodup
      onStack_iff := fun v => hids ▸ h.onStack_iff v
      memo_none := fun v hv => h.memo_none v (hids ▸ hv)
      mem_nodes := fun v hv => h.mem_nodes v (hids ▸ hv)
      leads := fun v hv => h.leads v (hids ▸ hv)
      bottom := hids ▸ h.bottom
      longest := fun hacyclic => ⟨(h.longest hacyclic).1, hlongest hacyclic⟩ }

omit [DecidableEq α] in
/-- What the top frame has looked at once its cursor has moved past a source. -/
theorem accounted_advance (h : Inv sources dest nodes { s with work := frame :: rest })
    (hsrc : (sources frame.id)[frame.i]? = some src) (hacyclic : Acyclic sources dest) {child : Option α}
    (hid : frame'.id = frame.id) (hi : frame'.i = frame.i + 1) (hle : frame.best.length ≤ frame'.best.length)
    (hnew : child = some src ∨ Bounded sources src frame'.best.length) : Accounted sources child (frame' :: rest) := by
  refine (h.longest hacyclic).2.change hid hle fun x hx => ?_
  rw [hi, List.take_add_one, hsrc, List.mem_append] at hx
  rcases hx with hx | hx
  · exact .inl ⟨hx, fun hnone => Option.some_ne_none _ hnone.symm⟩
  · have heq : x = src := by simpa using hx
    exact .inr (heq ▸ hnew)

/-- A source without a path gets a frame of its own. -/
theorem push (h : Inv sources dest nodes { s with work := frame :: rest })
    (hsrc : (sources frame.id)[frame.i]? = some src) (hout : s.onStack src = false) (hnone : s.memo src = none)
    (hnode : src ∈ nodes) :
    Inv sources dest nodes
      { s with
        onStack := Function.update s.onStack src true
        work := ⟨src, 0, []⟩ :: { frame with i := frame.i + 1 } :: rest } := by
  have hedge : src ∈ sources frame.id := List.mem_of_getElem? hsrc
  have hfresh : src ∉ frame.id :: rest.map (·.id) := fun hmem => by
    rw [(h.onStack_iff src).mpr hmem] at hout
    cases hout
  have hmem : ∀ {v}, v ∈ src :: frame.id :: rest.map (·.id) ↔ v = src ∨ v ∈ frame.id :: rest.map (·.id) :=
    List.mem_cons
  exact
    { best_path := fun f hf => by
        rcases List.mem_cons.mp hf with rfl | hf
        · exact .single src
        rcases List.mem_cons.mp hf with rfl | hf
        · exact h.best_path frame List.mem_cons_self
        · exact h.best_path f (List.mem_cons_of_mem _ hf)
      memo_path := h.memo_path
      linked := List.isChain_cons_cons.mpr ⟨hedge, h.linked⟩
      nodup := List.nodup_cons.mpr ⟨hfresh, h.nodup⟩
      onStack_iff := fun v => by
        show Function.update s.onStack src true v = true ↔ v ∈ src :: frame.id :: rest.map (·.id)
        rw [Function.update_apply, hmem]
        by_cases hv : v = src
        · simp [hv]
        · rw [if_neg hv, h.onStack_iff v]
          exact ⟨.inr, fun hor => hor.resolve_left hv⟩
      memo_none := fun v hv => by
        rcases hmem.mp hv with rfl | hv
        · exact hnone
        · exact h.memo_none v hv
      mem_nodes := fun v hv => by
        rcases hmem.mp hv with rfl | hv
        · exact hnode
        · exact h.mem_nodes v hv
      leads := fun v hv => by
        rcases hmem.mp hv with rfl | hv
        · exact .head hedge (h.leads frame.id List.mem_cons_self)
        · exact h.leads v hv
      bottom := h.bottom.imp_right fun hlast => by
        rw [List.map_cons, List.getLast?_cons, List.map_cons]
        exact hlast ▸ rfl
      longest := fun hacyclic => by
        refine ⟨(h.longest hacyclic).1, fun x hx => absurd hx List.not_mem_nil, ?_⟩
        exact h.accounted_advance hsrc hacyclic rfl rfl le_rfl (.inl rfl) }

omit [DecidableEq α] in
/-- The best path to the top node, once all its sources have been looked at. -/
theorem bounded_top (h : Inv sources dest nodes { s with work := frame :: rest })
    (hend : (sources frame.id)[frame.i]? = none) (hacyclic : Acyclic sources dest) :
    Bounded sources frame.id (frame.best ++ [frame.id]).length := by
  intro q hq
  obtain ⟨init, rfl, -, hinit⟩ := hq.exists_init
  rw [List.length_append, List.length_append]
  refine Nat.add_le_add_right ?_ 1
  rcases hinit with rfl | ⟨src, hsrc, hpath⟩
  · exact Nat.zero_le _
  · have htake : src ∈ (sources frame.id).take frame.i := by
      rwa [List.take_of_length_le (List.getElem?_eq_none_iff.mp hend)]
    rcases (h.longest hacyclic).2.1 src htake with hnone | hbounded
    · cases hnone
    · exact hbounded init hpath

/-- The top frame ends: its best path is kept and offered to the frame below. -/
theorem pop (h : Inv sources dest nodes { s with work := frame :: rest })
    (hend : (sources frame.id)[frame.i]? = none) :
    Inv sources dest nodes
      { memo := Function.update s.memo frame.id (some (frame.best ++ [frame.id]))
        onStack := Function.update s.onStack frame.id false
        work := offerTop (frame.best ++ [frame.id]) rest } := by
  have hpath : IsPath sources (frame.best ++ [frame.id]) frame.id := h.best_path frame List.mem_cons_self
  have hids : (offerTop (frame.best ++ [frame.id]) rest).map (·.id) = rest.map (·.id) := by
    rcases rest with _ | ⟨parent, rest⟩
    · rfl
    · simp [offerTop]
  have hfresh : frame.id ∉ rest.map (·.id) := (List.nodup_cons.mp h.nodup).1
  have hnodup : (rest.map (·.id)).Nodup := (List.nodup_cons.mp h.nodup).2
  have hmemo : ∀ v p, Function.update s.memo frame.id (some (frame.best ++ [frame.id])) v = some p →
      v = frame.id ∧ p = frame.best ++ [frame.id] ∨ s.memo v = some p := by
    intro v p hp
    rw [Function.update_apply] at hp
    split at hp
    · next hv => exact .inl ⟨hv, (Option.some.inj hp).symm⟩
    · exact .inr hp
  have hmem : ∀ v ∈ rest.map (·.id), v ∈ frame.id :: rest.map (·.id) := fun v => List.mem_cons_of_mem _
  have hne : ∀ v ∈ rest.map (·.id), v ≠ frame.id := fun v hv heq => hfresh (heq ▸ hv)
  constructor
  case best_path =>
    intro f hf
    rcases rest with _ | ⟨parent, rest⟩
    · exact absurd hf List.not_mem_nil
    have hedge : frame.id ∈ sources parent.id := (List.isChain_cons_cons.mp h.linked).1
    rcases List.mem_cons.mp hf with rfl | hf
    · rw [Frame.offer_id]
      exact Frame.offer_isPath (h.best_path parent (List.mem_cons_of_mem _ List.mem_cons_self)) hpath hedge
    · exact h.best_path f (List.mem_cons_of_mem _ (List.mem_cons_of_mem _ hf))
  case memo_path =>
    intro v p hp
    rcases hmemo v p hp with ⟨rfl, rfl⟩ | hp
    · exact hpath
    · exact h.memo_path v p hp
  case linked =>
    rw [hids]
    exact (List.isChain_cons.mp h.linked).2
  case nodup =>
    rw [hids]
    exact hnodup
  case onStack_iff =>
    intro v
    show Function.update s.onStack frame.id false v = true ↔ _
    rw [hids, Function.update_apply]
    by_cases hv : v = frame.id
    · rw [if_pos hv, hv]
      exact ⟨fun hfalse => absurd hfalse Bool.false_ne_true, fun hin => absurd hin hfresh⟩
    · rw [if_neg hv, h.onStack_iff v]
      exact ⟨fun hin => (List.mem_cons.mp hin).resolve_left hv, hmem v⟩
  case memo_none =>
    intro v hv
    rw [hids] at hv
    show Function.update s.memo frame.id _ v = none
    rw [Function.update_of_ne (hne v hv)]
    exact h.memo_none v (hmem v hv)
  case mem_nodes =>
    intro v hv
    rw [hids] at hv
    exact h.mem_nodes v (hmem v hv)
  case leads =>
    intro v hv
    rw [hids] at hv
    exact h.leads v (hmem v hv)
  case bottom =>
    show (Function.update s.memo frame.id _ dest).isSome ∨ _
    rw [hids]
    by_cases hdest : dest = frame.id
    · rw [hdest, Function.update_self]
      exact .inl rfl
    rw [Function.update_of_ne hdest]
    refine h.bottom.imp_right fun hlast => ?_
    rcases rest with _ | ⟨parent, rest⟩
    · exact absurd (Option.some.inj hlast).symm hdest
    · have hlast : (frame.id :: parent.id :: rest.map (·.id)).getLast? = some dest := hlast
      rwa [List.getLast?_cons_cons] at hlast
  case longest =>
    intro hacyclic
    have hbounded := h.bounded_top hend hacyclic
    obtain ⟨hold, -, hrest⟩ := h.longest hacyclic
    refine ⟨fun v p hp => ?_, ?_⟩
    · rcases hmemo v p hp with ⟨rfl, rfl⟩ | hp
      · exact hbounded
      · exact hold v p hp
    rcases rest with _ | ⟨parent, rest⟩
    · trivial
    have hedge : frame.id ∈ sources parent.id := (List.isChain_cons_cons.mp h.linked).1
    refine Accounted.change hrest Frame.offer_id (Frame.length_le_offer _ _) fun src hsrc => ?_
    rw [Frame.offer_i] at hsrc
    by_cases heq : src = frame.id
    · have hout : parent.id ∉ frame.best ++ [frame.id] := fun hin =>
        onCycle_of_mem (h.leads parent.id (hmem _ List.mem_cons_self)) hedge hpath hin hacyclic
      exact .inr (.inr (heq ▸ hbounded.mono (Frame.length_le_offer_of_not_mem hout)))
    · exact .inl ⟨hsrc, fun hchild => heq (Option.some.inj hchild).symm⟩

end Inv

/-- What a round of the loop can be. -/
theorem step_cases {frame : Frame α} {rest : List (Frame α)} (hwork : s.work = frame :: rest)
    (h : step sources s = some s') :
    (∃ src, (sources frame.id)[frame.i]? = some src ∧
      (s.onStack src = true ∧ s' = { s with work := { frame with i := frame.i + 1 } :: rest } ∨
        (∃ cached, s.memo src = some cached ∧
          s' = { s with work := ({ frame with i := frame.i + 1 } : Frame α).offer cached :: rest }) ∨
        (s.onStack src = false ∧ s.memo src = none ∧
          s' =
            { s with
              onStack := Function.update s.onStack src true
              work := ⟨src, 0, []⟩ :: { frame with i := frame.i + 1 } :: rest }))) ∨
    ((sources frame.id)[frame.i]? = none ∧
      s' =
        { memo := Function.update s.memo frame.id (some (frame.best ++ [frame.id]))
          onStack := Function.update s.onStack frame.id false
          work := offerTop (frame.best ++ [frame.id]) rest }) := by
  unfold step at h
  rw [hwork] at h
  dsimp only at h
  split at h
  · next src hsrc =>
    refine .inl ⟨src, hsrc, ?_⟩
    split at h
    · next hon => exact .inl ⟨hon, (Option.some.inj h).symm⟩
    · next hout =>
      right
      split at h
      · next cached hcached => exact .inl ⟨cached, hcached, (Option.some.inj h).symm⟩
      · next hnone => exact .inr ⟨Bool.eq_false_iff.mpr hout, hnone, (Option.some.inj h).symm⟩
  · next hend => exact .inr ⟨hend, (Option.some.inj h).symm⟩

theorem work_eq_nil (h : step sources s = none) : s.work = [] := by
  unfold step at h
  split at h
  · next hwork => exact hwork
  · dsimp only at h
    split at h
    · split at h
      · cases h
      · split at h <;> cases h
    · cases h

/-- How many sources the frames still have to look at, and the frames themselves. -/
def todo (sources : α → List α) (work : List (Frame α)) : ℕ :=
  (work.map fun f => (sources f.id).length - f.i + 1).sum

/-- How many nodes have neither a frame nor a path. -/
def unseen (nodes : Finset α) (s : State α) : ℕ :=
  (nodes.filter fun v => s.memo v = none ∧ s.onStack v = false).card

omit [DecidableEq α] in
theorem todo_advance {frame frame' : Frame α} {rest : List (Frame α)} {src : α}
    (hsrc : (sources frame.id)[frame.i]? = some src) (hid : frame'.id = frame.id) (hi : frame'.i = frame.i + 1) :
    todo sources (frame' :: rest) < todo sources (frame :: rest) := by
  have hlen : frame.i < (sources frame.id).length := (List.getElem?_eq_some_iff.mp hsrc).1
  simp only [todo, List.map_cons, List.sum_cons, hid, hi]
  omega

theorem todo_pop {frame : Frame α} {rest : List (Frame α)} {path : List α} :
    todo sources (offerTop path rest) < todo sources (frame :: rest) := by
  have heq : todo sources (offerTop path rest) = todo sources rest := by
    rcases rest with _ | ⟨parent, rest⟩
    · rfl
    · simp [todo, offerTop]
  rw [heq]
  simp only [todo, List.map_cons, List.sum_cons]
  omega

/-- What one round of the loop does: it keeps the invariant, and finds a node or has less to do. -/
theorem step_inv (hclosed : ∀ v ∈ nodes, ∀ u ∈ sources v, u ∈ nodes) (h : Inv sources dest nodes s)
    (hstep : step sources s = some s') :
    Inv sources dest nodes s' ∧ toLex (unseen nodes s', todo sources s'.work) < toLex (unseen nodes s, todo sources s.work) := by
  rcases hwork : s.work with _ | ⟨frame, rest⟩
  · rw [step, hwork] at hstep
    cases hstep
  have h' : Inv sources dest nodes { s with work := frame :: rest } := by
    rw [← hwork]
    exact h
  have hpath := h'.best_path frame List.mem_cons_self
  rcases step_cases hwork hstep with
    ⟨src, hsrc, ⟨hon, rfl⟩ | ⟨cached, hcached, rfl⟩ | ⟨hout, hnone, rfl⟩⟩ | ⟨hend, rfl⟩
  · -- the edge would close a cycle
    have hedge : src ∈ sources frame.id := List.mem_of_getElem? hsrc
    refine ⟨h'.moveOn rfl hpath fun hacyclic => ?_, lex_lt (.inr ⟨rfl, todo_advance hsrc rfl rfl⟩)⟩
    exact absurd hacyclic (h'.onCycle hedge ((h'.onStack_iff src).mp hon))
  · -- a path to the source is known
    have hedge : src ∈ sources frame.id := List.mem_of_getElem? hsrc
    have hcachedPath := h'.memo_path src cached hcached
    refine ⟨h'.moveOn Frame.offer_id ?_ fun hacyclic => ?_, lex_lt (.inr ⟨rfl, todo_advance hsrc Frame.offer_id Frame.offer_i⟩)⟩
    · exact Frame.offer_isPath hpath hcachedPath hedge
    · have hout : frame.id ∉ cached := fun hin =>
        Inv.onCycle_of_mem (h'.leads frame.id List.mem_cons_self) hedge hcachedPath hin hacyclic
      have hle : frame.best.length ≤ (({ frame with i := frame.i + 1 } : Frame α).offer cached).best.length :=
        Frame.length_le_offer { frame with i := frame.i + 1 } cached
      refine h'.accounted_advance hsrc hacyclic Frame.offer_id Frame.offer_i hle (.inr ?_)
      exact ((h'.longest hacyclic).1 src cached hcached).mono (Frame.length_le_offer_of_not_mem hout)
  · -- the search goes on from the source
    have hedge : src ∈ sources frame.id := List.mem_of_getElem? hsrc
    have hnode : src ∈ nodes := hclosed frame.id (h'.mem_nodes frame.id List.mem_cons_self) src hedge
    refine ⟨h'.push hsrc hout hnone hnode, lex_lt (.inl (unseen_lt hnode ⟨hnone, hout⟩ ?_ fun v ⟨hmemo, hv⟩ => ⟨hmemo, ?_⟩))⟩
    · intro ⟨_, hfalse⟩
      have hfalse : Function.update s.onStack src true src = false := hfalse
      rw [Function.update_self] at hfalse
      cases hfalse
    · have hv : Function.update s.onStack src true v = false := hv
      rw [Function.update_apply] at hv
      split at hv
      · cases hv
      · exact hv
  · -- the frame ends
    refine ⟨h'.pop hend, lex_lt (.inr ⟨congrArg Finset.card (Finset.filter_congr fun v _ => ?_), todo_pop⟩)⟩
    by_cases hv : v = frame.id
    · have hon : s.onStack frame.id = true := (h'.onStack_iff frame.id).mpr List.mem_cons_self
      simp [hv, hon]
    · simp [hv]

/-- The search ends with a path to the node, a longest one if no cycle leads to it. -/
theorem longestPathTo_returns (hdest : dest ∈ nodes) (hclosed : ∀ v ∈ nodes, ∀ u ∈ sources v, u ∈ nodes) :
    ∃ path, Returns (longestPathTo sources dest) path ∧ IsPath sources path dest ∧
      (Acyclic sources dest → Bounded sources dest path.length) := by
  have hsingle : ∀ {v}, v ∈ [dest] ↔ v = dest := List.mem_singleton
  have hinit : Inv sources dest nodes
      { onStack := Function.update (fun _ => false) dest true, work := [⟨dest, 0, []⟩] } :=
    { best_path := fun frame hframe => by
        rw [List.mem_singleton.mp hframe]
        exact .single dest
      memo_path := fun v p hp => by cases hp
      linked := .singleton dest
      nodup := List.nodup_singleton dest
      onStack_iff := fun v => by
        show Function.update (fun _ => false) dest true v = true ↔ v ∈ [dest]
        rw [Function.update_apply, hsingle]
        by_cases hv : v = dest <;> simp [hv]
      memo_none := fun v _ => rfl
      mem_nodes := fun v hv => by rwa [hsingle.mp hv]
      leads := fun v hv => by rw [hsingle.mp hv]
      bottom := .inr rfl
      longest := fun _ => ⟨fun v p hp => (by cases hp), fun x hx => absurd hx List.not_mem_nil, trivial⟩ }
  obtain ⟨t, ht, hinv, hend⟩ := run_rule (step sources)
    (fun s => toLex (unseen nodes s, todo sources s.work)) (Inv sources dest nodes) (fun _ _ => step_inv hclosed) hinit
  have hfound : (t.memo dest).isSome := by
    refine hinv.bottom.resolve_right fun hlast => ?_
    rw [work_eq_nil hend] at hlast
    cases hlast
  obtain ⟨path, hpath⟩ := Option.isSome_iff_exists.mp hfound
  have hreturns := ht.map (g := fun s => (s.memo dest).getD [dest])
  rw [hpath] at hreturns
  exact ⟨path, hreturns, hinv.memo_path dest path hpath, fun hacyclic => (hinv.longest hacyclic).1 dest path hpath⟩

end LongestPath
