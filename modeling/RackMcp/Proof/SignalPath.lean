import RackMcp.Server.Analysis

/-!
# Feedback and signal paths

The two graph searches of the patch analysis, read off their general forms: `modulesInCycles` returns exactly the
modules on a directed cycle (`modulesInCycles_exact`), and `longestCablePathTo` a path of cables, a longest one where
no cycle leads to the destination. The chains of a description start with that path (`signalPath_real`).
-/

namespace RackMcp.Analysis

open Reachability WhileLoop

namespace Snapshot

variable (snap : Snapshot)

/-- There is a cable from the one module to the other. -/
def Cabled (u v : String) : Prop := ∃ c ∈ snap.cables, c.outputModuleId = u ∧ c.inputModuleId = v

/-- There is such a cable, and its output module is listed. -/
def FromListed (u v : String) : Prop := (∃ m ∈ snap.modules, m.moduleId = u) ∧ snap.Cabled u v

/-- A path of cables to a module: no module twice, the last one is that module, and a cable leads from each to the
next. -/
structure CablePath (path : List String) (dest : String) : Prop where
  nodup : path.Nodup
  last : path.getLast? = some dest
  cabled : path.IsChain snap.Cabled

/-- No directed cycle of cables can reach the module. -/
def NoCycleReaches (dest : String) : Prop :=
  ∀ v, Relation.ReflTransGen snap.Cabled v dest → ¬ Relation.TransGen snap.Cabled v v

variable {snap}

theorem mem_keys {id : String} : id ∈ snap.keys ↔ ∃ m ∈ snap.modules, m.moduleId = id := by
  rw [keys, mem_foldl_setAdd, List.mem_map]
  exact or_iff_right List.not_mem_nil

theorem mem_selfLoop {id : String} :
    id ∈ snap.selfLoop ↔ ∃ c ∈ snap.cables, c.outputModuleId = id ∧ c.inputModuleId = id := by
  rw [selfLoop, mem_foldl_setAdd, List.mem_map, or_iff_right List.not_mem_nil]
  constructor
  · rintro ⟨c, hc, rfl⟩
    obtain ⟨hc, heq⟩ := List.mem_filter.mp hc
    exact ⟨c, hc, rfl, (beq_iff_eq.mp heq).symm⟩
  · intro ⟨c, hc, hout, hin⟩
    exact ⟨c, List.mem_filter.mpr ⟨hc, beq_iff_eq.mpr (hout.trans hin.symm)⟩, hout⟩

theorem mem_neighbors {u v : String} : v ∈ snap.neighbors u ↔ snap.FromListed u v := by
  unfold neighbors FromListed
  rw [← mem_keys]
  split
  · next hu =>
    rw [List.mem_map, and_iff_right hu]
    constructor
    · intro ⟨c, hc, hin⟩
      obtain ⟨hc, hout⟩ := List.mem_filter.mp hc
      exact ⟨c, hc, beq_iff_eq.mp hout, hin⟩
    · intro ⟨c, hc, hout, hin⟩
      exact ⟨c, List.mem_filter.mpr ⟨hc, beq_iff_eq.mpr hout⟩, hin⟩
  · next hu => exact ⟨fun h => absurd h List.not_mem_nil, fun h => absurd h.1 hu⟩

theorem mem_incoming {u v : String} : u ∈ snap.incoming v ↔ snap.Cabled u v := by
  rw [incoming, List.mem_map]
  constructor
  · intro ⟨c, hc, hout⟩
    obtain ⟨hc, hin⟩ := List.mem_filter.mp hc
    exact ⟨c, hc, hout, beq_iff_eq.mp hin⟩
  · intro ⟨c, hc, hout, hin⟩
    exact ⟨c, List.mem_filter.mpr ⟨hc, beq_iff_eq.mpr hin⟩, hout⟩

theorem neighbors_rel : (fun u v => v ∈ snap.neighbors u) = snap.FromListed :=
  funext fun _ => funext fun _ => propext mem_neighbors

variable (snap) in
theorem incoming_rel : (fun u v => u ∈ snap.incoming v) = snap.Cabled :=
  funext fun _ => funext fun _ => propext mem_incoming

theorem isPath_iff {path : List String} {dest : String} :
    LongestPath.IsPath snap.incoming path dest ↔ snap.CablePath path dest := by
  constructor
  · intro h
    exact ⟨h.nodup, h.last, snap.incoming_rel ▸ h.chain⟩
  · intro h
    exact ⟨h.nodup, h.last, snap.incoming_rel ▸ h.cabled⟩

variable (snap) in
/-- The modules that a search backwards from a module can meet. -/
theorem exists_nodes (dest : String) : ∃ nodes : Finset String,
    dest ∈ nodes ∧ ∀ v ∈ nodes, ∀ u ∈ snap.incoming v, u ∈ nodes := by
  refine ⟨(dest :: snap.cables.map (·.outputModuleId)).toFinset, ?_, fun v _ u hu => ?_⟩
  · exact List.mem_toFinset.mpr List.mem_cons_self
  · obtain ⟨c, hc, hout, -⟩ := mem_incoming.mp hu
    exact List.mem_toFinset.mpr (List.mem_cons_of_mem _ (List.mem_map.mpr ⟨c, hc, hout⟩))

end Snapshot

variable (snap : Snapshot)

/-- Feedback detection ends, and finds the modules on a directed cycle of cables from listed modules and those with a
cable to themselves, each once. -/
theorem modulesInCycles_exact :
    ∃ result, Returns (modulesInCycles snap) result ∧ result.Nodup ∧
      ∀ id, id ∈ result ↔
        Relation.TransGen snap.FromListed id id ∨ ∃ c ∈ snap.cables, c.outputModuleId = id ∧ c.inputModuleId = id := by
  have hlisted : ∀ v, snap.neighbors v ≠ [] → v ∈ snap.keys := by
    intro v hv
    by_contra hout
    exact hv (if_neg hout)
  obtain ⟨result, hreturns, hnodup, hmem⟩ := Tarjan.inCycles_returns snap.selfLoop hlisted
  refine ⟨result, hreturns, hnodup (nodup_foldl_setAdd List.nodup_nil), fun id => ?_⟩
  have hcycle := Tarjan.onCycle_iff snap.neighbors id
  rw [Tarjan.OnCycle, Snapshot.neighbors_rel, Snapshot.mem_neighbors] at hcycle
  rw [hmem, Snapshot.mem_selfLoop, hcycle]
  constructor
  · rintro (hself | hother)
    · exact .inr hself
    · exact .inl (.inr hother)
  · rintro ((⟨-, hself⟩ | hother) | hself)
    · exact .inl hself
    · exact .inr hother
    · exact .inl hself

/-! ### The path of a chain -/

variable {snap} {dest : String}

/-- The search for a path ends with one, which is a longest one where no cycle reaches the destination. -/
theorem longestCablePathTo_returns (snap : Snapshot) (dest : String) :
    ∃ path, Returns (longestCablePathTo snap dest) path ∧ snap.CablePath path dest ∧
      (snap.NoCycleReaches dest → ∀ q, snap.CablePath q dest → q.length ≤ path.length) := by
  obtain ⟨nodes, hdest, hclosed⟩ := snap.exists_nodes dest
  obtain ⟨path, hreturns, hpath, hlongest⟩ := LongestPath.longestPathTo_returns hdest hclosed
  refine ⟨path, hreturns, Snapshot.isPath_iff.mp hpath, fun hacyclic q hq => ?_⟩
  refine hlongest (fun v hleads => ?_) q (Snapshot.isPath_iff.mpr hq)
  rw [LongestPath.OnCycle, Snapshot.incoming_rel]
  rw [LongestPath.Reach, Snapshot.incoming_rel] at hleads
  exact hacyclic v hleads

/-- The search for the ancestors ends with the modules from which cables lead to the destination. -/
theorem ancestors_returns (snap : Snapshot) (dest : String) :
    ∃ ancestors, Returns (reaching snap.incoming [dest]) ancestors ∧
      ∀ id, id ∈ ancestors ↔ Relation.ReflTransGen snap.Cabled id dest := by
  obtain ⟨nodes, hdest, hclosed⟩ := snap.exists_nodes dest
  have hroots : ∀ v ∈ [dest], v ∈ nodes := fun v hv => List.mem_singleton.mp hv ▸ hdest
  obtain ⟨ancestors, hreturns, -, hmem⟩ := reaching_returns hroots hclosed
  refine ⟨ancestors, hreturns, fun id => ?_⟩
  rw [hmem, Leads, Snapshot.incoming_rel]
  simp

/-- A chain is made of the ancestors and the path of its destination. -/
theorem chainOf_returns (snap : Snapshot) (dest : ModuleS) :
    ∃ ancestors path, (∀ id, id ∈ ancestors ↔ Relation.ReflTransGen snap.Cabled id dest.moduleId) ∧
      Returns (longestCablePathTo snap dest.moduleId) path ∧ snap.CablePath path dest.moduleId ∧
      Returns (chainOf snap · dest) (chainFrom snap dest ancestors path) := by
  obtain ⟨ancestors, hancestors, hmem⟩ := ancestors_returns snap dest.moduleId
  obtain ⟨path, hpath, hcable, -⟩ := longestCablePathTo_returns snap dest.moduleId
  exact ⟨ancestors, path, hmem, hpath, hcable, hancestors.bind (hpath.bind (.pure _))⟩

/-- The description ends, with a chain for each destination. -/
theorem describePatch_returns (hasAdapter : String → String → Bool) (snap : Snapshot) :
    ∃ output, Returns (describePatch hasAdapter snap) output ∧
      output.summary = " ".intercalate (summaryParts hasAdapter snap) ∧ output.warnings = warnings snap ∧
      List.Forall₂ (fun dest chain => dest ∈ snap.modules ∧ Returns (chainOf snap · dest) chain)
        snap.destinations output.chains := by
  obtain ⟨chains, hchains, hall⟩ := returns_mapM (f := chainOf snap) (l := snap.destinations)
    (P := fun dest chain => dest ∈ snap.modules ∧ Returns (chainOf snap · dest) chain) (fun dest hdest => by
      obtain ⟨ancestors, path, -, -, -, hreturns⟩ := chainOf_returns snap dest
      exact ⟨_, hreturns, List.mem_of_mem_filter hdest, hreturns⟩)
  exact ⟨_, hchains.bind (.pure _), rfl, rfl, hall⟩

section ShowExtras

variable {nameOf : String → String} {description : String} {count : ℕ} {extras : List (String × String)}
  {shown moduleIds : List String}

/-- Showing clauses only adds module ids. -/
theorem prefix_showExtras : moduleIds <+: (showExtras nameOf description count extras shown moduleIds).2 := by
  induction extras generalizing shown moduleIds with
  | nil => exact List.prefix_rfl
  | cons pair extras ih =>
    rw [showExtras]
    split
    · exact List.prefix_rfl
    · exact prefix_foldl_setAdd.trans ih

theorem nodup_showExtras (h : moduleIds.Nodup) :
    (showExtras nameOf description count extras shown moduleIds).2.Nodup := by
  induction extras generalizing shown moduleIds with
  | nil => exact h
  | cons pair extras ih =>
    rw [showExtras]
    split
    · exact h
    · exact ih (nodup_foldl_setAdd h)

end ShowExtras

/-- The module ids of a chain: the path and more, without repetition, up to the 256th. -/
theorem chainFrom_moduleIds (snap : Snapshot) (dest : ModuleS) (ancestors : List String) {path : List String}
    (hpath : path.Nodup) :
    ∃ ids, (chainFrom snap dest ancestors path).moduleIds = ids.take 256 ∧ path <+: ids ∧ ids.Nodup := by
  unfold chainFrom
  dsimp only
  split
  · exact ⟨path, rfl, List.prefix_rfl, hpath⟩
  · exact ⟨_, rfl, prefix_showExtras, nodup_showExtras hpath⟩

/-- The search for a path to a module ends with a path of cables to it, a longest one where no cycle reaches it. The
description ends, and the module ids of the chain of each destination are without repetition and begin with that path,
both cut at 256 entries. -/
theorem signalPath_real (hasAdapter : String → String → Bool) (snap : Snapshot) :
    (∀ dest, ∃ path, Returns (longestCablePathTo snap dest) path ∧ snap.CablePath path dest ∧
      (snap.NoCycleReaches dest → ∀ q, snap.CablePath q dest → q.length ≤ path.length)) ∧
    ∃ output, Returns (describePatch hasAdapter snap) output ∧
      List.Forall₂ (fun dest chain => chain.moduleIds.Nodup ∧ chain.moduleIds.length ≤ 256 ∧
        ∃ path, Returns (longestCablePathTo snap dest.moduleId) path ∧ path.take 256 <+: chain.moduleIds)
        snap.destinations output.chains := by
  refine ⟨longestCablePathTo_returns snap, ?_⟩
  obtain ⟨output, hreturns, -, -, hchains⟩ := describePatch_returns hasAdapter snap
  refine ⟨output, hreturns, hchains.imp fun dest chain ⟨_, hchain⟩ => ?_⟩
  obtain ⟨ancestors, path, -, hpath, hcable, hfrom⟩ := chainOf_returns snap dest
  obtain ⟨ids, hids, hbegins, hnodup⟩ := chainFrom_moduleIds snap dest ancestors hcable.nodup
  rw [hchain.unique hfrom, hids]
  refine ⟨hnodup.sublist (List.take_sublist 256 ids), ?_, path, hpath, hbegins.take 256⟩
  rw [List.length_take]
  exact min_le_left _ _

end RackMcp.Analysis
