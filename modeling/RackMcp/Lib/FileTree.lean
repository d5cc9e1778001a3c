import Mathlib.Data.List.Basic
import Mathlib.Data.List.Induction

/-!
# File trees with symbolic links

A tree of directories, files and links, and the resolution of a path as a kernel does it: part after part, with `.` and
`..`, following each link where it stands, and no more of them than the budget. A location is the list of the names
that lead to it from the root; what a link says is given by `parse`, as whether it is absolute and its parts.
-/

namespace FileTree

/-- A part of a path: nothing or `.`, `..`, or the name of an entry. -/
inductive PathPart (ν : Type*) where
  | here
  | up
  | name (n : ν)
deriving DecidableEq

inductive Inode (τ : Type*) where
  | dir
  | file (size : ℕ)
  | link (target : τ)
deriving DecidableEq

/-- What there is at each location: whatever is there is in a directory. -/
structure Volume (ν τ : Type*) where
  entry : List ν → Option (Inode τ)
  root : entry [] = some .dir
  parent : ∀ loc name, (entry (loc ++ [name])).isSome → entry loc = some .dir

/-- The tree of finitely many entries, each in a directory. -/
def Volume.ofEntries {ν τ : Type*} [DecidableEq ν] (entries : List (List ν × Inode τ))
    (root : entries.lookup [] = some .dir)
    (parent : ∀ e ∈ entries, e.1 = [] ∨ entries.lookup e.1.dropLast = some .dir) : Volume ν τ where
  entry loc := entries.lookup loc
  root := root
  parent loc name h := by
    obtain ⟨e, hmem, heq⟩ := List.lookup_isSome_iff.mp h
    have hname := beq_iff_eq.mp heq
    obtain hnil | hdir := parent e hmem
    · rw [hnil] at hname
      exact absurd hname (by simp)
    · rw [← hname, List.dropLast_concat] at hdir
      exact hdir

inductive Failure (ν : Type*) where
  /-- Nothing is at the location, and these parts of the path are left. -/
  | missing (location : List ν) (rest : List (PathPart ν))
  | notDir
  | loop
deriving DecidableEq

namespace Volume

variable {ν τ : Type*} (t : Volume ν τ) (parse : τ → Bool × List (PathPart ν))

/-- What comes of a path: the location and what is left of the budget of links, or a failure. -/
abbrev Outcome (ν : Type*) := Except (Failure ν) (List ν × ℕ)

/-- The walk along the parts of a path. `follow` goes on where a link leads. -/
def walkParts (budget : ℕ) (follow : List ν → List (PathPart ν) → Outcome ν) (loc : List ν) :
    List (PathPart ν) → Outcome ν
  | [] => .ok (loc, budget)
  | part :: rest =>
    match t.entry loc with
    | some .dir =>
      match part with
      | .here => walkParts budget follow loc rest
      | .up => walkParts budget follow loc.dropLast rest
      | .name n =>
        match t.entry (loc ++ [n]) with
        | none => .error (.missing (loc ++ [n]) rest)
        | some (.link target) =>
          follow (if (parse target).1 then [] else loc) ((parse target).2 ++ rest)
        | some _ => walkParts budget follow (loc ++ [n]) rest
    | _ => .error .notDir

/-- No more links may be followed. -/
def stop (_ : List ν) (_ : List (PathPart ν)) : Outcome ν := .error .loop

/-- The location that a path leads to from `loc`, with what is left of the budget of links. -/
def walk : ℕ → List ν → List (PathPart ν) → Outcome ν
  | 0 => t.walkParts parse 0 stop
  | budget + 1 => t.walkParts parse (budget + 1) (walk budget)

/-- What a walk with this budget does with a link. -/
def onward : ℕ → List ν → List (PathPart ν) → Outcome ν
  | 0 => stop
  | budget + 1 => t.walk parse budget

theorem walk_eq (budget : ℕ) : t.walk parse budget = t.walkParts parse budget (t.onward parse budget) := by
  rcases budget with _ | budget <;> rfl

/-- Where a file of this name would be opened or created. -/
def locate (budget : ℕ) (loc : List ν) (parts : List (PathPart ν)) : Except (Failure ν) (List ν) :=
  match t.walk parse budget loc parts with
  | .ok spot => .ok spot.1
  | .error (.missing location []) => .ok location
  | .error e => .error e

/-- There is no link on the way to the location. -/
def Plain (loc : List ν) : Prop := ∀ p, p <+: loc → ∀ target, t.entry p ≠ some (.link target)

variable {t parse} {budget left : ℕ} {loc q names : List ν} {name : ν} {parts rest : List (PathPart ν)}

/-! ### What is there -/

theorem dir_of_prefix (h : (t.entry (loc ++ names ++ [name])).isSome) : t.entry loc = some .dir := by
  induction names using List.reverseRecOn generalizing name with
  | nil =>
    rw [List.append_nil] at h
    exact t.parent loc name h
  | append_singleton names last ih =>
    rw [← List.append_assoc] at h
    have hdir := t.parent (loc ++ names ++ [last]) name h
    exact ih (by rw [hdir]; rfl)

/-- What leads to something is a directory. -/
theorem dir_of_append (hnames : names ≠ []) (h : (t.entry (loc ++ names)).isSome) : t.entry loc = some .dir := by
  rw [← List.dropLast_append_getLast hnames, ← List.append_assoc] at h
  exact dir_of_prefix h

theorem Plain.concat (h : t.Plain loc) (hname : ∀ target, t.entry (loc ++ [name]) ≠ some (.link target)) :
    t.Plain (loc ++ [name]) := by
  intro p hp target
  obtain rfl | hp := List.prefix_concat_iff.mp hp
  · exact hname target
  · exact h p hp target

/-- What there is, if it is no link, is reached without one. -/
theorem plain_of_entry (h : (t.entry loc).isSome) (hlink : ∀ target, t.entry loc ≠ some (.link target)) :
    t.Plain loc := by
  intro p hp target hp'
  obtain ⟨rest, rfl⟩ := hp
  by_cases hrest : rest = []
  · rw [hrest, List.append_nil] at hlink
    exact hlink target hp'
  · rw [dir_of_append hrest h] at hp'
    exact absurd (Option.some.inj hp') nofun

/-! ### Where a walk leads -/

/-- What a walk leads to is there, and is no link. -/
def Stands (t : Volume ν τ) (loc : List ν) : Prop :=
  (t.entry loc).isSome ∧ ∀ target, t.entry loc ≠ some (.link target)

theorem stands_of_dir (h : t.entry loc = some .dir) : t.Stands loc := by
  refine ⟨by rw [h]; rfl, fun target hlink => ?_⟩
  rw [h] at hlink
  exact absurd (Option.some.inj hlink) nofun

theorem dir_dropLast (h : t.entry loc = some .dir) : t.entry loc.dropLast = some .dir := by
  by_cases hnil : loc = []
  · rw [hnil, List.dropLast_nil]
    exact t.root
  · rw [← List.dropLast_append_getLast hnil] at h
    exact t.parent _ _ (by rw [h]; rfl)

theorem walkParts_stands {follow : List ν → List (PathPart ν) → Outcome ν}
    (hfollow : ∀ loc parts, t.Stands loc → follow loc parts = .ok (q, left) → t.Stands q)
    (hloc : t.Stands loc) (h : t.walkParts parse budget follow loc parts = .ok (q, left)) : t.Stands q := by
  induction parts generalizing loc with
  | nil =>
    obtain ⟨rfl, -⟩ := Prod.mk.inj (Except.ok.inj h)
    exact hloc
  | cons part rest ih =>
    unfold walkParts at h
    split at h
    · next hdir =>
      cases part with
      | here => exact ih hloc h
      | up => exact ih (stands_of_dir (dir_dropLast hdir)) h
      | name n =>
        dsimp only at h
        split at h
        · exact absurd h nofun
        · refine hfollow _ _ ?_ h
          split
          · exact stands_of_dir t.root
          · exact hloc
        · next node hnode hentry =>
          exact ih ⟨by rw [hentry]; rfl, fun target hlink => hnode target (Option.some.inj (hentry.symm.trans hlink))⟩ h
    · exact absurd h nofun

theorem walk_stands (hloc : t.Stands loc) (h : t.walk parse budget loc parts = .ok (q, left)) : t.Stands q := by
  induction budget generalizing loc parts with
  | zero => exact walkParts_stands (fun _ _ _ (h : stop _ _ = _) => absurd h nofun) hloc h
  | succ budget ih => exact walkParts_stands (fun loc parts hloc h => ih hloc h) hloc h

/-! ### Paths in parts -/

theorem walkParts_append {follow : List ν → List (PathPart ν) → Outcome ν}
    (hfollow : ∀ loc parts, follow loc parts = .ok (q, left) →
      follow loc (parts ++ rest) = t.walk parse left q rest)
    (hself : ∀ loc, t.walkParts parse budget follow loc rest = t.walk parse budget loc rest)
    (h : t.walkParts parse budget follow loc parts = .ok (q, left)) :
    t.walkParts parse budget follow loc (parts ++ rest) = t.walk parse left q rest := by
  induction parts generalizing loc with
  | nil =>
    obtain ⟨rfl, rfl⟩ := Prod.mk.inj (Except.ok.inj h)
    exact hself loc
  | cons part more ih =>
    rw [List.cons_append]
    unfold walkParts at h ⊢
    split at h
    · next hdir =>
      cases part with
      | here => exact ih h
      | up => exact ih h
      | name n =>
        dsimp only at h ⊢
        split at h
        · exact absurd h nofun
        · rw [← List.append_assoc]
          exact hfollow _ _ h
        · exact ih h
    · exact absurd h nofun

/-- A path goes on from where its first part leads. -/
theorem walk_append (h : t.walk parse budget loc parts = .ok (q, left)) :
    t.walk parse budget loc (parts ++ rest) = t.walk parse left q rest := by
  induction budget generalizing loc parts with
  | zero => exact walkParts_append (fun _ _ (h : stop _ _ = _) => absurd h nofun) (fun _ => rfl) h
  | succ budget ih => exact walkParts_append (fun _ _ h => ih h) (fun _ => rfl) h

/-! ### Plain paths -/

theorem walk_here (h : t.entry loc = some .dir) :
    t.walk parse budget loc (.here :: parts) = t.walk parse budget loc parts := by
  rw [walk_eq, walkParts, h]

theorem walk_cons {node : Inode τ} (hdir : t.entry loc = some .dir) (hentry : t.entry (loc ++ [name]) = some node)
    (hlink : ∀ target, node ≠ .link target) :
    t.walk parse budget loc (.name name :: parts) = t.walk parse budget (loc ++ [name]) parts := by
  rw [walk_eq, walkParts, hdir]
  dsimp only
  rw [hentry]
  split
  · next h => exact absurd h nofun
  · next target h => exact absurd (Option.some.inj h) (hlink target)
  · rfl

theorem walk_missing (hdir : t.entry loc = some .dir) (hentry : t.entry (loc ++ [name]) = none) :
    t.walk parse budget loc (.name name :: parts) = .error (.missing (loc ++ [name]) parts) := by
  rw [walk_eq, walkParts, hdir]
  dsimp only
  rw [hentry]

/-- Nothing is below what is no directory. -/
theorem walk_notDir {part : PathPart ν} (h : t.entry loc ≠ some .dir) :
    t.walk parse budget loc (part :: parts) = .error .notDir := by
  rw [walk_eq]
  unfold walkParts
  split
  · next hdir => exact absurd hdir h
  · rfl

/-- A plain path to something leads there. -/
theorem walk_plain_from (hloc : t.Stands loc) (hplain : t.Plain (loc ++ names))
    (hthere : (t.entry (loc ++ names)).isSome) :
    t.walk parse budget loc (names.map .name) = .ok (loc ++ names, budget) := by
  induction names generalizing loc with
  | nil =>
    rw [List.append_nil, walk_eq]
    rfl
  | cons name rest ih =>
    have hdir : t.entry loc = some .dir := dir_of_append (by simp) hthere
    have hassoc : loc ++ name :: rest = loc ++ [name] ++ rest := by simp
    rw [hassoc] at hthere hplain ⊢
    have hnext : t.Stands (loc ++ [name]) := by
      refine ⟨?_, hplain _ (List.prefix_append ..)⟩
      by_cases hrest : rest = []
      · rw [hrest, List.append_nil] at hthere
        exact hthere
      · rw [dir_of_append hrest hthere]
        rfl
    obtain ⟨node, hnode⟩ := Option.isSome_iff_exists.mp hnext.1
    rw [List.map_cons, walk_cons hdir hnode fun target h => hnext.2 target (by rw [hnode, h])]
    exact ih hnext hplain hthere

theorem walk_plain (hplain : t.Plain loc) (hthere : (t.entry loc).isSome) :
    t.walk parse budget [] (loc.map .name) = .ok (loc, budget) :=
  walk_plain_from (stands_of_dir t.root) hplain hthere

/-- A plain path leads nowhere else. -/
theorem walk_plain_ok (hplain : t.Plain (loc ++ names))
    (h : t.walk parse budget loc (names.map .name) = .ok (q, left)) : q = loc ++ names ∧ left = budget := by
  induction names generalizing loc with
  | nil =>
    rw [walk_eq] at h
    obtain ⟨rfl, rfl⟩ := Prod.mk.inj (Except.ok.inj h)
    exact ⟨(List.append_nil _).symm, rfl⟩
  | cons name rest ih =>
    rw [List.map_cons] at h
    by_cases hdir : t.entry loc = some .dir
    · have hassoc : loc ++ name :: rest = loc ++ [name] ++ rest := by simp
      rw [hassoc] at hplain ⊢
      rcases hentry : t.entry (loc ++ [name]) with _ | node
      · rw [walk_missing hdir hentry] at h
        exact absurd h nofun
      · have hlink : ∀ target, node ≠ .link target := by
          rintro target rfl
          exact hplain _ (List.prefix_append ..) target hentry
        rw [walk_cons hdir hentry hlink] at h
        exact ih hplain h
    · rw [walk_notDir hdir] at h
      exact absurd h nofun

/-- A plain path in a directory is located, whether or not something is there. -/
theorem locate_plain (hplain : t.Plain (loc ++ [name])) (hdir : t.entry loc = some .dir) :
    t.locate parse budget [] ((loc ++ [name]).map .name) = .ok (loc ++ [name]) := by
  have hloc : t.walk parse budget [] (loc.map .name) = .ok (loc, budget) :=
    walk_plain (fun p hp => hplain p (hp.trans (List.prefix_append ..))) (by rw [hdir]; rfl)
  unfold locate
  rw [List.map_append, List.map_singleton, walk_append hloc]
  rcases hentry : t.entry (loc ++ [name]) with _ | node
  · rw [walk_missing hdir hentry]
  · rw [walk_cons hdir hentry fun target h => hplain _ List.prefix_rfl target (by rw [hentry, h]), walk_eq]
    rfl

end Volume

end FileTree
