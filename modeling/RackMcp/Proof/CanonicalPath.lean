import RackMcp.Proof.PathNames

/-!
# What a path is made canonical to

`canonicalAllowingMissing` takes a path to a location that the kernel finds and to names below it (`Comes`). Where the
names of the location are UTF-8, no link is on what it answers; a link with `..` in its target may still take a directory
part to a regular file (`Misled`), and a name that is not UTF-8 may have the text of something else (`Garbled`).
-/

namespace RackMcp.Server

open FileTree Gen

variable {m : Machine} {loc spelt : List Name} {name : Name} {segment : String} {segments rest : List String}

/-! ### Canonical paths and the kernel -/

/-- A location of UTF-8 names, without links on the way. -/
structure Canonical (m : Machine) (loc : List Name) : Prop where
  textual : Textual loc
  plain : m.tree.Plain loc

theorem pathText_ne (loc : List Name) : pathText loc ≠ "" := by
  intro h
  have htext := toList_joinSegments (loc.map Name.text)
  rw [← pathText, h] at htext
  exact absurd htext (by simp)

namespace Machine

theorem origin_pathText (m : Machine) (loc : List Name) : m.origin (pathText loc) = [] := by
  unfold origin pathText
  rw [toList_joinSegments]
  rfl

/-- The empty parts of an absolute path lead nowhere. -/
theorem walk_pathText (h : Textual loc) :
    m.tree.walk parseTarget m.links [] (splitBytes (encodePath (pathText loc))) =
      m.tree.walk parseTarget m.links [] (loc.map .name) := by
  rw [encodePath_pathText h, splitBytes_pathBytes, Volume.walk_here m.tree.root]
  split
  · next hnil =>
    rw [hnil, Volume.walk_here m.tree.root]
    rfl
  · rfl

theorem resolve_pathText (h : Textual loc) :
    m.resolve (pathText loc) = (m.tree.walk parseTarget m.links [] (loc.map .name)).map Prod.fst := by
  unfold resolve
  rw [if_neg (pathText_ne loc), origin_pathText, walk_pathText h]

theorem locate_pathText (h : Textual loc) :
    m.locate (pathText loc) = m.tree.locate parseTarget m.links [] (loc.map .name) := by
  unfold locate Volume.locate
  rw [if_neg (pathText_ne loc), origin_pathText, walk_pathText h]

theorem stat_pathText (hc : Canonical m loc) : m.stat (pathText loc) = m.tree.entry loc := by
  unfold stat
  rw [resolve_pathText hc.textual]
  rcases hthere : m.tree.entry loc with _ | node
  · rcases hwalk : m.tree.walk parseTarget m.links [] (loc.map .name) with e | ⟨q, left⟩
    · rfl
    · have hplain : m.tree.Plain ([] ++ loc) := hc.plain
      obtain ⟨heq, -⟩ := Volume.walk_plain_ok hplain hwalk
      exact (congrArg m.tree.entry heq).trans hthere
  · rw [Volume.walk_plain hc.plain (by rw [hthere]; rfl)]
    exact hthere

/-- The last name is looked up where the names in front of it lead. -/
theorem lstat_eq (hloc : Textual loc) (hname : name.IsText) :
    m.lstat (pathText (loc ++ [name])) = ((m.resolve (pathText loc)).toOption.bind fun q => m.tree.entry (q ++ [name])) := by
  have hparts : splitBytes (encodePath (pathText (loc ++ [name]))) = .here :: loc.map .name ++ [.name name] := by
    rw [encodePath_pathText (hloc.append (textual_singleton hname)), splitBytes_pathBytes, if_neg (by simp),
      List.map_append, List.map_singleton, List.cons_append]
  unfold lstat
  dsimp only
  rw [hparts, List.dropLast_concat, List.getLast?_concat, origin_pathText, Volume.walk_here m.tree.root,
    resolve_pathText hloc]
  rcases m.tree.walk parseTarget m.links [] (loc.map .name) with e | ⟨q, left⟩ <;> rfl

theorem lstat_pathText (hc : Canonical m loc) (hname : name.IsText) :
    m.lstat (pathText (loc ++ [name])) = m.tree.entry (loc ++ [name]) := by
  rw [lstat_eq hc.textual hname, resolve_pathText hc.textual]
  rcases hwalk : m.tree.walk parseTarget m.links [] (loc.map .name) with e | ⟨q, left⟩
  · rcases hthere : m.tree.entry (loc ++ [name]) with _ | node
    · rfl
    · have hdir := m.tree.parent loc name (by rw [hthere]; rfl)
      rw [Volume.walk_plain hc.plain (by rw [hdir]; rfl)] at hwalk
      exact absurd hwalk nofun
  · have hplain : m.tree.Plain ([] ++ loc) := hc.plain
    obtain ⟨heq, -⟩ := Volume.walk_plain_ok hplain hwalk
    rw [List.nil_append] at heq
    rw [heq]
    rfl

/-- Nothing is below a regular file. -/
theorem lstat_below_file {size : ℕ} (hloc : Textual loc) (hname : name.IsText)
    (h : m.stat (pathText loc) = some (.file size)) : m.lstat (pathText (loc ++ [name])) = none := by
  rw [lstat_eq hloc hname]
  unfold stat at h
  rcases hresolve : m.resolve (pathText loc) with e | q
  · rfl
  · rw [hresolve] at h
    dsimp only at h
    rcases hthere : m.tree.entry (q ++ [name]) with _ | node
    · exact hthere
    · have hdir := m.tree.parent q name (by rw [hthere]; rfl)
      rw [h] at hdir
      exact absurd (Option.some.inj hdir) nofun

/-- What the kernel comes to is there, and is no link. -/
theorem stands_of_resolve {p : String} (h : m.resolve p = .ok loc) : m.tree.Stands loc := by
  unfold resolve at h
  split at h
  · exact absurd h nofun
  · rcases hwalk : m.tree.walk parseTarget m.links (m.origin p) (splitBytes (encodePath p)) with e | ⟨q, left⟩
    · rw [hwalk] at h
      exact absurd h nofun
    · rw [hwalk] at h
      obtain rfl := Except.ok.inj h
      have hdir : m.tree.entry (m.origin p) = some .dir := by
        by_contra hnot
        rcases hparts : splitBytes (encodePath p) with _ | ⟨part, rest⟩
        · exact List.splitOn_ne_nil _ _ (List.map_eq_nil_iff.mp hparts)
        · rw [hparts, Volume.walk_notDir hnot] at hwalk
          exact absurd hwalk nofun
      exact Volume.walk_stands (Volume.stands_of_dir hdir) hwalk

theorem realpath_eq (m : Machine) (p : String) :
    m.fileSystem.realpath p = ((m.resolve p).map pathText).mapError failureCode := by
  have htext : (fun loc => decodePath (pathBytes loc)) = pathText := funext decodePath_pathBytes
  unfold fileSystem
  dsimp only
  rw [htext]

theorem realpath_eq_ok {p c : String} :
    m.fileSystem.realpath p = .ok c ↔ ∃ loc, m.resolve p = .ok loc ∧ c = pathText loc := by
  rw [realpath_eq]
  rcases m.resolve p with e | loc
  · constructor
    · exact fun h => absurd h nofun
    · rintro ⟨loc, h, -⟩
      exact absurd h nofun
  · constructor
    · intro h
      exact ⟨loc, rfl, (Except.ok.inj h).symm⟩
    · rintro ⟨loc', h, rfl⟩
      rw [Except.ok.inj h]
      rfl

end Machine

/-! ### What the policy makes canonical -/

/-- What is there is what the kernel says. -/
theorem canonicalAllowingMissing_of_real {fs : FileSystem} {path : List String} {c : String} (hops : ℕ)
    (h : fs.realpath (joinSegments path.reverse) = .ok c) : canonicalAllowingMissing fs hops path = .ok c := by
  rw [canonicalAllowingMissing.eq_def, h]

/-- A name that is not there is put under the canonical parent. -/
theorem canonicalAllowingMissing_of_missing {fs : FileSystem} {hops : ℕ} {name canonicalParent : String}
    {parent : List String} (hmissing : fs.realpath (joinSegments (name :: parent).reverse) = .error "ENOENT")
    (hparent : canonicalAllowingMissing fs hops parent = .ok canonicalParent)
    (hlink : fs.readlink (joinSegments (resolveSegments canonicalParent name)) = none) :
    canonicalAllowingMissing fs hops (name :: parent) = .ok (joinSegments (resolveSegments canonicalParent name)) := by
  rw [canonicalAllowingMissing.eq_def, hmissing]
  simp only [ne_eq, not_true_eq_false, if_false, hparent]
  rw [hlink]

/-- A link there that leads to nothing is followed by its text. -/
theorem canonicalAllowingMissing_of_link {fs : FileSystem} {hops : ℕ} {name canonicalParent target : String}
    {parent : List String} (hmissing : fs.realpath (joinSegments (name :: parent).reverse) = .error "ENOENT")
    (hparent : canonicalAllowingMissing fs (hops + 1) parent = .ok canonicalParent)
    (hlink : fs.readlink (joinSegments (resolveSegments canonicalParent name)) = some target) :
    canonicalAllowingMissing fs (hops + 1) (name :: parent) =
      canonicalAllowingMissing fs hops (resolveSegments canonicalParent target).reverse := by
  rw [canonicalAllowingMissing.eq_def, hmissing]
  simp only [ne_eq, not_true_eq_false, if_false, hparent, hlink]

/-- How `canonicalAllowingMissing` comes to its answer: the path is there, or nothing is there under the name in the
canonical parent, or a link is, and its target is made canonical. -/
theorem canonicalAllowingMissing_ok {fs : FileSystem} {hops : ℕ} {path : List String} {c : String}
    (h : canonicalAllowingMissing fs hops path = .ok c) :
    fs.realpath (joinSegments path.reverse) = .ok c ∨
      fs.realpath (joinSegments path.reverse) = .error "ENOENT" ∧ ∃ name parent canonicalParent,
        path = name :: parent ∧ canonicalAllowingMissing fs hops parent = .ok canonicalParent ∧
          (fs.readlink (joinSegments (resolveSegments canonicalParent name)) = none ∧
              c = joinSegments (resolveSegments canonicalParent name) ∨
            ∃ target left, fs.readlink (joinSegments (resolveSegments canonicalParent name)) = some target ∧
              hops = left + 1 ∧
                canonicalAllowingMissing fs left (resolveSegments canonicalParent target).reverse = .ok c) := by
  rw [canonicalAllowingMissing.eq_def] at h
  split at h
  · next real hreal =>
    rw [hreal, Except.ok.inj h]
    exact .inl rfl
  · next code hcode =>
    split at h
    · exact absurd h (by simp)
    · next hmissing =>
      rw [not_not] at hmissing
      subst hmissing
      refine .inr ⟨hcode, ?_⟩
      split at h
      · exact absurd h (by simp)
      · next name parent =>
        split at h
        · exact absurd h (by simp)
        · next canonicalParent hparent =>
          refine ⟨name, parent, canonicalParent, rfl, hparent, ?_⟩
          dsimp only at h
          split at h
          · next hlink => exact .inl ⟨hlink, (Except.ok.inj h).symm⟩
          · exact absurd h (by simp)
          · next target left hlink => exact .inr ⟨target, left, hlink, rfl, h⟩

/-! ### What a path is taken to -/

/-- The segments of a path below a location. -/
def segmentsBelow (loc : List Name) (rest : List String) : List String := loc.map Name.text ++ rest

theorem segmentsBelow_concat (loc : List Name) (rest : List String) (segment : String) :
    segmentsBelow loc (rest ++ [segment]) = segmentsBelow loc rest ++ [segment] := (List.append_assoc ..).symm

/-- How a path, given from its end, is taken to a location that the kernel finds and to segments below it: nothing is
there, or a link is, and its target is taken. -/
inductive Comes (m : Machine) : ℕ → List String → List Name → List String → Prop
  | found {hops : ℕ} {path : List String} {loc : List Name} (there : m.resolve (joinSegments path.reverse) = .ok loc) :
      Comes m hops path loc []
  | missing {hops : ℕ} {segment : String} {parent rest : List String} {loc : List Name}
      (absent : m.fileSystem.realpath (joinSegments (segment :: parent).reverse) = .error "ENOENT")
      (come : Comes m hops parent loc rest)
      (unlinked : m.fileSystem.readlink (joinSegments (segmentsBelow loc rest ++ [segment])) = none) :
      Comes m hops (segment :: parent) loc (rest ++ [segment])
  | link {hops : ℕ} {segment target : String} {parent rest rest' : List String} {loc loc' : List Name}
      (absent : m.fileSystem.realpath (joinSegments (segment :: parent).reverse) = .error "ENOENT")
      (come : Comes m (hops + 1) parent loc rest)
      (linked : m.fileSystem.readlink (joinSegments (segmentsBelow loc rest ++ [segment])) = some target)
      (onward : Comes m hops (resolveSegments (joinSegments (segmentsBelow loc rest)) target).reverse loc' rest') :
      Comes m (hops + 1) (segment :: parent) loc' rest'

theorem isSegment_reverse_resolveSegments (base p : String) : ∀ s ∈ (resolveSegments base p).reverse, IsSegment s :=
  fun s hs => isSegment_resolveSegments base p s (List.mem_reverse.mp hs)

theorem resolveSegments_concat (hsegments : ∀ s ∈ segments, IsSegment s) (h : IsSegment segment) :
    resolveSegments (joinSegments segments) segment = segments ++ [segment] := by
  rw [resolveSegments_segment _ h, normalizeSegments_splitPath hsegments]

section Comes
variable {hops : ℕ} {path : List String}

theorem Comes.isSegment (h : Comes m hops path loc rest) (hpath : ∀ s ∈ path, IsSegment s) :
    ∀ s ∈ segmentsBelow loc rest, IsSegment s := by
  induction h with
  | found =>
    intro s hs
    rw [segmentsBelow, List.append_nil] at hs
    exact isSegment_of_mem_map_text hs
  | missing _ _ _ ih =>
    intro s hs
    rw [segmentsBelow_concat] at hs
    obtain hs | hs := List.mem_append.mp hs
    · exact ih (fun other hother => hpath other (List.mem_cons_of_mem _ hother)) s hs
    · rw [List.mem_singleton.mp hs]
      exact hpath _ (List.mem_cons_self ..)
  | link _ _ _ _ _ ih => exact ih (isSegment_reverse_resolveSegments _ _)

/-- `canonicalAllowingMissing` answers what the path is taken to. -/
theorem Comes.canonical (h : Comes m hops path loc rest) (hpath : ∀ s ∈ path, IsSegment s) :
    canonicalAllowingMissing m.fileSystem hops path = .ok (joinSegments (segmentsBelow loc rest)) := by
  induction h with
  | found hthere =>
    refine canonicalAllowingMissing_of_real _ (Machine.realpath_eq_ok.mpr ⟨_, hthere, ?_⟩)
    rw [segmentsBelow, List.append_nil, pathText]
  | @missing hops segment parent rest loc habsent hcome hunlinked ih =>
    have hparent := fun other hother => hpath other (List.mem_cons_of_mem segment hother)
    have hchild := resolveSegments_concat (hcome.isSegment hparent) (hpath segment (List.mem_cons_self ..))
    rw [canonicalAllowingMissing_of_missing habsent (ih hparent) (by rwa [hchild]), hchild, segmentsBelow_concat]
  | @link hops segment target parent rest rest' loc loc' habsent hcome hlinked honward ih ih' =>
    have hparent := fun other hother => hpath other (List.mem_cons_of_mem segment hother)
    have hchild := resolveSegments_concat (hcome.isSegment hparent) (hpath segment (List.mem_cons_self ..))
    rw [canonicalAllowingMissing_of_link habsent (ih hparent) (by rwa [hchild])]
    exact ih' (isSegment_reverse_resolveSegments _ _)

theorem comes_of_canonical {c : String} (hpath : ∀ s ∈ path, IsSegment s)
    (h : canonicalAllowingMissing m.fileSystem hops path = .ok c) :
    ∃ loc rest, Comes m hops path loc rest ∧ c = joinSegments (segmentsBelow loc rest) := by
  -- the hops go down along the links, the path along the parents
  induction hops using Nat.strong_induction_on generalizing path c with
  | _ hops ihops =>
    induction path generalizing c with
    | nil =>
      obtain hreal | ⟨-, name, parent, _, hnil, -⟩ := canonicalAllowingMissing_ok h
      · obtain ⟨loc, hthere, rfl⟩ := Machine.realpath_eq_ok.mp hreal
        exact ⟨loc, [], .found hthere, by rw [segmentsBelow, List.append_nil, pathText]⟩
      · exact absurd hnil nofun
    | cons segment parent ihpath =>
      obtain hreal | ⟨habsent, segment', parent', canonicalParent, hcons, hcanonical, hrest⟩ :=
        canonicalAllowingMissing_ok h
      · obtain ⟨loc, hthere, rfl⟩ := Machine.realpath_eq_ok.mp hreal
        exact ⟨loc, [], .found hthere, by rw [segmentsBelow, List.append_nil, pathText]⟩
      · obtain ⟨rfl, rfl⟩ := List.cons.inj hcons
        have hparent := fun other hother => hpath other (List.mem_cons_of_mem segment hother)
        obtain ⟨loc, rest, hcome, rfl⟩ := ihpath hparent hcanonical
        have hchild := resolveSegments_concat (hcome.isSegment hparent) (hpath segment (List.mem_cons_self ..))
        rw [hchild] at hrest
        obtain ⟨hunlinked, rfl⟩ | ⟨target, left, hlinked, rfl, honward⟩ := hrest
        · exact ⟨loc, rest ++ [segment], .missing habsent hcome hunlinked, by rw [segmentsBelow_concat]⟩
        · obtain ⟨loc', rest', hcome', rfl⟩ :=
            ihops left (Nat.lt_succ_self left) (isSegment_reverse_resolveSegments _ _) honward
          exact ⟨loc', rest', .link habsent hcome hlinked hcome', rfl⟩

/-! ### What the text of a path spells -/

theorem readlink_eq_none (hc : Canonical m loc) (hname : name.IsText) :
    m.fileSystem.readlink (pathText (loc ++ [name])) = none ↔
      ∀ target, m.tree.entry (loc ++ [name]) ≠ some (.link target) := by
  unfold Machine.fileSystem
  dsimp only
  rw [Machine.lstat_pathText hc hname]
  rcases m.tree.entry (loc ++ [name]) with _ | (_ | _ | target) <;> simp

/-- Below a location of UTF-8 names, what the path spells is there without a link. -/
theorem Comes.plain (h : Comes m hops path loc rest) (hloc : Textual loc) (hspelt : Spells spelt (segmentsBelow loc rest)) :
    m.tree.Plain spelt := by
  induction h generalizing spelt with
  | @found hops path loc hthere =>
    rw [segmentsBelow, List.append_nil] at hspelt
    rw [hspelt.eq ⟨hloc, rfl⟩]
    have hstands := Machine.stands_of_resolve hthere
    exact Volume.plain_of_entry hstands.1 hstands.2
  | missing _ _ hunlinked ih =>
    rw [segmentsBelow_concat] at hspelt
    rw [← hspelt.pathText] at hunlinked
    obtain ⟨front, name, rfl, hfront, hname, -⟩ := hspelt.concat
    have hplain := ih hloc hfront
    exact hplain.concat ((readlink_eq_none ⟨hfront.1, hplain⟩ hname).mp hunlinked)
  | link _ _ _ _ _ ih => exact ih hloc hspelt

/-! ### Paths that are led astray -/

/-- The kernel finds neither the path nor its directory part, but the directory part is taken to a regular file. -/
inductive Misled (m : Machine) : ℕ → List String → Prop
  | here {hops : ℕ} {segment : String} {parent rest : List String} {loc : List Name}
      (absent : m.fileSystem.realpath (joinSegments (segment :: parent).reverse) = .error "ENOENT")
      (above : m.fileSystem.realpath (joinSegments parent.reverse) = .error "ENOENT")
      (come : Comes m hops parent loc rest) (file : m.fileSystem.isFile (joinSegments (segmentsBelow loc rest)) = some true) :
      Misled m hops (segment :: parent)
  | link {hops : ℕ} {segment target : String} {parent rest : List String} {loc : List Name}
      (absent : m.fileSystem.realpath (joinSegments (segment :: parent).reverse) = .error "ENOENT")
      (come : Comes m (hops + 1) parent loc rest)
      (linked : m.fileSystem.readlink (joinSegments (segmentsBelow loc rest ++ [segment])) = some target)
      (onward : Misled m hops (resolveSegments (joinSegments (segmentsBelow loc rest)) target).reverse) :
      Misled m (hops + 1) (segment :: parent)

/-- A name of the location is not UTF-8, and the text of the path spells a way along a link or below a regular file. -/
def Garbled (m : Machine) (loc : List Name) (rest : List String) : Prop :=
  ¬ Textual loc ∧ ∃ spelt, Spells spelt (segmentsBelow loc rest) ∧
    (¬ m.tree.Plain spelt ∨ ∃ size, m.tree.entry spelt.dropLast = some (.file size))

theorem isFile_pathText (hc : Canonical m loc) :
    m.fileSystem.isFile (pathText loc) = some true ↔ ∃ size, m.tree.entry loc = some (.file size) := by
  unfold Machine.fileSystem
  dsimp only
  rw [Machine.stat_pathText hc]
  rcases m.tree.entry loc with _ | (_ | size | target) <;> simp

/-- The kernel finds nothing below a regular file. -/
theorem realpath_below_file {parent : List String} {size : ℕ} (hpath : ∀ other ∈ segment :: parent, IsSegment other)
    (hfile : m.tree.entry loc = some (.file size)) (hthere : m.resolve (joinSegments parent.reverse) = .ok loc) :
    m.fileSystem.realpath (joinSegments (segment :: parent).reverse) = .error "ENOTDIR" := by
  obtain ⟨front, hfront⟩ := exists_spells fun s hs => hpath s (List.mem_cons_of_mem _ (List.mem_reverse.mp hs))
  obtain ⟨name, hname, htext⟩ := (hpath segment (List.mem_cons_self ..)).exists_name
  have hwhole : joinSegments (segment :: parent).reverse = pathText (front ++ [name]) := by
    rw [List.reverse_cons, pathText, List.map_append, hfront.2, List.map_singleton, htext]
  rw [← hfront.2, ← pathText, Machine.resolve_pathText hfront.1] at hthere
  rw [Machine.realpath_eq, hwhole, Machine.resolve_pathText (hfront.1.append (textual_singleton hname))]
  rcases hwalk : m.tree.walk parseTarget m.links [] (front.map .name) with e | ⟨q, left⟩
  · rw [hwalk] at hthere
    exact absurd hthere nofun
  · rw [hwalk] at hthere
    obtain rfl : q = loc := Except.ok.inj hthere
    rw [List.map_append, Volume.walk_append hwalk, List.map_singleton, Volume.walk_notDir (by rw [hfile]; nofun)]
    rfl

/-- A path that spells a name below a regular file, its location being of UTF-8 names, is misled. -/
theorem Comes.misled {size : ℕ} (h : Comes m hops path loc rest) (hpath : ∀ s ∈ path, IsSegment s) (hloc : Textual loc)
    (hspelt : Spells spelt (segmentsBelow loc rest)) (hfile : m.tree.entry spelt.dropLast = some (.file size)) :
    Misled m hops path := by
  induction h generalizing spelt with
  | @found hops path loc hthere =>
    -- what the kernel finds is in a directory
    rw [segmentsBelow, List.append_nil] at hspelt
    obtain rfl := hspelt.eq ⟨hloc, rfl⟩
    have hthere := (Machine.stands_of_resolve hthere).1
    by_cases hnil : spelt = []
    · rw [hnil, List.dropLast_nil, m.tree.root] at hfile
      exact absurd (Option.some.inj hfile) nofun
    · rw [← List.dropLast_append_getLast hnil] at hthere
      rw [m.tree.parent _ _ hthere] at hfile
      exact absurd (Option.some.inj hfile) nofun
  | @missing hops segment parent rest loc habsent hcome hunlinked ih =>
    rw [segmentsBelow_concat] at hspelt
    obtain ⟨front, name, rfl, hfront, hname, -⟩ := hspelt.concat
    rw [List.dropLast_concat] at hfile
    have hplain := hcome.plain hloc hfront
    have hisFile : m.fileSystem.isFile (joinSegments (segmentsBelow loc rest)) = some true := by
      rw [← hfront.pathText]
      exact (isFile_pathText ⟨hfront.1, hplain⟩).mpr ⟨size, hfile⟩
    refine .here habsent ?_ hcome hisFile
    cases hcome with
    | found hthere =>
      rw [segmentsBelow, List.append_nil] at hfront
      rw [hfront.eq ⟨hloc, rfl⟩] at hfile
      rw [realpath_below_file hpath hfile hthere] at habsent
      exact absurd habsent (by decide)
    | missing habove => exact habove
    | link habove => exact habove
  | link habsent hcome hlinked _ _ ih =>
    exact .link habsent hcome hlinked (ih (isSegment_reverse_resolveSegments _ _) hloc hspelt hfile)

/-- A misled path is taken to a name below a regular file. -/
theorem Misled.below_file (h : Misled m hops path) (hpath : ∀ s ∈ path, IsSegment s) :
    ∃ front name, Textual (front ++ [name]) ∧ m.fileSystem.isFile (pathText front) = some true ∧
      canonicalAllowingMissing m.fileSystem hops path = .ok (pathText (front ++ [name])) := by
  induction h with
  | @here hops segment parent rest loc habsent _ hcome hfile =>
    have hparent := fun other hother => hpath other (List.mem_cons_of_mem segment hother)
    obtain ⟨front, hfront⟩ := exists_spells (hcome.isSegment hparent)
    obtain ⟨name, hname, rfl⟩ := (hpath segment (List.mem_cons_self ..)).exists_name
    have hspelt : pathText (front ++ [name]) = joinSegments (segmentsBelow loc rest ++ [name.text]) := by
      rw [pathText, List.map_append, hfront.2, List.map_singleton]
    rw [← hfront.2, ← pathText] at hfile
    refine ⟨front, name, hfront.1.append (textual_singleton hname), hfile, ?_⟩
    have hunlinked : m.fileSystem.readlink (joinSegments (segmentsBelow loc rest ++ [name.text])) = none := by
      obtain ⟨size, hstat⟩ : ∃ size, m.stat (pathText front) = some (.file size) := by
        unfold Machine.fileSystem at hfile
        dsimp only at hfile
        rcases hstat : m.stat (pathText front) with _ | (_ | size | target)
        · rw [hstat] at hfile
          exact absurd hfile nofun
        · rw [hstat] at hfile
          exact absurd hfile (by decide)
        · exact ⟨size, rfl⟩
        · rw [hstat] at hfile
          exact absurd hfile (by simp)
      rw [← hspelt]
      unfold Machine.fileSystem
      dsimp only
      rw [Machine.lstat_below_file hfront.1 hname hstat]
    rw [(Comes.missing habsent hcome hunlinked).canonical hpath, segmentsBelow_concat, hspelt]
  | @link hops segment target parent rest loc habsent hcome hlinked honward ih =>
    have hparent := fun other hother => hpath other (List.mem_cons_of_mem segment hother)
    have hchild := resolveSegments_concat (hcome.isSegment hparent) (hpath segment (List.mem_cons_self ..))
    rw [canonicalAllowingMissing_of_link habsent (hcome.canonical hparent) (by rwa [hchild])]
    exact ih (isSegment_reverse_resolveSegments _ _)

end Comes

/-! ### Termination -/

/-- `canonicalAllowingMissing` as the source has it, for at most `fuel` nested calls. -/
def canonicalWithin (fs : FileSystem) : ℕ → ℕ → List String → Option (Except Thrown String)
  | 0, _, _ => none
  | fuel + 1, hops, path =>
    match fs.realpath (joinSegments path.reverse) with
    | .ok real => some (.ok real)
    | .error code =>
      if code ≠ "ENOENT" then some (.error notResolved)
      else
        match path with
        | [] => some (.error notResolved)
        | name :: parent =>
          match canonicalWithin fs fuel hops parent with
          | none => none
          | some (.error e) => some (.error e)
          | some (.ok canonicalParent) =>
            let child := joinSegments (resolveSegments canonicalParent name)
            match fs.readlink child, hops with
            | none, _ => some (.ok child)
            | some _, 0 => some (.error notResolved)
            | some target, hops + 1 =>
              canonicalWithin fs fuel hops (resolveSegments canonicalParent target).reverse

/-- More fuel changes no answer. -/
theorem canonicalWithin_mono {fs : FileSystem} {fuel more hops : ℕ} {path : List String} {c : Except Thrown String}
    (hle : fuel ≤ more) (h : canonicalWithin fs fuel hops path = some c) : canonicalWithin fs more hops path = some c := by
  induction fuel generalizing more hops path c with
  | zero => exact absurd h nofun
  | succ fuel ih =>
    obtain ⟨more, rfl⟩ : ∃ n, more = n + 1 := ⟨more - 1, by omega⟩
    have hle : fuel ≤ more := by omega
    unfold canonicalWithin at h ⊢
    split at h
    · exact h
    · next code hcode =>
      split at h
      · next hne => rw [if_pos hne]; exact h
      · next hmissing =>
        rw [if_neg hmissing]
        rcases path with _ | ⟨name, parent⟩
        · exact h
        · dsimp only at h ⊢
          rcases hparent : canonicalWithin fs fuel hops parent with _ | (e | canonicalParent)
          · rw [hparent] at h
            exact absurd h nofun
          · rw [hparent] at h
            rw [ih hle hparent]
            exact h
          · rw [hparent] at h
            rw [ih hle hparent]
            dsimp only at h ⊢
            split at h
            · exact h
            · exact h
            · exact ih hle h

/-- On every file system, and so on every tree, the calls come to an end. -/
theorem canonicalWithin_total (fs : FileSystem) (hops : ℕ) (path : List String) :
    ∃ fuel, canonicalWithin fs fuel hops path = some (canonicalAllowingMissing fs hops path) := by
  induction hops using Nat.strong_induction_on generalizing path with
  | _ hops ihops =>
    induction path with
    | nil =>
      refine ⟨1, ?_⟩
      rw [canonicalAllowingMissing.eq_def]
      unfold canonicalWithin
      rcases fs.realpath (joinSegments [].reverse) with code | real
      · by_cases hcode : code ≠ "ENOENT"
        · simp only [if_pos hcode]
        · simp only [if_neg hcode]
      · rfl
    | cons name parent ihpath =>
      obtain ⟨fuel, hfuel⟩ := ihpath
      -- enough for the parent and, if a link is followed, for where it leads
      obtain ⟨more, hle, hmore⟩ : ∃ more, fuel ≤ more ∧ ∀ canonicalParent target left,
          canonicalAllowingMissing fs hops parent = .ok canonicalParent →
          fs.readlink (joinSegments (resolveSegments canonicalParent name)) = some target → hops = left + 1 →
            canonicalWithin fs more left (resolveSegments canonicalParent target).reverse =
              some (canonicalAllowingMissing fs left (resolveSegments canonicalParent target).reverse) := by
        by_cases hfollows : ∃ canonicalParent target left,
            canonicalAllowingMissing fs hops parent = .ok canonicalParent ∧
            fs.readlink (joinSegments (resolveSegments canonicalParent name)) = some target ∧ hops = left + 1
        · obtain ⟨canonicalParent, target, left, hparent, hlink, rfl⟩ := hfollows
          obtain ⟨fuel', hfuel'⟩ := ihops left (Nat.lt_succ_self left) (resolveSegments canonicalParent target).reverse
          refine ⟨max fuel fuel', le_max_left .., fun canonicalParent' target' left' hparent' hlink' hleft => ?_⟩
          obtain rfl := Except.ok.inj (hparent.symm.trans hparent')
          obtain rfl := Option.some.inj (hlink.symm.trans hlink')
          obtain rfl := Nat.succ.inj hleft
          exact canonicalWithin_mono (le_max_right ..) hfuel'
        · exact ⟨fuel, le_rfl, fun canonicalParent target left hparent hlink hleft =>
            absurd ⟨canonicalParent, target, left, hparent, hlink, hleft⟩ hfollows⟩
      refine ⟨more + 1, ?_⟩
      rw [canonicalAllowingMissing.eq_def]
      unfold canonicalWithin
      rcases fs.realpath (joinSegments (name :: parent).reverse) with code | real
      · by_cases hcode : code ≠ "ENOENT"
        · simp only [if_pos hcode]
        · simp only [if_neg hcode, canonicalWithin_mono hle hfuel]
          rcases hparent : canonicalAllowingMissing fs hops parent with e | canonicalParent
          · rfl
          · dsimp only
            rcases hlink : fs.readlink (joinSegments (resolveSegments canonicalParent name)) with _ | target
            · rfl
            · rcases hops with _ | left
              · rfl
              · exact hmore canonicalParent target left hparent hlink rfl
      · rfl

end RackMcp.Server
