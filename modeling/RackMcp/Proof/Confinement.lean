import RackMcp.Proof.CanonicalPath

/-!
# Where a patch path leads

What `resolvePatchPath` returns is canonical: no link is on it, the kernel follows it to that very location, inside the
reported root. Two things lead it astray: a link with `..` in its target, whose directory part is taken to a regular file,
and a name that is not UTF-8, whose text is the name of something else (`path_confined_iff`).
-/

namespace RackMcp.Server

open FileTree Gen

variable {m : Machine} {loc : List Name} {name : Name}

/-- The configured directory of a root. -/
def ServerConfig.dir (config : ServerConfig) : PatchRoot → String
  | .patches => config.patchesDir
  | .checkpoints => config.checkpointsDir

/-- The path returned is the one to the location, which has no link on it; the kernel follows it there; it is inside the
reported root, in a directory, and a regular file if it is there. -/
structure ConfinedAt (m : Machine) (config : ServerConfig) (r : ResolvedPath) (loc : List Name) : Prop
    extends Canonical m loc where
  absolute : r.absolute = pathText loc
  located : m.locate r.absolute = .ok loc
  inside : ∃ root, m.resolve (config.dir r.root) = .ok root ∧ root <+: loc
  nonempty : loc ≠ []
  directory : m.tree.entry loc.dropLast = some .dir
  regular : m.tree.entry loc = none ∨ ∃ size, m.tree.entry loc = some (.file size)

def Confined (m : Machine) (config : ServerConfig) (r : ResolvedPath) : Prop := ∃ loc, ConfinedAt m config r loc

theorem canonicalDir_eq_ok {dir root : String} (h : canonicalDir m.fileSystem dir = .ok root) :
    ∃ loc, m.resolve dir = .ok loc ∧ root = pathText loc := by
  unfold canonicalDir at h
  split at h
  · exact absurd h nofun
  · rcases hreal : m.fileSystem.realpath dir with e | real
    · rw [hreal] at h
      exact absurd h nofun
    · rw [hreal] at h
      obtain rfl := Except.ok.inj h
      exact Machine.realpath_eq_ok.mp hreal

/-- The root in whose text the path lies is at a location with a name that is not UTF-8. -/
def GarbledRoot (m : Machine) (config : ServerConfig) (segments : List String) : Prop :=
  ∃ patches checkpoints root loc, m.resolve config.patchesDir = .ok patches ∧
    m.resolve config.checkpointsDir = .ok checkpoints ∧
    rootOf (pathText patches) (pathText checkpoints) (joinSegments segments) = some root ∧
    m.resolve (config.dir root) = .ok loc ∧ ¬ Textual loc

/-- The path, given from its end, is led astray. -/
def Strays (m : Machine) (config : ServerConfig) (path : List String) : Prop :=
  Misled m maxLinkHops path ∨ ∃ loc rest, Comes m maxLinkHops path loc rest ∧
    (Garbled m loc rest ∨ GarbledRoot m config (segmentsBelow loc rest))

/-- What `resolvePatchPath` has checked when it returns. -/
structure Admitted (m : Machine) (config : ServerConfig) (cwd requested : String) (r : ResolvedPath) : Prop where
  canonical : canonicalAllowingMissing m.fileSystem maxLinkHops (resolveSegments cwd requested).reverse = .ok r.absolute
  regular : m.fileSystem.isFile r.absolute ≠ some false
  root : ∃ patches checkpoints, m.resolve config.patchesDir = .ok patches ∧
    m.resolve config.checkpointsDir = .ok checkpoints ∧
    rootOf (pathText patches) (pathText checkpoints) r.absolute = some r.root
  parent : m.fileSystem.existsSync r.absolute = true ∨
    m.fileSystem.existsSync (joinSegments (resolveSegments r.absolute "..")) = true

/-- A step that answers is followed by the rest. -/
theorem bind_eq_ok {ε α β : Type} {x : Except ε α} {f : α → Except ε β} {b : β} (h : x >>= f = .ok b) :
    ∃ a, x = .ok a ∧ f a = .ok b := by
  rcases x with e | a
  · exact absurd h nofun
  · exact ⟨a, rfl, h⟩

theorem admitted_of_resolvePatchPath {config : ServerConfig} {cwd requested : String} {mustExist : Bool} {r : ResolvedPath}
    (h : resolvePatchPath config cwd m.fileSystem requested mustExist = .ok r) : Admitted m config cwd requested r := by
  unfold resolvePatchPath at h
  split at h
  · exact absurd h nofun
  · obtain ⟨patchesRoot, hpatches, h⟩ := bind_eq_ok h
    obtain ⟨checkpointsRoot, hcheckpoints, h⟩ := bind_eq_ok h
    obtain ⟨canonical, hcanonical, h⟩ := bind_eq_ok h
    obtain ⟨patches, hpatches', rfl⟩ := canonicalDir_eq_ok hpatches
    obtain ⟨checkpoints, hcheckpoints', rfl⟩ := canonicalDir_eq_ok hcheckpoints
    unfold admitCanonical at h
    dsimp only at h
    split at h
    · exact absurd h nofun
    · next hregular =>
      split at h
      · exact absurd h nofun
      · next root hroot =>
        split at h
        · exact absurd h nofun
        · next hparent =>
          split at h
          · exact absurd h nofun
          · split at h
            · exact absurd h nofun
            · obtain rfl := Except.ok.inj h
              rw [not_and_or, not_not, not_not] at hparent
              exact ⟨hcanonical, hregular, ⟨patches, checkpoints, hpatches', hcheckpoints', hroot⟩, hparent⟩

/-- The path lies in the text of the root reported. -/
theorem within_of_rootOf {config : ServerConfig} {patches checkpoints : List Name} {canonical : String} {root : PatchRoot}
    (hpatches : m.resolve config.patchesDir = .ok patches) (hcheckpoints : m.resolve config.checkpointsDir = .ok checkpoints)
    (h : rootOf (pathText patches) (pathText checkpoints) canonical = some root) :
    ∃ loc, m.resolve (config.dir root) = .ok loc ∧ within (pathText loc) canonical = true := by
  unfold rootOf at h
  split at h
  · next hwithin =>
    obtain rfl := Option.some.inj h
    exact ⟨patches, hpatches, hwithin⟩
  · split at h
    · next hwithin =>
      obtain rfl := Option.some.inj h
      exact ⟨checkpoints, hcheckpoints, hwithin⟩
    · exact absurd h nofun

theorem prefix_of_within_pathText {root : List Name} (hroot : Textual root) (hloc : Textual loc)
    (h : within (pathText root) (pathText loc) = true) : root <+: loc := by
  have hprefix : root.map Name.text <+: loc.map Name.text :=
    prefix_of_within (fun _ => isSegment_of_mem_map_text) (fun _ => isSegment_of_mem_map_text) h
  obtain ⟨rest, hrest⟩ := hprefix
  obtain ⟨front, back, rfl, hfront, -⟩ := List.map_eq_append_iff.mp hrest.symm
  rw [eq_of_map_text hroot (fun name hname => hloc name (List.mem_append_left _ hname)) hfront.symm]
  exact List.prefix_append ..

theorem existsSync_pathText (hc : Canonical m loc) :
    m.fileSystem.existsSync (pathText loc) = (m.tree.entry loc).isSome := by
  unfold FileSystem.existsSync Machine.fileSystem
  dsimp only
  rw [Machine.stat_pathText hc, Option.isSome_map]

theorem isFile_pathText_eq_false (hc : Canonical m loc) :
    m.fileSystem.isFile (pathText loc) = some false ↔ m.tree.entry loc = some .dir := by
  unfold Machine.fileSystem
  dsimp only
  rw [Machine.stat_pathText hc]
  rcases hentry : m.tree.entry loc with _ | (_ | size | target)
  · simp
  · simp
  · simp
  · exact absurd hentry (hc.plain loc List.prefix_rfl target)

theorem Canonical.front (hc : Canonical m (loc ++ [name])) : Canonical m loc :=
  ⟨fun n hn => hc.textual n (List.mem_append_left _ hn), fun p hp => hc.plain p (hp.trans (List.prefix_append ..))⟩

theorem resolveSegments_pathText_up (loc : List Name) :
    joinSegments (resolveSegments (pathText loc) "..") = pathText loc.dropLast := by
  rw [pathText, resolveSegments_up fun _ => isSegment_of_mem_map_text, pathText, List.map_dropLast]

section Admitted
variable {config : ServerConfig} {cwd requested : String} {r : ResolvedPath}

/-- A canonical path that passed the checks, unless its directory part is a regular file, is in a directory. -/
theorem Admitted.directory (h : Admitted m config cwd requested r) (hc : Canonical m (loc ++ [name]))
    (habsolute : r.absolute = pathText (loc ++ [name])) (hfile : ∀ size, m.tree.entry loc ≠ some (.file size)) :
    m.tree.entry loc = some .dir := by
  have hexists : (m.tree.entry loc).isSome := by
    obtain hexists | hexists := h.parent
    · rw [habsolute, existsSync_pathText hc] at hexists
      rw [m.tree.parent loc name hexists]
      rfl
    · rw [habsolute, resolveSegments_pathText_up, List.dropLast_concat, existsSync_pathText hc.front] at hexists
      exact hexists
  obtain ⟨node, hnode⟩ := Option.isSome_iff_exists.mp hexists
  rcases node with _ | size | target
  · exact hnode
  · exact absurd hnode (hfile size)
  · exact absurd hnode (hc.front.plain loc List.prefix_rfl target)

/-- A canonical path that passed the checks and ends in a directory is confined, unless its root is garbled. -/
theorem Admitted.confinedAt (h : Admitted m config cwd requested r) (hc : Canonical m loc)
    (habsolute : r.absolute = pathText loc) (hfile : ∀ size, m.tree.entry loc.dropLast ≠ some (.file size))
    (hroot : ∀ root, m.resolve (config.dir r.root) = .ok root → Textual root) : ConfinedAt m config r loc := by
  have hregular : m.tree.entry loc = none ∨ ∃ size, m.tree.entry loc = some (.file size) := by
    have hfile := h.regular
    rw [habsolute, ne_eq, isFile_pathText_eq_false hc] at hfile
    rcases hentry : m.tree.entry loc with _ | (_ | size | target)
    · exact .inl rfl
    · exact absurd hentry hfile
    · exact .inr ⟨size, rfl⟩
    · exact absurd hentry (hc.plain loc List.prefix_rfl target)
  rcases List.eq_nil_or_concat loc with rfl | ⟨front, name, rfl⟩
  · rw [m.tree.root] at hregular
    simp at hregular
  · rw [List.concat_eq_append] at *
    rw [List.dropLast_concat] at hfile
    have hdir := h.directory hc habsolute hfile
    refine ⟨hc, habsolute, ?_, ?_, by simp, ?_, hregular⟩
    · rw [habsolute, Machine.locate_pathText hc.textual]
      exact Volume.locate_plain hc.plain hdir
    · obtain ⟨patches, checkpoints, hpatches, hcheckpoints, hrootOf⟩ := h.root
      obtain ⟨root, hthere, hwithin⟩ := within_of_rootOf hpatches hcheckpoints hrootOf
      rw [habsolute] at hwithin
      exact ⟨root, hthere, prefix_of_within_pathText (hroot root hthere) hc.textual hwithin⟩
    · rw [List.dropLast_concat]
      exact hdir

/-- A confined path is not led astray. -/
theorem Admitted.not_strays (h : Admitted m config cwd requested r) (hconfined : ConfinedAt m config r loc) :
    ¬ Strays m config (resolveSegments cwd requested).reverse := by
  have hpath := isSegment_reverse_resolveSegments cwd requested
  rintro (hmisled | ⟨from', rest, hcome, hgarbled⟩)
  · obtain ⟨front, name, htextual, hfile, htaken⟩ := hmisled.below_file hpath
    rw [h.canonical, hconfined.absolute] at htaken
    obtain rfl := eq_of_map_text hconfined.textual htextual (map_text_eq_of_pathText (Except.ok.inj htaken))
    have hdir := hconfined.directory
    rw [List.dropLast_concat, ← isFile_pathText_eq_false hconfined.toCanonical.front, hfile] at hdir
    exact absurd hdir (by decide)
  · have htaken := hcome.canonical hpath
    rw [h.canonical, hconfined.absolute] at htaken
    have htext := Except.ok.inj htaken
    obtain ⟨-, spelt, hspelt, hastray⟩ | ⟨patches, checkpoints, root, at', hpatches, hcheckpoints, hrootOf, hthere, hnot⟩ :=
      hgarbled
    · rw [← hspelt.pathText] at htext
      obtain rfl := eq_of_map_text hconfined.textual hspelt.1 (map_text_eq_of_pathText htext)
      obtain hplain | ⟨size, hfile⟩ := hastray
      · exact hplain hconfined.plain
      · rw [hconfined.directory] at hfile
        exact absurd (Option.some.inj hfile) nofun
    · obtain ⟨patches', checkpoints', hpatches', hcheckpoints', hroot⟩ := h.root
      obtain rfl := Except.ok.inj (hpatches.symm.trans hpatches')
      obtain rfl := Except.ok.inj (hcheckpoints.symm.trans hcheckpoints')
      rw [hconfined.absolute, htext, hrootOf] at hroot
      obtain rfl := Option.some.inj hroot
      obtain ⟨root', hthere', hinside⟩ := hconfined.inside
      obtain rfl := Except.ok.inj (hthere.symm.trans hthere')
      exact hnot fun name hname => hconfined.textual name (hinside.subset hname)

end Admitted

/-- `resolvePatchPath` comes to an end on every tree, and what it returns is confined exactly if the path is not led
astray: to a directory part that the kernel does not find and that is taken to a regular file, or, by the text of a name
that is not UTF-8, along a link, below a regular file or into the text of a root. -/
theorem path_confined_iff (m : Machine) (config : ServerConfig) (cwd requested : String) (mustExist : Bool) :
    (∃ fuel, canonicalWithin m.fileSystem fuel maxLinkHops (resolveSegments cwd requested).reverse =
      some (canonicalAllowingMissing m.fileSystem maxLinkHops (resolveSegments cwd requested).reverse)) ∧
    ∀ r, resolvePatchPath config cwd m.fileSystem requested mustExist = .ok r →
      (Confined m config r ↔ ¬ Strays m config (resolveSegments cwd requested).reverse) := by
  refine ⟨canonicalWithin_total _ _ _, fun r hr => ?_⟩
  have hadmitted := admitted_of_resolvePatchPath hr
  have hpath := isSegment_reverse_resolveSegments cwd requested
  constructor
  · rintro ⟨loc, hconfined⟩
    exact hadmitted.not_strays hconfined
  · intro hnot
    obtain ⟨hmisled, hgarbled⟩ := not_or.mp hnot
    obtain ⟨loc, rest, hcome, habsolute⟩ := comes_of_canonical hpath hadmitted.canonical
    obtain ⟨spelt, hspelt⟩ := exists_spells (hcome.isSegment hpath)
    rw [← hspelt.2, ← pathText] at habsolute
    have hplain : m.tree.Plain spelt := by
      by_contra hlink
      have htextual : Textual loc := by
        by_contra hloc
        exact hgarbled ⟨loc, rest, hcome, .inl ⟨hloc, spelt, hspelt, .inl hlink⟩⟩
      exact hlink (hcome.plain htextual hspelt)
    refine ⟨spelt, hadmitted.confinedAt ⟨hspelt.1, hplain⟩ habsolute (fun size hfile => ?_) fun root hthere => ?_⟩
    · by_cases htextual : Textual loc
      · exact hmisled (hcome.misled hpath htextual hspelt hfile)
      · exact hgarbled ⟨loc, rest, hcome, .inl ⟨htextual, spelt, hspelt, .inr ⟨size, hfile⟩⟩⟩
    · by_contra hroot
      obtain ⟨patches, checkpoints, hpatches, hcheckpoints, hrootOf⟩ := hadmitted.root
      rw [habsolute, hspelt.pathText] at hrootOf
      exact hgarbled ⟨loc, rest, hcome,
        .inr ⟨patches, checkpoints, r.root, root, hpatches, hcheckpoints, hrootOf, hthere, hroot⟩⟩

/-! ### A path through a misleading link -/

def patchesName : Name := ⟨encodePath "p", by decide⟩
def checkpointsName : Name := ⟨encodePath "c", by decide⟩
def patchName : Name := ⟨encodePath "f.vcv", by decide⟩
def linkName : Name := ⟨encodePath "l", by decide⟩

/-- In the patches root a patch, and beside it a link through a directory that is not there. -/
def linkEntries : List (List Name × Inode (List UInt8)) :=
  [([], .dir), ([patchesName], .dir), ([checkpointsName], .dir), ([patchesName, patchName], .file 5),
    ([patchesName, linkName], .link (encodePath "gone/../f.vcv"))]

def linkMachine : Machine where
  tree := .ofEntries linkEntries rfl (by decide)
  links := 40
  cwd := []
  mkdir _ := none
  create _ := none

def linkConfig : ServerConfig where
  checkpointsDir := "/c"
  patchesDir := "/p"

/-- The kernel does not follow the link. -/
example : linkMachine.fileSystem.realpath "/p/l" = .error "ENOENT" := by decide

theorem realpath_patches : linkMachine.fileSystem.realpath "/p" = .ok "/p" := by decide +kernel

theorem realpath_checkpoints : linkMachine.fileSystem.realpath "/c" = .ok "/c" := by decide +kernel

/-- The policy takes it to the patch. -/
theorem canonicalAllowingMissing_link :
    canonicalAllowingMissing linkMachine.fileSystem 32 ["l", "p"] = .ok "/p/f.vcv" := by
  have hparent : canonicalAllowingMissing linkMachine.fileSystem 32 ["p"] = .ok "/p" :=
    canonicalAllowingMissing_of_real 32 realpath_patches
  have hlink : linkMachine.fileSystem.readlink (joinSegments (resolveSegments "/p" "l")) = some "gone/../f.vcv" := by
    decide +kernel
  have htarget : (resolveSegments "/p" "gone/../f.vcv").reverse = ["f.vcv", "p"] := by decide
  rw [canonicalAllowingMissing_of_link (by decide +kernel) hparent hlink, htarget]
  exact canonicalAllowingMissing_of_real 31 (by decide +kernel)

theorem canonicalAllowingMissing_below_link :
    canonicalAllowingMissing linkMachine.fileSystem 32 ["x.vcv", "l", "p"] = .ok "/p/f.vcv/x.vcv" := by
  have hmissing : linkMachine.fileSystem.realpath (joinSegments ["x.vcv", "l", "p"].reverse) = .error "ENOENT" := by
    decide +kernel
  have hchild : joinSegments (resolveSegments "/p/f.vcv" "x.vcv") = "/p/f.vcv/x.vcv" := by decide
  rw [canonicalAllowingMissing_of_missing hmissing canonicalAllowingMissing_link (by decide +kernel), hchild]

theorem canonicalDir_of_realpath {dir : String} (hmkdir : m.mkdir dir = none) (h : m.fileSystem.realpath dir = .ok dir) :
    canonicalDir m.fileSystem dir = .ok dir := by
  have hmade : m.fileSystem.mkdir dir = none := hmkdir
  unfold canonicalDir
  rw [hmade, h]
  rfl

/-- Where both roots are there, a name in the patches root is admitted if it leads to no file that is not regular. -/
theorem resolvePatchPath_of_canonical {requested canonical : String} (hmkdir : ∀ dir, m.mkdir dir = none)
    (hpatches : m.fileSystem.realpath "/p" = .ok "/p") (hcheckpoints : m.fileSystem.realpath "/c" = .ok "/c")
    (hname : refusedByName requested = none)
    (hcanonical : canonicalAllowingMissing m.fileSystem maxLinkHops (resolveSegments "/" requested).reverse =
      .ok canonical)
    (hfile : m.fileSystem.isFile canonical = none) (hroot : rootOf "/p" "/c" canonical = some .patches)
    (hparent : m.fileSystem.existsSync (joinSegments (resolveSegments canonical "..")) = true) :
    resolvePatchPath linkConfig "/" m.fileSystem requested false = .ok ⟨canonical, .patches, false⟩ := by
  have hpatchesDir : canonicalDir m.fileSystem linkConfig.patchesDir = .ok "/p" :=
    canonicalDir_of_realpath (hmkdir _) hpatches
  have hcheckpointsDir : canonicalDir m.fileSystem linkConfig.checkpointsDir = .ok "/c" :=
    canonicalDir_of_realpath (hmkdir _) hcheckpoints
  have habsent : m.fileSystem.existsSync canonical = false := by
    unfold FileSystem.existsSync
    rw [hfile]
    rfl
  have hadmit : admitCanonical m.fileSystem "/p" "/c" canonical false = .ok ⟨canonical, .patches, false⟩ := by
    simp [admitCanonical, hfile, hroot, habsent, hparent]
  unfold resolvePatchPath
  rw [hname, hpatchesDir, hcheckpointsDir, hcanonical]
  exact hadmit

/-- A name below the patch is returned. -/
theorem resolvePatchPath_below_link :
    resolvePatchPath linkConfig "/" linkMachine.fileSystem "/p/l/x.vcv" false =
      .ok ⟨"/p/f.vcv/x.vcv", .patches, false⟩ := by
  have hsegments : (resolveSegments "/" "/p/l/x.vcv").reverse = ["x.vcv", "l", "p"] := by decide
  refine resolvePatchPath_of_canonical (fun _ => rfl) realpath_patches realpath_checkpoints
    (Option.isNone_iff_eq_none.mp (by decide)) ?_ (by decide) (by decide) (by decide)
  rw [hsegments]
  exact canonicalAllowingMissing_below_link

/-- So is a new name beside it. -/
theorem resolvePatchPath_beside :
    resolvePatchPath linkConfig "/" linkMachine.fileSystem "/p/x.vcv" false = .ok ⟨"/p/x.vcv", .patches, false⟩ := by
  have hsegments : (resolveSegments "/" "/p/x.vcv").reverse = ["x.vcv", "p"] := by decide
  have hparent : canonicalAllowingMissing linkMachine.fileSystem maxLinkHops ["p"] = .ok "/p" :=
    canonicalAllowingMissing_of_real maxLinkHops realpath_patches
  have hchild : joinSegments (resolveSegments "/p" "x.vcv") = "/p/x.vcv" := by decide
  refine resolvePatchPath_of_canonical (fun _ => rfl) realpath_patches realpath_checkpoints
    (Option.isNone_iff_eq_none.mp (by decide)) ?_ (by decide) (by decide) (by decide)
  rw [hsegments, canonicalAllowingMissing_of_missing (by decide) hparent (by decide), hchild]

/-- Its directory part is the patch. -/
theorem resolvePatchPath_below_file : ¬ ∀ (m : Machine) (config : ServerConfig) (cwd requested : String)
    (mustExist : Bool) (r : ResolvedPath), resolvePatchPath config cwd m.fileSystem requested mustExist = .ok r →
      Confined m config r := by
  intro h
  obtain ⟨loc, hconfined⟩ := h _ _ _ _ _ _ resolvePatchPath_below_link
  have habsolute : pathText loc = joinSegments ["p", "f.vcv", "x.vcv"] := hconfined.absolute.symm
  have htext : loc.map Name.text = ["p", "f.vcv"] ++ ["x.vcv"] :=
    joinSegments_injective (fun _ => isSegment_of_mem_map_text) (by decide) habsolute
  obtain ⟨front, name, rfl, hfront, -⟩ := Spells.concat ⟨hconfined.textual, htext⟩
  have hspelt : Spells [patchesName, patchName] ["p", "f.vcv"] := ⟨by decide +kernel, by decide +kernel⟩
  have hdir := hconfined.directory
  rw [List.dropLast_concat, hfront.eq hspelt] at hdir
  exact absurd hdir (by decide)

/-- What the policy takes the patches root to. -/
theorem comes_patches {hops : ℕ} {rest : List String} (h : Comes linkMachine hops ["p"] loc rest) :
    loc = [patchesName] ∧ rest = [] := by
  have hreal : linkMachine.fileSystem.realpath (joinSegments ["p"].reverse) = .ok "/p" := realpath_patches
  cases h with
  | found hthere => exact ⟨(Except.ok.inj hthere).symm, rfl⟩
  | missing habsent =>
    rw [hreal] at habsent
    exact absurd habsent nofun
  | link habsent =>
    rw [hreal] at habsent
    exact absurd habsent nofun

/-- The name beside it is confined. -/
theorem beside_confined : Confined linkMachine linkConfig ⟨"/p/x.vcv", .patches, false⟩ := by
  refine ((path_confined_iff linkMachine linkConfig "/" "/p/x.vcv" false).2 _ resolvePatchPath_beside).mpr ?_
  have hsegments : (resolveSegments "/" "/p/x.vcv").reverse = ["x.vcv", "p"] := by decide
  have hreal : linkMachine.fileSystem.realpath (joinSegments ["p"].reverse) = .ok "/p" := realpath_patches
  have habsent : linkMachine.fileSystem.realpath (joinSegments ["x.vcv", "p"].reverse) = .error "ENOENT" := by decide
  have hunlinked : linkMachine.fileSystem.readlink (joinSegments (segmentsBelow [patchesName] [] ++ ["x.vcv"])) = none := by
    decide +kernel
  rw [hsegments]
  rintro (hmisled | ⟨loc, rest, hcome, hgarbled⟩)
  · cases hmisled with
    | here _ habove =>
      rw [hreal] at habove
      exact absurd habove nofun
    | link _ hcome hlinked =>
      obtain ⟨rfl, rfl⟩ := comes_patches hcome
      rw [hunlinked] at hlinked
      exact absurd hlinked nofun
  · have hloc : loc = [patchesName] := by
      cases hcome with
      | found hthere =>
        rw [Machine.realpath_eq, hthere] at habsent
        exact absurd habsent nofun
      | missing _ hcome => exact (comes_patches hcome).1
      | link _ hcome hlinked =>
        obtain ⟨rfl, rfl⟩ := comes_patches hcome
        rw [hunlinked] at hlinked
        exact absurd hlinked nofun
    obtain ⟨hnot, -⟩ | ⟨patches, checkpoints, root, loc', -, -, -, hthere, hnot⟩ := hgarbled
    · rw [hloc] at hnot
      exact hnot (by decide +kernel)
    · cases root with
      | patches => exact hnot (Except.ok.inj hthere ▸ (by decide +kernel : Textual [patchesName]))
      | checkpoints => exact hnot (Except.ok.inj hthere ▸ (by decide +kernel : Textual [checkpointsName]))

/-! ### A path through a name that is not UTF-8 -/

def outsideName : Name := ⟨encodePath "o", by decide⟩
def newName : Name := ⟨encodePath "x.vcv", by decide⟩
def replacementName : Name := ⟨encodePath "\uFFFD", by decide⟩
def brokenName : Name := ⟨[0xff], by decide⟩

/-- In the patches root a link to a directory whose name is not UTF-8, and its text is a link that leads outside. -/
def garbledEntries : List (List Name × Inode (List UInt8)) :=
  [([], .dir), ([patchesName], .dir), ([checkpointsName], .dir), ([outsideName], .dir), ([patchesName, brokenName], .dir),
    ([patchesName, replacementName], .link (encodePath "/o")), ([patchesName, linkName], .link [0xff])]

def garbledMachine : Machine where
  tree := .ofEntries garbledEntries rfl (by decide)
  links := 40
  cwd := []
  mkdir _ := none
  create _ := none

/-- A new name in the directory is returned as one below the link. -/
theorem resolvePatchPath_garbled :
    resolvePatchPath linkConfig "/" garbledMachine.fileSystem "/p/l/x.vcv" false =
      .ok ⟨"/p/\uFFFD/x.vcv", .patches, false⟩ := by
  have hsegments : (resolveSegments "/" "/p/l/x.vcv").reverse = ["x.vcv", "l", "p"] := by decide
  have hparent : canonicalAllowingMissing garbledMachine.fileSystem maxLinkHops ["l", "p"] = .ok "/p/\uFFFD" :=
    canonicalAllowingMissing_of_real maxLinkHops (by decide +kernel)
  have hchild : joinSegments (resolveSegments "/p/\uFFFD" "x.vcv") = "/p/\uFFFD/x.vcv" := by decide
  refine resolvePatchPath_of_canonical (fun _ => rfl) (by decide +kernel) (by decide +kernel)
    (Option.isNone_iff_eq_none.mp (by decide)) ?_ (by decide +kernel) (by decide) (by decide +kernel)
  rw [hsegments, canonicalAllowingMissing_of_missing (by decide +kernel) hparent (by decide +kernel), hchild]

/-- The kernel follows it out of the root. -/
example : garbledMachine.locate "/p/\uFFFD/x.vcv" = .ok [outsideName, newName] := by decide +kernel

end RackMcp.Server
