import RackMcp.Server.Paths

/-!
# The text of absolute paths

An absolute path in canonical form is the join of its segments, and splitting and normalising gives them back. A segment
is a name that is none of `.`, `..` and the empty one and has no slash in it (`IsSegment`).
-/

namespace RackMcp.Server

/-- A name that stands for itself in a path. -/
structure IsSegment (name : String) : Prop where
  nonempty : name ≠ ""
  not_dot : name ≠ "."
  not_dotdot : name ≠ ".."
  no_slash : '/' ∉ name.toList

instance (name : String) : Decidable (IsSegment name) :=
  decidable_of_iff (name ≠ "" ∧ name ≠ "." ∧ name ≠ ".." ∧ '/' ∉ name.toList)
    ⟨fun ⟨h, hdot, hdotdot, hslash⟩ => ⟨h, hdot, hdotdot, hslash⟩,
      fun h => ⟨h.nonempty, h.not_dot, h.not_dotdot, h.no_slash⟩⟩

/-! ### Splitting -/

theorem splitPath_ne_nil (p : String) : splitPath p ≠ [] := by
  unfold splitPath
  simp

theorem splitPath_of_no_slash {name : String} (h : '/' ∉ name.toList) : splitPath name = [name] := by
  unfold splitPath
  rw [List.splitOn_eq_singleton h, List.map_singleton, String.ofList_toList]

theorem splitPath_append (p q : String) : splitPath (p ++ "/" ++ q) = splitPath p ++ splitPath q := by
  unfold splitPath
  have htext : (p ++ "/" ++ q).toList = p.toList ++ '/' :: q.toList := by simp
  rw [htext, List.splitOn_append_cons_self, List.map_append]

theorem no_slash_of_mem_splitOn (chars : List Char) : ∀ part ∈ chars.splitOn '/', '/' ∉ part := by
  induction chars with
  | nil => simp
  | cons c rest ih =>
    rw [List.splitOn_cons_eq_if_modifyHead]
    split
    · intro part hpart
      obtain rfl | hpart := List.mem_cons.mp hpart
      · simp
      · exact ih part hpart
    · next hc =>
      rcases hsplit : rest.splitOn '/' with _ | ⟨first, parts⟩
      · exact absurd hsplit (List.splitOn_ne_nil _ _)
      · rw [hsplit] at ih
        intro part hpart
        obtain rfl | hpart := List.mem_cons.mp hpart
        · intro hmem
          obtain heq | hmem := List.mem_cons.mp hmem
          · exact hc (beq_iff_eq.mpr heq.symm)
          · exact ih first (List.mem_cons_self ..) hmem
        · exact ih part (List.mem_cons_of_mem _ hpart)

theorem no_slash_of_mem_splitPath {p part : String} (h : part ∈ splitPath p) : '/' ∉ part.toList := by
  obtain ⟨chars, hchars, rfl⟩ := List.mem_map.mp h
  rw [String.toList_ofList]
  exact no_slash_of_mem_splitOn p.toList chars hchars

/-! ### Normalising -/

/-- The step of `normalizeSegments`. -/
def normalizeStep (path : List String) (segment : String) : List String :=
  if segment = "" ∨ segment = "." then path
  else if segment = ".." then path.dropLast
  else path ++ [segment]

theorem normalizeSegments_eq (segments : List String) : normalizeSegments segments = segments.foldl normalizeStep [] :=
  rfl

theorem normalizeStep_segment {path : List String} {name : String} (h : IsSegment name) :
    normalizeStep path name = path ++ [name] := by
  unfold normalizeStep
  rw [if_neg (by simp [h.nonempty, h.not_dot]), if_neg h.not_dotdot]

theorem foldl_normalizeStep {segments path : List String} (h : ∀ name ∈ segments, IsSegment name) :
    segments.foldl normalizeStep path = path ++ segments := by
  induction segments generalizing path with
  | nil => simp
  | cons name rest ih =>
    rw [List.foldl_cons, normalizeStep_segment (h name (List.mem_cons_self ..)),
      ih fun other hother => h other (List.mem_cons_of_mem _ hother), List.append_assoc, List.singleton_append]

theorem normalizeSegments_of_segments {segments : List String} (h : ∀ name ∈ segments, IsSegment name) :
    normalizeSegments segments = segments := by
  rw [normalizeSegments_eq, foldl_normalizeStep h, List.nil_append]

theorem normalizeSegments_append_segment (segments : List String) {name : String} (h : IsSegment name) :
    normalizeSegments (segments ++ [name]) = normalizeSegments segments ++ [name] := by
  rw [normalizeSegments_eq, List.foldl_append]
  exact normalizeStep_segment h

theorem isSegment_normalizeStep {path : List String} {name : String} (hpath : ∀ s ∈ path, IsSegment s)
    (hname : '/' ∉ name.toList) : ∀ s ∈ normalizeStep path name, IsSegment s := by
  unfold normalizeStep
  split
  · exact hpath
  · next hnot =>
    rw [not_or] at hnot
    split
    · exact fun s hs => hpath s (List.dropLast_subset _ hs)
    · next hdots =>
      intro s hs
      obtain hs | hs := List.mem_append.mp hs
      · exact hpath s hs
      · rw [List.mem_singleton.mp hs]
        exact ⟨hnot.1, hnot.2, hdots, hname⟩

/-- What normalising leaves are segments. -/
theorem isSegment_normalizeSegments {segments : List String} (h : ∀ name ∈ segments, '/' ∉ name.toList) :
    ∀ s ∈ normalizeSegments segments, IsSegment s := by
  rw [normalizeSegments_eq]
  have hall : ∀ path : List String, (∀ s ∈ path, IsSegment s) →
      ∀ s ∈ segments.foldl normalizeStep path, IsSegment s := by
    induction segments with
    | nil => exact fun _ hpath => hpath
    | cons name rest ih =>
      intro path hpath
      exact ih (fun other hother => h other (List.mem_cons_of_mem _ hother)) _
        (isSegment_normalizeStep hpath (h name (List.mem_cons_self ..)))
  exact hall [] (by simp)

theorem isSegment_resolveSegments (base p : String) : ∀ s ∈ resolveSegments base p, IsSegment s :=
  isSegment_normalizeSegments fun _ h => no_slash_of_mem_splitPath h

/-! ### Joining -/

theorem splitPath_slash (p : String) : splitPath ("/" ++ p) = "" :: splitPath p := by
  have hslash : "/" ++ p = "" ++ "/" ++ p := by rw [String.empty_append]
  rw [hslash, splitPath_append]
  rfl

theorem splitPath_intercalate {segments : List String} (hne : segments ≠ [])
    (h : ∀ name ∈ segments, '/' ∉ name.toList) : splitPath ("/".intercalate segments) = segments := by
  unfold splitPath
  rw [String.toList_intercalate]
  have hslash : "/".toList = ['/'] := rfl
  rw [hslash, List.splitOn_intercalate _ _ (by simpa using hne), List.map_map]
  · exact (List.map_congr_left fun name _ => String.ofList_toList).trans (List.map_id _)
  · intro part hpart
    obtain ⟨name, hname, rfl⟩ := List.mem_map.mp hpart
    exact h name hname

/-- The parts of a canonical path; the root has an empty one more. -/
theorem splitPath_joinSegments {segments : List String} (h : ∀ name ∈ segments, IsSegment name) :
    splitPath (joinSegments segments) = "" :: (if segments = [] then [""] else segments) := by
  unfold joinSegments
  rw [splitPath_slash]
  by_cases hnil : segments = []
  · rw [if_pos hnil, hnil]
    rfl
  · rw [if_neg hnil, splitPath_intercalate hnil fun name hname => (h name hname).no_slash]

theorem normalizeSegments_splitPath {segments : List String} (h : ∀ name ∈ segments, IsSegment name) :
    normalizeSegments (splitPath (joinSegments segments)) = segments := by
  have hdrop : ∀ rest : List String, normalizeSegments ("" :: rest) = normalizeSegments rest := fun _ => rfl
  rw [splitPath_joinSegments h, hdrop]
  split
  · next hnil =>
    rw [hnil]
    rfl
  · exact normalizeSegments_of_segments h

/-- Canonical paths are told apart by their segments. -/
theorem joinSegments_injective {p q : List String} (hp : ∀ name ∈ p, IsSegment name)
    (hq : ∀ name ∈ q, IsSegment name) (h : joinSegments p = joinSegments q) : p = q := by
  rw [← normalizeSegments_splitPath hp, h, normalizeSegments_splitPath hq]

/-- A name in a directory. -/
theorem resolveSegments_segment (base : String) {name : String} (h : IsSegment name) :
    resolveSegments base name = normalizeSegments (splitPath base) ++ [name] := by
  have hrelative : name.toList.head? ≠ some '/' := fun hhead => h.no_slash (List.mem_of_mem_head? hhead)
  unfold resolveSegments
  rw [if_neg hrelative, splitPath_append, splitPath_of_no_slash h.no_slash, normalizeSegments_append_segment _ h]

/-- The directory part of a canonical path. -/
theorem resolveSegments_up {segments : List String} (h : ∀ name ∈ segments, IsSegment name) :
    resolveSegments (joinSegments segments) ".." = segments.dropLast := by
  have hparts : splitPath ".." = [".."] := by decide
  have hup : normalizeSegments (splitPath (joinSegments segments) ++ [".."]) =
      (normalizeSegments (splitPath (joinSegments segments))).dropLast := by
    rw [normalizeSegments_eq, List.foldl_append]
    rfl
  unfold resolveSegments
  rw [if_neg (by decide), splitPath_append, hparts, hup, normalizeSegments_splitPath h]

/-- What is appended to a path is appended to its last segment. -/
theorem joinSegments_concat (segments : List String) (name suffix : String) :
    joinSegments (segments ++ [name]) ++ suffix = joinSegments (segments ++ [name ++ suffix]) := by
  unfold joinSegments
  by_cases hnil : segments = []
  · simp [hnil, String.append_assoc]
  · rw [String.intercalate_append_of_ne_nil hnil (by simp), String.intercalate_append_of_ne_nil hnil (by simp)]
    simp [String.append_assoc]

/-! ### Containment -/

theorem getLast?_joinSegments {segments : List String} (hne : segments ≠ [])
    (h : ∀ name ∈ segments, IsSegment name) : (joinSegments segments).toList.getLast? ≠ some '/' := by
  have hlast := h _ (List.getLast_mem hne)
  have htext : joinSegments segments = joinSegments (segments.dropLast ++ [""]) ++ segments.getLast hne := by
    rw [joinSegments_concat, String.empty_append, List.dropLast_append_getLast]
  have hnonempty : (segments.getLast hne).toList ≠ [] := by
    intro hnil
    exact hlast.nonempty (String.toList_inj.mp (by rw [hnil]; rfl))
  rw [htext, String.toList_append, List.getLast?_append_of_ne_nil _ hnonempty]
  exact fun hslash => hlast.no_slash (List.mem_of_getLast? hslash)

/-- Containment goes by whole names. -/
theorem prefix_of_within {root target : List String} (hroot : ∀ name ∈ root, IsSegment name)
    (htarget : ∀ name ∈ target, IsSegment name) (h : within (joinSegments root) (joinSegments target) = true) :
    root <+: target := by
  by_cases hnil : root = []
  · rw [hnil]
    exact List.nil_prefix
  · unfold within at h
    rw [if_neg (getLast?_joinSegments hnil hroot), Bool.or_eq_true] at h
    obtain heq | hprefix := h
    · have hsame := joinSegments_injective htarget hroot (beq_iff_eq.mp heq)
      exact hsame ▸ List.prefix_rfl
    · obtain ⟨rest, hrest⟩ := List.isPrefixOf_iff_prefix.mp hprefix
      have htext : joinSegments target = joinSegments root ++ "/" ++ String.ofList rest := by
        apply String.toList_inj.mp
        rw [String.toList_append, String.toList_ofList]
        exact hrest.symm
      have hparts : splitPath (joinSegments target) = splitPath (joinSegments root) ++ splitPath (String.ofList rest) := by
        rw [htext, splitPath_append]
      rw [splitPath_joinSegments htarget, splitPath_joinSegments hroot, if_neg hnil, List.cons_append] at hparts
      have htail := List.tail_eq_of_cons_eq hparts
      split at htail
      · have hlength := congrArg List.length htail
        have hpos := List.length_pos_iff.mpr hnil
        have hpos' := List.length_pos_iff.mpr (splitPath_ne_nil (String.ofList rest))
        rw [List.length_append, List.length_singleton] at hlength
        omega
      · rw [htail]
        exact List.prefix_append ..

end RackMcp.Server
