import RackMcp.Proof.Decoding
import RackMcp.Proof.PathText
import RackMcp.Server.Machine

/-!
# Names as text

What comes back of the path to a location is the path of the texts of its names. Where the names are UTF-8 (`Textual`),
that text leads the kernel to the location again; where one is not, its text is another name.
-/

namespace RackMcp

theorem encodeUtf8_intercalate (separator : List Char) (parts : List (List Char)) :
    encodeUtf8 (separator.intercalate parts) = (encodeUtf8 separator).intercalate (parts.map encodeUtf8) := by
  induction parts with
  | nil => rfl
  | cons part parts ih =>
    rcases parts with _ | ⟨next, parts⟩
    · simp
    · rw [List.intercalate_cons_cons, encodeUtf8_append, encodeUtf8_append, ih]
      exact List.intercalate_cons_cons.symm

/-- What a character below 0x80 separates is decoded part by part. -/
theorem decodeUtf8_intercalate {b : UInt8} {c : Char} (hc : String.utf8EncodeChar c = [b]) (parts : List (List UInt8)) :
    decodeUtf8 ([b].intercalate parts) = [c].intercalate (parts.map decodeUtf8) := by
  induction parts with
  | nil => exact decodeUtf8_nil
  | cons part parts ih =>
    rcases parts with _ | ⟨next, parts⟩
    · simp
    · rw [List.intercalate_cons_cons, List.append_assoc, List.singleton_append, decodeUtf8_ascii hc, ih,
        List.append_cons]
      exact List.intercalate_cons_cons.symm

namespace Server

open FileTree

theorem slash_encoded : String.utf8EncodeChar '/' = [0x2f] := rfl

theorem encodePath_decodePath (bytes : List UInt8) : encodePath (decodePath bytes) = encodeUtf8 (decodeUtf8 bytes) := by
  unfold encodePath decodePath
  rw [String.toList_ofList]

theorem decodePath_encodePath (p : String) : decodePath (encodePath p) = p := by
  unfold encodePath decodePath
  rw [decodeUtf8_encodeUtf8, String.ofList_toList]

theorem encodePath_injective : Function.Injective encodePath :=
  Function.LeftInverse.injective decodePath_encodePath

/-! ### The text of a name -/

/-- What comes back of the name. -/
def Name.text (name : Name) : String := decodePath name.bytes

/-- The name is UTF-8. -/
def Name.IsText (name : Name) : Prop := encodePath name.text = name.bytes

instance (name : Name) : Decidable name.IsText := inferInstanceAs (Decidable (encodePath name.text = name.bytes))

/-- Text without U+FFFD is that of the name alone. -/
theorem Name.isText_of_not_mem {name : Name} (h : '\uFFFD' ∉ name.text.toList) : name.IsText := by
  unfold IsText text at *
  rw [encodePath_decodePath]
  unfold decodePath at h
  rw [String.toList_ofList] at h
  exact encodeUtf8_decodeUtf8 h

/-- The text of a name stands for itself in a path. -/
theorem Name.isSegment_text (name : Name) : IsSegment name.text := by
  have hbytes : '\uFFFD' ∉ name.text.toList → encodePath name.text = name.bytes := fun h => isText_of_not_mem h
  refine ⟨fun h => ?_, fun h => ?_, fun h => ?_, fun hslash => ?_⟩
  · rw [h] at hbytes
    exact name.isName.nonempty (hbytes (by decide)).symm
  · rw [h] at hbytes
    exact name.isName.not_dot (hbytes (by decide)).symm
  · rw [h] at hbytes
    exact name.isName.not_dotdot (hbytes (by decide)).symm
  · unfold text decodePath at hslash
    rw [String.toList_ofList] at hslash
    exact name.isName.no_slash (mem_of_mem_decodeUtf8 slash_encoded hslash)

/-- Names that are UTF-8 are told apart by their texts. -/
theorem Name.eq_of_text {name other : Name} (hname : name.IsText) (hother : other.IsText)
    (h : name.text = other.text) : name = other := by
  have hbytes : name.bytes = other.bytes := by rw [← hname, ← hother, h]
  rcases name
  rcases other
  obtain rfl := hbytes
  rfl

theorem slash_not_mem_encodePath {p : String} (h : '/' ∉ p.toList) : 0x2f ∉ encodePath p := by
  intro hmem
  obtain ⟨c, hc, hbyte⟩ := List.mem_flatMap.mp hmem
  rw [eq_of_mem_utf8EncodeChar slash_encoded hbyte] at hc
  exact h hc

/-- A segment is the text of a name. -/
theorem IsSegment.exists_name {segment : String} (h : IsSegment segment) :
    ∃ name : Name, name.IsText ∧ name.text = segment := by
  have hname : IsName (encodePath segment) := by
    refine ⟨fun hnil => ?_, fun hdot => ?_, fun hdotdot => ?_, slash_not_mem_encodePath h.no_slash⟩
    · exact h.nonempty (encodePath_injective hnil)
    · exact h.not_dot (encodePath_injective hdot)
    · exact h.not_dotdot (encodePath_injective hdotdot)
  have htext : Name.text ⟨encodePath segment, hname⟩ = segment := decodePath_encodePath segment
  exact ⟨⟨encodePath segment, hname⟩, congrArg encodePath htext, htext⟩

/-! ### The text of a location -/

/-- The names of the location are UTF-8. -/
def Textual (loc : List Name) : Prop := ∀ name ∈ loc, name.IsText

instance (loc : List Name) : Decidable (Textual loc) := inferInstanceAs (Decidable (∀ name ∈ loc, name.IsText))

/-- What comes back of the path to the location. -/
def pathText (loc : List Name) : String := joinSegments (loc.map Name.text)

variable {loc other : List Name} {name : Name}

theorem Textual.append (h : Textual loc) (hother : Textual other) : Textual (loc ++ other) :=
  fun name hname => (List.mem_append.mp hname).elim (h name) (hother name)

theorem textual_singleton (h : name.IsText) : Textual [name] := by
  intro n hn
  rwa [List.mem_singleton.mp hn]

theorem isSegment_of_mem_map_text {segment : String} (h : segment ∈ loc.map Name.text) : IsSegment segment := by
  obtain ⟨name, -, rfl⟩ := List.mem_map.mp h
  exact name.isSegment_text

/-- The location whose names are these segments in UTF-8. -/
def Spells (loc : List Name) (segments : List String) : Prop := Textual loc ∧ loc.map Name.text = segments

/-- Segments are spelt by a location. -/
theorem exists_spells {segments : List String} (h : ∀ segment ∈ segments, IsSegment segment) :
    ∃ loc, Spells loc segments := by
  induction segments with
  | nil => exact ⟨[], by simp [Textual], rfl⟩
  | cons segment rest ih =>
    obtain ⟨name, hname, htext⟩ := (h segment (List.mem_cons_self ..)).exists_name
    obtain ⟨loc, hloc, hrest⟩ := ih fun other hother => h other (List.mem_cons_of_mem _ hother)
    exact ⟨name :: loc, (textual_singleton hname).append hloc, by rw [List.map_cons, htext, hrest]⟩

theorem eq_of_map_text (hloc : Textual loc) (hother : Textual other) (h : loc.map Name.text = other.map Name.text) :
    loc = other := by
  induction loc generalizing other with
  | nil => exact (List.map_eq_nil_iff.mp h.symm).symm
  | cons name loc ih =>
    rcases other with _ | ⟨name', other⟩
    · exact absurd h (by simp)
    · obtain ⟨hname, hrest⟩ := List.cons.inj h
      rw [Name.eq_of_text (hloc name (List.mem_cons_self ..)) (hother name' (List.mem_cons_self ..)) hname,
        ih (fun n hn => hloc n (List.mem_cons_of_mem _ hn)) (fun n hn => hother n (List.mem_cons_of_mem _ hn)) hrest]

theorem Spells.eq {segments : List String} (h : Spells loc segments) (hother : Spells other segments) : loc = other :=
  eq_of_map_text h.1 hother.1 (h.2.trans hother.2.symm)

theorem Spells.pathText {segments : List String} (h : Spells loc segments) : pathText loc = joinSegments segments :=
  congrArg joinSegments h.2

/-- The last segment is spelt by the last name. -/
theorem Spells.concat {segments : List String} {segment : String} (h : Spells loc (segments ++ [segment])) :
    ∃ front name, loc = front ++ [name] ∧ Spells front segments ∧ name.IsText ∧ name.text = segment := by
  obtain ⟨front, back, rfl, hfront, hback⟩ := List.map_eq_append_iff.mp h.2
  obtain ⟨name, rfl, hname⟩ := List.map_eq_singleton_iff.mp hback
  refine ⟨front, name, rfl, ⟨fun n hn => h.1 n (List.mem_append_left _ hn), hfront⟩, ?_, hname⟩
  exact h.1 name (List.mem_append_right _ (List.mem_singleton_self name))

theorem map_text_eq_of_pathText (h : pathText loc = pathText other) : loc.map Name.text = other.map Name.text :=
  joinSegments_injective (fun _ => isSegment_of_mem_map_text) (fun _ => isSegment_of_mem_map_text) h

theorem toList_joinSegments (segments : List String) :
    (joinSegments segments).toList = '/' :: ['/'].intercalate (segments.map String.toList) := by
  unfold joinSegments
  rw [String.toList_append, String.toList_intercalate]
  rfl

/-- The path comes back as the path of the texts. -/
theorem decodePath_pathBytes (loc : List Name) : decodePath (pathBytes loc) = pathText loc := by
  apply String.toList_inj.mp
  have hslash := decodeUtf8_ascii slash_encoded [] ([0x2f].intercalate (loc.map Name.bytes))
  rw [List.nil_append, decodeUtf8_nil, List.nil_append, decodeUtf8_intercalate slash_encoded, List.map_map] at hslash
  unfold decodePath pathBytes pathText
  rw [String.toList_ofList, hslash, toList_joinSegments, List.map_map]
  congr 2
  refine List.map_congr_left fun name _ => ?_
  rw [Function.comp_apply, Function.comp_apply]
  exact String.toList_ofList.symm

/-- The kernel is given the path again. -/
theorem encodePath_pathText (h : Textual loc) : encodePath (pathText loc) = pathBytes loc := by
  have hjoin : encodePath (pathText loc) = 0x2f :: [0x2f].intercalate ((loc.map Name.text).map encodePath) := by
    unfold encodePath pathText
    rw [toList_joinSegments, ← List.singleton_append, encodeUtf8_append, encodeUtf8_intercalate, List.map_map]
    rfl
  have hnames : loc.map (encodePath ∘ Name.text) = loc.map Name.bytes := List.map_congr_left h
  rw [hjoin, pathBytes, List.map_map, hnames]

theorem parsePart_name (name : Name) : parsePart name.bytes = .name name := dif_pos name.isName

/-- The parts of the path to a location; the root has an empty one more. -/
theorem splitBytes_pathBytes (loc : List Name) :
    splitBytes (pathBytes loc) = .here :: (if loc = [] then [.here] else loc.map .name) := by
  have hslash : pathBytes loc = [] ++ 0x2f :: [0x2f].intercalate (loc.map Name.bytes) := rfl
  have hempty : parsePart [] = .here := by decide
  unfold splitBytes
  rw [hslash, List.splitOn_append_cons_self, List.splitOn_nil, List.singleton_append, List.map_cons, hempty]
  by_cases hnil : loc = []
  · rw [if_pos hnil, hnil]
    exact congrArg (fun part => [.here, part]) hempty
  · rw [if_neg hnil, List.splitOn_intercalate, List.map_map]
    · exact congrArg _ (List.map_congr_left fun name _ => parsePart_name name)
    · intro bytes hbytes
      obtain ⟨name, -, rfl⟩ := List.mem_map.mp hbytes
      exact name.isName.no_slash
    · exact fun h => hnil (List.map_eq_nil_iff.mp h)

end Server

end RackMcp
