import RackMcp.Server.Audit
import RackMcp.Proof.SecretFile

/-!
# The newest lines of the audit log

`recent` reads the end of each log from the first line that starts in its last 256 KiB, the reach of the log. The lines it
looks at are the newest ones of both logs, unless the reach of the live log is short and lines lie in front of it.
-/

namespace RackMcp

/-! ### The lines of a log -/

namespace Server

/-- The lines of a log that are not blank. -/
def logLines (contents : List UInt8) : List (List Char) := notBlank ((decodeUtf8 contents).splitOn '\n')

theorem logLines_nil : logLines [] = [] := by
  rw [logLines, decodeUtf8_nil]
  rfl

theorem newline_encoded : String.utf8EncodeChar '\n' = [0x0a] := rfl

theorem logLines_newline (before after : List UInt8) :
    logLines (before ++ 0x0a :: after) = logLines before ++ logLines after := by
  unfold logLines notBlank
  rw [decodeUtf8_ascii newline_encoded, List.splitOn_append_cons_self, List.filter_append]

/-- What `recent` reads of a log: all of it, or what starts behind the first newline of its last 256 KiB. -/
def reach (contents : List UInt8) : List UInt8 :=
  if contents.length ≤ tailBytes then contents
  else ((contents.drop (contents.length - tailBytes)).dropWhile (· ≠ 0x0a)).tail

/-- What lies in front of it. -/
def beyond (contents : List UInt8) : List UInt8 := contents.take (contents.length - (reach contents).length)

/-- A stretch of bytes has no newline, or one in front of what is left behind its first. -/
theorem cut_at_newline (bytes : List UInt8) :
    (0x0a ∉ bytes ∧ (bytes.dropWhile (· ≠ 0x0a)).tail = []) ∨
      ∃ fragment, 0x0a ∉ fragment ∧ bytes = fragment ++ 0x0a :: (bytes.dropWhile (· ≠ 0x0a)).tail := by
  induction bytes with
  | nil => exact .inl ⟨List.not_mem_nil, rfl⟩
  | cons b bytes ih =>
    by_cases hb : b = 0x0a
    · subst hb
      exact .inr ⟨[], List.not_mem_nil, rfl⟩
    · rw [List.dropWhile_cons_of_pos (by simpa using hb)]
      rcases ih with ⟨hnone, htail⟩ | ⟨fragment, hfragment, hbytes⟩
      · exact .inl ⟨by simp [Ne.symm hb, hnone], htail⟩
      · refine .inr ⟨b :: fragment, by simp [Ne.symm hb, hfragment], ?_⟩
        rw [List.cons_append, ← hbytes]

/-- The lines of a log are those beyond its reach and those in it. -/
theorem logLines_eq (contents : List UInt8) : logLines contents = logLines (beyond contents) ++ logLines (reach contents) := by
  unfold beyond
  by_cases hshort : contents.length ≤ tailBytes
  · have hreach : reach contents = contents := if_pos hshort
    rw [hreach, Nat.sub_self, List.take_zero, logLines_nil, List.nil_append]
  · have hreach : reach contents = ((contents.drop (contents.length - tailBytes)).dropWhile (· ≠ 0x0a)).tail :=
      if_neg hshort
    have hcut := cut_at_newline (contents.drop (contents.length - tailBytes))
    rw [← hreach] at hcut
    rcases hcut with ⟨-, hnone⟩ | ⟨fragment, -, htail⟩
    · rw [hnone, List.length_nil, Nat.sub_zero, List.take_length, logLines_nil, List.append_nil]
    · have hcontents : contents = (contents.take (contents.length - tailBytes) ++ fragment) ++ 0x0a :: reach contents := by
        rw [List.append_assoc, ← htail, List.take_append_drop]
      generalize contents.take (contents.length - tailBytes) ++ fragment = front at hcontents
      generalize reach contents = rest at hcontents
      subst hcontents
      have hlength : (front ++ 0x0a :: rest).length - rest.length = (front ++ [0x0a]).length := by
        rw [List.length_append, List.length_append, List.length_cons, List.length_singleton]
        omega
      rw [hlength, List.append_cons, List.take_left, ← List.append_cons, logLines_newline, logLines_newline, logLines_nil,
        List.append_nil]

/-- `tailLines` gives the lines in reach. -/
theorem tailLines_eq (log : Option (List UInt8)) : tailLines log = logLines (reach (log.getD [])) := by
  rcases log with _ | contents
  · exact logLines_nil.symm
  · show notBlank (if _ then _ else _) = logLines (reach contents)
    by_cases hshort : contents.length ≤ tailBytes
    · have hreach : reach contents = contents := if_pos hshort
      rw [Nat.min_eq_left hshort, Nat.sub_self, List.drop_zero, if_neg (by omega), hreach]
      rfl
    · have hreach : reach contents = ((contents.drop (contents.length - tailBytes)).dropWhile (· ≠ 0x0a)).tail :=
        if_neg hshort
      have hcut := cut_at_newline (contents.drop (contents.length - tailBytes))
      rw [← hreach] at hcut
      rw [Nat.min_eq_right (by omega), if_pos ⟨by omega, List.length_pos_iff.mpr (List.splitOn_ne_nil _ _)⟩]
      rcases hcut with ⟨hnone, hempty⟩ | ⟨fragment, hfragment, htail⟩
      · rw [hempty, logLines_nil, List.splitOn_eq_singleton fun hmem => hnone (mem_of_mem_decodeUtf8 newline_encoded hmem)]
        rfl
      · rw [htail, decodeUtf8_ascii newline_encoded,
          List.splitOn_append_cons_self_of_not_mem fun hmem => hfragment (mem_of_mem_decodeUtf8 newline_encoded hmem)]
        rfl

/-! ### The lines that are considered -/

theorem slice_neg {α : Type} (l : List α) {n : ℕ} (hn : 0 < n) : slice l (-n) = l.rtake n := by
  unfold slice List.rtake
  rw [if_pos (by omega)]
  congr 1
  omega

theorem slice_zero {α : Type} (l : List α) : slice l (-(0 : ℕ)) = l := rfl

variable {E : Type} (jsonParse : List Char → Option Json) (safeParse : Json → Option E)

/-- Every line is an entry or skipped. -/
theorem acceptLines_count (lines : List (List Char)) (r : RecentAudit E) :
    (acceptLines jsonParse safeParse lines r).entries.length + (acceptLines jsonParse safeParse lines r).skipped =
      r.entries.length + r.skipped + lines.length := by
  induction lines generalizing r with
  | nil => rfl
  | cons line lines ih =>
    rw [acceptLines, List.length_cons]
    split
    · rw [ih]
      show r.entries.length + (r.skipped + 1) + lines.length = _
      omega
    split
    · rw [ih]
      show (r.entries ++ [_]).length + r.skipped + lines.length = _
      rw [List.length_append, List.length_singleton]
      omega
    · rw [ih]
      show r.entries.length + (r.skipped + 1) + lines.length = _
      omega

/-- The newest lines are shown: no more than asked for, a run of complete lines at the end of both logs, and each of them
is an entry or skipped. -/
structure ShowsNewest (live rotated : List UInt8) (limit : ℕ) (lines : List (List Char)) (shown : RecentAudit E) : Prop where
  bounded : lines.length ≤ limit
  newest : lines <:+ logLines rotated ++ logLines live
  counted : shown.entries.length + shown.skipped = lines.length

/-- The lines that are looked at for a limit that is positive. -/
theorem consideredLines_pos (live rotated : Option (List UInt8)) {limit : ℕ} (hlimit : 0 < limit) :
    consideredLines true live rotated limit =
      if (logLines (reach (live.getD []))).length < limit then
        (logLines (reach (rotated.getD []))).rtake (limit - (logLines (reach (live.getD []))).length) ++
          logLines (reach (live.getD []))
      else (logLines (reach (live.getD []))).rtake limit := by
  show slice (if (tailLines live).length < limit then tailLines rotated ++ tailLines live else tailLines live) _ = _
  rw [tailLines_eq, tailLines_eq, slice_neg _ hlimit]
  generalize logLines (reach (live.getD [])) = lines
  generalize logLines (reach (rotated.getD [])) = older
  split
  · next hshort =>
    unfold List.rtake
    rw [List.length_append]
    by_cases hall : older.length + lines.length ≤ limit
    · rw [Nat.sub_eq_zero_of_le hall, List.drop_zero, Nat.sub_eq_zero_of_le (by omega), List.drop_zero]
    · rw [List.drop_append_of_le_length (by omega)]
      congr 2
      omega
  · rfl

/-- The newest lines are shown, unless the limit is 0 and the live log has lines in reach, or the lines in reach are too few
and those that are put in front of them are not the ones that lie there. -/
theorem recent_newest_iff (file : Bool) (live rotated : Option (List UInt8)) (limit : ℕ) :
    ShowsNewest (live.getD []) (rotated.getD []) limit (consideredLines file live rotated limit)
        (recent jsonParse safeParse file live rotated limit) ↔
      (file = true →
        (limit = 0 → logLines (reach (live.getD [])) = []) ∧
          ((logLines (reach (live.getD []))).length < limit →
            logLines (beyond (live.getD [])) = [] ∨
              (logLines (reach (rotated.getD []))).rtake (limit - (logLines (reach (live.getD []))).length) <:+
                logLines (rotated.getD []) ++ logLines (beyond (live.getD [])))) := by
  have hcounted : (recent jsonParse safeParse file live rotated limit).entries.length +
      (recent jsonParse safeParse file live rotated limit).skipped = (consideredLines file live rotated limit).length := by
    unfold recent
    rw [acceptLines_count]
    exact Nat.zero_add _
  rcases file with _ | _
  · constructor
    · intro _ hfile
      exact absurd hfile Bool.false_ne_true
    · intro _
      exact ⟨Nat.zero_le _, List.nil_suffix, hcounted⟩
  have hlines := logLines_eq (live.getD [])
  have holder := logLines_eq (rotated.getD [])
  rcases Nat.eq_zero_or_pos limit with rfl | hlimit
  · have hconsidered : consideredLines true live rotated 0 = logLines (reach (live.getD [])) := by
      show slice (if (tailLines live).length < 0 then _ else tailLines live) _ = _
      rw [if_neg (Nat.not_lt_zero _), slice_zero, tailLines_eq]
    rw [hconsidered] at hcounted ⊢
    constructor
    · intro h _
      exact ⟨fun _ => List.length_eq_zero_iff.mp (Nat.le_zero.mp h.bounded), fun hlt => absurd hlt (Nat.not_lt_zero _)⟩
    · intro h
      have hnone := (h rfl).1 rfl
      refine ⟨?_, ?_, hcounted⟩
      · rw [hnone]
        exact Nat.le_refl _
      · rw [hnone]
        exact List.nil_suffix
  rw [consideredLines_pos live rotated hlimit] at hcounted ⊢
  generalize recent jsonParse safeParse true live rotated limit = shown at hcounted ⊢
  have hrtake : ∀ (l : List (List Char)) (n : ℕ), (l.rtake n).length ≤ n := by
    intro l n
    unfold List.rtake
    rw [List.length_drop]
    omega
  constructor
  · intro h _
    refine ⟨fun hzero => absurd hzero hlimit.ne', fun hshort => .inr ?_⟩
    have hnewest := h.newest
    rw [if_pos hshort, hlines, ← List.append_assoc, List.suffix_append_self_iff] at hnewest
    exact hnewest
  · intro h
    by_cases hshort : (logLines (reach (live.getD []))).length < limit
    · rw [if_pos hshort] at hcounted ⊢
      refine ⟨?_, ?_, hcounted⟩
      · have hle := hrtake (logLines (reach (rotated.getD []))) (limit - (logLines (reach (live.getD []))).length)
        rw [List.length_append]
        omega
      · rw [hlines, ← List.append_assoc, List.suffix_append_self_iff]
        rcases (h rfl).2 hshort with hnone | hsame
        · rw [hnone, List.append_nil, holder]
          exact (List.drop_suffix _ _).trans (List.suffix_append _ _)
        · exact hsame
    · rw [if_neg hshort] at hcounted ⊢
      refine ⟨hrtake _ _, ?_, hcounted⟩
      rw [hlines, ← List.append_assoc]
      exact (List.drop_suffix _ _).trans (List.suffix_append _ _)

/-- A log of one line. -/
def oneLine : List UInt8 := encodeUtf8 "{}\n".toList

/-- With a limit of 0 the line is shown all the same. -/
theorem recent_zero_shows_line :
    ¬ ShowsNewest oneLine [] 0 (consideredLines true (some oneLine) none 0)
      (recent (fun _ => some (.object [])) (fun _ => (none : Option Unit)) true (some oneLine) none 0) := by
  intro h
  have hlines : consideredLines true (some oneLine) none 0 = ["{}".toList] := by
    show slice (if (tailLines (some oneLine)).length < 0 then _ else tailLines (some oneLine)) _ = _
    have hreach : reach oneLine = oneLine := if_pos (by decide)
    rw [if_neg (Nat.not_lt_zero _), slice_zero, tailLines_eq, Option.getD_some, hreach, logLines, oneLine,
      decodeUtf8_encodeUtf8]
    decide
  have hbounded := h.bounded
  rw [hlines] at hbounded
  exact absurd hbounded (by decide)

end Server

end RackMcp
