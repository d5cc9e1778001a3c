import RackMcp.Core.JsonText
import RackMcp.Rackside.OpCache

/-!
# Reply frames

What jansson does with the frames of the bridge (`Jansson.Prints`), what a reply to a request begins with
(`isReplyTo`), and how long the replies are that quote a text (`resError_size`).
-/

namespace RackMcp

open Gen

/-- What jansson writes and reads: an error without NUL in its texts is always written, and what was written is not
misread. -/
structure Jansson.Prints (J : Jansson) (numeral : Double → String) : Prop where
  text : ∀ v text, J.dumps v = some text → text = jsonText numeral v
  error : ∀ id code message retrySafe mayHave, '\x00' ∉ id.toList → '\x00' ∉ message.toList →
    (J.dumps (.object (resError id code message retrySafe mayHave))).isSome
  reads : ∀ v text w, J.dumps v = some text → J.loads text = some w → w = v

variable {J : Jansson} {numeral : Double → String} {id frame : String}

/-! ### Request ids -/

theorem length_of_isHex {s : String} {len : Nat} (h : isHex s len = true) : s.toList.length = len := by
  unfold isHex at h
  rw [Bool.and_eq_true, beq_iff_eq] at h
  rw [← h.1, ← utf8ByteSize_of_hex (List.all_eq_true.mp h.2), String.ofList_toList]

theorem no_nul_of_isHex {s : String} {len : Nat} (h : isHex s len = true) : '\x00' ∉ s.toList := by
  unfold isHex at h
  rw [Bool.and_eq_true] at h
  intro hmem
  exact absurd (List.all_eq_true.mp h.2 _ hmem) (by decide)

theorem isSafeId_of_isHex (h : isHex id 16 = true) : isSafeId id = true := by
  have hsize : id.utf8ByteSize = 16 := by
    unfold isHex at h
    rw [Bool.and_eq_true, beq_iff_eq] at h
    exact h.1
  unfold isHex at h
  rw [Bool.and_eq_true] at h
  have hchars : ∀ c ∈ id.toList, (('0' ≤ c && c ≤ '9') || ('a' ≤ c && c ≤ 'z') || ('A' ≤ c && c ≤ 'Z') ||
      c == '-' || c == '_') = true := by
    intro c hc
    have hhex : '0' ≤ c ∧ c ≤ '9' ∨ 'a' ≤ c ∧ c ≤ 'f' := by
      simpa [isHexChar] using List.all_eq_true.mp h.2 c hc
    obtain hdigit | ⟨hle, hge⟩ := hhex
    · simp [hdigit]
    · have hz : c ≤ 'z' := Char.le_trans hge (by decide)
      simp [hle, hz]
  unfold isSafeId
  rw [Bool.and_eq_true, Bool.and_eq_true, decide_eq_true_eq, decide_eq_true_eq]
  refine ⟨⟨?_, by omega⟩, List.all_eq_true.mpr hchars⟩
  rintro rfl
  exact absurd hsize (by decide)

/-! ### What a reply begins with -/

/-- The members of every reply come in this order. -/
def replyHead (id : String) : String := "\x7b\"kind\":\"res\",\"id\":\"" ++ id ++ "\","

/-- A `res` frame with this id. -/
def isReplyTo (id frame : String) : Bool := (replyHead id).toList.isPrefixOf frame.toList

theorem isReplyTo_iff : isReplyTo id frame = true ↔ ∃ rest : String, frame = replyHead id ++ rest := by
  unfold isReplyTo
  rw [List.isPrefixOf_iff_prefix]
  constructor
  · rintro ⟨rest, hrest⟩
    refine ⟨String.ofList rest, String.toList_inj.mp ?_⟩
    rw [String.toList_append, String.toList_ofList, hrest]
  · rintro ⟨rest, rfl⟩
    rw [String.toList_append]
    exact List.prefix_append ..

theorem take_of_isReplyTo (h : isReplyTo id frame = true) :
    frame.toList.take 10 = ['\x7b', '\x22', 'k', 'i', 'n', 'd', '\x22', ':', '\x22', 'r'] := by
  obtain ⟨rest, rfl⟩ := isReplyTo_iff.mp h
  unfold replyHead
  simp only [String.toList_append, String.reduceToList, List.cons_append, List.take_succ_cons, List.take_zero]

/-- A frame replies to one id. -/
theorem eq_of_isReplyTo {other : String} (hid : isHex id 16 = true) (hother : isHex other 16 = true)
    (h : isReplyTo id frame = true) (h' : isReplyTo other frame = true) : id = other := by
  obtain ⟨rest, rfl⟩ := isReplyTo_iff.mp h
  obtain ⟨rest', hrest⟩ := isReplyTo_iff.mp h'
  have hlist := congrArg String.toList hrest
  unfold replyHead at hlist
  simp only [String.toList_append, List.append_assoc] at hlist
  have hlength := (length_of_isHex hid).trans (length_of_isHex hother).symm
  exact String.toList_inj.mp (List.append_inj (List.append_cancel_left hlist) hlength).1

/-- An object that begins otherwise is no reply. -/
theorem not_isReplyTo_of_kind {kind : String} {c : Char} {rest : List Char} (hkind : kind.toList = c :: rest)
    (hc : Unescaped c) (hne : c ≠ 'r') (tail : List (String × Json)) :
    isReplyTo id (jsonText numeral (.object (("kind", .string kind) :: tail))) = false := by
  have hkey : escapeText "kind" = "kind" := by decide
  have htext : ∃ more, (jsonText numeral (.object (("kind", .string kind) :: tail))).toList =
      "\x7b\"kind\":\"".toList ++ c :: more := by
    have hescape : (escapeText kind).toList = c :: (escapeChars rest).toList := by
      unfold escapeText
      rw [hkind, escapeChars, escapeChar_of_unescaped hc, String.toList_append, String.toList_singleton]
      rfl
    rcases tail with _ | ⟨m, tail⟩
    · simp [jsonText, membersText, hkey, hescape]
    · simp [jsonText, membersText, hkey, hescape]
  obtain ⟨more, hmore⟩ := htext
  rw [← Bool.not_eq_true]
  intro hreply
  have htake := take_of_isReplyTo hreply
  rw [hmore] at htake
  simp only [String.reduceToList, List.cons_append, List.nil_append, List.take_succ_cons, List.take_zero,
    List.cons.injEq] at htake
  simp [hne] at htake

/-- The object is a reply, and jansson writes it as this frame. -/
def Written (J : Jansson) (id frame : String) : Prop :=
  ∃ m rest, J.dumps (.object (("kind", .string "res") :: ("id", .string id) :: m :: rest)) = some frame

theorem jsonText_reply (hid : isHex id 16 = true) (m : String × Json) (rest : List (String × Json)) :
    jsonText numeral (.object (("kind", .string "res") :: ("id", .string id) :: m :: rest)) =
      replyHead id ++ (membersText numeral (m :: rest) ++ "\x7d") := by
  have hkey : escapeText "kind" = "kind" ∧ escapeText "id" = "id" ∧ escapeText "res" = "res" := by decide
  rw [jsonText, membersText, membersText]
  · rw [hkey.1, hkey.2.1, jsonText, jsonText, hkey.2.2, escapeText_of_isHex hid]
    apply String.toList_inj.mp
    unfold replyHead
    simp only [String.toList_append, String.reduceToList, List.append_assoc, List.cons_append, List.nil_append]
  · simp
  · simp

theorem isReplyTo_of_written (hJ : J.Prints numeral) (hid : isHex id 16 = true) (h : Written J id frame) :
    isReplyTo id frame = true := by
  obtain ⟨m, rest, hdumps⟩ := h
  exact isReplyTo_iff.mpr ⟨_, (hJ.text _ _ hdumps).trans (jsonText_reply hid m rest)⟩

/-! ### Errors -/

theorem escapeText_errorCodeToString (code : ErrorCode) : escapeText (errorCodeToString code) = errorCodeToString code := by
  rcases code with _ | _ | _ | _ | _ | _ | _ | _ | _ | _ | _ | _ | _ | _ | _ | _ | _ | _ | _ | _ | _ | _ | _ | _ | _ | _ |
    _ | _ | _ | _ <;> decide

theorem jsonText_resError (numeral : Double → String) (id : String) (code : ErrorCode) (message : String)
    (retrySafe mayHave : Bool) : jsonText numeral (.object (resError id code message retrySafe mayHave)) =
      "\x7b\"kind\":\"res\",\"id\":\"" ++ escapeText id ++ "\",\"ok\":false,\"error\":\x7b\"code\":\"" ++
        errorCodeToString code ++ "\",\"message\":\"" ++ escapeText message ++ "\",\"retrySafe\":" ++
        jsonText numeral (.bool retrySafe) ++ ",\"mutationMayHaveOccurred\":" ++ jsonText numeral (.bool mayHave) ++
        "\x7d\x7d" := by
  have hkey : ∀ key ∈ ["kind", "res", "id", "ok", "error", "code", "message", "retrySafe", "mutationMayHaveOccurred"],
      escapeText key = key := by decide
  simp only [List.mem_cons, List.not_mem_nil, or_false, forall_eq_or_imp, forall_eq] at hkey
  simp only [resError, errorObject, jsonText, membersText, hkey, escapeText_errorCodeToString]
  apply String.toList_inj.mp
  simp [String.toList_append]

/-- The reply that is built by hand is what jansson would write. -/
theorem resInternalError_eq (numeral : Double → String) (hid : isHex id 16 = true) (mayHave : Bool) : resInternalError id mayHave =
    jsonText numeral (.object (resError id .internal "response encoding failed" false mayHave)) := by
  have hmessage : escapeText "response encoding failed" = "response encoding failed" := by decide
  have hcode : errorCodeToString .internal = "INTERNAL" := rfl
  unfold resInternalError
  rw [if_neg (by rw [isSafeId_of_isHex hid]; decide), jsonText_resError, escapeText_of_isHex hid, hmessage, hcode,
    jsonText, jsonText]
  apply String.toList_inj.mp
  simp [String.toList_append]

theorem dumps_resInternalError (hJ : J.Prints numeral) (hid : isHex id 16 = true) (mayHave : Bool) :
    J.dumps (.object (resError id .internal "response encoding failed" false mayHave)) =
      some (resInternalError id mayHave) := by
  obtain ⟨text, htext⟩ := Option.isSome_iff_exists.mp
    (hJ.error id .internal "response encoding failed" false mayHave (no_nul_of_isHex hid) (by decide))
  rw [htext, hJ.text _ _ htext, resInternalError_eq numeral hid]

/-- An error frame is what jansson writes for some error. -/
theorem dumps_buildResError (hJ : J.Prints numeral) (hid : isHex id 16 = true) (code : ErrorCode) (message : String)
    (retrySafe mayHave : Bool) : ∃ code' message' retrySafe',
      J.dumps (.object (resError id code' message' retrySafe' mayHave)) =
        some (buildResError J id code message retrySafe mayHave) := by
  unfold buildResError
  rcases hdumps : J.dumps (.object (resError id code message retrySafe mayHave)) with _ | text
  · exact ⟨_, _, _, dumps_resInternalError hJ hid mayHave⟩
  · exact ⟨_, _, _, hdumps⟩

theorem written_buildResError (hJ : J.Prints numeral) (hid : isHex id 16 = true) (code : ErrorCode) (message : String)
    (retrySafe mayHave : Bool) : Written J id (buildResError J id code message retrySafe mayHave) := by
  obtain ⟨code', message', retrySafe', hdumps⟩ := dumps_buildResError hJ hid code message retrySafe mayHave
  exact ⟨_, _, hdumps⟩

theorem written_buildResOk (hJ : J.Prints numeral) (hid : isHex id 16 = true) (payload : Option Json) :
    Written J id (buildResOk J id payload) := by
  unfold buildResOk
  rcases hdumps : J.dumps (.object (resOk id payload)) with _ | text
  · exact ⟨_, _, dumps_resInternalError hJ hid true⟩
  · exact ⟨_, _, hdumps⟩

/-! ### Sizes -/

theorem size_errorCodeToString (code : ErrorCode) : (errorCodeToString code).utf8ByteSize ≤ 32 := by
  rcases code with _ | _ | _ | _ | _ | _ | _ | _ | _ | _ | _ | _ | _ | _ | _ | _ | _ | _ | _ | _ | _ | _ | _ | _ | _ | _ |
    _ | _ | _ | _ <;> decide

theorem size_of_isHex {len : Nat} (h : isHex id len = true) : id.utf8ByteSize = len := by
  unfold isHex at h
  rw [Bool.and_eq_true, beq_iff_eq] at h
  exact h.1

/-- How long the text of an error is. -/
theorem size_jsonText_resError (numeral : Double → String) (hid : isHex id 16 = true) (code : ErrorCode) (message : String)
    (retrySafe mayHave : Bool) : (jsonText numeral (.object (resError id code message retrySafe mayHave))).utf8ByteSize =
      130 + (if retrySafe then 0 else 1) + (if mayHave then 0 else 1) + (errorCodeToString code).utf8ByteSize +
        (escapeText message).utf8ByteSize := by
  have h₁ : "\x7b\"kind\":\"res\",\"id\":\"".utf8ByteSize = 20 := by decide
  have h₂ : "\",\"ok\":false,\"error\":\x7b\"code\":\"".utf8ByteSize = 30 := by decide
  have h₃ : "\",\"message\":\"".utf8ByteSize = 13 := by decide
  have h₄ : "\",\"retrySafe\":".utf8ByteSize = 14 := by decide
  have h₅ : ",\"mutationMayHaveOccurred\":".utf8ByteSize = 27 := by decide
  have h₆ : "\x7d\x7d".utf8ByteSize = 2 := by decide
  have h₇ : "true".utf8ByteSize = 4 := by decide
  have h₈ : "false".utf8ByteSize = 5 := by decide
  rw [jsonText_resError, escapeText_of_isHex hid]
  simp only [String.utf8ByteSize_append, size_of_isHex hid, h₁, h₂, h₃, h₄, h₅, h₆]
  rcases retrySafe with _ | _ <;> rcases mayHave with _ | _ <;> simp [jsonText, h₇, h₈]
  all_goals omega

/-- An error is not longer than this, whatever its text. -/
theorem size_buildResError (hJ : J.Prints numeral) (hid : isHex id 16 = true) (code : ErrorCode) (message : String)
    (retrySafe mayHave : Bool) :
    (buildResError J id code message retrySafe mayHave).utf8ByteSize ≤ 170 + 6 * message.utf8ByteSize := by
  have hsize : ∀ (code : ErrorCode) (message : String) (retrySafe : Bool),
      (jsonText numeral (.object (resError id code message retrySafe mayHave))).utf8ByteSize ≤
        132 + (errorCodeToString code).utf8ByteSize + (escapeText message).utf8ByteSize := by
    intro code message retrySafe
    rw [size_jsonText_resError numeral hid]
    split_ifs <;> omega
  unfold buildResError
  rcases hdumps : J.dumps (.object (resError id code message retrySafe mayHave)) with _ | text
  · have hinternal := hsize .internal "response encoding failed" false
    have hmessage : (escapeText "response encoding failed").utf8ByteSize = 24 := by decide
    have hcode : (errorCodeToString .internal).utf8ByteSize = 8 := by decide
    rw [Option.getD_none, resInternalError_eq numeral hid]
    omega
  · have hescape := escapeText_size message
    have hcode := size_errorCodeToString code
    have htext := hsize code message retrySafe
    rw [Option.getD_some, hJ.text _ _ hdumps]
    omega

theorem size_repr {n k : ℕ} (hk : 0 < k) (h : n < 10 ^ k) : n.repr.utf8ByteSize ≤ k := by
  have hdigit : ∀ d < 10, (Nat.digitChar d).utf8Size = 1 := by decide
  induction k generalizing n with
  | zero => exact absurd hk (by decide)
  | succ k ih =>
    by_cases hsmall : n < 10
    · rw [Nat.repr_of_lt hsmall, String.utf8ByteSize_singleton, hdigit n hsmall]
      omega
    · have hk : 0 < k := by
        rcases k with _ | k
        · omega
        · exact Nat.succ_pos k
      have hrest := ih hk (n := n / 10) (by rw [pow_succ] at h; omega)
      rw [Nat.repr_of_ge (by omega), String.utf8ByteSize_append, String.utf8ByteSize_singleton,
        hdigit (n % 10) (Nat.mod_lt n (by decide))]
      omega

theorem size_toString_int {n : ℤ} (h : n.natAbs < 10 ^ 19) : (toString n).utf8ByteSize ≤ 20 := by
  have hrepr := size_repr (by decide) h
  rcases n with n | n
  · show (Nat.repr n).utf8ByteSize ≤ 20
    have hnat : (Int.ofNat n).natAbs = n := rfl
    rw [hnat] at hrepr
    omega
  · show ("-" ++ Nat.repr (n + 1)).utf8ByteSize ≤ 20
    have hnat : (Int.negSucc n).natAbs = n + 1 := rfl
    have hsign : "-".utf8ByteSize = 1 := by decide
    rw [hnat] at hrepr
    rw [String.utf8ByteSize_append]
    omega

end RackMcp
