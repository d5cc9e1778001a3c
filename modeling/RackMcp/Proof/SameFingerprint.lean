import RackMcp.Proof.CanonicalText
import RackMcp.Proof.Idempotency

/-!
# What a fingerprint stands for

Two requests have one fingerprint when they agree on the method and on every field that is no concurrency guard, in any
order, and otherwise only by a collision of SHA-256. So the cache replays a result to a retry of its own request, and
refuses no such retry.
-/

namespace RackMcp

open Gen

/-- The fields of a request that are no guard are the same. -/
structure SameIntent (c d : BridgeCommand) : Prop where
  method : c.method = d.method
  isObject : Json.isObject c.payload = Json.isObject d.payload
  fields : ∀ key ∉ nonIdentityKeys, Option.Rel Json.Same (Json.get c.payload key) (Json.get d.payload key)

/-- The two values have different canonical texts, and SHA-256 gives these one digest. -/
def Collision (numeral : Double → String) (v w : Json) : Prop :=
  canonicalText numeral v ≠ canonicalText numeral w ∧
    sha256Hex (canonicalText numeral v) = sha256Hex (canonicalText numeral w)

/-- The canonical dump is the canonical text. -/
def Jansson.DumpsSorted (J : Jansson) (numeral : Double → String) : Prop :=
  ∀ v, Loaded v → J.dumpsSorted v = some (canonicalText numeral v)

/-- A fingerprint is of one value, up to the order of members, or there is a collision. -/
theorem same_of_fingerprint {numeral : Double → String} (hnumeral : RealNumeral numeral) {v w : Json} (hv : Loaded v)
    (hw : Loaded w) (h : sha256Hex (canonicalText numeral v) = sha256Hex (canonicalText numeral w)) :
    v.Same w ∨ Collision numeral v w := by
  by_cases htext : canonicalText numeral v = canonicalText numeral w
  · exact .inl ((canonicalText_eq_iff hnumeral hv hw).mp htext)
  · exact .inr ⟨htext, h⟩

/-! ### The identity of a request -/

theorem lookup_filter_keys (members : List (String × Json)) (keys : List String) (key : String) :
    (members.filter fun m => m.1 ∉ keys).lookup key = if key ∈ keys then none else members.lookup key := by
  induction members with
  | nil => split <;> rfl
  | cons m rest ih =>
    obtain ⟨k, v⟩ := m
    rw [List.filter_cons]
    by_cases hk : k ∈ keys
    · rw [if_neg (by simpa using hk), ih, List.lookup_cons]
      split
      · rfl
      · next hkey =>
        rw [beq_false_of_ne fun heq : key = k => hkey (heq.symm ▸ hk)]
    · rw [if_pos (by simpa using hk), List.lookup_cons, List.lookup_cons, ih]
      by_cases hkey : key = k
      · rw [hkey, beq_self_eq_true]
        exact (if_neg hk).symm
      · rw [beq_false_of_ne hkey]

/-- The payload in the identity of a request. -/
def identityPayload (c : BridgeCommand) : Json :=
  match c.payload with
  | .object members => .object (members.filter fun m => m.1 ∉ nonIdentityKeys)
  | _ => .null

theorem requestIdentity_eq (c : BridgeCommand) :
    requestIdentity c = .object [("method", .string c.method), ("payload", identityPayload c)] := rfl

theorem loaded_requestIdentity {c : BridgeCommand} (h : Loaded c.payload) : Loaded (requestIdentity c) := by
  have hpayload : Loaded (identityPayload c) := by
    unfold identityPayload
    split
    · next members hmembers =>
      rw [hmembers] at h
      cases h with
      | object _ hkeys hloaded =>
        exact .object _ (hkeys.sublist (List.filter_sublist.map _)) fun m hm => hloaded m (List.mem_of_mem_filter hm)
    · exact .null
  rw [requestIdentity_eq]
  refine .object _ (by simp) fun m hm => ?_
  simp only [List.mem_cons, List.not_mem_nil, or_false] at hm
  rcases hm with rfl | rfl
  · exact .string _
  · exact hpayload

theorem same_identityPayload_iff {c d : BridgeCommand} :
    (identityPayload c).Same (identityPayload d) ↔ Json.isObject c.payload = Json.isObject d.payload ∧
      ∀ key ∉ nonIdentityKeys, Option.Rel Json.Same (Json.get c.payload key) (Json.get d.payload key) := by
  have hother : ∀ e : BridgeCommand, Json.isObject e.payload = false →
      identityPayload e = .null ∧ ∀ key, Json.get e.payload key = none := by
    intro e he
    unfold identityPayload
    rcases hp : e.payload
    case object =>
      rw [hp] at he
      cases he
    all_goals exact ⟨rfl, fun _ => rfl⟩
  have hobject : ∀ e : BridgeCommand, Json.isObject e.payload = true → ∃ members, e.payload = .object members := by
    intro e he
    rcases hp : e.payload
    case object members => exact ⟨members, rfl⟩
    all_goals
      rw [hp] at he
      cases he
  rcases hc : Json.isObject c.payload <;> rcases hd : Json.isObject d.payload
  · obtain ⟨hnull, hget⟩ := hother c hc
    obtain ⟨hnull', hget'⟩ := hother d hd
    rw [hnull, hnull']
    refine ⟨fun _ => ⟨rfl, fun key _ => ?_⟩, fun _ => .null⟩
    rw [hget, hget']
    exact .none
  · obtain ⟨hnull, -⟩ := hother c hc
    obtain ⟨members, hmembers⟩ := hobject d hd
    rw [hnull, identityPayload, hmembers]
    exact ⟨fun h => (by cases h), fun h => (by cases h.1)⟩
  · obtain ⟨members, hmembers⟩ := hobject c hc
    obtain ⟨hnull, -⟩ := hother d hd
    rw [hnull, identityPayload, hmembers]
    exact ⟨fun h => (by cases h), fun h => (by cases h.1)⟩
  · obtain ⟨ms, hms⟩ := hobject c hc
    obtain ⟨ns, hns⟩ := hobject d hd
    rw [identityPayload, identityPayload, hms, hns]
    dsimp only
    rw [Json.same_object_iff]
    constructor
    · intro h
      refine ⟨rfl, fun key hkey => ?_⟩
      have hrel := h key
      rw [lookup_filter_keys, lookup_filter_keys, if_neg hkey, if_neg hkey] at hrel
      exact hrel
    · rintro ⟨-, h⟩ key
      rw [lookup_filter_keys, lookup_filter_keys]
      split
      · exact .none
      · next hkey => exact h key hkey

/-- The identities of two requests are the same just when the requests ask for the same. -/
theorem same_requestIdentity_iff {c d : BridgeCommand} :
    (requestIdentity c).Same (requestIdentity d) ↔ SameIntent c d := by
  rw [requestIdentity_eq, requestIdentity_eq, Json.same_object_iff]
  constructor
  · intro h
    have hmethod : Option.Rel Json.Same (some (.string c.method)) (some (.string d.method)) := h "method"
    have hpayload : Option.Rel Json.Same (some (identityPayload c)) (some (identityPayload d)) := h "payload"
    obtain ⟨hisObject, hfields⟩ := same_identityPayload_iff.mp (Option.rel_some_some.mp hpayload)
    have hstring : ∀ s t : String, (Json.string s).Same (.string t) → s = t := by
      rintro s t ⟨⟩
      rfl
    exact ⟨hstring _ _ (Option.rel_some_some.mp hmethod), hisObject, hfields⟩
  · intro h key
    have hpayload := same_identityPayload_iff.mpr ⟨h.isObject, h.fields⟩
    rw [List.lookup_cons, List.lookup_cons, List.lookup_cons, List.lookup_cons, h.method]
    split
    · exact .some (.string _)
    split
    · exact .some hpayload
    · exact .none

/-! ### What the cache answers -/

section run
variable {J : Jansson} {calls : List Call}

/-- A call that an entry of the cache came from. -/
def RecordedBy (J : Jansson) (calls : List Call) (j : ℕ) (e : OpEntry) : Prop :=
  ∃ i c result, i < j ∧ calls[i]? = some c ∧ executionAt J calls i = some (.ran result true) ∧ e = c.entry J result

theorem recordedBy_of_mem {j : ℕ} {e : OpEntry} (he : e ∈ cacheAt J calls j) : RecordedBy J calls j e := by
  induction j with
  | zero => cases he
  | succ j ih =>
    have hlater : RecordedBy J calls j e → RecordedBy J calls (j + 1) e := by
      rintro ⟨i, c, result, hij, hrest⟩
      exact ⟨i, c, result, Nat.lt_succ_of_lt hij, hrest⟩
    rcases hc : calls[j]? with _ | c
    · rw [cacheAt, Trace.stateAt_succ_of_none hc] at he
      exact hlater (ih he)
    · rw [cacheAt_succ hc] at he
      obtain ⟨-, hsame⟩ | ⟨result, -, -, -, -, heq⟩ := executeCommand_cases (J := J) c (cacheAt J calls j)
      · rw [hsame] at he
        exact hlater (ih he)
      · have hran : executionAt J calls j = some (.ran result true) := by rw [executionAt_eq hc, heq]
        rw [heq, recordOperation_eq] at he
        obtain ⟨kept, hrecord, hsub⟩ := ExpiringCache.record_eq (fun e => !e.stale c.readings.recordMs) opCacheBound
          (cacheAt J calls j) (c.entry J result)
        replace he : e ∈ kept ++ [c.entry J result] := hrecord ▸ he
        rcases List.mem_append.mp he with hold | hnew
        · exact hlater (ih (List.mem_of_mem_filter (hsub.subset hold)))
        · exact ⟨j, c, result, Nat.lt_succ_self j, hc, hran, List.mem_singleton.mp hnew⟩

/-- A lookup answers from an entry under the id: with its frame where the fingerprints agree. -/
theorem entry_of_lookup {cache : OpCache} {operationId fingerprint : String} {nowMs : ℤ}
    (h : lookupOperation cache operationId fingerprint nowMs ≠ .miss) :
    ∃ e ∈ cache, e.operationId = operationId ∧ lookupOperation cache operationId fingerprint nowMs =
      if e.requestFingerprint ≠ fingerprint then .mismatch else .replay e.frame := by
  induction cache with
  | nil => exact absurd rfl h
  | cons first rest ih =>
    unfold lookupOperation at h ⊢
    split at h
    · next hskip =>
      rw [if_pos hskip]
      obtain ⟨e, he, hid⟩ := ih h
      exact ⟨e, List.mem_cons_of_mem first he, hid⟩
    · next hfirst =>
      rw [if_neg hfirst]
      exact ⟨first, List.mem_cons_self, not_not.mp (not_or.mp hfirst).1, rfl⟩

/-- A command that its handler did not get was answered from an entry under its id. -/
theorem answer_of_cache {j : ℕ} {d : Call} (hd : calls[j]? = some d) :
    (∃ e ∈ cacheAt J calls j, e.operationId = d.cmd.operationId ∧
      ((e.requestFingerprint = requestFingerprint J d.cmd ∧
          executionAt J calls j = some (.replayed (replayFrame J d.cmd.requestId e.frame))) ∨
        (e.requestFingerprint ≠ requestFingerprint J d.cmd ∧
          ∃ text, executionAt J calls j = some (.mismatched text)))) ∨
    ∀ text, executionAt J calls j ≠ some (.replayed text) ∧ executionAt J calls j ≠ some (.mismatched text) := by
  have hrun : ∀ (fingerprint text : String),
      (runHandler J d.answers d.readings.recordMs d.cmd fingerprint (cacheAt J calls j)).1 ≠ .replayed text ∧
      (runHandler J d.answers d.readings.recordMs d.cmd fingerprint (cacheAt J calls j)).1 ≠ .mismatched text := by
    intro fingerprint text
    unfold runHandler
    split
    · exact ⟨Execution.noConfusion, Execution.noConfusion⟩
    · split <;> exact ⟨Execution.noConfusion, Execution.noConfusion⟩
  rw [executionAt_eq hd]
  by_cases hempty : d.cmd.operationId = ""
  · right
    intro text
    unfold executeCommand
    rw [if_pos hempty]
    exact ⟨fun h => (hrun _ text).1 (Option.some.inj h), fun h => (hrun _ text).2 (Option.some.inj h)⟩
  by_cases hmiss : lookupOperation (cacheAt J calls j) d.cmd.operationId (requestFingerprint J d.cmd)
      d.readings.lookupMs = .miss
  · right
    intro text
    rw [executeCommand_miss hempty hmiss]
    exact ⟨fun h => (hrun _ text).1 (Option.some.inj h), fun h => (hrun _ text).2 (Option.some.inj h)⟩
  · left
    obtain ⟨e, he, hid, hlookup⟩ := entry_of_lookup hmiss
    refine ⟨e, he, hid, ?_⟩
    by_cases hsame : e.requestFingerprint = requestFingerprint J d.cmd
    · rw [if_neg (not_not.mpr hsame)] at hlookup
      exact .inl ⟨hsame, by rw [executeCommand_replay hempty hlookup]⟩
    · rw [if_pos hsame] at hlookup
      exact .inr ⟨hsame, _, by rw [executeCommand_mismatch hempty hlookup]⟩

/-- What the cache answers, it answers for what was asked: a replay is of the result recorded for the same request, up
to the order of members and the guards, or SHA-256 collides on the two; and a refusal of a reused id is never of a
retry. -/
theorem cache_answers_the_request {numeral : Double → String} (hnumeral : RealNumeral numeral) (J : Jansson)
    (hdumps : J.DumpsSorted numeral) (calls : List Call) (hloaded : ∀ c ∈ calls, Loaded c.cmd.payload) (j : ℕ) (d : Call)
    (hd : calls[j]? = some d) :
    (∀ text, executionAt J calls j = some (.replayed text) → ∃ i c result, i < j ∧ calls[i]? = some c ∧
      executionAt J calls i = some (.ran result true) ∧ c.cmd.operationId = d.cmd.operationId ∧
      text = replayFrame J d.cmd.requestId result.frame ∧
      (SameIntent c.cmd d.cmd ∨ Collision numeral (requestIdentity c.cmd) (requestIdentity d.cmd))) ∧
    (∀ text, executionAt J calls j = some (.mismatched text) → ∃ i c result, i < j ∧ calls[i]? = some c ∧
      executionAt J calls i = some (.ran result true) ∧ c.cmd.operationId = d.cmd.operationId ∧
      ¬ SameIntent c.cmd d.cmd) := by
  have hfingerprint : ∀ c ∈ calls,
      requestFingerprint J c.cmd = sha256Hex (canonicalText numeral (requestIdentity c.cmd)) := by
    intro c hc
    unfold requestFingerprint canonicalDumps
    rw [hdumps _ (loaded_requestIdentity (hloaded c hc))]
    rfl
  have hd' := List.mem_of_getElem? hd
  rcases answer_of_cache (J := J) hd with ⟨e, he, hid, hanswer⟩ | hnone
  swap
  · exact ⟨fun text h => absurd h (hnone text).1, fun text h => absurd h (hnone text).2⟩
  obtain ⟨i, c, result, hij, hc, hran, rfl⟩ := recordedBy_of_mem he
  have hc' := List.mem_of_getElem? hc
  have hcl := loaded_requestIdentity (hloaded c hc')
  have hdl := loaded_requestIdentity (hloaded d hd')
  have hprint : (c.entry J result).requestFingerprint = requestFingerprint J c.cmd := rfl
  rw [hprint, hfingerprint c hc', hfingerprint d hd'] at hanswer
  rcases hanswer with ⟨hsame, hexecution⟩ | ⟨hdiffer, text', hexecution⟩
  · rw [hexecution]
    refine ⟨fun text h => ⟨i, c, result, hij, hc, hran, hid, ?_, ?_⟩, fun text h => (by cases h)⟩
    · exact (Execution.replayed.inj (Option.some.inj h)).symm
    · exact (same_of_fingerprint hnumeral hcl hdl hsame).imp_left same_requestIdentity_iff.mp
  · rw [hexecution]
    refine ⟨fun text h => (by cases h), fun text h => ⟨i, c, result, hij, hc, hran, hid, fun hintent => hdiffer ?_⟩⟩
    rw [(canonicalText_eq_iff hnumeral hcl hdl).mpr (same_requestIdentity_iff.mpr hintent)]

end run

/-! ### A bench run -/

/-- Writes a whole number as `%.17g` and jansson do, and any other as its numerator and denominator. -/
def plainNumeral : Double → String
  | .finite q => toString q.num ++ if q.den = 1 then ".0" else "e" ++ toString q.den
  | _ => ""

/-- The characters after the numerator. -/
def benchMark (q : ℚ) : List Char := if q.den = 1 then ['.', '0'] else 'e' :: Nat.toDigits 10 q.den

theorem toList_plainNumeral (q : ℚ) : (plainNumeral (.finite q)).toList = (toString q.num).toList ++ benchMark q := by
  unfold plainNumeral benchMark
  rw [String.toList_append]
  split
  · rfl
  · rw [String.toList_append, Nat.toString_eq_repr, Nat.toList_repr]
    rfl

theorem plainNumeral_real : RealNumeral plainNumeral where
  chars q _ c hc := by
    rw [toList_plainNumeral, List.mem_append] at hc
    rcases hc with hc | hc
    · exact numeralChar_of_integer hc
    · unfold benchMark at hc
      split at hc
      · have hall : ['.', '0'].all isNumeralChar = true := by decide
        exact List.all_eq_true.mp hall c hc
      · rcases List.mem_cons.mp hc with rfl | hc
        · decide
        · have hdigit : c.isDigit = true := Nat.isDigit_of_mem_toDigits (b := 10) (by decide) (by decide) hc
          unfold isNumeralChar
          rw [hdigit]
          rfl
  mark q _ := by
    rw [toList_plainNumeral]
    unfold benchMark
    split
    · exact ⟨'.', by simp, .inl rfl⟩
    · exact ⟨'e', by simp, .inr rfl⟩
  injective p q _ _ h := by
    replace h := congrArg String.toList h
    rw [toList_plainNumeral, toList_plainNumeral] at h
    have hstops : ∀ r : ℚ, PrefixCode.Stops (fun c : Char => c.isDigit = true ∨ c = '-') (benchMark r) := by
      intro r c hc
      unfold benchMark at hc
      split at hc
      · obtain rfl := Option.some.inj hc
        decide
      · obtain rfl := Option.some.inj hc
        decide
    obtain ⟨hnum, hmark⟩ := PrefixCode.run_unique (fun c hc => integer_char hc) (fun c hc => integer_char hc)
      (hstops p) (hstops q) h
    refine Rat.ext (integer_injective hnum) ?_
    unfold benchMark at hmark
    split at hmark <;> split at hmark
    · next hp hq => rw [hp, hq]
    · exact absurd (List.cons.inj hmark).1 (by decide)
    · exact absurd (List.cons.inj hmark).1 (by decide)
    · exact toDigits_injective (List.cons.inj hmark).2

/-- The bench's codec, with the canonical dump. -/
def sortingCodec : Jansson := { benchCodec with dumpsSorted := fun v => some (canonicalText plainNumeral v) }

theorem sortingCodec_recorded : ∃ result, executionAt sortingCodec benchCalls 0 = some (.ran result true) := ⟨_, rfl⟩

theorem sortingCodec_replayed : ∃ text, executionAt sortingCodec benchCalls 1 = some (.replayed text) := by
  obtain ⟨result, hran⟩ := sortingCodec_recorded
  have hcount : recordsBetween sortingCodec benchCalls 0 1 < opCacheBound :=
    lt_of_le_of_lt List.countP_le_length (by decide)
  have hlookup := lookup_of_recorded (by unfold CallsInOrder; decide) (show benchCalls[0]? = some _ from rfl) hran
    (show 0 < 1 by decide) (show benchCalls[1]? = some _ from rfl) rfl (by decide) hcount
  have hsame : requestFingerprint sortingCodec (benchUndoCall "00000000000000a2" 6 7 (.ok {})).cmd =
    requestFingerprint sortingCodec (benchUndoCall "00000000000000a3" 900 901 (.error .nonStandard)).cmd := rfl
  rw [if_neg (not_not.mpr hsame)] at hlookup
  rw [executionAt_eq (show benchCalls[1]? = some _ from rfl), executeCommand_replay (by decide) hlookup]
  exact ⟨_, rfl⟩

/-- On the bench the replay is of the undo it retries. -/
theorem cache_answers_the_request_bench : ∃ text, executionAt sortingCodec benchCalls 1 = some (.replayed text) ∧
    ∃ i c result, i < 1 ∧ benchCalls[i]? = some c ∧ executionAt sortingCodec benchCalls i = some (.ran result true) ∧
      text = replayFrame sortingCodec "00000000000000a3" result.frame := by
  have hloaded : ∀ c ∈ benchCalls, Loaded c.cmd.payload := by
    have hpayload : Loaded (.object [("expectedOperationId", .string ""), ("scope", .object [])]) := by
      refine .object _ (by decide) fun m hm => ?_
      simp only [List.mem_cons, List.not_mem_nil, or_false] at hm
      rcases hm with rfl | rfl
      · exact .string ""
      · exact .object [] List.nodup_nil fun m hm => (by cases hm)
    intro c hc
    simp only [benchCalls, List.mem_cons, List.not_mem_nil, or_false] at hc
    rcases hc with rfl | rfl
    · exact hpayload
    · exact hpayload
  obtain ⟨text, htext⟩ := sortingCodec_replayed
  obtain ⟨i, c, result, hi, hc, hran, -, hreplay, -⟩ := (cache_answers_the_request plainNumeral_real sortingCodec
    (fun _ _ => rfl) benchCalls hloaded 1 _ rfl).1 text htext
  exact ⟨text, htext, i, c, result, hi, hc, hran, hreplay⟩

end RackMcp
