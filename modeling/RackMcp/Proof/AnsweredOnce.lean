import RackMcp.Proof.RequestTurns

/-!
# Every request is answered once

Over a run the requests of a connection with an id are the replies with that id and the commands that still wait, so none
is answered twice and none is dropped (`requests_balance`). Each reply fits a frame but for the one that quotes an unknown
method at a length where it no longer does (`answered_once_iff`).
-/

namespace RackMcp

open Gen

variable {cfg : ServiceConfig} {J : Jansson} {rng : Entropy} {numeral : Double → String}

/-! ### Runs -/

section measures
variable (cfg : ServiceConfig) (J : Jansson) (rng : Entropy) (conn : ℕ) (id : String)

/-- An event brings a request of the connection under this id. -/
def asked (srv : Server) (e : Event) : ℕ :=
  if (srv.requestFrom J conn e).any fun (root : Json) => jstr root "id" == id then 1 else 0

/-- The event brings such a request, and its method is unknown at a length where the reply is overlong. -/
def askedOverlong (srv : Server) (e : Event) : ℕ :=
  if (srv.requestFrom J conn e).any fun (root : Json) => jstr root "id" == id && overlong cfg root then 1 else 0

/-- The replies to this id that an event hands to the connection. -/
def replies (srv : Server) (e : Event) : ℕ := (sentTo conn (srv.step cfg J rng e).2).countP (isReplyTo id)

/-- Those of them that fit a frame. -/
def fittingReplies (srv : Server) (e : Event) : ℕ :=
  (sentTo conn (srv.step cfg J rng e).2).countP fun frame => isReplyTo id frame && decide (frame.utf8ByteSize ≤ cfg.maxFrameBytes)

/-- The commands of the connection with this id that wait. -/
def waiting (srv : Server) : ℕ := (srv.commandsOf conn).countP (·.requestId == id)

end measures

section balance
variable {srv : Server} {conn : ℕ} {e : Event} {id : String}

/-- A reply is to the id it was written for. -/
theorem isReplyTo_eq_of_written (hJ : J.Prints numeral) {own frame : String} (hown : isHex own 16 = true)
    (hid : isHex id 16 = true) (h : Written J own frame) : isReplyTo id frame = (own == id) := by
  rw [Bool.eq_iff_iff, beq_iff_eq]
  constructor
  · intro hreply
    exact eq_of_isReplyTo hown hid (isReplyTo_of_written hJ hown h) hreply
  · rintro rfl
    exact isReplyTo_of_written hJ hown h

theorem requestIn_of_requestFrom {root : Json} (h : srv.requestFrom J conn e = some root) :
    ∃ s bytes, requestIn J s bytes = some root := by
  cases e with
  | frame c bytes r =>
    rw [requestFrom_frame] at h
    split at h
    · obtain ⟨s, -, hrequest⟩ := Option.bind_eq_some_iff.mp h
      split at hrequest
      · exact ⟨s, bytes, hrequest⟩
      · exact absurd hrequest (by simp)
    · exact absurd h (by simp)
  | accept | push | leave | teardown | attach | pumpStep | drain => exact absurd h (by simp [Server.requestFrom])

theorem isHex_of_requestFrom {root : Json} (h : srv.requestFrom J conn e = some root) : isHex (jstr root "id") 16 = true := by
  obtain ⟨s, bytes, hrequest⟩ := requestIn_of_requestFrom h
  exact isHex_of_requestIn hrequest

theorem loadb_of_requestFrom {root : Json} (h : srv.requestFrom J conn e = some root) :
    ∃ bytes, J.loadb bytes = some root := by
  obtain ⟨s, bytes, hrequest⟩ := requestIn_of_requestFrom h
  unfold requestIn at hrequest
  split at hrequest
  · exact ⟨bytes, (Option.filter_eq_some_iff.mp (Option.filter_eq_some_iff.mp hrequest).1).1⟩
  · exact absurd hrequest (by simp)

/-- The requests of an event and the commands that waited are its replies and the commands that wait. -/
theorem Turn.balance (hJ : J.Prints numeral) (hid : isHex id 16 = true)
    (h : Turn cfg J conn srv e (srv.step cfg J rng e).1 (srv.step cfg J rng e).2) :
    asked J conn id srv e + waiting conn id srv =
      replies cfg J rng conn id srv e + waiting conn id (srv.step cfg J rng e).1 := by
  unfold asked replies waiting
  cases h with
  | idle request sent hwaiting =>
    have hnone : (sentTo conn (srv.step cfg J rng e).2).countP (isReplyTo id) = 0 := by
      rw [List.countP_eq_zero]
      intro frame hframe
      rw [sent frame hframe id]
      exact Bool.false_ne_true
    rw [request, hnone, hwaiting.countP_eq]
    rfl
  | answered root frame request sent written fits hwaiting =>
    have hreply := isReplyTo_eq_of_written hJ (isHex_of_requestFrom request) hid written
    rw [request, sent, hwaiting, List.countP_singleton, hreply, Option.any_some]
  | admitted root cmd request sent known requestId hwaiting =>
    rw [request, sent, hwaiting.countP_eq, List.countP_cons, requestId, Option.any_some, List.countP_nil]
    omega
  | replied cmd frame request sent fits hex hwaiting =>
    have hreply := isReplyTo_eq_of_written hJ hex hid fits.1
    rw [request, sent, hwaiting.countP_eq, List.countP_cons, List.countP_singleton, hreply, Option.any_none,
      if_neg Bool.false_ne_true]
    omega

/-- Of the replies of an event those do not fit that quote an unknown method at length. -/
theorem Turn.fitting (hJ : J.Prints numeral) (hid : isHex id 16 = true)
    (h : Turn cfg J conn srv e (srv.step cfg J rng e).1 (srv.step cfg J rng e).2) :
    replies cfg J rng conn id srv e = fittingReplies cfg J rng conn id srv e + askedOverlong cfg J conn id srv e := by
  unfold replies fittingReplies askedOverlong
  cases h with
  | idle request sent hwaiting =>
    have hnone : ∀ p : String → Bool, (sentTo conn (srv.step cfg J rng e).2).countP (fun frame => isReplyTo id frame && p frame) = 0 := by
      intro p
      rw [List.countP_eq_zero]
      intro frame hframe
      rw [sent frame hframe id]
      exact Bool.false_ne_true
    have hreplies := hnone fun _ => true
    simp only [Bool.and_true] at hreplies
    rw [request, hreplies, hnone]
    rfl
  | answered root frame request sent written fits hwaiting =>
    have hreply := isReplyTo_eq_of_written hJ (isHex_of_requestFrom request) hid written
    rw [request, sent, List.countP_singleton, List.countP_singleton, hreply, Option.any_some]
    by_cases hown : jstr root "id" = id
    · rw [beq_iff_eq.mpr hown, Bool.true_and, Bool.true_and]
      rcases hlong : overlong cfg root with _ | _
      · simp [fits.mpr hlong]
      · have hover : ¬ frame.utf8ByteSize ≤ cfg.maxFrameBytes := fun hle => by
          rw [fits.mp hle] at hlong
          exact Bool.false_ne_true hlong
        simp [hover]
    · simp [hown]
  | admitted root cmd request sent known requestId hwaiting =>
    rw [request, sent, Option.any_some, known, Bool.and_false]
    rfl
  | replied cmd frame request sent fits hex hwaiting =>
    rw [request, sent, List.countP_singleton, List.countP_singleton, decide_eq_true fits.2, Bool.and_true]
    rfl

end balance

section run
variable (cfg : ServiceConfig) (J : Jansson) (rng : Entropy) (es : List Event) (k : ℕ) (conn : ℕ) (id : String)

/-- What the events before index `k` add up to. -/
def totalAt (measure : Server → Event → ℕ) : ℕ := Trace.total (Server.step cfg J rng) {} es measure k

/-- Every request of the connection under the id has one reply, which fits a frame, or its command waits; and there is no
other reply. -/
def AnsweredOnce : Prop :=
  totalAt cfg J rng es k (fittingReplies cfg J rng conn id) + waiting conn id (stateAt cfg J rng es k) =
      totalAt cfg J rng es k (asked J conn id) ∧
    totalAt cfg J rng es k (replies cfg J rng conn id) = totalAt cfg J rng es k (fittingReplies cfg J rng conn id)

end run

section run
variable {es : List Event} {k conn : ℕ} {id : String} (hJ : J.Prints numeral) (hroom : Roomy cfg rng)
  (hnul : ∀ bytes root key, J.loadb bytes = some root → '\x00' ∉ (jstr (some root) key).toList)
  (hanswers : ∀ j e, es[j]? = some e → (stateAt cfg J rng es j).Answerable J e)
include hJ hroom hnul hanswers

theorem sound_stateAt (k : ℕ) : (stateAt cfg J rng es k).Sound J :=
  Trace.stable (Nat.zero_le k) Server.sound_start fun j _ _ he hsound => hsound.step hJ hroom hnul (hanswers j _ he)

/-- While a connection has a session, each event of its run is a turn. -/
theorem turn_stateAt (hsession : ((stateAt cfg J rng es k).session? conn).isSome) {j : ℕ} {e : Event} (hj : j < k)
    (he : es[j]? = some e) :
    Turn cfg J conn (stateAt cfg J rng es j) e (Server.step cfg J rng (stateAt cfg J rng es j) e).1
      (Server.step cfg J rng (stateAt cfg J rng es j) e).2 := by
  apply Server.turn hJ hroom hnul (sound_stateAt hJ hroom hnul hanswers j) (hanswers j e he)
  intro hgone
  have hnext : (stateAt cfg J rng es (j + 1)).Gone conn := by
    rw [stateAt_succ he]
    exact hgone
  have hlast : (stateAt cfg J rng es k).Gone conn :=
    Trace.stable (P := fun srv => Server.Gone srv conn) hj hnext fun _ e _ _ h => h.step (Server.step_cases cfg J rng _ e)
  rw [hlast.2] at hsession
  exact Bool.false_ne_true hsession

/-- No request is dropped, and none is answered twice. -/
theorem requests_balance (hid : isHex id 16 = true) (hsession : ((stateAt cfg J rng es k).session? conn).isSome) :
    totalAt cfg J rng es k (asked J conn id) =
      totalAt cfg J rng es k (replies cfg J rng conn id) + waiting conn id (stateAt cfg J rng es k) :=
  Trace.balanced rfl fun _ _ hj he => (turn_stateAt hJ hroom hnul hanswers hsession hj he).balance hJ hid

/-- The replies are those that fit and those that quote an unknown method at length. -/
theorem replies_split (hid : isHex id 16 = true) (hsession : ((stateAt cfg J rng es k).session? conn).isSome) :
    totalAt cfg J rng es k (replies cfg J rng conn id) =
      totalAt cfg J rng es k (fittingReplies cfg J rng conn id) + totalAt cfg J rng es k (askedOverlong cfg J conn id) :=
  Trace.total_add fun _ _ hj he => (turn_stateAt hJ hroom hnul hanswers hsession hj he).fitting hJ hid

/-- Every request is answered once by a reply that fits exactly if none names an unknown method whose quotation does
not. -/
theorem answered_once_iff (hid : isHex id 16 = true) (hsession : ((stateAt cfg J rng es k).session? conn).isSome) :
    AnsweredOnce cfg J rng es k conn id ↔
      ∀ j e root, j < k → es[j]? = some e → (stateAt cfg J rng es j).requestFrom J conn e = some root →
        jstr root "id" = id → overlong cfg root = false := by
  have hbalance := requests_balance hJ hroom hnul hanswers hid hsession
  have hsplit := replies_split hJ hroom hnul hanswers hid hsession
  have hzero : AnsweredOnce cfg J rng es k conn id ↔ totalAt cfg J rng es k (askedOverlong cfg J conn id) = 0 := by
    unfold AnsweredOnce
    omega
  rw [hzero]
  refine (Trace.total_eq_zero_iff k).trans ⟨fun h j e root hj he hrequest hown => ?_, fun h j e hj he => ?_⟩
  · have hnot := h j e hj he
    unfold askedOverlong at hnot
    have hrequest : (Trace.stateAt (Server.step cfg J rng) {} es j).requestFrom J conn e = some root := hrequest
    rw [hrequest, Option.any_some, beq_iff_eq.mpr hown, Bool.true_and] at hnot
    simpa using hnot
  · unfold askedOverlong
    rw [if_neg]
    intro hany
    obtain ⟨root, hrequest, hboth⟩ := (Option.any_eq_true _ _).mp hany
    obtain ⟨hown, hlong⟩ := Bool.and_eq_true_iff.mp hboth
    rw [h j e root hj he hrequest (beq_iff_eq.mp hown)] at hlong
    exact Bool.false_ne_true hlong

end run

/-! ### A bench codec -/

theorem stringBytes_append (a b : String) : stringBytes (a ++ b) = stringBytes a ++ stringBytes b := by
  have hbytes : ∀ s : String, stringBytes s = s.toList.flatMap String.utf8EncodeChar := by
    intro s
    rw [← stringBytes_ofList, String.ofList_toList]
  rw [hbytes, hbytes, hbytes, String.toList_append, List.flatMap_append]

def benchNumeral (_ : Double) : String := "0.0"

/-- Writes as jansson does, and reads these frames; nothing that was recorded is read back. -/
def printingJansson (values : List Json) : Jansson where
  loadb bytes := values.find? fun v => stringBytes (jsonText benchNumeral v) == bytes
  loads _ := none
  dumps v := some (jsonText benchNumeral v)
  dumpsSorted v := some (jsonText benchNumeral v)

theorem printingJansson_prints (values : List Json) : (printingJansson values).Prints benchNumeral where
  text _ _ h := (Option.some.inj h).symm
  error _ _ _ _ _ _ _ := rfl
  reads _ _ _ _ h := absurd h (by simp [printingJansson])

/-- The client sends a frame. -/
def clientFrame (v : Json) (nowMs : Int) : Event := .frame 1 (stringBytes (jsonText benchNumeral v)) ⟨1, nowMs, nowMs⟩

def methodEntropy : Entropy where
  randomHex := benchEntropy.randomHex
  uuid4 _ := "00000000-0000-4000-8000-000000000000"

theorem roomy_bench : Roomy benchConfig methodEntropy where
  room := by decide
  word := by decide
  ttl := by decide
  uuid _ := show "00000000-0000-4000-8000-000000000000".utf8ByteSize ≤ 36 by decide

def methodRequest (method : String) : Json :=
  .object [("kind", .string "req"), ("id", .string "00000000000000b1"), ("method", .string method),
    ("deadlineMs", .integer 5000), ("payload", .object [])]

def methodJansson (method : String) : Jansson := printingJansson [benchHello, benchAuth, methodRequest method]

/-- A client pairs and asks for a method, and then other things happen. -/
def methodEvents (method : String) (rest : List Event) : List Event :=
  .accept true :: clientFrame benchHello 0 :: clientFrame benchAuth 1 :: clientFrame (methodRequest method) 2 :: rest

section method
variable (method : String) (rest : List Event)

theorem methodEvents_ready : stateAt benchConfig (methodJansson method) methodEntropy (methodEvents method rest) 3 =
    { sessions := [{ id := 1, state := .ready, authed := true }], nextConnectionId := 2, shared := { nonceDraws := 1 } } := by
  let s : Session := { id := 1, state := .expectAuth, nonce := benchEntropy.randomHex 0 }
  have hchallenged : stateAt benchConfig (methodJansson method) methodEntropy (methodEvents method rest) 2 =
      { sessions := [s], nextConnectionId := 2, shared := { nonceDraws := 1 } } := rfl
  have hroot : decodeFrame (methodJansson method) (stringBytes (jsonText benchNumeral benchAuth)) = some benchAuth := rfl
  rw [stateAt_succ (k := 2) (e := clientFrame benchAuth 1) rfl, hchallenged]
  exact receive_accepted (s := s) rfl rfl rfl hroot (by decide) (by decide) bench_hmac

theorem jsonText_methodRequest : jsonText benchNumeral (methodRequest method) =
    "\x7b\"kind\":\"req\",\"id\":\"00000000000000b1\",\"method\":\"" ++ escapeText method ++
      "\",\"deadlineMs\":5000,\"payload\":\x7b\x7d\x7d" := by
  have hkey : ∀ key ∈ ["kind", "req", "id", "00000000000000b1", "method", "deadlineMs", "payload"],
      escapeText key = key := by decide
  simp only [List.mem_cons, List.not_mem_nil, or_false, forall_eq_or_imp, forall_eq] at hkey
  have hdeadline : toString (5000 : ℤ) = "5000" := by decide
  simp only [methodRequest, jsonText, membersText, hkey, hdeadline]
  apply String.toList_inj.mp
  simp [String.toList_append]

/-- The request is not misread. -/
theorem loadb_methodRequest : (methodJansson method).loadb (stringBytes (jsonText benchNumeral (methodRequest method))) =
    some (methodRequest method) := by
  have htake : (stringBytes (jsonText benchNumeral (methodRequest method))).take 10 = stringBytes "\x7b\"kind\":\"r" := by
    rw [jsonText_methodRequest, stringBytes_append, stringBytes_append, List.append_assoc,
      List.take_append_of_le_length (by decide)]
    decide
  have hother : ∀ v, (stringBytes (jsonText benchNumeral v)).take 10 ≠ stringBytes "\x7b\"kind\":\"r" →
      (stringBytes (jsonText benchNumeral v) == stringBytes (jsonText benchNumeral (methodRequest method))) = false := by
    intro v hv
    rw [beq_eq_false_iff_ne]
    intro heq
    rw [heq, htake] at hv
    exact hv rfl
  unfold methodJansson printingJansson
  dsimp only
  rw [List.find?_cons, hother benchHello (by decide), List.find?_cons, hother benchAuth (by decide), List.find?_cons, beq_self_eq_true]

theorem decodeFrame_methodRequest (hsize : method.utf8ByteSize ≤ limitJsonMaxStringBytes) :
    decodeFrame (methodJansson method) (stringBytes (jsonText benchNumeral (methodRequest method))) =
      some (methodRequest method) := by
  unfold decodeFrame
  rw [loadb_methodRequest, Option.filter_some, if_pos]
  unfold checkJsonLimits
  have hkey : ∀ key ∈ ["kind", "id", "method", "deadlineMs", "payload"], ¬ strlen key > limitJsonMaxStringBytes := by decide
  simp only [List.mem_cons, List.not_mem_nil, or_false, forall_eq_or_imp, forall_eq] at hkey
  have hkind : ("req".utf8ByteSize ≤ limitJsonMaxStringBytes) ∧ "00000000000000b1".utf8ByteSize ≤ limitJsonMaxStringBytes := by decide
  simp [methodRequest, checkRec, checkMembers, hkey, hkind, hsize]
  decide
theorem requestFrom_methodRequest (hsize : method.utf8ByteSize ≤ limitJsonMaxStringBytes) :
    (stateAt benchConfig (methodJansson method) methodEntropy (methodEvents method rest) 3).requestFrom (methodJansson method) 1
      (clientFrame (methodRequest method) 2) = some (methodRequest method) := by
  have hrequest : requestIn (methodJansson method) { id := 1, state := .ready, authed := true }
      (stringBytes (jsonText benchNumeral (methodRequest method))) = some (methodRequest method) := by
    unfold requestIn
    rw [if_pos rfl, decodeFrame_methodRequest method hsize, Option.filter_some, if_pos]
    have hkind : jstr (some (methodRequest method)) "kind" = "req" := rfl
    have hid : jstr (some (methodRequest method)) "id" = "00000000000000b1" := rfl
    rw [hkind, hid]
    decide
  rw [methodEvents_ready]
  exact hrequest

/-- No string of the bench frames has a NUL in it. -/
theorem no_nul_methodJansson (hnul : '\x00' ∉ method.toList) (bytes : List UInt8) (root : Json) (key : String)
    (h : (methodJansson method).loadb bytes = some root) : '\x00' ∉ (jstr (some root) key).toList := by
  have hmembers : ∀ members : List (String × Json), (∀ m ∈ members, ∀ s, m.2 = .string s → '\x00' ∉ s.toList) →
      '\x00' ∉ (jstr (some (.object members)) key).toList := by
    intro members hstrings
    unfold jstr Json.stringOr
    split
    · next s hs =>
      obtain ⟨before, after, heq, -⟩ := List.lookup_eq_some_iff.mp hs
      refine hstrings (key, .string s) ?_ s rfl
      rw [heq]
      exact List.mem_append_right before List.mem_cons_self
    · exact List.not_mem_nil
  have hmem : root = benchHello ∨ root = benchAuth ∨ root = methodRequest method := by
    simpa using List.mem_of_find?_eq_some h
  obtain rfl | rfl | rfl := hmem
  · exact hmembers _ (by simp)
  · exact hmembers _ (by simp)
  · refine hmembers _ ?_
    simp [hnul]

end method

/-! ### A method that is too long to quote -/

/-- Control characters, of which each takes six bytes in a string of JSON. -/
def controlMethod : String := String.ofList (List.replicate 174740 '\x01')

theorem size_escapeText_replicate (n : ℕ) : (escapeText (String.ofList (List.replicate n '\x01'))).utf8ByteSize = 6 * n := by
  unfold escapeText
  rw [String.toList_ofList]
  have hescape : (escapeChar '\x01').utf8ByteSize = 6 := by decide
  induction n with
  | zero => rfl
  | succ n ih =>
    rw [List.replicate_succ, escapeChars, String.utf8ByteSize_append, hescape, ih]
    omega

theorem size_replicate (n : ℕ) : (String.ofList (List.replicate n '\x01')).utf8ByteSize = n := by
  induction n with
  | zero => rfl
  | succ n ih =>
    have hsize : '\x01'.utf8Size = 1 := by decide
    rw [List.replicate_succ, String.ofList_cons, String.utf8ByteSize_append, String.utf8ByteSize_singleton, hsize, ih]
    omega

theorem find?_controlMethod : methodSpecs.find? (·.method == controlMethod) = none := by
  rw [List.find?_eq_none]
  intro spec hspec heq
  have hknown : ∀ spec ∈ methodSpecs, spec.method.utf8ByteSize ≤ 40 := by decide
  have hsize := hknown spec hspec
  have hcontrol : controlMethod.utf8ByteSize = 174740 := size_replicate 174740
  rw [beq_iff_eq.mp heq] at hsize
  omega

theorem overlong_controlMethod : overlong benchConfig (methodRequest controlMethod) = true := by
  have hmethod : jstr (some (methodRequest controlMethod)) "method" = controlMethod := rfl
  have hsize : (escapeText controlMethod).utf8ByteSize = 6 * 174740 := size_escapeText_replicate 174740
  have hmax : benchConfig.maxFrameBytes = 1048576 := rfl
  unfold overlong
  rw [hmethod, find?_controlMethod, hsize, hmax]
  decide

/-- The request fits a frame, and its reply does not. -/
theorem controlMethod_not_answered :
    (jsonText benchNumeral (methodRequest controlMethod)).utf8ByteSize ≤ benchConfig.maxFrameBytes ∧
      ¬ AnsweredOnce benchConfig (methodJansson controlMethod) methodEntropy (methodEvents controlMethod []) 4 1
        "00000000000000b1" := by
  have hcontrol : controlMethod.utf8ByteSize = 174740 := size_replicate 174740
  constructor
  · have hsize : (escapeText controlMethod).utf8ByteSize = 6 * 174740 := size_escapeText_replicate 174740
    have hhead : "\x7b\"kind\":\"req\",\"id\":\"00000000000000b1\",\"method\":\"".utf8ByteSize = 48 := by decide
    have htail : "\",\"deadlineMs\":5000,\"payload\":\x7b\x7d\x7d".utf8ByteSize = 33 := by decide
    have hmax : benchConfig.maxFrameBytes = 1048576 := rfl
    rw [jsonText_methodRequest, String.utf8ByteSize_append, String.utf8ByteSize_append, hsize, hhead, htail, hmax]
    omega
  · rintro ⟨hanswered, hreplies⟩
    have hid : isHex "00000000000000b1" 16 = true := by decide
    have hnul : '\x00' ∉ controlMethod.toList := by
      unfold controlMethod
      rw [String.toList_ofList]
      exact fun hmem => absurd (List.eq_of_mem_replicate hmem) (by decide)
    have hanswers : ∀ j e, (methodEvents controlMethod [])[j]? = some e →
        (stateAt benchConfig (methodJansson controlMethod) methodEntropy (methodEvents controlMethod []) j).Answerable
          (methodJansson controlMethod) e := by
      intro j e he
      have hmem := List.mem_of_getElem? he
      simp only [methodEvents, List.mem_cons, List.not_mem_nil, or_false] at hmem
      obtain rfl | rfl | rfl | rfl := hmem <;> trivial
    have hsession : ((stateAt benchConfig (methodJansson controlMethod) methodEntropy (methodEvents controlMethod []) 4).session?
        1).isSome := by
      rw [stateAt_succ (k := 3) (e := clientFrame (methodRequest controlMethod) 2) rfl]
      refine (Server.step_cases _ _ _ _ _).session_isSome (fun client => Event.noConfusion) ?_
      rw [methodEvents_ready]
      rfl
    have hJ : (methodJansson controlMethod).Prints benchNumeral := printingJansson_prints _
    have hsplit := replies_split hJ roomy_bench (no_nul_methodJansson controlMethod hnul) hanswers hid
      hsession
    have hzero : totalAt benchConfig (methodJansson controlMethod) methodEntropy (methodEvents controlMethod []) 4
        (askedOverlong benchConfig (methodJansson controlMethod) 1 "00000000000000b1") = 0 := by omega
    have hbalance := requests_balance hJ roomy_bench (no_nul_methodJansson controlMethod hnul) hanswers hid hsession
    have hasked := (Trace.total_eq_zero_iff 4).mp hzero 3 _ (by decide) rfl
    have hrequest := requestFrom_methodRequest controlMethod [] (by rw [hcontrol]; decide)
    have hone : askedOverlong benchConfig (methodJansson controlMethod) 1 "00000000000000b1"
        (stateAt benchConfig (methodJansson controlMethod) methodEntropy (methodEvents controlMethod []) 3)
        (clientFrame (methodRequest controlMethod) 2) = 1 := by
      have hown : jstr (some (methodRequest controlMethod)) "id" = "00000000000000b1" := rfl
      unfold askedOverlong
      rw [hrequest, Option.any_some, hown, overlong_controlMethod]
      rfl
    exact Nat.one_ne_zero (hone.symm.trans hasked)

/-! ### A method that is known -/

def statusJansson : Jansson := methodJansson "status.get"

def statusAnswers : RackAnswers where
  frame _ := .ok (buildResOk statusJansson "00000000000000b1" none)
  txn _ := .error .nonStandard
  patchFile _ := .error .nonStandard

/-- The status is asked for, and the pump answers. -/
def statusEvents : List Event :=
  methodEvents "status.get" [.attach true, .push 1 3, .pumpStep 4, .drain ⟨4, 5, 5, ⟨5, 6⟩⟩ statusAnswers]

def statusCommand : BridgeCommand :=
  ⟨1, "00000000000000b1", "status.get", "", .object [], 5002, false, ""⟩

theorem statusEvents_queued : stateAt benchConfig statusJansson methodEntropy statusEvents 7 =
    { sessions := [{ id := 1, state := .ready, authed := true }], nextConnectionId := 2, shared := { nonceDraws := 1 },
      commandQueue := [statusCommand],
      pumpAttached := true, pump := some ⟨4, 0⟩ } := by
  exact (Trace.stateAt_drop 3 4 (methodEvents_ready "status.get" _)).trans rfl

theorem status_answered_once : AnsweredOnce benchConfig statusJansson methodEntropy statusEvents 8 1 "00000000000000b1" := by
  have hJ : statusJansson.Prints benchNumeral := printingJansson_prints _
  have hanswers : ∀ j e, statusEvents[j]? = some e →
      (stateAt benchConfig statusJansson methodEntropy statusEvents j).Answerable statusJansson e := by
    intro j e he
    by_cases hj : j = 7
    · rw [hj] at he ⊢
      obtain rfl := Option.some.inj he
      rw [statusEvents_queued]
      intro cmd rest hqueue
      obtain ⟨rfl, -⟩ := List.cons.inj hqueue
      refine ⟨⟨fun _ frame hframe => .inl ⟨none, (Except.ok.inj hframe).symm⟩, fun root hroot => ?_⟩, by decide +kernel⟩
      exact absurd hroot List.not_mem_nil
    · have hsplit : statusEvents = methodEvents "status.get" [.attach true, .push 1 3, .pumpStep 4] ++
          [Event.drain ⟨4, 5, 5, ⟨5, 6⟩⟩ statusAnswers] := rfl
      have hlt : j < 8 := (List.getElem?_eq_some_iff.mp he).1
      have hlength : (methodEvents "status.get" [.attach true, .push 1 3, .pumpStep 4]).length = 7 := rfl
      rw [hsplit, List.getElem?_append_left (by omega)] at he
      have hquiet := List.mem_of_getElem? he
      simp only [methodEvents, List.mem_cons, List.not_mem_nil, or_false] at hquiet
      obtain rfl | rfl | rfl | rfl | rfl | rfl | rfl := hquiet <;> trivial
  have hsession : ((stateAt benchConfig statusJansson methodEntropy statusEvents 8).session? 1).isSome := by
    rw [stateAt_succ (k := 7) (e := .drain ⟨4, 5, 5, ⟨5, 6⟩⟩ statusAnswers) rfl]
    refine (Server.step_cases _ _ _ _ _).session_isSome (fun client => Event.noConfusion) ?_
    rw [statusEvents_queued]
    rfl
  refine (answered_once_iff hJ roomy_bench (no_nul_methodJansson "status.get" (by decide)) hanswers (by decide) hsession).mpr ?_
  intro j e root hj he hrequest hown
  obtain ⟨bytes, hloaded⟩ := loadb_of_requestFrom hrequest
  have hmem : root = benchHello ∨ root = benchAuth ∨ root = methodRequest "status.get" := by
    simpa using List.mem_of_find?_eq_some hloaded
  obtain rfl | rfl | rfl := hmem <;> decide

end RackMcp
