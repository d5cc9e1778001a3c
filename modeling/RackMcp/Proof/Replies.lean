import RackMcp.Proof.ReplyFrames
import RackMcp.Proof.SessionStep

/-!
# The replies of the reader

`Taken` is what a session makes of a frame: it holds no request, or the request is answered, or its command waits to be
pushed (`taken_handleFrame`). An answer fits a frame but for the one that quotes an unknown method at a length where it no
longer does (`overlong`).
-/

namespace RackMcp

open Gen

variable {cfg : ServiceConfig} {J : Jansson} {rng : Entropy} {numeral : Double → String}

/-! ### Short texts -/

/-- The configuration holds machine words and leaves room for a short frame; a UUID has 36 bytes. -/
structure Roomy (cfg : ServiceConfig) (rng : Entropy) : Prop where
  room : 2048 ≤ cfg.maxFrameBytes
  word : cfg.maxFrameBytes < 10 ^ 20
  ttl : cfg.leaseTtlMs.natAbs < 10 ^ 19
  uuid : ∀ n, (rng.uuid4 n).utf8ByteSize ≤ 36

/-- The texts of the lease are short. -/
structure LeaseHolder.Short (h : LeaseHolder) : Prop where
  clientName : h.clientName.utf8ByteSize ≤ 128
  leaseId : h.leaseId.utf8ByteSize ≤ 36

theorem size_truncateUtf8 (s : String) (maxBytes : ℕ) : (truncateUtf8 s maxBytes).utf8ByteSize ≤ maxBytes := by
  have hfits : ∀ (chars : List Char) (room : ℕ), (String.ofList (truncateUtf8.fits room chars)).utf8ByteSize ≤ room := by
    intro chars
    induction chars with
    | nil => exact fun room => Nat.zero_le room
    | cons c rest ih =>
      intro room
      unfold truncateUtf8.fits
      split
      · next hc =>
        have hrest := ih (room - c.utf8Size)
        rw [String.ofList_cons, String.utf8ByteSize_append, String.utf8ByteSize_singleton]
        omega
      · exact Nat.zero_le room
  exact hfits _ _

theorem short_default : LeaseHolder.Short {} := ⟨by decide, by decide⟩

section lease
variable {h : LeaseHolder} {conn : ℕ} {nowMs ttlMs : ℤ} {clientName leaseId uuid : String}

theorem LeaseHolder.Short.holder (hs : h.Short) (nowMs : ℤ) : (h.holder nowMs).Short := by
  unfold LeaseHolder.holder
  split
  · exact ⟨hs.clientName, hs.leaseId⟩
  · exact hs

/-- Both the holder after an acquire and the id it hands out are short. -/
theorem LeaseHolder.Short.acquire (hs : h.Short) (conn : ℕ) (nowMs ttlMs : ℤ) (hname : clientName.utf8ByteSize ≤ 128) (huuid : uuid.utf8ByteSize ≤ 36) :
    (h.acquire conn nowMs ttlMs clientName uuid).2.Short ∧
      ∀ leaseId, (h.acquire conn nowMs ttlMs clientName uuid).1 = .ok leaseId → leaseId.utf8ByteSize ≤ 36 := by
  obtain heq | ⟨-, heq⟩ | ⟨-, heq⟩ := h.acquire_cases conn nowMs ttlMs clientName uuid
  · rw [heq]
    exact ⟨hs, fun leaseId hok => by simp at hok⟩
  · rw [heq]
    refine ⟨⟨hs.clientName, hs.leaseId⟩, fun leaseId hok => ?_⟩
    obtain rfl := AcquireResult.ok.inj hok
    exact hs.leaseId
  · rw [heq]
    refine ⟨⟨hname, huuid⟩, fun leaseId hok => ?_⟩
    obtain rfl := AcquireResult.ok.inj hok
    exact huuid

theorem LeaseHolder.Short.renew (hs : h.Short) (conn : ℕ) (leaseId : String) (nowMs ttlMs : ℤ) : (h.renew conn leaseId nowMs ttlMs).2.Short := by
  unfold LeaseHolder.renew
  split_ifs
  · exact hs
  · exact hs
  · exact ⟨hs.clientName, hs.leaseId⟩

theorem LeaseHolder.Short.release (hs : h.Short) : (h.release conn leaseId).2.Short := by
  unfold LeaseHolder.release
  split_ifs
  · exact hs
  · exact short_default

theorem LeaseHolder.Short.onDisconnect (hs : h.Short) : (h.onDisconnect conn).Short := by
  unfold LeaseHolder.onDisconnect
  split_ifs
  · exact short_default
  · exact hs

end lease

/-! ### The replies of the reader -/

/-- A reply to the id that fits a frame. -/
def Fits (cfg : ServiceConfig) (J : Jansson) (id frame : String) : Prop :=
  Written J id frame ∧ frame.utf8ByteSize ≤ cfg.maxFrameBytes

section frames
variable {id : String}

/-- An error fits whose text has at most three hundred bytes. -/
theorem fits_buildResError (hJ : J.Prints numeral) (hroom : Roomy cfg rng) (hid : isHex id 16 = true) {code : ErrorCode}
    {message : String} {retrySafe mayHave : Bool} (hmessage : message.utf8ByteSize ≤ 300) :
    Fits cfg J id (buildResError J id code message retrySafe mayHave) := by
  have hsize := size_buildResError hJ hid code message retrySafe mayHave
  have hmax := hroom.room
  exact ⟨written_buildResError hJ hid code message retrySafe mayHave, by omega⟩

/-- A success fits whose payload is short. -/
theorem fits_buildResOk (hJ : J.Prints numeral) (hroom : Roomy cfg rng) (hid : isHex id 16 = true)
    {payload : Option Json} (hpayload : (jsonText numeral (payload.getD (.object []))).utf8ByteSize ≤ 500) :
    Fits cfg J id (buildResOk J id payload) := by
  refine ⟨written_buildResOk hJ hid payload, ?_⟩
  have hmax := hroom.room
  unfold buildResOk
  rcases hdumps : J.dumps (.object (resOk id payload)) with _ | text
  · have herror := size_jsonText_resError numeral hid .internal "response encoding failed" false true
    have hmessage : (escapeText "response encoding failed").utf8ByteSize = 24 := by decide
    have hcode : (errorCodeToString .internal).utf8ByteSize = 8 := by decide
    rw [Option.getD_none, resInternalError_eq numeral hid, herror, hcode, hmessage]
    simp
    omega
  · have hkey : ∀ key ∈ ["kind", "res", "id", "ok", "payload"], escapeText key = key := by decide
    simp only [List.mem_cons, List.not_mem_nil, or_false, forall_eq_or_imp, forall_eq] at hkey
    have htext : jsonText numeral (.object (resOk id payload)) = "\x7b\"kind\":\"res\",\"id\":\"" ++ id ++
        "\",\"ok\":true,\"payload\":" ++ jsonText numeral (payload.getD (.object [])) ++ "\x7d" := by
      simp only [resOk, jsonText, membersText, hkey, escapeText_of_isHex hid]
      apply String.toList_inj.mp
      simp [String.toList_append]
    have h₁ : "\x7b\"kind\":\"res\",\"id\":\"".utf8ByteSize = 20 := by decide
    have h₂ : "\",\"ok\":true,\"payload\":".utf8ByteSize = 22 := by decide
    have h₃ : "\x7d".utf8ByteSize = 1 := by decide
    rw [Option.getD_some, hJ.text _ _ hdumps, htext]
    simp only [String.utf8ByteSize_append, h₁, h₂, h₃, size_of_isHex hid]
    omega

/-- Every lease method is answered by a reply that fits, and the lease stays short. -/
theorem handleLeaseRequest_fits (hJ : J.Prints numeral) (hroom : Roomy cfg rng) (hid : isHex id 16 = true) {sh : Shared}
    (hshort : sh.leases.Short) (conn : ℕ) (method : String) (payload : Option Json) (nowMs : ℤ) :
    (handleLeaseRequest cfg J rng sh conn id method payload nowMs).1.leases.Short ∧
      Fits cfg J id (handleLeaseRequest cfg J rng sh conn id method payload nowMs).2 := by
  have hkey : escapeText "leaseId" = "leaseId" ∧ escapeText "expiresInMs" = "expiresInMs" := by decide
  have hlease : "\x7b\"leaseId\":\"".utf8ByteSize = 12 ∧ "\",\"expiresInMs\":".utf8ByteSize = 16 ∧ "\x7d".utf8ByteSize = 1 ∧
      "\x7b\"expiresInMs\":".utf8ByteSize = 15 := by decide
  have httl := size_toString_int hroom.ttl
  have hrenewed : (jsonText numeral (.object [("expiresInMs", .integer cfg.leaseTtlMs)])).utf8ByteSize ≤ 500 := by
    have htext : jsonText numeral (.object [("expiresInMs", .integer cfg.leaseTtlMs)]) =
        "\x7b\"expiresInMs\":" ++ toString cfg.leaseTtlMs ++ "\x7d" := by
      simp only [jsonText, membersText, hkey]
      apply String.toList_inj.mp
      simp [String.toList_append]
    rw [htext]
    simp only [String.utf8ByteSize_append, hlease]
    omega
  unfold handleLeaseRequest
  dsimp only
  split
  · have hname := size_truncateUtf8 (jstr payload "clientName" "unknown") 128
    obtain ⟨hnext, hissued⟩ := hshort.acquire conn nowMs cfg.leaseTtlMs hname (hroom.uuid sh.uuidDraws)
    split
    · next leaseId leases hacquire =>
      rw [hacquire] at hnext hissued
      refine ⟨hnext, fits_buildResOk hJ hroom hid ?_⟩
      have htext : jsonText numeral (.object [("leaseId", .string leaseId), ("expiresInMs", .integer cfg.leaseTtlMs)]) =
          "\x7b\"leaseId\":\"" ++ escapeText leaseId ++ "\",\"expiresInMs\":" ++ toString cfg.leaseTtlMs ++ "\x7d" := by
        simp only [jsonText, membersText, hkey]
        apply String.toList_inj.mp
        simp [String.toList_append]
      have hescape := escapeText_size leaseId
      have hleaseId := hissued leaseId rfl
      rw [Option.getD_some, htext]
      simp only [String.utf8ByteSize_append, hlease]
      omega
    · next leases hacquire =>
      rw [hacquire] at hnext
      refine ⟨hnext, fits_buildResError hJ hroom hid ?_⟩
      have hholder := (hshort.holder nowMs).clientName
      have htext : "writer lease held by ".utf8ByteSize = 21 := by decide
      rw [String.utf8ByteSize_append]
      omega
  split
  · have hnext := hshort.renew conn (jstr payload "leaseId") nowMs cfg.leaseTtlMs
    split
    · next leases hrenew =>
      rw [hrenew] at hnext
      exact ⟨hnext, fits_buildResOk hJ hroom hid hrenewed⟩
    · next leases hrenew =>
      rw [hrenew] at hnext
      exact ⟨hnext, fits_buildResError hJ hroom hid (by decide)⟩
  split
  · have hempty : (jsonText numeral (.object [])).utf8ByteSize ≤ 500 := by
      simp only [jsonText, membersText]
      decide
    exact ⟨hshort.release, fits_buildResOk hJ hroom hid hempty⟩
  · exact ⟨hshort, fits_buildResError hJ hroom hid (by decide)⟩

/-- What a declared field can be wrong in is told in few words. -/
theorem size_checkDeclaredFields {spec : MethodSpec} (hspec : spec ∈ methodSpecs) {payload : Option Json} {shape : String}
    (h : checkDeclaredFields spec.method spec.fields payload = some shape) : shape.utf8ByteSize ≤ 300 := by
  -- no method declares an enumeration, so no text of the payload is quoted
  have hspecs : ∀ spec ∈ methodSpecs, spec.method.utf8ByteSize ≤ 40 ∧ ∀ field ∈ spec.fields,
      field.name.utf8ByteSize ≤ 40 ∧ field.jsonType.name.utf8ByteSize ≤ 10 ∧ field.allowed = none := by decide
  obtain ⟨hmethod, hfields⟩ := hspecs spec hspec
  have h₁ : ": payload is not a JSON object".utf8ByteSize = 30 := by decide
  have h₂ : ": missing required field \"".utf8ByteSize = 26 ∧ "\" (declared ".utf8ByteSize = 12 ∧
      ")".utf8ByteSize = 1 := by decide
  have h₃ : ": field \"".utf8ByteSize = 9 ∧ "\" must be ".utf8ByteSize = 10 ∧ ", not ".utf8ByteSize = 6 := by decide
  unfold checkDeclaredFields at h
  split at h
  · rw [← Option.some.inj h, String.utf8ByteSize_append]
    omega
  · obtain ⟨field, hfield, h⟩ := List.exists_of_findSome?_eq_some h
    obtain ⟨hname, htype, hallowed⟩ := hfields field hfield
    unfold checkDeclaredField at h
    split at h
    · rw [← Option.some.inj h]
      simp only [String.utf8ByteSize_append, h₂]
      omega
    · next value hvalue =>
      split at h
      · have hactual : value.actualTypeName.utf8ByteSize ≤ 10 := by
          rcases value with _ | _ | _ | _ | _ | _ | _ <;> simp only [Json.actualTypeName] <;> decide
        rw [← Option.some.inj h]
        simp only [String.utf8ByteSize_append, h₃]
        omega
      · rw [hallowed] at h
        exact absurd h (by simp)

end frames

/-! ### Requests -/

/-- The request in a frame that the session takes: an authenticated session, and a valid id. -/
def requestIn (J : Jansson) (s : Session) (bytes : List UInt8) : Option Json :=
  if s.state = .ready then
    (decodeFrame J bytes).filter fun root => jstr root "kind" == "req" && isHex (jstr root "id") 16
  else none

/-- The method is unknown, and the reply that quotes it does not fit a frame. -/
def overlong (cfg : ServiceConfig) (root : Json) : Bool :=
  (methodSpecs.find? (·.method == jstr root "method")).isNone &&
    cfg.maxFrameBytes < 169 + (escapeText (jstr root "method")).utf8ByteSize

/-- The frames handed to the outbound queues. -/
def sentFrames (effects : List Effect) : List (ℕ × String) :=
  effects.filterMap fun
    | .outbound conn frame => some (conn, frame)
    | _ => none

@[simp] theorem sentFrames_outbound (conn : ℕ) (frames : List String) :
    sentFrames (frames.map (.outbound conn)) = frames.map (Prod.mk conn) := by
  unfold sentFrames
  rw [List.filterMap_map, ← List.filterMap_eq_map]
  rfl

/-- What a session makes of a frame: it holds no request, and no reply is sent; its request is answered; or the command
of its request waits to be pushed. -/
inductive Taken (cfg : ServiceConfig) (J : Jansson) (s : Session) (bytes : List UInt8) (h : Handled) : Prop
  | ignored (request : requestIn J s bytes = none)
      (sent : ∀ sent ∈ sentFrames h.effects, ∀ id, isReplyTo id sent.2 = false)
      (pending : h.session.pending = s.pending)
  | answered (root : Json) (frame : String) (request : requestIn J s bytes = some root)
      (sent : sentFrames h.effects = [(s.id, frame)]) (written : Written J (jstr root "id") frame)
      (fits : frame.utf8ByteSize ≤ cfg.maxFrameBytes ↔ overlong cfg root = false)
      (pending : h.session.pending = s.pending)
  | queued (root : Json) (cmd : BridgeCommand) (request : requestIn J s bytes = some root)
      (sent : sentFrames h.effects = []) (known : overlong cfg root = false)
      (pending : h.session.pending = some cmd) (requestId : cmd.requestId = jstr root "id")
      (connection : cmd.connectionId = s.id)

/-- A frame of another kind is no reply. -/
theorem not_isReplyTo_getD (hJ : J.Prints numeral) {id kind fallback : String} {c : Char} {rest : List Char}
    (hkind : kind.toList = c :: rest) (hc : Unescaped c) (hne : c ≠ 'r') (tail : List (String × Json))
    (hfallback : isReplyTo id fallback = false) :
    isReplyTo id ((J.dumps (.object (("kind", .string kind) :: tail))).getD fallback) = false := by
  rcases hdumps : J.dumps (.object (("kind", .string kind) :: tail)) with _ | text
  · exact hfallback
  · rw [Option.getD_some, hJ.text _ _ hdumps]
    exact not_isReplyTo_of_kind hkind hc hne tail

theorem not_isReplyTo_authResultInternal (id : String) : isReplyTo id authResultInternal = false := by
  rw [← Bool.not_eq_true]
  exact fun hreply => absurd (take_of_isReplyTo hreply) (by decide +kernel)

theorem not_isReplyTo_empty (id : String) : isReplyTo id "" = false := by
  rw [← Bool.not_eq_true]
  exact fun hreply => absurd (take_of_isReplyTo hreply) (by decide)

theorem unescaped_letter {c : Char} (h : 'a' ≤ c) : Unescaped c := by
  have hval : 97 ≤ c.toNat := h
  refine ⟨?_, ?_, by omega⟩
  · rintro rfl
    exact absurd hval (by decide)
  · rintro rfl
    exact absurd hval (by decide)

section taken
variable {sh : Shared} {s : Session} {bytes : List UInt8} {root : Json} {r : FrameReadings}

/-- A frame that holds no request and is answered, if at all, by frames of another kind. -/
theorem Taken.of_frames {h : Handled} (hnone : requestIn J s bytes = none) (conn : ℕ) {frames : List String}
    (hsent : sentFrames h.effects = frames.map (Prod.mk conn)) (hframes : ∀ frame ∈ frames, ∀ id, isReplyTo id frame = false)
    (hpending : h.session.pending = s.pending) : Taken cfg J s bytes h := by
  refine .ignored hnone (fun sent hmem => ?_) hpending
  rw [hsent] at hmem
  obtain ⟨frame, hframe, rfl⟩ := List.mem_map.mp hmem
  exact hframes frame hframe

theorem taken_handleHello (hJ : J.Prints numeral) (hstate : s.state = .expectHello) :
    Taken cfg J s bytes (handleHello cfg J rng r.patchEpoch sh s root) := by
  have hnone : requestIn J s bytes = none := by
    unfold requestIn
    rw [hstate]
    rfl
  have herror : ∀ code message, ∀ frame ∈ [buildAuthError J code message], ∀ id, isReplyTo id frame = false := by
    intro code message frame hframe id
    rw [List.mem_singleton.mp hframe]
    exact not_isReplyTo_getD hJ rfl (unescaped_letter (by decide)) (by decide) _ (not_isReplyTo_authResultInternal id)
  unfold handleHello
  dsimp only
  split
  · exact .of_frames hnone s.id (sentFrames_outbound _ _) (herror _ _) rfl
  · split
    · exact .of_frames hnone s.id (sentFrames_outbound _ _) (herror _ _) rfl
    · refine .of_frames hnone s.id (sentFrames_outbound _ _) (fun frame hframe id => ?_) rfl
      rw [List.mem_singleton.mp hframe]
      exact not_isReplyTo_getD hJ rfl (unescaped_letter (by decide)) (by decide) _ (not_isReplyTo_authResultInternal id)

theorem taken_handleAuth (hJ : J.Prints numeral) (hstate : s.state = .expectAuth) :
    Taken cfg J s bytes (handleAuth cfg J sh s root) := by
  have hnone : requestIn J s bytes = none := by
    unfold requestIn
    rw [hstate]
    rfl
  have hresult : ∀ tail, ∀ frame ∈ [(J.dumps (.object (("kind", .string "authResult") :: tail))).getD authResultInternal],
      ∀ id, isReplyTo id frame = false := by
    intro tail frame hframe id
    rw [List.mem_singleton.mp hframe]
    exact not_isReplyTo_getD hJ rfl (unescaped_letter (by decide)) (by decide) _ (not_isReplyTo_authResultInternal id)
  unfold handleAuth
  dsimp only
  split
  · exact .of_frames hnone s.id rfl (hresult _) rfl
  · exact .of_frames hnone s.id rfl (hresult _) rfl

/-- A reply that fits answers a request that is not overlong. -/
theorem Taken.of_fits {h : Handled} {frame : String} (hrequest : requestIn J s bytes = some root)
    (hknown : overlong cfg root = false) (hsent : sentFrames h.effects = [(s.id, frame)])
    (hfits : Fits cfg J (jstr root "id") frame) (hpending : h.session.pending = s.pending) : Taken cfg J s bytes h :=
  .answered root frame hrequest hsent hfits.1 (iff_of_true hfits.2 hknown) hpending

theorem taken_admitRequest (hJ : J.Prints numeral) (hroom : Roomy cfg rng) (hshort : sh.leases.Short)
    (hrequest : requestIn J s bytes = some root) (hid : isHex (jstr root "id") 16 = true) {spec : MethodSpec}
    (hspec : spec ∈ methodSpecs) (hknown : overlong cfg root = false) (deadlineAtMs : ℤ) :
    Taken cfg J s bytes (admitRequest cfg J rng r sh s root (jstr root "id") spec deadlineAtMs) := by
  unfold admitRequest
  dsimp only
  split
  · next code message retrySafe hgate =>
    have hmessage : message.utf8ByteSize ≤ 300 := by
      unfold writerGate at hgate
      split_ifs at hgate
      · obtain ⟨-, hmessage, -⟩ := Prod.mk.inj (Except.error.inj hgate) |>.imp_right Prod.mk.inj
        rw [← hmessage]
        decide
      · dsimp only at hgate
        split_ifs at hgate
        obtain ⟨-, hmessage, -⟩ := Prod.mk.inj (Except.error.inj hgate) |>.imp_right Prod.mk.inj
        rw [← hmessage]
        decide
    exact .of_fits hrequest hknown rfl (fits_buildResError hJ hroom hid hmessage) rfl
  · split
    · next shape hshape =>
      exact .of_fits hrequest hknown rfl (fits_buildResError hJ hroom hid (size_checkDeclaredFields hspec hshape)) rfl
    · split
      · exact .of_fits hrequest hknown rfl (handleLeaseRequest_fits hJ hroom hid hshort s.id _ _ _).2 rfl
      · exact .queued root _ hrequest rfl hknown rfl rfl rfl

theorem taken_handleRequest (hJ : J.Prints numeral) (hroom : Roomy cfg rng) (hshort : sh.leases.Short)
    (hnul : '\x00' ∉ (jstr root "method").toList) (hready : s.state = .ready) (hroot : decodeFrame J bytes = some root)
    (hkind : jstr root "kind" = "req") : Taken cfg J s bytes (handleRequest cfg J rng r sh s root) := by
  have hrequest : requestIn J s bytes = if isHex (jstr root "id") 16 then some root else none := by
    unfold requestIn
    rw [if_pos hready, hroot, Option.filter_some, hkind]
    rfl
  unfold handleRequest
  dsimp only
  by_cases hid : isHex (jstr root "id") 16 = true
  · rw [if_pos hid] at hrequest
    rw [if_neg (not_not.mpr hid)]
    split
    · next hunknown =>
      have hmessage : '\x00' ∉ ("unknown method: " ++ jstr root "method").toList := by
        rw [String.toList_append, List.mem_append, not_or]
        exact ⟨by decide, hnul⟩
      obtain ⟨text, htext⟩ := Option.isSome_iff_exists.mp
        (hJ.error (jstr root "id") .unsupportedOperation _ false false (no_nul_of_isHex hid) hmessage)
      have hframe : buildResError J (jstr root "id") .unsupportedOperation ("unknown method: " ++ jstr root "method")
          false false = text := by
        unfold buildResError
        rw [htext]
        rfl
      have hsize : text.utf8ByteSize = 169 + (escapeText (jstr root "method")).utf8ByteSize := by
        have hquoted : (escapeText "unknown method: ").utf8ByteSize = 16 := by decide
        have hcode : (errorCodeToString .unsupportedOperation).utf8ByteSize = 21 := by decide
        rw [hJ.text _ _ htext, size_jsonText_resError numeral hid, escapeText_append, String.utf8ByteSize_append,
          hquoted, hcode, if_neg Bool.false_ne_true]
        omega
      refine .answered root _ hrequest rfl (written_buildResError hJ hid _ _ _ _) ?_ rfl
      rw [hframe, hsize]
      unfold overlong
      rw [hunknown]
      simp
    · next spec hspec =>
      have hknown : overlong cfg root = false := by
        unfold overlong
        rw [hspec]
        rfl
      split
      · split
        · exact .of_fits hrequest hknown rfl (fits_buildResError hJ hroom hid (by decide)) rfl
        · exact taken_admitRequest hJ hroom hshort hrequest hid (List.mem_of_find?_eq_some hspec) hknown _
      · exact .of_fits hrequest hknown rfl (fits_buildResError hJ hroom hid (by decide)) rfl
  · rw [if_neg hid] at hrequest
    rw [if_pos hid]
    exact .of_frames hrequest s.id (sentFrames_outbound _ _) (by simp) rfl

/-- Every frame is taken in one of these ways. -/
theorem taken_handleFrame (hJ : J.Prints numeral) (hroom : Roomy cfg rng) (hshort : sh.leases.Short)
    (hnul : ∀ bytes root key, J.loadb bytes = some root → '\x00' ∉ (jstr (some root) key).toList) :
    Taken cfg J s bytes (handleFrame cfg J rng r sh s bytes) := by
  have hnothing : requestIn J s bytes = none → Taken cfg J s bytes (.closed sh s []) :=
    fun hnone => .of_frames hnone s.id (sentFrames_outbound _ _) (by simp) rfl
  unfold handleFrame
  split
  · next hroot =>
    apply hnothing
    unfold requestIn
    rw [hroot]
    split <;> rfl
  · next root hroot =>
    have hloaded := (Option.filter_eq_some_iff.mp hroot).1
    dsimp only
    split
    · next hstate =>
      split
      · apply hnothing
        unfold requestIn
        rw [hstate]
        rfl
      · exact taken_handleHello hJ hstate
    · next hstate =>
      split
      · apply hnothing
        unfold requestIn
        rw [hstate]
        rfl
      · exact taken_handleAuth hJ hstate
    · next hstate =>
      have hnone : jstr (some root) "kind" ≠ "req" → requestIn J s bytes = none := by
        intro hkind
        unfold requestIn
        rw [if_pos hstate, hroot, Option.filter_some]
        simp [hkind]
      by_cases hping : jstr (some root) "kind" = "ping"
      · rw [if_pos hping]
        have hnone := hnone (by rw [hping]; decide)
        split
        · refine .of_frames hnone s.id (sentFrames_outbound _ _) (fun frame hframe id => ?_) rfl
          rw [List.mem_singleton.mp hframe]
          exact not_isReplyTo_getD hJ rfl (unescaped_letter (by decide)) (by decide) _ (not_isReplyTo_empty id)
        · exact .of_frames hnone s.id (sentFrames_outbound _ _) (by simp) rfl
      · rw [if_neg hping]
        split
        · next hkind => exact taken_handleRequest hJ hroom hshort (hnul _ _ _ hloaded) hstate hroot hkind
        · next hkind => exact hnothing (hnone hkind)

end taken

end RackMcp
