import RackMcp.Core.Framing
import RackMcp.Server.Framing

/-!
# Both decoders read the wire format

`wire` is the frame format: a four-byte big-endian length and that many bytes, a length beyond the limit being
an error. The C++ decoder is the inbox of that format over its unconsumed bytes, and so is the TypeScript one
over the concatenation of its chunks, so both are observed the same (`decoders_agree`); popped empty after every
chunk, the frames are those of the whole stream (`frames_reassembled`).
-/

namespace RackMcp

open Reassembly

/-! ### The wire format -/

/-- The length a header declares. -/
def headerLength (a b c d : UInt8) : ℕ := a.toNat * 2 ^ 24 + b.toNat * 2 ^ 16 + c.toNat * 2 ^ 8 + d.toNat

/-- What the front of a byte stream holds. -/
def wireFront (maxFrameBytes : ℕ) : List UInt8 → Front UInt8 (List UInt8)
  | a :: b :: c :: d :: body =>
    if headerLength a b c d > maxFrameBytes then .bad
    else if body.length < headerLength a b c d then .more
    else .frame (body.take (headerLength a b c d)) (body.drop (headerLength a b c d))
  | _ => .more

section wireFront
variable {maxFrameBytes : ℕ} {s : List UInt8}

theorem wireFront_short (h : s.length < 4) : wireFront maxFrameBytes s = .more := by
  unfold wireFront
  split
  · simp only [List.length_cons] at h
    omega
  · rfl

/-- A stream of at least four bytes is a header and a body. -/
theorem exists_header (h : 4 ≤ s.length) : ∃ a b c d body, s = a :: b :: c :: d :: body := by
  match s, h with
  | a :: b :: c :: d :: body, _ => exact ⟨a, b, c, d, body, rfl⟩

theorem wireFront_more (h : wireFront maxFrameBytes s = .more) : s.length < maxFrameBytes + 4 := by
  by_cases hshort : s.length < 4
  · omega
  obtain ⟨a, b, c, d, body, rfl⟩ := exists_header (Nat.le_of_not_lt hshort)
  simp only [wireFront] at h
  simp only [List.length_cons]
  split at h
  · cases h
  · split at h
    · omega
    · cases h

/-- What has been told stays told when more arrives. -/
theorem wireFront_append (t : List UInt8) :
    (wireFront maxFrameBytes s = .bad → wireFront maxFrameBytes (s ++ t) = .bad) ∧
      ∀ f rest, wireFront maxFrameBytes s = .frame f rest →
        rest.length < s.length ∧ wireFront maxFrameBytes (s ++ t) = .frame f (rest ++ t) := by
  by_cases hshort : s.length < 4
  · rw [wireFront_short hshort]
    exact ⟨nofun, nofun⟩
  obtain ⟨a, b, c, d, body, rfl⟩ := exists_header (Nat.le_of_not_lt hshort)
  simp only [List.cons_append, wireFront]
  by_cases hmax : headerLength a b c d > maxFrameBytes
  · rw [if_pos hmax, if_pos hmax]
    exact ⟨fun _ => rfl, nofun⟩
  rw [if_neg hmax, if_neg hmax]
  by_cases hbody : body.length < headerLength a b c d
  · rw [if_pos hbody]
    exact ⟨nofun, nofun⟩
  · rw [if_neg hbody, if_neg (by rw [List.length_append]; omega)]
    refine ⟨nofun, fun f rest h => ?_⟩
    obtain ⟨rfl, rfl⟩ := Front.frame.inj h
    rw [List.take_append_of_le_length (by omega), List.drop_append_of_le_length (by omega)]
    refine ⟨?_, rfl⟩
    simp only [List.length_drop, List.length_cons]
    omega

end wireFront

/-- The frame format of the bridge. -/
def wire (maxFrameBytes : ℕ) : Framing UInt8 (List UInt8) where
  front := wireFront maxFrameBytes
  shorter := fun h => ((wireFront_append []).2 _ _ h).1
  bad_append := fun t h => (wireFront_append t).1 h
  frame_append := fun t h => ((wireFront_append t).2 _ _ h).2

/-- The bound both decoders put on what they hold. -/
def memoryBound (maxFrameBytes : ℕ) : ℕ := 2 * (maxFrameBytes + 4)

/-- The decoder of the format, within the bound. -/
def wireInbox (maxFrameBytes : ℕ) : Decoder (Inbox UInt8) UInt8 (List UInt8) :=
  inbox (wire maxFrameBytes) (memoryBound maxFrameBytes)

/-! ### The C++ decoder -/

namespace FrameDecoder
variable {maxFrameBytes : ℕ} (d : FrameDecoder maxFrameBytes)

/-- The bytes not yet consumed. -/
def pending : List UInt8 := d.buffer.drop d.consumed

theorem length_pending : d.pending.length = d.buffered := List.length_drop

theorem pending_append (data : List UInt8) : (d.append data).pending = d.pending ++ data :=
  List.drop_append_of_le_length d.consumed_le

theorem pending_consume (n : ℕ) (h : n ≤ d.buffered) : (d.consume n h).pending = d.pending.drop n :=
  List.drop_drop.symm

/-- Compaction drops only what has been consumed. -/
theorem pending_compact : d.compact.pending = d.pending ∧ d.compact.error = d.error := by
  unfold compact
  by_cases hzero : d.consumed = 0
  · rw [if_pos hzero]
    exact ⟨rfl, rfl⟩
  rw [if_neg hzero]
  by_cases hall : d.consumed = d.buffer.length
  · rw [if_pos hall]
    refine ⟨?_, rfl⟩
    show [] = d.buffer.drop d.consumed
    rw [hall, List.drop_length]
  rw [if_neg hall]
  by_cases hhalf : d.consumed ≥ d.buffer.length / 2
  · rw [if_pos hhalf]
    exact ⟨rfl, rfl⟩
  · rw [if_neg hhalf]
    exact ⟨rfl, rfl⟩

theorem byteAt_eq (i : ℕ) : d.byteAt i = d.pending.getD i 0 := by
  unfold byteAt pending
  rw [List.getD_eq_getElem?_getD, List.getD_eq_getElem?_getD, List.getElem?_drop]

end FrameDecoder

/-- Bytes that do not overlap are put together by `|`. -/
theorem toNat_or_shift (a b c d : UInt8) :
    ((a.toUInt32 <<< 24) ||| (b.toUInt32 <<< 16) ||| (c.toUInt32 <<< 8) ||| d.toUInt32).toNat =
      headerLength a b c d := by
  have ha := a.toNat_lt
  have hb := b.toNat_lt
  have hc := c.toNat_lt
  have hd := d.toNat_lt
  have hword (x i : ℕ) (h : x * 2 ^ i < 2 ^ 32) : x <<< i % 2 ^ 32 = 2 ^ i * x := by
    rw [Nat.shiftLeft_eq, Nat.mod_eq_of_lt h, Nat.mul_comm]
  simp only [UInt32.toNat_or, UInt32.toNat_shiftLeft, UInt8.toNat_toUInt32]
  show a.toNat <<< 24 % 2 ^ 32 ||| b.toNat <<< 16 % 2 ^ 32 ||| c.toNat <<< 8 % 2 ^ 32 ||| d.toNat = _
  rw [hword _ 24 (by omega), hword _ 16 (by omega), hword _ 8 (by omega),
    ← Nat.two_pow_add_eq_or_of_lt (show 2 ^ 16 * b.toNat < 2 ^ 24 by omega),
    show 2 ^ 24 * a.toNat + 2 ^ 16 * b.toNat = 2 ^ 16 * (2 ^ 8 * a.toNat + b.toNat) by omega,
    ← Nat.two_pow_add_eq_or_of_lt (show 2 ^ 8 * c.toNat < 2 ^ 16 by omega),
    show 2 ^ 16 * (2 ^ 8 * a.toNat + b.toNat) + 2 ^ 8 * c.toNat =
      2 ^ 8 * (2 ^ 16 * a.toNat + 2 ^ 8 * b.toNat + c.toNat) by omega, ← Nat.two_pow_add_eq_or_of_lt hd]
  unfold headerLength
  omega

namespace FrameDecoder
variable {maxFrameBytes : ℕ} (d : FrameDecoder maxFrameBytes)

/-- A decoder popped on a header and a body. -/
theorem declared_eq {a b c e : UInt8} {body : List UInt8} (h : d.pending = a :: b :: c :: e :: body) :
    d.declared.toNat = headerLength a b c e := by
  unfold declared
  simp only [byteAt_eq, h]
  exact toNat_or_shift a b c e

theorem next_short (hd : d.error = false) (h : d.buffered < 4) : d.next = (none, d) := by
  unfold next
  rw [if_neg (by rw [hd]; decide), if_pos h]

/-- The decoder pops what the front of its pending bytes holds. -/
theorem next_cases (hd : d.error = false) :
    (wireFront maxFrameBytes d.pending = .more ∧ d.next = (none, d)) ∨
      (wireFront maxFrameBytes d.pending = .bad ∧ d.next = (none, d.fail)) ∨
      ∃ f d', wireFront maxFrameBytes d.pending = .frame f d'.pending ∧ d.next = (some f, d') ∧
        d'.error = false := by
  have hlength := d.length_pending
  by_cases hshort : d.buffered < 4
  · exact .inl ⟨wireFront_short (by omega), d.next_short hd hshort⟩
  obtain ⟨a, b, c, e, body, hpending⟩ := exists_header (s := d.pending) (by omega)
  have hfront : wireFront maxFrameBytes d.pending =
      if d.declared.toNat > maxFrameBytes then .bad
      else if body.length < d.declared.toNat then .more
      else .frame (body.take d.declared.toNat) (body.drop d.declared.toNat) := by
    rw [hpending, d.declared_eq hpending]
    rfl
  have hbody : d.buffer.drop (d.consumed + 4) = body := by
    rw [← List.drop_drop]
    exact congrArg (List.drop 4) hpending
  rw [hpending] at hlength
  simp only [List.length_cons] at hlength
  have hnext : d.next =
      if d.declared.toNat > maxFrameBytes then (none, d.fail)
      else if h : d.buffered < 4 + d.declared.toNat then (none, d)
      else (some ((d.buffer.drop (d.consumed + 4)).take d.declared.toNat),
        (d.consume (4 + d.declared.toNat) (Nat.le_of_not_lt h)).compact) := by
    unfold next
    rw [if_neg (by rw [hd]; decide), if_neg hshort]
  by_cases hmax : d.declared.toNat > maxFrameBytes
  · rw [if_pos hmax] at hfront hnext
    exact .inr (.inl ⟨hfront, hnext⟩)
  rw [if_neg hmax] at hfront hnext
  by_cases hall : d.buffered < 4 + d.declared.toNat
  · rw [dif_pos hall] at hnext
    rw [if_pos (by omega)] at hfront
    exact .inl ⟨hfront, hnext⟩
  · rw [dif_neg hall] at hnext
    rw [if_neg (by omega)] at hfront
    refine .inr (.inr ⟨_, _, ?_, hnext, ?_⟩)
    · rw [hfront, (pending_compact _).1, pending_consume, hbody, ← List.drop_drop, hpending]
      rfl
    · rw [(pending_compact _).2]
      exact hd

theorem next_failed (hd : d.error = true) : d.next = (none, d) := if_pos hd

theorem next_shrinks {d d' : FrameDecoder maxFrameBytes} {f : List UInt8} (h : d.next = (some f, d')) :
    d'.buffered < d.buffered := by
  rcases hd : d.error with _ | _
  · rcases d.next_cases hd with ⟨-, hnext⟩ | ⟨-, hnext⟩ | ⟨f', d'', hfront, hnext, -⟩
    · rw [hnext] at h
      cases h
    · rw [hnext] at h
      cases h
    · rw [hnext] at h
      obtain ⟨-, rfl⟩ := Prod.mk.inj h
      rw [← length_pending, ← length_pending]
      exact (wire maxFrameBytes).shorter hfront
  · rw [d.next_failed hd] at h
    cases h

/-- The decoder as its callers use it. -/
def decoder (maxFrameBytes : ℕ) : Decoder (FrameDecoder maxFrameBytes) UInt8 (List UInt8) where
  push := push
  next := next
  failed := error
  size := buffered
  shrinks := next_shrinks

/-- What the decoder has yet to read. -/
def inbox (d : FrameDecoder maxFrameBytes) : Inbox UInt8 := ⟨d.pending, d.error⟩

/-- The decoder is the inbox of its pending bytes. -/
theorem refines_inbox : (decoder maxFrameBytes).Refines (wireInbox maxFrameBytes) inbox where
  push := by
    intro chunk d
    show d.inbox.push (memoryBound maxFrameBytes) chunk = ((d.push chunk).1, (d.push chunk).2.inbox)
    have hlength : d.inbox.pending.length = d.buffered := d.length_pending
    unfold push
    by_cases hd : d.error = true
    · rw [if_pos hd, Inbox.push_failed (b := d.inbox) hd]
    rw [if_neg hd]
    by_cases hbound : d.buffered + chunk.length > 2 * (maxFrameBytes + 4)
    · rw [if_pos hbound, Inbox.push_full (eq_false_of_ne_true hd) (hlength ▸ hbound)]
      rfl
    · rw [if_neg hbound, Inbox.push_taken (eq_false_of_ne_true hd) (hlength ▸ hbound)]
      exact congrArg (fun s => (true, Inbox.mk s d.error)) (d.pending_append chunk).symm
  next := by
    intro d
    show d.inbox.next (wire maxFrameBytes) = (d.next.1, d.next.2.inbox)
    rcases hd : d.error with _ | _
    · rcases d.next_cases hd with ⟨hfront, hnext⟩ | ⟨hfront, hnext⟩ | ⟨f, d', hfront, hnext, hd'⟩
      · rw [hnext, Inbox.next_more (b := d.inbox) hfront]
      · rw [hnext, Inbox.next_bad (b := d.inbox) hd hfront]
        rfl
      · rw [hnext, Inbox.next_frame (b := d.inbox) hd hfront]
        exact congrArg (fun e => (some f, Inbox.mk d'.pending e)) (hd.trans hd'.symm)
    · rw [d.next_failed hd, Inbox.next_failed (b := d.inbox) hd]
  failed := fun _ => rfl

end FrameDecoder

/-! ### The TypeScript decoder -/

namespace Server.FrameDecoder
variable {maxFrameBytes : ℕ} (d : FrameDecoder maxFrameBytes)

/-- What the decoder has yet to read. -/
def inbox (d : FrameDecoder maxFrameBytes) : Inbox UInt8 := ⟨d.chunks.flatten, d.failed⟩

theorem inbox_append (chunk : List UInt8) :
    (d.append chunk).inbox = { d.inbox with pending := d.inbox.pending ++ chunk } := by
  have hflat : (d.chunks ++ [chunk]).flatten = d.chunks.flatten ++ chunk := by
    rw [List.flatten_append, List.flatten_singleton]
  exact congrArg (Inbox.mk · d.failed) hflat

/-- Joining the chunks loses nothing. -/
theorem inbox_join : d.join.inbox = d.inbox := by
  have hflat : [d.all].flatten = d.chunks.flatten := by rw [List.flatten_singleton, all_eq]
  exact congrArg (Inbox.mk · d.failed) hflat

theorem inbox_keep (rest : List UInt8) : (d.keep rest).inbox = { d.inbox with pending := rest } := by
  have hflat : (if rest.length > 0 then [rest] else []).flatten = rest := by
    by_cases h : rest.length > 0
    · rw [if_pos h, List.flatten_singleton]
    · rw [if_neg h, List.length_eq_zero_iff.mp (Nat.eq_zero_of_not_pos h)]
      rfl
  exact congrArg (Inbox.mk · d.failed) hflat

theorem next_failed (hd : d.failed = true) : d.next = (none, d) := by
  unfold next
  rw [hd]
  rfl

/-- The decoder pops what the front of its bytes holds. -/
theorem next_cases (hd : d.failed = false) :
    (wireFront maxFrameBytes d.inbox.pending = .more ∧ ∃ d', d.next = (none, d') ∧ d'.inbox = d.inbox) ∨
      (wireFront maxFrameBytes d.inbox.pending = .bad ∧
        ∃ d', d.next = (none, d') ∧ d'.inbox = { d.inbox with failed := true }) ∨
      ∃ f rest, wireFront maxFrameBytes d.inbox.pending = .frame f rest ∧
        ∃ d', d.next = (some f, d') ∧ d'.inbox = { d.inbox with pending := rest } := by
  have hlength : d.inbox.pending.length = d.buffered := d.buffered_eq.symm
  have hall : d.all = d.inbox.pending := d.all_eq
  by_cases hshort : d.buffered < 4
  · refine .inl ⟨wireFront_short (by omega), d, ?_, rfl⟩
    unfold next
    rw [if_pos (by simp [hshort])]
  obtain ⟨a, b, c, e, body, hpending⟩ := exists_header (s := d.inbox.pending) (by omega)
  have hfront : wireFront maxFrameBytes d.inbox.pending =
      if readUInt32BE d.all > maxFrameBytes then .bad
      else if body.length < readUInt32BE d.all then .more
      else .frame (body.take (readUInt32BE d.all)) (body.drop (readUInt32BE d.all)) := by
    rw [hall, hpending]
    rfl
  have hbody : d.all.drop 4 = body := by rw [hall, hpending]; rfl
  have hcount : d.all.length = body.length + 4 := by rw [hall, hpending]; rfl
  have hnext : d.next =
      if readUInt32BE d.all > maxFrameBytes then (none, d.join.fail)
      else if d.all.length < 4 + readUInt32BE d.all then (none, d.join)
      else (some ((d.all.drop 4).take (readUInt32BE d.all)), d.keep (d.all.drop (4 + readUInt32BE d.all))) := by
    unfold next
    rw [if_neg (by simp [hd, hshort])]
  generalize readUInt32BE d.all = n at hfront hnext
  by_cases hmax : n > maxFrameBytes
  · rw [if_pos hmax] at hfront hnext
    exact .inr (.inl ⟨hfront, _, hnext, congrArg (fun b : Inbox UInt8 => { b with failed := true }) d.inbox_join⟩)
  rw [if_neg hmax] at hfront hnext
  by_cases hmore : d.all.length < 4 + n
  · rw [if_pos hmore] at hnext
    rw [if_pos (by omega)] at hfront
    exact .inl ⟨hfront, _, hnext, d.inbox_join⟩
  · rw [if_neg hmore, hbody, ← List.drop_drop, hbody] at hnext
    rw [if_neg (by omega)] at hfront
    exact .inr (.inr ⟨_, _, hfront, _, hnext, d.inbox_keep _⟩)

/-- The decoder as its callers use it. -/
def decoder (maxFrameBytes : ℕ) : Decoder (FrameDecoder maxFrameBytes) UInt8 (List UInt8) where
  push := push
  next := next
  failed := failed
  size := buffered
  shrinks := next_shrinks

/-- The decoder is the inbox of its concatenated chunks. -/
theorem refines_inbox : (decoder maxFrameBytes).Refines (wireInbox maxFrameBytes) inbox where
  push := by
    intro chunk d
    show d.inbox.push (memoryBound maxFrameBytes) chunk = ((d.push chunk).1, (d.push chunk).2.inbox)
    have hlength : d.inbox.pending.length = d.buffered := d.buffered_eq.symm
    unfold push
    by_cases hd : d.failed = true
    · rw [if_pos hd, Inbox.push_failed (b := d.inbox) hd]
    rw [if_neg hd]
    by_cases hbound : d.buffered + chunk.length > 2 * (maxFrameBytes + 4)
    · rw [if_pos hbound, Inbox.push_full (eq_false_of_ne_true hd) (hlength ▸ hbound)]
      rfl
    · rw [if_neg hbound, Inbox.push_taken (eq_false_of_ne_true hd) (hlength ▸ hbound), inbox_append]
  next := by
    intro d
    show d.inbox.next (wire maxFrameBytes) = (d.next.1, d.next.2.inbox)
    rcases hd : d.failed with _ | _
    · rcases d.next_cases hd with ⟨hfront, d', hnext, hd'⟩ | ⟨hfront, d', hnext, hd'⟩ | ⟨f, rest, hfront, d', hnext, hd'⟩
      · rw [hnext, hd', Inbox.next_more (b := d.inbox) hfront]
      · rw [hnext, hd', Inbox.next_bad (b := d.inbox) hd hfront]
      · rw [hnext, hd', Inbox.next_frame (b := d.inbox) hd hfront]
    · rw [d.next_failed hd, Inbox.next_failed (b := d.inbox) hd]
  failed := fun _ => rfl

end Server.FrameDecoder

/-- Whatever is pushed and popped, and in which order, the two decoders answer the same and have the same error
flag after every call. -/
theorem decoders_agree (maxFrameBytes : ℕ) (calls : List (Reassembly.Call UInt8)) :
    (FrameDecoder.decoder maxFrameBytes).observations (.new maxFrameBytes) calls =
      (Server.FrameDecoder.decoder maxFrameBytes).observations (.new maxFrameBytes) calls := by
  rw [← FrameDecoder.refines_inbox.observations, ← Server.FrameDecoder.refines_inbox.observations]
  rfl

/-! ### What the C++ decoder reads -/

/-- The header of a length declares that length. -/
theorem headerLength_frameHeader (n : UInt32) (rest : List UInt8) :
    ∃ a b c d, frameHeader n ++ rest = a :: b :: c :: d :: rest ∧ headerLength a b c d = n.toNat := by
  refine ⟨_, _, _, _, rfl, ?_⟩
  have hn := n.toNat_lt
  have hbyte (x : ℕ) : x &&& 255 = x % 2 ^ 8 := Nat.and_two_pow_sub_one_eq_mod x 8
  unfold headerLength
  simp only [UInt32.toNat_toUInt8, UInt32.toNat_and, UInt32.toNat_shiftRight]
  show (n.toNat >>> 24 &&& 255) % 2 ^ 8 * 2 ^ 24 + (n.toNat >>> 16 &&& 255) % 2 ^ 8 * 2 ^ 16 +
    (n.toNat >>> 8 &&& 255) % 2 ^ 8 * 2 ^ 8 + (n.toNat &&& 255) % 2 ^ 8 = n.toNat
  simp only [hbyte, Nat.shiftRight_eq_div_pow]
  omega

/-- An encoded payload reads as one frame. -/
theorem wireFront_encodeFrame {maxFrameBytes : ℕ} (hmax : maxFrameBytes < 2 ^ 32) {payload out : List UInt8}
    (h : encodeFrame payload maxFrameBytes = some out) (t : List UInt8) :
    wireFront maxFrameBytes (out ++ t) = .frame payload t := by
  unfold encodeFrame at h
  by_cases hlong : payload.length > maxFrameBytes
  · rw [if_pos hlong] at h
    cases h
  rw [if_neg hlong] at h
  obtain rfl := Option.some.inj h
  obtain ⟨a, b, c, d, hbytes, hlength⟩ := headerLength_frameHeader (UInt32.ofNat payload.length) (payload ++ t)
  rw [UInt32.toNat_ofNat_of_lt' (by show _ < 2 ^ 32; omega)] at hlength
  rw [List.append_assoc, hbytes]
  simp only [wireFront, hlength]
  rw [if_neg hlong, if_neg (by rw [List.length_append]; omega), List.take_left, List.drop_left]

/-- What the wire format makes of a stream: the frames up to the first header that declares too much, and whether
there is one. -/
def referenceParse (maxFrameBytes : ℕ) (stream : List UInt8) : List (List UInt8) × Bool :=
  (((wire maxFrameBytes).parse stream).1, ((wire maxFrameBytes).parse stream).2.failed)

namespace FrameDecoder

/-- Feeds the chunks to a new decoder, popping all frames after each. -/
def feed (maxFrameBytes : ℕ) (chunks : List (List UInt8)) : List (List UInt8) × FrameDecoder maxFrameBytes :=
  (decoder maxFrameBytes).feed (.new maxFrameBytes) chunks

variable {maxFrameBytes : ℕ}

theorem feed_eq {chunks : List (List UInt8)} (hchunks : ∀ c ∈ chunks, c.length ≤ maxFrameBytes + 4) :
    ((feed maxFrameBytes chunks).1, (feed maxFrameBytes chunks).2.error) =
        referenceParse maxFrameBytes chunks.flatten ∧
      (feed maxFrameBytes chunks).2.inbox.Drained (wire maxFrameBytes) := by
  have hstart : (inbox (.new maxFrameBytes)).Drained (wire maxFrameBytes) := fun _ => rfl
  have hmore : 2 * (maxFrameBytes + 4) ≤ memoryBound maxFrameBytes := Nat.le_refl _
  obtain ⟨hframes, hfailed, hdrained⟩ := feed_inbox (fun s => wireFront_more) hmore hstart rfl hchunks
  have hfeed := refines_inbox.feed (.new maxFrameBytes) chunks
  unfold wireInbox at hfeed
  rw [hfeed] at hframes hfailed hdrained
  exact ⟨Prod.ext hframes hfailed, hdrained⟩

/-- No chunk that arrives when all frames have been popped meets the memory bound. -/
theorem push_feed {chunks : List (List UInt8)} (hchunks : ∀ c ∈ chunks, c.length ≤ maxFrameBytes + 4)
    {chunk : List UInt8} (hchunk : chunk.length ≤ maxFrameBytes + 4) :
    ((feed maxFrameBytes chunks).2.push chunk).1 = !(feed maxFrameBytes chunks).2.error := by
  obtain ⟨-, hdrained⟩ := feed_eq hchunks
  generalize (feed maxFrameBytes chunks).2 = d at hdrained ⊢
  have hpush := refines_inbox.push chunk d
  have hmore : 2 * (maxFrameBytes + 4) ≤ memoryBound maxFrameBytes := Nat.le_refl _
  have hinbox := push_inbox (fun s => wireFront_more) hmore hdrained hchunk
  have hanswer : (d.push chunk).1 = (d.inbox.push (memoryBound maxFrameBytes) chunk).1 :=
    congrArg Prod.fst hpush.symm
  rw [hanswer, hinbox]
  show (if d.error = true then _ else _ : Bool × Inbox UInt8).1 = _
  rcases d.error with _ | _
  · rfl
  · rfl

/-- Nothing leaves the error state. -/
theorem failed_stays {d : FrameDecoder maxFrameBytes} (hd : d.error = true) :
    (∀ chunk, d.push chunk = (false, d)) ∧ d.next = (none, d) :=
  ⟨fun _ => if_pos hd, d.next_failed hd⟩

end FrameDecoder

/-- However a stream is cut into chunks of at most a frame and its header, the decoder that is popped empty after
each yields the frames of the stream up to the first header that declares too much. It fails when that header has
been received, not before and not for the memory bound, and stays so. What has been encoded is decoded. -/
theorem frames_reassembled (maxFrameBytes : ℕ) (hmax : maxFrameBytes < 2 ^ 32) :
    (∀ chunks : List (List UInt8), (∀ c ∈ chunks, c.length ≤ maxFrameBytes + 4) →
      ((FrameDecoder.feed maxFrameBytes chunks).1, (FrameDecoder.feed maxFrameBytes chunks).2.error) =
          referenceParse maxFrameBytes chunks.flatten ∧
        ∀ chunk : List UInt8, chunk.length ≤ maxFrameBytes + 4 →
          ((FrameDecoder.feed maxFrameBytes chunks).2.push chunk).1 =
            !(FrameDecoder.feed maxFrameBytes chunks).2.error) ∧
      (∀ d : FrameDecoder maxFrameBytes, d.error = true →
        (∀ chunk, d.push chunk = (false, d)) ∧ d.next = (none, d)) ∧
      ∀ (payloads outs chunks : List (List UInt8)),
        List.Forall₂ (fun payload out => encodeFrame payload maxFrameBytes = some out) payloads outs →
        chunks.flatten = outs.flatten → (∀ c ∈ chunks, c.length ≤ maxFrameBytes + 4) →
          (FrameDecoder.feed maxFrameBytes chunks).1 = payloads ∧
            (FrameDecoder.feed maxFrameBytes chunks).2.error = false := by
  refine ⟨fun chunks hchunks => ⟨(FrameDecoder.feed_eq hchunks).1, fun chunk => FrameDecoder.push_feed hchunks⟩,
    fun d => FrameDecoder.failed_stays, fun payloads outs chunks hencoded hstream hchunks => ?_⟩
  have hparse : referenceParse maxFrameBytes outs.flatten = (payloads, false) := by
    have hrecords := parse_records (G := wire maxFrameBytes)
      (hencoded.imp fun _ _ h => wireFront_encodeFrame hmax h) []
    rw [List.append_nil, parse_more (s := []) rfl, List.append_nil] at hrecords
    unfold referenceParse
    rw [hrecords]
  rw [← hstream, ← (FrameDecoder.feed_eq hchunks).1] at hparse
  exact Prod.mk.inj hparse

/-- A header cut in two, a frame of the limit, an empty frame, and then a header beyond the limit. -/
theorem frames_reassembled_bench :
    (2 : ℕ) < 2 ^ 32 ∧
      ((FrameDecoder.feed 2 [[0, 0], [0, 2, 7], [8, 0, 0, 0, 0], [0, 0, 0, 3, 9]]).1,
          (FrameDecoder.feed 2 [[0, 0], [0, 2, 7], [8, 0, 0, 0, 0], [0, 0, 0, 3, 9]]).2.error) =
        ([[7, 8], []], true) := by
  refine ⟨by decide, ((frames_reassembled 2 (by decide)).1 _ (by decide)).1.trans ?_⟩
  have hparse : (wire 2).parse [0, 0, 0, 2, 7, 8, 0, 0, 0, 0, 0, 0, 0, 3, 9] =
      ([[7, 8], []], ⟨[0, 0, 0, 3, 9], true⟩) := by
    have hfirst : (wire 2).front [0, 0, 0, 2, 7, 8, 0, 0, 0, 0, 0, 0, 0, 3, 9] =
        .frame [7, 8] [0, 0, 0, 0, 0, 0, 0, 3, 9] := by simp [wire, wireFront, headerLength]
    have hsecond : (wire 2).front [0, 0, 0, 0, 0, 0, 0, 3, 9] = .frame [] [0, 0, 0, 3, 9] := by
      simp [wire, wireFront, headerLength]
    rw [parse_frame hfirst, parse_frame hsecond, parse_bad (by simp [wire, wireFront, headerLength])]
  exact congrArg (fun p => (p.1, p.2.failed)) hparse

end RackMcp
