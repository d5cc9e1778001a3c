import RackMcp.Rackside.Chat
import RackMcp.Proof.Truncation
import Mathlib.Data.List.Range
import Mathlib.Data.List.Nodup

/-!
# Notes are delivered once

What `BoundedRing` keeps over all its operations, and from it what a client receives that polls with the `lastSeq` of the
reply before: every note once and in order, but for those evicted before the poll that would have brought them.
-/

namespace RackMcp

open Deliverable

/-! ### The ring -/

namespace BoundedRing

variable {T : Type}

/-- The items that are left, and how many are evicted. -/
theorem evictOldest_eq (capacity : ℕ) (items : List T) (evicted : ℕ) :
    evictOldest capacity items evicted = (items.drop (items.length - capacity), evicted + (items.length - capacity)) := by
  induction items generalizing evicted with
  | nil => simp [evictOldest]
  | cons item rest ih =>
    rw [evictOldest]
    by_cases hmany : (item :: rest).length > capacity
    · rw [if_pos hmany, ih]
      rw [List.length_cons] at hmany ⊢
      have hexcess : rest.length + 1 - capacity = rest.length - capacity + 1 := by omega
      rw [hexcess, List.drop_succ_cons, Nat.add_assoc, Nat.add_comm 1]
    · rw [if_neg hmany, Nat.sub_eq_zero_of_le (not_lt.mp hmany)]
      rfl

variable [Deliverable T]

/-- The items carry consecutive numbers that end at `lastSeq`, and there are no more than fit. -/
structure Sound (ring : BoundedRing T) : Prop where
  seqs : ring.items.map seq = List.range' (ring.evicted + 1) ring.items.length
  count : ring.evicted + ring.items.length = ring.lastSeq
  bounded : ring.items.length ≤ ring.capacity

theorem sound_new (capacity : ℕ) : (new capacity : BoundedRing T).Sound := ⟨rfl, rfl, Nat.zero_le _⟩

variable {ring : BoundedRing T}

theorem Sound.mem_seqs (h : ring.Sound) {q : ℕ} : q ∈ ring.items.map seq ↔ ring.evicted < q ∧ q ≤ ring.lastSeq := by
  have hcount := h.count
  rw [h.seqs, List.mem_range'_1]
  omega

theorem Sound.nodup (h : ring.Sound) : (ring.items.map seq).Nodup := by
  rw [h.seqs]
  exact List.nodup_range'

/-- The new entry comes behind those that still fit. -/
theorem push_eq (ring : BoundedRing T) (entry : T) :
    ring.push entry =
      { capacity := ring.capacity
        items := (ring.items ++ [withSeq (ring.lastSeq + 1) entry]).drop (ring.items.length + 1 - ring.capacity)
        lastSeq := ring.lastSeq + 1
        evicted := ring.evicted + (ring.items.length + 1 - ring.capacity) } := by
  unfold BoundedRing.push
  simp only [evictOldest_eq, List.length_append, List.length_singleton]

theorem Sound.push (h : ring.Sound) (entry : T) : (ring.push entry).Sound := by
  have hcount := h.count
  have hitems : (ring.items ++ [withSeq (ring.lastSeq + 1) entry]).map seq =
      List.range' (ring.evicted + 1) (ring.items.length + 1) := by
    rw [List.map_append, h.seqs, List.range'_concat, Nat.one_mul, List.map_singleton, seq_withSeq]
    congr 2
    omega
  have hlength : ((ring.items ++ [withSeq (ring.lastSeq + 1) entry]).drop (ring.items.length + 1 - ring.capacity)).length =
      ring.items.length + 1 - (ring.items.length + 1 - ring.capacity) := by
    rw [List.length_drop, List.length_append, List.length_singleton]
  rw [push_eq]
  constructor
  case seqs =>
    rw [hlength, List.map_drop, hitems, List.drop_range']
    show List.range' _ _ = List.range' (ring.evicted + (ring.items.length + 1 - ring.capacity) + 1) _
    congr 1
    omega
  case count =>
    rw [hlength]
    show ring.evicted + (ring.items.length + 1 - ring.capacity) + _ = ring.lastSeq + 1
    omega
  case bounded =>
    rw [hlength]
    show _ ≤ ring.capacity
    omega

/-- Marking keeps the numbers. -/
theorem map_seq_markDelivered (ring : BoundedRing T) (through : ℕ) :
    (ring.markDelivered through).1.items.map seq = ring.items.map seq := by
  show (ring.items.map _).map seq = _
  rw [List.map_map]
  apply List.map_congr_left
  intro item _
  show seq (if _ then _ else _) = _
  split
  · exact seq_deliver item
  · rfl

theorem length_markDelivered (ring : BoundedRing T) (through : ℕ) :
    (ring.markDelivered through).1.items.length = ring.items.length := List.length_map _

theorem Sound.markDelivered (h : ring.Sound) (through : ℕ) : (ring.markDelivered through).1.Sound := by
  constructor
  · rw [map_seq_markDelivered, length_markDelivered]
    exact h.seqs
  · rw [length_markDelivered]
    exact h.count
  · rw [length_markDelivered]
    exact h.bounded

/-- A second marking finds nothing to do. -/
theorem markDelivered_markDelivered (ring : BoundedRing T) (through : ℕ) :
    (ring.markDelivered through).1.markDelivered through = ((ring.markDelivered through).1, 0) := by
  have hdone : ∀ item ∈ (ring.markDelivered through).1.items, pending through item = false := by
    intro item hitem
    obtain ⟨before, -, rfl⟩ := List.mem_map.mp hitem
    split
    · show (decide (seq (deliver before) ≤ through) && !delivered (deliver before)) = false
      rw [delivered_deliver, Bool.not_true, Bool.and_false]
    · next hpending => exact Bool.eq_false_iff.mpr hpending
  have hitems : (ring.markDelivered through).1.items.map (fun item => if pending through item then deliver item else item) =
      (ring.markDelivered through).1.items := by
    conv_rhs => rw [← List.map_id (ring.markDelivered through).1.items]
    apply List.map_congr_left
    intro item hitem
    rw [hdone item hitem, if_neg Bool.false_ne_true]
    rfl
  have hcount : (ring.markDelivered through).1.items.countP (pending through) = 0 := by
    rw [List.countP_eq_zero]
    intro item hitem
    rw [hdone item hitem]
    exact Bool.false_ne_true
  rw [BoundedRing.markDelivered, hitems, hcount]

/-! ### All operations -/

end BoundedRing

/-- An operation on a ring; `since` and `snapshot` read it. -/
inductive RingOp (T : Type) where
  | push (entry : T)
  | since (since : ℕ)
  | snapshot
  | markDelivered (through : ℕ)

namespace BoundedRing

variable {T : Type} [Deliverable T] {ring : BoundedRing T}

/-- The ring after an operation, and the numbers of the items that it reports as delivered. -/
def step (ring : BoundedRing T) : RingOp T → BoundedRing T × List ℕ
  | .push entry => (ring.push entry, [])
  | .since _ | .snapshot => (ring, [])
  | .markDelivered through => ((ring.markDelivered through).1, (ring.items.filter (pending through)).map seq)

/-- The ring after so many operations, and all that was reported. -/
def run (ring : BoundedRing T) (ops : List (RingOp T)) : BoundedRing T × List ℕ :=
  ops.foldl (fun s op => ((s.1.step op).1, s.2 ++ (s.1.step op).2)) (ring, [])

/-- What was reported is delivered, and no number was reported twice. -/
structure Reported (ring : BoundedRing T) (reports : List ℕ) : Prop where
  sound : ring.Sound
  nodup : reports.Nodup
  le_lastSeq : ∀ q ∈ reports, q ≤ ring.lastSeq
  delivered : ∀ item ∈ ring.items, seq item ∈ reports → delivered item = true

theorem Reported.push {reports : List ℕ} (h : Reported ring reports) (entry : T) : Reported (ring.push entry) reports := by
  refine ⟨h.sound.push entry, h.nodup, fun q hq => ?_, fun item hitem hreport => ?_⟩
  · rw [push_eq]
    exact Nat.le_succ_of_le (h.le_lastSeq q hq)
  · rw [push_eq] at hitem
    rcases List.mem_append.mp (List.mem_of_mem_drop hitem) with hitem | hitem
    · exact h.delivered item hitem hreport
    · rw [List.mem_singleton.mp hitem, seq_withSeq] at hreport
      have hle := h.le_lastSeq _ hreport
      omega

theorem Reported.markDelivered {reports : List ℕ} (h : Reported ring reports) (through : ℕ) :
    Reported (ring.markDelivered through).1 (reports ++ (ring.items.filter (pending through)).map seq) := by
  have hnew : ∀ q ∈ (ring.items.filter (pending through)).map seq, ∃ item ∈ ring.items,
      pending through item = true ∧ seq item = q := by
    intro q hq
    obtain ⟨item, hitem, rfl⟩ := List.mem_map.mp hq
    obtain ⟨hitem, hpending⟩ := List.mem_filter.mp hitem
    exact ⟨item, hitem, hpending, rfl⟩
  have hundelivered : ∀ item : T, pending through item = true → Deliverable.delivered item = false := by
    intro item hpending
    exact (Bool.not_eq_true' _).mp (Bool.and_eq_true_iff.mp hpending).2
  refine ⟨h.sound.markDelivered through, ?_, ?_, ?_⟩
  · rw [List.nodup_append]
    refine ⟨h.nodup, ?_, ?_⟩
    · exact h.sound.nodup.sublist (List.filter_sublist.map seq)
    · intro q hq q' hq' heq
      obtain ⟨item, hitem, hpending, hseq⟩ := hnew q' hq'
      have hdone := h.delivered item hitem (by rw [hseq, ← heq]; exact hq)
      rw [hundelivered item hpending] at hdone
      exact Bool.false_ne_true hdone
  · intro q hq
    rcases List.mem_append.mp hq with hq | hq
    · exact h.le_lastSeq q hq
    · obtain ⟨item, hitem, -, rfl⟩ := hnew q hq
      exact (h.sound.mem_seqs.mp (List.mem_map_of_mem hitem)).2
  · intro item hitem hreport
    obtain ⟨before, hbefore, rfl⟩ := List.mem_map.mp hitem
    split at hreport
    · next hpending =>
      rw [if_pos hpending]
      exact delivered_deliver before
    · next hpending =>
      rw [if_neg hpending]
      rcases List.mem_append.mp hreport with hreport | hreport
      · exact h.delivered before hbefore hreport
      · obtain ⟨item', hitem', hpending', hseq⟩ := hnew _ hreport
        have heq : item' = before := List.inj_on_of_nodup_map h.sound.nodup hitem' hbefore hseq
        exact absurd (heq ▸ hpending') hpending

theorem Reported.step {reports : List ℕ} (h : Reported ring reports) (op : RingOp T) :
    Reported (ring.step op).1 (reports ++ (ring.step op).2) := by
  rcases op with entry | since | _ | through
  case push =>
    rw [BoundedRing.step, List.append_nil]
    exact h.push entry
  case since =>
    rw [BoundedRing.step, List.append_nil]
    exact h
  case snapshot =>
    rw [BoundedRing.step, List.append_nil]
    exact h
  case markDelivered => exact h.markDelivered through

theorem reported_run (capacity : ℕ) (ops : List (RingOp T)) :
    Reported ((new capacity : BoundedRing T).run ops).1 ((new capacity : BoundedRing T).run ops).2 := by
  induction ops using List.reverseRecOn with
  | nil => exact ⟨sound_new capacity, List.nodup_nil, by simp [run], by simp [run, new]⟩
  | append_singleton ops op ih =>
    rw [run, List.foldl_append]
    exact ih.step op

theorem capacity_run (ring : BoundedRing T) (ops : List (RingOp T)) : (ring.run ops).1.capacity = ring.capacity := by
  induction ops using List.reverseRecOn with
  | nil => rfl
  | append_singleton ops op ih =>
    rw [run, List.foldl_append]
    have hstep : ∀ r : BoundedRing T, (r.step op).1.capacity = r.capacity := by
      intro r
      rcases op with entry | since | _ | through
      · rw [BoundedRing.step, push_eq]
      · rfl
      · rfl
      · rfl
    exact (hstep _).trans ih

end BoundedRing

/-! ### Texts that can be packed -/

/-- C reads a text up to its first NUL. -/
theorem cString_encodeUtf8 (chars : List Char) :
    cString (encodeUtf8 chars) = encodeUtf8 (chars.takeWhile (· ≠ '\x00')) := by
  induction chars with
  | nil => rfl
  | cons c chars ih =>
    by_cases hc : c = '\x00'
    · subst hc
      rfl
    · have hbytes : ∀ b ∈ String.utf8EncodeChar c, decide (b ≠ 0) = true := by
        intro b hb
        rw [decide_eq_true_iff]
        rintro rfl
        exact hc (Char.toNat_inj.mp (toNat_eq_of_mem_utf8EncodeChar hb (by decide)))
      rw [List.takeWhile_cons_of_pos (by simpa using hc)]
      unfold cString encodeUtf8 at ih ⊢
      rw [List.flatMap_cons, List.flatMap_cons, List.takeWhile_append_of_pos hbytes, ih]

/-- A note of valid UTF-8 can be packed, however much of it is clamped. -/
theorem validateUTF8_clampChatText (chars : List Char) :
    (cString (clampChatText (encodeUtf8 chars))).toByteArray.validateUTF8 = true := by
  obtain ⟨k, -, htext, -⟩ := truncateUtf8Bytes_longest chars chatMaxTextBytes
  rw [clampChatText, htext, cString_encodeUtf8, ByteArray.validateUTF8_eq_true_iff]
  exact ⟨_, rfl⟩

/-! ### A client that polls -/

namespace ChatRun

/-- The notes the user has typed, in their order. -/
def typed (events : List ChatEvent) : List (List UInt8 × String) :=
  events.filterMap fun
    | .note text clock => some (text, clock)
    | _ => none

/-- The texts are valid UTF-8. -/
def ValidTexts (events : List ChatEvent) : Prop := ∀ note ∈ typed events, ∃ chars, note.1 = encodeUtf8 chars

/-- A note as a reply brings it. -/
def polledNote (q : ℕ) (note : List UInt8 × String) : PolledNote := ⟨q, cString (clampChatText note.1), note.2⟩

/-- The item of the ring is one of these notes, under its number. -/
def Holds (notes : List (List UInt8 × String)) (item : ChatEntry) : Prop :=
  ∃ note, notes[item.seq - 1]? = some note ∧ item.text = clampChatText note.1 ∧ item.clock = note.2

/-- The ring holds typed notes, and the client has received some of them. -/
structure Polled (events : List ChatEvent) (s : ChatRun) : Prop where
  sound : s.bridge.userNotes.Sound
  count : s.bridge.userNotes.lastSeq = (typed events).length
  holds : ∀ item ∈ s.bridge.userNotes.items, Holds (typed events) item
  cursor : s.cursor ≤ s.bridge.userNotes.lastSeq
  order : (s.received.map (·.seq)).Pairwise (· < ·)
  le_cursor : ∀ note ∈ s.received, 0 < note.seq ∧ note.seq ≤ s.cursor
  genuine : ∀ note ∈ s.received, ∃ typedNote, (typed events)[note.seq - 1]? = some typedNote ∧
    note = polledNote note.seq typedNote

/-- What marking leaves as it is. -/
structure SameNotes (ring ring' : BoundedRing ChatEntry) : Prop where
  lastSeq : ring'.lastSeq = ring.lastSeq
  evicted : ring'.evicted = ring.evicted
  sound : ring.Sound → ring'.Sound
  holds : ∀ notes, (∀ item ∈ ring.items, Holds notes item) → ∀ item ∈ ring'.items, Holds notes item

theorem SameNotes.rfl (ring : BoundedRing ChatEntry) : SameNotes ring ring := ⟨Eq.refl _, Eq.refl _, id, fun _ => id⟩

theorem SameNotes.trans {ring ring' ring'' : BoundedRing ChatEntry} (h : SameNotes ring ring') (h' : SameNotes ring' ring'') :
    SameNotes ring ring'' :=
  ⟨h'.lastSeq.trans h.lastSeq, h'.evicted.trans h.evicted, fun hs => h'.sound (h.sound hs),
    fun notes hnotes => h'.holds notes (h.holds notes hnotes)⟩

theorem sameNotes_markDelivered (ring : BoundedRing ChatEntry) (through : ℕ) :
    SameNotes ring (ring.markDelivered through).1 := by
  refine ⟨Eq.refl _, Eq.refl _, fun h => h.markDelivered through, fun notes hnotes item hitem => ?_⟩
  obtain ⟨before, hbefore, hitem⟩ := List.mem_map.mp hitem
  rw [← hitem]
  split
  · exact hnotes before hbefore
  · exact hnotes before hbefore

theorem sameNotes_marked (ring : BoundedRing ChatEntry) (marks : List ℕ) : SameNotes ring (marked ring marks) := by
  induction marks generalizing ring with
  | nil => exact .rfl ring
  | cons through marks ih => exact (sameNotes_markDelivered ring through).trans (ih _)

theorem getElem?_append_of_some {α : Type} {l more : List α} {i : ℕ} {a : α} (h : l[i]? = some a) :
    (l ++ more)[i]? = some a := by
  obtain ⟨hlt, -⟩ := List.getElem?_eq_some_iff.mp h
  rw [List.getElem?_append_left hlt, h]

theorem Holds.append {notes : List (List UInt8 × String)} {item : ChatEntry} (h : Holds notes item)
    (more : List (List UInt8 × String)) : Holds (notes ++ more) item := by
  obtain ⟨note, hnote, htext⟩ := h
  exact ⟨note, getElem?_append_of_some hnote, htext⟩

theorem Holds.packNote {notes : List (List UInt8 × String)} {item : ChatEntry} (h : Holds notes item)
    (hvalid : ∀ note ∈ notes, ∃ chars, note.1 = encodeUtf8 chars) :
    packNote item = some ⟨item.seq, cString item.text, item.clock⟩ := by
  obtain ⟨note, hnote, htext, -⟩ := h
  obtain ⟨chars, hchars⟩ := hvalid note (List.mem_of_getElem? hnote)
  unfold RackMcp.packNote
  rw [htext, hchars, validateUTF8_clampChatText, if_pos rfl]

/-- The notes of a reply are the items that are held behind the cursor, each packed. -/
theorem reply_notes {events : List ChatEvent} {s : ChatRun} (h : Polled events s) (hvalid : ValidTexts events)
    (marks marks' : List ℕ) :
    (s.reply marks marks').notes =
      (s.bridge.userNotes.items.filter fun item => item.seq > s.cursor).map
        fun item => ⟨item.seq, cString item.text, item.clock⟩ := by
  have hsince : positiveOr0 (Json.get (some (.object [("sinceSeq", .integer s.cursor)])) "sinceSeq") = s.cursor := by
    show (if (s.cursor : ℤ) > 0 then (s.cursor : ℤ).toNat else 0) = s.cursor
    split <;> omega
  show (s.bridge.userNotes.since (positiveOr0 _)).filterMap packNote = _
  rw [hsince, ← List.filterMap_eq_map]
  apply List.filterMap_congr
  intro item hitem
  exact (h.holds item (List.mem_of_mem_filter hitem)).packNote hvalid

/-! ### Every step -/

theorem typed_append (events more : List ChatEvent) : typed (events ++ more) = typed events ++ typed more :=
  List.filterMap_append

theorem ValidTexts.of_append {events more : List ChatEvent} (h : ValidTexts (events ++ more)) : ValidTexts events := by
  intro note hnote
  apply h note
  rw [typed_append]
  exact List.mem_append_left _ hnote

variable {events : List ChatEvent} {s : ChatRun}

/-- Nothing the client has depends on the notes that come later. -/
theorem Polled.genuine_append (h : Polled events s) (more : List ChatEvent) : ∀ note ∈ s.received,
    ∃ typedNote, (typed (events ++ more))[note.seq - 1]? = some typedNote ∧ note = polledNote note.seq typedNote := by
  intro note hnote
  obtain ⟨typedNote, htyped, heq⟩ := h.genuine note hnote
  rw [typed_append]
  exact ⟨typedNote, getElem?_append_of_some htyped, heq⟩

theorem Polled.note (h : Polled events s) (text : List UInt8) (clock : String) :
    Polled (events ++ [.note text clock]) (s.step (.note text clock)) := by
  have htyped : typed (events ++ [.note text clock]) = typed events ++ [(text, clock)] := typed_append _ _
  have hring : (s.step (.note text clock)).bridge.userNotes =
      s.bridge.userNotes.push { text := clampChatText text, clock } := rfl
  have hlast : (s.step (.note text clock)).bridge.userNotes.lastSeq = s.bridge.userNotes.lastSeq + 1 := by
    rw [hring, BoundedRing.push_eq]
  constructor
  case sound => exact h.sound.push _
  case count => rw [hlast, htyped, List.length_append, h.count, List.length_singleton]
  case holds =>
    intro item hitem
    rw [hring, BoundedRing.push_eq] at hitem
    rw [htyped]
    rcases List.mem_append.mp (List.mem_of_mem_drop hitem) with hitem | hitem
    · exact (h.holds item hitem).append _
    · rw [List.mem_singleton.mp hitem]
      refine ⟨(text, clock), ?_, Eq.refl _, Eq.refl _⟩
      show (typed events ++ [(text, clock)])[s.bridge.userNotes.lastSeq + 1 - 1]? = _
      rw [Nat.add_sub_cancel, h.count, List.getElem?_concat_length]
  case cursor =>
    rw [hlast]
    exact Nat.le_succ_of_le h.cursor
  case order => exact h.order
  case le_cursor => exact h.le_cursor
  case genuine => exact h.genuine_append _

/-- A message of the assistant marks notes and leaves them where they are. -/
theorem sameNotes_handleChatPost (payload : Option Json) (clock : String) (bridge : ChatBridge) :
    SameNotes bridge.userNotes (handleChatPost payload clock bridge).2.userNotes := by
  unfold handleChatPost
  split
  · split
    · exact .rfl _
    · exact sameNotes_markDelivered _ _
  · exact .rfl _

theorem Polled.post (h : Polled events s) (payload : Option Json) (clock : String) :
    Polled (events ++ [.post payload clock]) (s.step (.post payload clock)) := by
  have htyped : typed (events ++ [.post payload clock]) = typed events := by
    rw [typed_append]
    exact List.append_nil _
  have hsame : SameNotes s.bridge.userNotes (s.step (.post payload clock)).bridge.userNotes :=
    sameNotes_handleChatPost payload clock s.bridge
  constructor
  case sound => exact hsame.sound h.sound
  case count => rw [hsame.lastSeq, htyped, h.count]
  case holds =>
    rw [htyped]
    exact hsame.holds _ h.holds
  case cursor =>
    rw [hsame.lastSeq]
    exact h.cursor
  case order => exact h.order
  case le_cursor => exact h.le_cursor
  case genuine => exact h.genuine_append _

/-- The notes of a reply lie behind the cursor, and up to the new one. -/
theorem Polled.reply_seqs (h : Polled events s) (hvalid : ValidTexts events) (marks marks' : List ℕ) {q : ℕ} :
    q ∈ (s.reply marks marks').notes.map (·.seq) ↔ s.cursor < q ∧ q ∈ s.bridge.userNotes.items.map seq := by
  rw [reply_notes h hvalid, List.map_map, List.mem_map]
  constructor
  · rintro ⟨item, hitem, rfl⟩
    obtain ⟨hitem, hcursor⟩ := List.mem_filter.mp hitem
    exact ⟨of_decide_eq_true hcursor, List.mem_map_of_mem hitem⟩
  · rintro ⟨hcursor, hq⟩
    obtain ⟨item, hitem, rfl⟩ := List.mem_map.mp hq
    exact ⟨item, List.mem_filter.mpr ⟨hitem, decide_eq_true hcursor⟩, Eq.refl _⟩

theorem lastSeq_reply (s : ChatRun) (marks marks' : List ℕ) :
    (s.reply marks marks').lastSeq = s.bridge.userNotes.lastSeq := (sameNotes_marked _ _).lastSeq

theorem Polled.poll (h : Polled events s) (hvalid : ValidTexts events) (marks marks' : List ℕ) :
    Polled (events ++ [.poll marks marks']) (s.step (.poll marks marks')) := by
  have htyped : typed (events ++ [.poll marks marks']) = typed events := by
    rw [typed_append]
    exact List.append_nil _
  have hsame : SameNotes s.bridge.userNotes (s.step (.poll marks marks')).bridge.userNotes :=
    (sameNotes_marked _ marks).trans (sameNotes_marked _ marks')
  have hcursor : (s.step (.poll marks marks')).cursor = s.bridge.userNotes.lastSeq := lastSeq_reply s marks marks'
  have hnew : ∀ note ∈ (s.reply marks marks').notes,
      s.cursor < note.seq ∧ note.seq ∈ s.bridge.userNotes.items.map seq := by
    intro note hnote
    exact (h.reply_seqs hvalid marks marks').mp (List.mem_map_of_mem hnote)
  constructor
  case sound => exact hsame.sound h.sound
  case count => rw [hsame.lastSeq, htyped, h.count]
  case holds =>
    rw [htyped]
    exact hsame.holds _ h.holds
  case cursor => rw [hcursor, hsame.lastSeq]
  case order =>
    show ((s.received ++ (s.reply marks marks').notes).map (·.seq)).Pairwise (· < ·)
    rw [List.map_append, List.pairwise_append]
    refine ⟨h.order, ?_, ?_⟩
    · rw [reply_notes h hvalid, List.map_map]
      have hsorted : (s.bridge.userNotes.items.map seq).Pairwise (· < ·) := by
        rw [h.sound.seqs]
        exact List.pairwise_lt_range'
      exact hsorted.sublist (List.filter_sublist.map seq)
    · intro q hq q' hq'
      obtain ⟨note, hnote, rfl⟩ := List.mem_map.mp hq
      have hbehind := ((h.reply_seqs hvalid marks marks').mp hq').1
      have hbefore := (h.le_cursor note hnote).2
      omega
  case le_cursor =>
    intro note hnote
    rw [hcursor]
    rcases List.mem_append.mp hnote with hnote | hnote
    · have hbefore := h.le_cursor note hnote
      have hle := h.cursor
      omega
    · have hheld := h.sound.mem_seqs.mp (hnew note hnote).2
      omega
  case genuine =>
    intro note hnote
    rcases List.mem_append.mp hnote with hnote | hnote
    · exact h.genuine_append _ note hnote
    · rw [reply_notes h hvalid] at hnote
      obtain ⟨item, hitem, rfl⟩ := List.mem_map.mp hnote
      obtain ⟨typedNote, hheld, htext, hclock⟩ := h.holds item (List.mem_of_mem_filter hitem)
      rw [htyped]
      refine ⟨typedNote, hheld, ?_⟩
      rw [polledNote, htext, hclock]

theorem Polled.step (h : Polled events s) (hvalid : ValidTexts events) (event : ChatEvent) :
    Polled (events ++ [event]) (s.step event) := by
  rcases event with ⟨text, clock⟩ | ⟨payload, clock⟩ | ⟨marks, marks'⟩
  case note => exact h.note text clock
  case post => exact h.post payload clock
  case poll => exact h.poll hvalid marks marks'

/-! ### Every run -/

theorem run_append (s : ChatRun) (events more : List ChatEvent) : s.run (events ++ more) = (s.run events).run more :=
  List.foldl_append

theorem polled_run (capacity capacity' : ℕ) (events : List ChatEvent) (hvalid : ValidTexts events) :
    Polled events ((start capacity capacity').run events) := by
  induction events using List.reverseRecOn with
  | nil =>
    constructor
    case sound => exact BoundedRing.sound_new capacity
    case count => rfl
    case holds => simp [start, run, BoundedRing.new]
    case cursor => exact Nat.le_refl _
    case order => exact List.Pairwise.nil
    case le_cursor => simp [start, run]
    case genuine => simp [start, run]
  | append_singleton events event ih =>
    rw [run_append]
    exact (ih hvalid.of_append).step hvalid.of_append event

/-- The first poll after note `q` was typed comes right behind `before`. -/
structure FirstPoll (events : List ChatEvent) (q : ℕ) (before : List ChatEvent) : Prop where
  polls : ∃ marks marks' after, events = before ++ .poll marks marks' :: after
  typedBefore : q ≤ (typed before).length
  first : ∀ earlier marks marks' rest, before = earlier ++ .poll marks marks' :: rest → (typed earlier).length < q

/-- The cursor is how many notes were typed when the client last polled. -/
theorem cursor_run (capacity capacity' : ℕ) (events : List ChatEvent) (hvalid : ValidTexts events) :
    ((start capacity capacity').run events).cursor = 0 ∨
      ∃ before marks marks' after, events = before ++ .poll marks marks' :: after ∧
        ((start capacity capacity').run events).cursor = (typed before).length := by
  induction events using List.reverseRecOn with
  | nil => exact .inl rfl
  | append_singleton events event ih =>
    rw [run_append]
    have hstay : (((start capacity capacity').run events).step event).cursor =
        ((start capacity capacity').run events).cursor →
        (((start capacity capacity').run events).step event).cursor = 0 ∨
          ∃ before marks marks' after, events ++ [event] = before ++ .poll marks marks' :: after ∧
            (((start capacity capacity').run events).step event).cursor = (typed before).length := by
      intro hsame
      rw [hsame]
      rcases ih hvalid.of_append with hzero | ⟨before, marks, marks', after, hevents, hcursor⟩
      · exact .inl hzero
      · refine .inr ⟨before, marks, marks', after ++ [event], ?_, hcursor⟩
        rw [hevents, List.append_assoc, List.cons_append]
    rcases event with ⟨text, clock⟩ | ⟨payload, clock⟩ | ⟨marks, marks'⟩
    case note => exact hstay rfl
    case post => exact hstay rfl
    case poll =>
      refine .inr ⟨events, marks, marks', [], Eq.refl _, ?_⟩
      rw [← (polled_run capacity capacity' events hvalid.of_append).count]
      exact lastSeq_reply _ marks marks'

/-- What the client has of the notes up to its cursor is settled. -/
theorem received_run (h : Polled events s) {more : List ChatEvent} (hvalid : ValidTexts (events ++ more)) {q : ℕ}
    (hq : q ≤ s.cursor) : q ∈ (s.run more).received.map (·.seq) ↔ q ∈ s.received.map (·.seq) := by
  induction more generalizing events s with
  | nil => exact Iff.rfl
  | cons event more ih =>
    rw [List.append_cons] at hvalid
    have hprev : ValidTexts events := hvalid.of_append.of_append
    have hnext : Polled (events ++ [event]) (s.step event) := h.step hprev event
    have hcursor : s.cursor ≤ (s.step event).cursor := by
      rcases event with ⟨text, clock⟩ | ⟨payload, clock⟩ | ⟨marks, marks'⟩
      case note => exact Nat.le_refl _
      case post => exact Nat.le_refl _
      case poll => exact (h.cursor).trans_eq (lastSeq_reply s marks marks').symm
    refine (ih hnext hvalid (hq.trans hcursor)).trans ?_
    rcases event with ⟨text, clock⟩ | ⟨payload, clock⟩ | ⟨marks, marks'⟩
    case note => exact Iff.rfl
    case post => exact Iff.rfl
    case poll =>
      show q ∈ (s.received ++ (s.reply marks marks').notes).map (·.seq) ↔ _
      rw [List.map_append, List.mem_append, h.reply_seqs hprev]
      constructor
      · rintro (hreceived | ⟨hbehind, -⟩)
        · exact hreceived
        · omega
      · exact .inl

/-- A note that was typed before the first poll after it is received just when it is still held then. -/
theorem mem_received_iff (capacity capacity' : ℕ) (events before : List ChatEvent) (hvalid : ValidTexts events) {q : ℕ}
    (hpos : 0 < q) (hfirst : FirstPoll events q before) :
    q ∈ ((start capacity capacity').run events).received.map (·.seq) ↔
      q ∈ ((start capacity capacity').run before).bridge.userNotes.items.map seq := by
  obtain ⟨marks, marks', after, hevents⟩ := hfirst.polls
  rw [List.append_cons] at hevents
  rw [hevents] at hvalid ⊢
  have hprev : ValidTexts before := hvalid.of_append.of_append
  have hpolled := polled_run capacity capacity' before hprev
  have hcursor : ((start capacity capacity').run before).cursor < q := by
    rcases cursor_run capacity capacity' before hprev with hzero | ⟨earlier, m, m', rest, hbefore, hcursor⟩
    · rw [hzero]
      exact hpos
    · rw [hcursor]
      exact hfirst.first earlier m m' rest hbefore
  have hreached : q ≤ ((start capacity capacity').run (before ++ [.poll marks marks'])).cursor := by
    rw [run_append]
    exact hfirst.typedBefore.trans_eq (hpolled.count.symm.trans (lastSeq_reply _ marks marks').symm)
  rw [run_append, received_run (polled_run capacity capacity' _ hvalid.of_append) hvalid hreached, run_append]
  show q ∈ (_ ++ (((start capacity capacity').run before).reply marks marks').notes).map (·.seq) ↔ _
  rw [List.map_append, List.mem_append, hpolled.reply_seqs hprev]
  constructor
  · rintro (hreceived | ⟨-, hheld⟩)
    · obtain ⟨note, hnote, rfl⟩ := List.mem_map.mp hreceived
      have hle := (hpolled.le_cursor note hnote).2
      omega
    · exact hheld
  · intro hheld
    exact .inr ⟨hcursor, hheld⟩

/-- A note that is typed before a poll has a first poll after it. -/
theorem exists_firstPoll {events before after : List ChatEvent} {marks marks' : List ℕ}
    (hevents : events = before ++ .poll marks marks' :: after) {q : ℕ} (hq : q ≤ (typed before).length) :
    ∃ first, FirstPoll events q first := by
  induction hn : before.length using Nat.strongRecOn generalizing before marks marks' after with
  | ind n ih =>
    by_cases hfirst : ∀ earlier m m' rest, before = earlier ++ .poll m m' :: rest → (typed earlier).length < q
    · exact ⟨before, ⟨marks, marks', after, hevents⟩, hq, hfirst⟩
    · simp only [not_forall, not_lt] at hfirst
      obtain ⟨earlier, m, m', rest, hbefore, hle⟩ := hfirst
      have hshort : earlier.length < n := by
        rw [← hn, hbefore, List.length_append, List.length_cons]
        omega
      have hsplit : events = earlier ++ .poll m m' :: (rest ++ .poll marks marks' :: after) := by
        rw [hevents, hbefore, List.append_assoc, List.cons_append]
      exact ih _ hshort hsplit hle rfl

/-- A received note was typed before a poll. -/
theorem exists_poll_of_received (capacity capacity' : ℕ) (events : List ChatEvent) (hvalid : ValidTexts events)
    {note : PolledNote} (hnote : note ∈ ((start capacity capacity').run events).received) :
    ∃ first, FirstPoll events note.seq first := by
  obtain ⟨hpos, hle⟩ := (polled_run capacity capacity' events hvalid).le_cursor note hnote
  rcases cursor_run capacity capacity' events hvalid with hzero | ⟨before, marks, marks', after, hevents, hcursor⟩
  · omega
  · exact exists_firstPoll hevents (hle.trans_eq hcursor)

end ChatRun

open ChatRun in
/-- Whatever is done with a ring, it holds the newest entries under consecutive numbers and reports each at most once; so
a client that polls receives each note at most once and in order, and just those that are held at the first poll after
they were typed. -/
theorem notes_delivered_once {T : Type} [Deliverable T] (capacity : ℕ) (ops : List (RingOp T))
    (userCapacity assistantCapacity : ℕ) (events : List ChatEvent) (hvalid : ValidTexts events) :
    let ring := ((BoundedRing.new capacity : BoundedRing T).run ops).1
    let reports := ((BoundedRing.new capacity : BoundedRing T).run ops).2
    let after := (start userCapacity assistantCapacity).run
    ring.items.map seq = List.range' (ring.lastSeq + 1 - ring.items.length) ring.items.length ∧
      ring.items.length ≤ (if capacity = 0 then 1 else capacity) ∧
      ring.evicted + ring.items.length = ring.lastSeq ∧
      (∀ through, (ring.markDelivered through).1.markDelivered through = ((ring.markDelivered through).1, 0) ∧
        (ring.markDelivered through).2 = (ring.step (.markDelivered through)).2.length) ∧
      reports.Nodup ∧
      ((after events).received.map (·.seq)).Pairwise (· < ·) ∧
      (∀ note ∈ (after events).received, 0 < note.seq ∧
        ∃ typedNote, (typed events)[note.seq - 1]? = some typedNote ∧ note = polledNote note.seq typedNote) ∧
      (∀ note ∈ (after events).received, ∃ before, FirstPoll events note.seq before) ∧
      (∀ before marks marks' rest, events = before ++ .poll marks marks' :: rest →
        ∀ q ≤ (typed before).length, ∃ first, FirstPoll events q first) ∧
      ∀ q > 0, ∀ before, FirstPoll events q before →
        (q ∈ (after events).received.map (·.seq) ↔ q ∈ (after before).bridge.userNotes.items.map seq) ∧
          (q ∉ (after events).received.map (·.seq) ↔ q ≤ (after before).bridge.userNotes.evicted) := by
  have hring := BoundedRing.reported_run (T := T) capacity ops
  have hpolled := polled_run userCapacity assistantCapacity events hvalid
  intro ring reports after
  have hcount : ring.evicted + ring.items.length = ring.lastSeq := hring.sound.count
  have hcapacity : ring.capacity = if capacity = 0 then 1 else capacity := BoundedRing.capacity_run _ ops
  refine ⟨?_, hcapacity ▸ hring.sound.bounded, hcount, fun through => ⟨?_, ?_⟩, hring.nodup, hpolled.order, ?_, ?_, ?_, ?_⟩
  · have hfirst : ring.lastSeq + 1 - ring.items.length = ring.evicted + 1 := by omega
    rw [hfirst]
    exact hring.sound.seqs
  · exact ring.markDelivered_markDelivered through
  · show ring.items.countP _ = ((ring.items.filter _).map seq).length
    rw [List.length_map, List.countP_eq_length_filter]
  · intro note hnote
    exact ⟨(hpolled.le_cursor note hnote).1, hpolled.genuine note hnote⟩
  · intro note hnote
    exact exists_poll_of_received userCapacity assistantCapacity events hvalid hnote
  · intro before marks marks' rest hevents q hq
    exact exists_firstPoll hevents hq
  · intro q hpos before hfirst
    have hheld := mem_received_iff userCapacity assistantCapacity events before hvalid hpos hfirst
    obtain ⟨marks, marks', rest, hevents⟩ := hfirst.polls
    have hbefore := polled_run userCapacity assistantCapacity before (hevents ▸ hvalid).of_append
    have hlast : q ≤ (after before).bridge.userNotes.lastSeq := hfirst.typedBefore.trans_eq hbefore.count.symm
    have hseqs : q ∈ (after before).bridge.userNotes.items.map seq ↔
        (after before).bridge.userNotes.evicted < q ∧ q ≤ (after before).bridge.userNotes.lastSeq :=
      hbefore.sound.mem_seqs
    refine ⟨hheld, ?_⟩
    rw [hheld, hseqs]
    omega

/-- Of three notes in a ring for two the first is lost. -/
theorem notes_delivered_once_of_three :
    let events := [.note [0x61] "1", .note [0x62] "2", .note [0x63] "3", .poll [] [2], .poll [] []]
    let received := ((ChatRun.start 2 1).run events).received.map (·.seq)
    ChatRun.ValidTexts events ∧ received = [2, 3] ∧ received.Pairwise (· < ·) := by
  intro events received
  have hvalid : ChatRun.ValidTexts events := by
    intro note hnote
    have hnotes : ChatRun.typed events = [([0x61], "1"), ([0x62], "2"), ([0x63], "3")] := rfl
    rw [hnotes] at hnote
    simp only [List.mem_cons, List.not_mem_nil, or_false] at hnote
    rcases hnote with rfl | rfl | rfl
    · exact ⟨['a'], by decide⟩
    · exact ⟨['b'], by decide⟩
    · exact ⟨['c'], by decide⟩
  obtain ⟨-, -, -, -, -, horder, -⟩ := notes_delivered_once (T := ChatEntry) 2 [] 2 1 events hvalid
  exact ⟨hvalid, by decide +kernel, horder⟩

end RackMcp
