import RackMcp.Server.UserNotes
import Mathlib.Order.MinMax

/-!
# What the user-note hint promises

While the flag is down, every note whose event has arrived has been returned by a completed call, or the ring had
no room for it (`notes_hinted`). Frames arrive in the order in which the plugin writes them, so a response
accounts for every note whose event is before it. A call clears the flag when its chunk is done, and the theorem
leaves out the runs in which an event comes after the last response of such a chunk: that event is cleared too.
-/

namespace RackMcp.Server

namespace BoundedRing
variable {ring : BoundedRing}

/-- What is in the ring after a number is returned for it. -/
theorem mem_since {m seq : ℕ} (hseq : seq < m) (hevicted : ring.evicted < m) (hlast : m ≤ ring.lastSeq) :
    m ∈ (ring.since seq).map ChatEntry.seq := by
  have hcount := ring.count
  have hmem : m ∈ ring.items.map ChatEntry.seq := by
    rw [ring.seqs, List.mem_range'_1]
    omega
  obtain ⟨item, hitem, rfl⟩ := List.mem_map.mp hmem
  exact List.mem_map_of_mem (List.mem_filter.mpr ⟨hitem, decide_eq_true hseq⟩)

theorem evicted_le_push (ring : BoundedRing) (text : String) : ring.evicted ≤ (ring.push text).evicted := Nat.le_add_right _ _

end BoundedRing

/-! ### A chunk -/

/-- The notes whose events are among the frames. -/
def rungBy (frames : List NoteFrame) : List ℕ :=
  frames.filterMap fun
    | .userNotePending seq => some seq
    | .res _ _ => none

/-- A response accounts for the event before it. -/
def Before : NoteFrame → NoteFrame → Prop
  | .userNotePending seq, .res _ (some result) => seq ≤ result.lastSeq
  | _, _ => True

theorem mem_rungBy {frames : List NoteFrame} {seq : ℕ} : seq ∈ rungBy frames ↔ .userNotePending seq ∈ frames := by
  unfold rungBy
  rw [List.mem_filterMap]
  constructor
  · rintro ⟨frame, hframe, heq⟩
    rcases frame with seq' | ⟨id, reply⟩
    · obtain rfl := Option.some.inj heq
      exact hframe
    · cases heq
  · intro h
    exact ⟨_, h, rfl⟩

/-- Dispatched, the frames leave their events. -/
theorem rungBy_sublist (frames : List NoteFrame) : ((rungBy frames).map NoteFrame.userNotePending).Sublist frames := by
  induction frames with
  | nil => exact List.Sublist.slnil
  | cons frame frames ih =>
    rcases frame with seq | ⟨id, reply⟩
    · exact ih.cons_cons _
    · exact ih.cons _

/-- What dispatching frames from a state comes to. -/
structure DispatchesTo (d₀ : Dispatched) (frames : List NoteFrame) (d : Dispatched) : Prop where
  received : d.received = d₀.received ++ rungBy frames
  flag : d.userNotesPending = false → d₀.userNotesPending = false ∧ rungBy frames = []
  resolved : ∀ result ∈ d.resolved, ∃ id, .res id (some result) ∈ frames
  covered : d.resolved ≠ [] → d.late = false → ∀ seq ∈ d.received, ∃ result ∈ d.resolved, seq ≤ result.lastSeq

theorem dispatchesTo {d₀ : Dispatched} (hnew : d₀.resolved = []) {frames : List NoteFrame}
    (horder : (d₀.received.map NoteFrame.userNotePending ++ frames).Pairwise Before) :
    DispatchesTo d₀ frames (frames.foldl Dispatched.dispatch d₀) := by
  induction frames using List.reverseRecOn with
  | nil =>
    refine ⟨(List.append_nil _).symm, fun h => ⟨h, rfl⟩, fun result h => ?_, fun h => absurd hnew h⟩
    rw [List.foldl_nil, hnew] at h
    cases h
  | append_singleton frames frame ih =>
    rw [← List.append_assoc, List.pairwise_append] at horder
    obtain ⟨hearlier, -, hlast⟩ := horder
    have hd := ih hearlier
    rw [List.foldl_append, List.foldl_cons, List.foldl_nil]
    generalize frames.foldl Dispatched.dispatch d₀ = d at hd ⊢
    have hmem {result : ChatPollResult} (h : result ∈ d.resolved) :
        ∃ id, .res id (some result) ∈ frames ++ [frame] := by
      obtain ⟨id, hid⟩ := hd.resolved result h
      exact ⟨id, List.mem_append_left _ hid⟩
    rcases frame with seq | ⟨id, reply⟩
    · have hrung : rungBy (frames ++ [.userNotePending seq]) = rungBy frames ++ [seq] := List.filterMap_append
      refine ⟨?_, nofun, fun result h => hmem h, fun hne hlate => ?_⟩
      · rw [hrung, ← List.append_assoc, ← hd.received]
        rfl
      · -- an event after a resolved call is late
        have hempty : d.resolved.isEmpty = true := by
          simpa [Dispatched.dispatch] using hlate
        exact absurd (List.isEmpty_iff.mp hempty) hne
    · have hrung : rungBy (frames ++ [.res id reply]) = rungBy frames := by
        show List.filterMap _ _ = _
        rw [List.filterMap_append]
        exact List.append_nil _
      have hsame {d' : Dispatched} (hreceived : d'.received = d.received)
          (hflag : d'.userNotesPending = d.userNotesPending) (hresolved : d'.resolved = d.resolved)
          (hlate : d'.late = d.late) : DispatchesTo d₀ (frames ++ [.res id reply]) d' := by
        refine ⟨by rw [hrung, hreceived, hd.received], fun h => ?_, fun result h => hmem (hresolved ▸ h), ?_⟩
        · rw [hrung]
          exact hd.flag (hflag ▸ h)
        · rw [hresolved, hlate, hreceived]
          exact hd.covered
      unfold Dispatched.dispatch
      dsimp only
      by_cases hpending : id ∈ d.pending
      · rw [if_pos hpending]
        rcases reply with _ | result
        · exact hsame rfl rfl rfl rfl
        · refine ⟨by rw [hrung, ← hd.received], fun h => ?_, fun result' h => ?_, fun _ _ seq hseq => ?_⟩
          · rw [hrung]
            exact hd.flag h
          · rcases List.mem_append.mp h with h | h
            · exact hmem h
            · rw [List.mem_singleton.mp h]
              exact ⟨id, List.mem_append_right _ (List.mem_singleton_self _)⟩
          · -- the response is the last frame, so it accounts for all events
            have hframe : .userNotePending seq ∈ d₀.received.map NoteFrame.userNotePending ++ frames := by
              rw [hd.received, List.mem_append] at hseq
              rcases hseq with hseq | hseq
              · exact List.mem_append_left _ (List.mem_map_of_mem hseq)
              · exact List.mem_append_right _ (mem_rungBy.mp hseq)
            exact ⟨result, List.mem_append_right _ (List.mem_singleton_self _),
              hlast _ hframe _ (List.mem_singleton_self _)⟩
      · rw [if_neg hpending]
        exact hsame rfl rfl rfl rfl

namespace NoteLink
variable {s : NoteLink}

/-! ### The invariant -/

/-- A note that a completed call has returned, or that the ring has no room for any more. -/
def Accounted (s : NoteLink) (seq : ℕ) : Prop :=
  (∃ result ∈ s.results, seq ∈ result.notes.map ChatEntry.seq) ∨ seq ≤ s.ring.evicted

/-- The events that have arrived, and then the frames that have not. -/
def track (s : NoteLink) : List NoteFrame := s.received.map .userNotePending ++ s.wire

theorem le_returned {seq : ℕ} : seq ≤ s.returned ↔ seq = 0 ∨ ∃ result ∈ s.results, seq ≤ result.lastSeq := by
  unfold returned
  induction s.results with
  | nil => simp
  | cons result results ih =>
    rw [List.map_cons, List.foldr_cons, le_max_iff, ih]
    simp only [List.mem_cons, exists_eq_or_imp]
    exact or_left_comm

/-- What every run keeps. -/
structure Sound (s : NoteLink) : Prop where
  asked : ∀ r ∈ s.requests, r.2 ≤ s.returned
  answers : ∀ id result, .res id (some result) ∈ s.wire → ∀ seq, 0 < seq → seq ≤ result.lastSeq →
    seq ∈ result.notes.map ChatEntry.seq ∨ seq ≤ s.ring.evicted ∨ seq ≤ s.returned
  returned : ∀ seq, 0 < seq → seq ≤ s.returned → s.Accounted seq
  rung : ∀ seq, .userNotePending seq ∈ s.track → 0 < seq ∧ seq ≤ s.ring.lastSeq
  order : s.track.Pairwise Before
  flag : s.userNotesPending = false → ∀ seq ∈ s.received, seq ≤ s.returned

theorem sound_start (ring : BoundedRing) (flag : Bool) : (start ring flag).Sound where
  asked r hr := by cases hr
  answers id result h := by cases h
  returned seq hpos hle := by
    have hzero : seq ≤ 0 := hle
    omega
  rung seq h := by cases h
  order := List.Pairwise.nil
  flag _ seq h := by cases h

theorem Accounted.mono {s' : NoteLink} {seq : ℕ} (h : s.Accounted seq) (hresults : s.results ⊆ s'.results)
    (hevicted : s.ring.evicted ≤ s'.ring.evicted) : s'.Accounted seq := by
  rcases h with ⟨result, hresult, hseq⟩ | hseq
  · exact .inl ⟨result, hresults hresult, hseq⟩
  · exact .inr (hseq.trans hevicted)

/-! ### The steps -/

theorem Sound.post (h : s.Sound) (text : String) (queued : Bool) : (s.step (.post text queued)).1.Sound := by
  have hevicted := BoundedRing.evicted_le_push s.ring text
  unfold step
  dsimp only
  have hdoorbell : ∀ frame ∈ (if queued ∧ s.isOpen then [NoteFrame.userNotePending (s.ring.push text).lastSeq] else []),
      frame = .userNotePending (s.ring.lastSeq + 1) := by
    intro frame hframe
    split at hframe
    · exact List.mem_singleton.mp hframe
    · cases hframe
  generalize (if queued ∧ s.isOpen then [NoteFrame.userNotePending (s.ring.push text).lastSeq] else []) = doorbell
    at hdoorbell
  refine ⟨h.asked, fun id result hres seq hpos hle => ?_, fun seq hpos hle => ?_, fun seq hmem => ?_, ?_, h.flag⟩
  · rcases List.mem_append.mp hres with hres | hres
    · rcases h.answers id result hres seq hpos hle with hnote | hout | hreturned
      · exact .inl hnote
      · exact .inr (.inl (hout.trans hevicted))
      · exact .inr (.inr hreturned)
    · cases hdoorbell _ hres
  · exact (h.returned seq hpos hle).mono (fun _ => id) hevicted
  · have hlast : (s.ring.push text).lastSeq = s.ring.lastSeq + 1 := rfl
    show 0 < seq ∧ seq ≤ (s.ring.push text).lastSeq
    unfold track at hmem
    rw [← List.append_assoc, List.mem_append] at hmem
    rcases hmem with hmem | hmem
    · have hrung := h.rung seq hmem
      omega
    · obtain rfl := NoteFrame.userNotePending.inj (hdoorbell _ hmem)
      omega
  · show List.Pairwise Before (_ ++ (s.wire ++ doorbell))
    rw [← List.append_assoc, List.pairwise_append]
    refine ⟨h.order, ?_, fun frame _ event hevent => ?_⟩
    · refine List.pairwise_of_forall_mem_list fun a ha b hb => ?_
      rw [hdoorbell b hb]
      rcases a with seq | ⟨id, reply⟩ <;> trivial
    · rw [hdoorbell event hevent]
      rcases frame with seq | ⟨id, reply⟩ <;> trivial

theorem Sound.call (h : s.Sound) {sinceSeq : ℕ} (hsince : sinceSeq ≤ s.returned) :
    (s.step (.call sinceSeq)).1.Sound := by
  unfold step
  dsimp only
  split
  · refine ⟨fun r hr => ?_, h.answers, h.returned, h.rung, h.order, h.flag⟩
    rcases List.mem_append.mp hr with hr | hr
    · exact h.asked r hr
    · rw [List.mem_singleton.mp hr]
      exact hsince
  · exact h

theorem Sound.answer (h : s.Sound) (index : ℕ) (handled : Bool) : (s.step (.answer index handled)).1.Sound := by
  unfold step
  dsimp only
  split
  · next id sinceSeq hrequest =>
    have hasked : sinceSeq ≤ s.returned := h.asked _ (List.mem_of_getElem? hrequest)
    refine ⟨fun r hr => h.asked r (List.mem_of_mem_eraseIdx hr), fun id' result hres seq hpos hle => ?_, h.returned,
      fun seq hmem => ?_, ?_, h.flag⟩
    · rcases List.mem_append.mp hres with hres | hres
      · exact h.answers id' result hres seq hpos hle
      · -- what the poll does not return was returned before, or has been evicted
        obtain ⟨-, hresult⟩ := NoteFrame.res.inj (List.mem_singleton.mp hres)
        rcases handled with _ | _
        · cases hresult
        · obtain rfl := Option.some.inj hresult
          by_cases hnew : sinceSeq < seq
          · by_cases hheld : s.ring.evicted < seq
            · exact .inl (BoundedRing.mem_since hnew hheld hle)
            · exact .inr (.inl (Nat.le_of_not_lt hheld))
          · exact .inr (.inr ((Nat.le_of_not_lt hnew).trans hasked))
    · unfold track at hmem
      rw [← List.append_assoc, List.mem_append] at hmem
      rcases hmem with hmem | hmem
      · exact h.rung seq hmem
      · cases List.mem_singleton.mp hmem
    · show List.Pairwise Before (_ ++ (s.wire ++ [_]))
      rw [← List.append_assoc, List.pairwise_append]
      refine ⟨h.order, List.pairwise_singleton _ _, fun frame hframe response hresponse => ?_⟩
      rw [List.mem_singleton.mp hresponse]
      rcases frame with seq | ⟨id', reply⟩
      · rcases handled with _ | _
        · trivial
        · exact (h.rung seq hframe).2
      · trivial
  · exact h

theorem Sound.onData (h : s.Sound) {frames : ℕ} (hlate : (s.dispatched frames).late = false) :
    (s.onData frames).Sound := by
  have hwire : s.wire = s.wire.take frames ++ s.wire.drop frames := (List.take_append_drop _ _).symm
  have horder := h.order
  unfold track at horder
  rw [hwire, ← List.append_assoc] at horder
  have hd : DispatchesTo _ (s.wire.take frames) (s.dispatched frames) :=
    dispatchesTo rfl (List.pairwise_append.mp horder).1
  generalize hd' : s.dispatched frames = d at hd hlate
  have hresponse : ∀ result ∈ d.resolved, ∃ id, .res id (some result) ∈ s.wire := by
    intro result hresult
    obtain ⟨id, hid⟩ := hd.resolved result hresult
    exact ⟨id, List.mem_of_mem_take hid⟩
  have hs' : s.onData frames =
      { s with
        wire := s.wire.drop frames
        pending := d.pending
        userNotesPending := d.resolved.isEmpty && d.userNotesPending
        received := d.received
        results := s.results ++ d.resolved } := by
    rw [← hd']
    rfl
  generalize s.onData frames = s' at hs' ⊢
  have hresults : s'.results = s.results ++ d.resolved := by rw [hs']
  have hring : s'.ring = s.ring := by rw [hs']
  have hkept : s.results ⊆ s'.results := by
    rw [hresults]
    exact List.subset_append_left _ _
  have hgrows : s.returned ≤ s'.returned := by
    rcases le_returned.mp (Nat.le_refl s.returned) with hzero | ⟨result, hresult, hle⟩
    · omega
    · exact le_returned.mpr (.inr ⟨result, hkept hresult, hle⟩)
  have htrack : s'.track.Sublist s.track := by
    have hsplit : s.track = s.received.map .userNotePending ++ s.wire.take frames ++ s.wire.drop frames := by
      rw [List.append_assoc, List.take_append_drop]
      rfl
    have hleft : s'.track = (s.received ++ rungBy (s.wire.take frames)).map .userNotePending ++ s.wire.drop frames := by
      rw [hs']
      exact congrArg (fun l => l.map NoteFrame.userNotePending ++ s.wire.drop frames) hd.received
    rw [hsplit, hleft, List.map_append]
    exact ((List.Sublist.refl _).append (rungBy_sublist _)).append (List.Sublist.refl _)
  refine ⟨fun r hr => ?_, fun id result hres seq hpos hle => ?_, fun seq hpos hle => ?_, fun seq hmem => ?_,
    h.order.sublist htrack, fun hflag seq hseq => ?_⟩
  · rw [hs'] at hr
    exact (h.asked r hr).trans hgrows
  · rw [hs'] at hres
    rw [hring]
    rcases h.answers id result (List.mem_of_mem_drop hres) seq hpos hle with hnote | hout | hreturned
    · exact .inl hnote
    · exact .inr (.inl hout)
    · exact .inr (.inr (hreturned.trans hgrows))
  · have hold (hle : seq ≤ s.returned) : s'.Accounted seq :=
      (h.returned seq hpos hle).mono hkept (Nat.le_of_eq (congrArg BoundedRing.evicted hring.symm))
    rcases le_returned.mp hle with hzero | ⟨result, hresult, hle⟩
    · omega
    rw [hresults, List.mem_append] at hresult
    rcases hresult with hresult | hresult
    · exact hold (le_returned.mpr (.inr ⟨result, hresult, hle⟩))
    · obtain ⟨id, hid⟩ := hresponse result hresult
      rcases h.answers id result hid seq hpos hle with hnote | hout | hreturned
      · refine .inl ⟨result, ?_, hnote⟩
        rw [hresults]
        exact List.mem_append_right _ hresult
      · refine .inr ?_
        rw [hring]
        exact hout
      · exact hold hreturned
  · rw [hring]
    exact h.rung seq (htrack.subset hmem)
  · rw [hs'] at hflag hseq
    have hflag : (d.resolved.isEmpty && d.userNotesPending) = false := hflag
    rcases hresolved : d.resolved with _ | ⟨first, rest⟩
    · rw [hresolved] at hflag
      obtain ⟨hdown, hnone⟩ := hd.flag hflag
      have hsame : d.received = s.received := by
        rw [hd.received, hnone]
        exact List.append_nil _
      exact (h.flag hdown seq (hsame ▸ hseq)).trans hgrows
    · have hne : d.resolved ≠ [] := by
        rw [hresolved]
        exact List.cons_ne_nil _ _
      obtain ⟨result, hresult, hle⟩ := hd.covered hne hlate seq hseq
      refine le_returned.mpr (.inr ⟨result, ?_, hle⟩)
      rw [hresults]
      exact List.mem_append_right _ hresult

theorem Sound.connect (h : s.Sound) : (s.step .connect).1.Sound := by
  have htrack : (s.step .connect).1.track.Sublist s.track := by
    show (s.received.map NoteFrame.userNotePending ++ []).Sublist (s.received.map NoteFrame.userNotePending ++ s.wire)
    exact (List.Sublist.refl _).append (List.nil_sublist _)
  exact ⟨nofun, nofun, h.returned, fun seq hmem => h.rung seq (htrack.subset hmem), h.order.sublist htrack, h.flag⟩

/-- Every step keeps the invariant, if a poll asks from a number that was returned and no event is late. -/
theorem sound_step (h : s.Sound) (e : NoteEvent) (hsince : ∀ sinceSeq, e = .call sinceSeq → sinceSeq ≤ s.returned)
    (hlate : ∀ frames, e = .chunk frames → (s.dispatched frames).late = false) : (s.step e).1.Sound := by
  rcases e with ⟨text, queued⟩ | sinceSeq | ⟨index, handled⟩ | frames | id | _ | _
  · exact h.post text queued
  · exact h.call (hsince sinceSeq rfl)
  · exact h.answer index handled
  · unfold step
    dsimp only
    split
    · exact h.onData (hlate frames rfl)
    · exact h
  · exact ⟨h.asked, h.answers, h.returned, h.rung, h.order, h.flag⟩
  · exact ⟨h.asked, h.answers, h.returned, h.rung, h.order, h.flag⟩
  · exact h.connect

end NoteLink

/-- In every run in which the polls ask from a number that was returned, and in which no event comes in a chunk
after the last response that completes a call there: while the flag is down, every note whose event has arrived, on
this connection or on one before it, was in the result of a completed call, or has been evicted from the ring. -/
theorem notes_hinted (ring : BoundedRing) (flag : Bool) (es : List NoteEvent)
    (hsince : ∀ k sinceSeq, es[k]? = some (.call sinceSeq) → sinceSeq ≤ (NoteLink.stateAt ring flag es k).returned)
    (hlate : ∀ k frames, es[k]? = some (.chunk frames) →
      ((NoteLink.stateAt ring flag es k).dispatched frames).late = false) (k : ℕ)
    (hdown : (NoteLink.stateAt ring flag es k).userNotesPending = false) (seq : ℕ)
    (hseq : seq ∈ (NoteLink.stateAt ring flag es k).received) :
    (∃ result ∈ (NoteLink.stateAt ring flag es k).results, seq ∈ result.notes.map ChatEntry.seq) ∨
      seq ≤ (NoteLink.stateAt ring flag es k).ring.evicted := by
  have hsound : (NoteLink.stateAt ring flag es k).Sound := by
    refine Trace.stable (P := NoteLink.Sound) (Nat.zero_le k) (NoteLink.sound_start ring flag) fun i e _ he h => ?_
    exact NoteLink.sound_step h e (fun sinceSeq heq => hsince i sinceSeq (heq ▸ he))
      fun frames heq => hlate i frames (heq ▸ he)
  have hpos : 0 < seq := (hsound.rung seq (List.mem_append_left _ (List.mem_map_of_mem hseq))).1
  exact hsound.returned seq hpos (hsound.flag hdown seq hseq)

/-- A note is typed, polled for and returned, and another one on the next connection. -/
def benchNotes : List NoteEvent :=
  [.post "hi" true, .chunk 1, .call 0, .answer 0 true, .chunk 1, .close, .connect, .post "hi again" true, .chunk 1,
   .call 1, .answer 0 true, .chunk 1]

theorem typed_note_returned :
    ((NoteLink.stateAt .userNotes false benchNotes 12).isOpen = true ∧
        (NoteLink.stateAt .userNotes false benchNotes 12).userNotesPending = false ∧
        2 ∈ (NoteLink.stateAt .userNotes false benchNotes 12).received) ∧
      ((∃ result ∈ (NoteLink.stateAt .userNotes false benchNotes 12).results, 2 ∈ result.notes.map ChatEntry.seq) ∨
        2 ≤ (NoteLink.stateAt .userNotes false benchNotes 12).ring.evicted) := by
  have hbench : (NoteLink.stateAt .userNotes false benchNotes 12).isOpen = true ∧
      (NoteLink.stateAt .userNotes false benchNotes 12).userNotesPending = false ∧
      2 ∈ (NoteLink.stateAt .userNotes false benchNotes 12).received := by decide +kernel
  have hasked : ∀ k < 12, ∀ sinceSeq ≤ 1, benchNotes[k]? = some (.call sinceSeq) →
      sinceSeq ≤ (NoteLink.stateAt .userNotes false benchNotes k).returned := by decide +kernel
  have hlate : ∀ k < 12, ∀ frames ≤ 1, benchNotes[k]? = some (.chunk frames) →
      ((NoteLink.stateAt .userNotes false benchNotes k).dispatched frames).late = false := by decide +kernel
  have hsmall : ∀ e ∈ benchNotes, (∀ sinceSeq, e = .call sinceSeq → sinceSeq ≤ 1) ∧
      ∀ frames, e = .chunk frames → frames ≤ 1 := by
    simp [benchNotes]
  refine ⟨hbench, notes_hinted .userNotes false benchNotes (fun k sinceSeq hk => ?_) (fun k frames hk => ?_) 12
    hbench.2.1 2 hbench.2.2⟩
  · have hlt := (List.getElem?_eq_some_iff.mp hk).1
    exact hasked k hlt sinceSeq ((hsmall _ (List.mem_of_getElem? hk)).1 sinceSeq rfl) hk
  · have hlt := (List.getElem?_eq_some_iff.mp hk).1
    exact hlate k hlt frames ((hsmall _ (List.mem_of_getElem? hk)).2 frames rfl) hk

/-- Thirty-three notes are typed before the first poll, whose response is the last frame to arrive. The ring of
thirty-two has evicted the first note, whose event has arrived as well. -/
theorem evicted_note_unread :
    ¬ ∀ (es : List NoteEvent) (k : ℕ),
      (∀ k sinceSeq, es[k]? = some (.call sinceSeq) → sinceSeq ≤ (NoteLink.stateAt .userNotes false es k).returned) →
      (NoteLink.stateAt .userNotes false es k).isOpen = true →
      (NoteLink.stateAt .userNotes false es k).userNotesPending = false →
      ∀ seq ∈ (NoteLink.stateAt .userNotes false es k).received,
        ∃ result ∈ (NoteLink.stateAt .userNotes false es k).results, seq ∈ result.notes.map ChatEntry.seq := by
  intro hall
  have hnotes := hall (.call 0 :: List.replicate 33 (.post "" true) ++ [.answer 0 true, .chunk 34]) 36
    (fun k sinceSeq hk => ?_) (by decide +kernel) (by decide +kernel) 1 (by decide +kernel)
  · exact absurd hnotes (by decide +kernel)
  · have hzero : ∀ e ∈ .call 0 :: List.replicate 33 (.post "" true) ++ [.answer 0 true, .chunk 34],
        ∀ sinceSeq, e = NoteEvent.call sinceSeq → sinceSeq = 0 := by
      intro e he sinceSeq heq
      subst heq
      simpa using he
    rw [hzero _ (List.mem_of_getElem? hk) sinceSeq rfl]
    exact Nat.zero_le _

-- An event that comes in one chunk after the response is cleared with it.
example : (NoteLink.stateAt .userNotes false [.call 0, .answer 0 true, .post "" true, .chunk 2] 4).userNotesPending =
    false := by decide +kernel

end RackMcp.Server
