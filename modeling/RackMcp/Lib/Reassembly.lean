import Mathlib.Data.List.Forall2

/-!
# Reassembling frames from a stream

A `Framing` tells what the front of a stream holds: a frame and what follows it, a header that no frame
may have, or too little to tell. What it has told stays told when more of the stream arrives, so the frames
of a stream do not depend on how it is cut (`parse_append`). A `Decoder` is fed chunks and popped; `inbox`
is the one that keeps the unread part of the stream and takes at most `bound` items of it. Popped empty
after every chunk it yields the parse of the whole stream (`feed_inbox`), and a decoder that refines it
yields the same (`Refines.feed`, `Refines.observations`).
-/

namespace Reassembly

variable {α φ σ τ : Type*}

/-- What the front of a stream holds. -/
inductive Front (α φ : Type*) where
  | more
  | bad
  | frame (f : φ) (rest : List α)

/-- A way to read frames off a stream. -/
structure Framing (α φ : Type*) where
  front : List α → Front α φ
  shorter : ∀ {s f rest}, front s = .frame f rest → rest.length < s.length
  bad_append : ∀ {s} t, front s = .bad → front (s ++ t) = .bad
  frame_append : ∀ {s f rest} t, front s = .frame f rest → front (s ++ t) = .frame f (rest ++ t)

/-- The unread part of a stream, and whether it has come to a bad header. -/
structure Inbox (α : Type*) where
  pending : List α
  failed : Bool
deriving DecidableEq

/-- The frames of a stream, and what is left of it. -/
def Framing.parse (G : Framing α φ) (s : List α) : List φ × Inbox α :=
  match _h : G.front s with
  | .more => ([], ⟨s, false⟩)
  | .bad => ([], ⟨s, true⟩)
  | .frame f rest => (f :: (G.parse rest).1, (G.parse rest).2)
termination_by s.length
decreasing_by all_goals exact G.shorter (by assumption)

section parse
variable {G : Framing α φ} {s rest : List α} {f : φ}

theorem parse_more (h : G.front s = .more) : G.parse s = ([], ⟨s, false⟩) := by
  rw [Framing.parse]
  split
  · rfl
  all_goals next h' => rw [h] at h'; cases h'

theorem parse_bad (h : G.front s = .bad) : G.parse s = ([], ⟨s, true⟩) := by
  rw [Framing.parse]
  split
  · next h' => rw [h] at h'; cases h'
  · rfl
  · next h' => rw [h] at h'; cases h'

theorem parse_frame (h : G.front s = .frame f rest) :
    G.parse s = (f :: (G.parse rest).1, (G.parse rest).2) := by
  rw [Framing.parse]
  split
  · next h' => rw [h] at h'; cases h'
  · next h' => rw [h] at h'; cases h'
  · next h' =>
    rw [h] at h'
    obtain ⟨rfl, rfl⟩ := Front.frame.inj h'
    rfl

/-- Induction along the frames of a stream. -/
theorem parse_induction {P : List α → Prop} (hmore : ∀ s, G.front s = .more → P s)
    (hbad : ∀ s, G.front s = .bad → P s)
    (hframe : ∀ s f rest, G.front s = .frame f rest → P rest → P s) (s : List α) : P s := by
  rcases h : G.front s with _ | _ | ⟨f, rest⟩
  · exact hmore s h
  · exact hbad s h
  · exact hframe s f rest h (parse_induction hmore hbad hframe rest)
termination_by s.length
decreasing_by exact G.shorter h

/-- Where a stream leaves off without a bad header, there is too little to tell. -/
theorem front_pending (h : (G.parse s).2.failed = false) : G.front (G.parse s).2.pending = .more := by
  induction s using parse_induction (G := G) with
  | hmore s hmore => rwa [parse_more hmore]
  | hbad s hbad =>
    rw [parse_bad hbad] at h
    cases h
  | hframe s f rest hframe ih =>
    rw [parse_frame hframe] at h ⊢
    exact ih h

/-- After a bad header nothing is read. -/
theorem parse_append_failed (t : List α) (h : (G.parse s).2.failed = true) :
    (G.parse (s ++ t)).1 = (G.parse s).1 ∧ (G.parse (s ++ t)).2.failed = true := by
  induction s using parse_induction (G := G) with
  | hmore s hmore =>
    rw [parse_more hmore] at h
    cases h
  | hbad s hbad =>
    rw [parse_bad hbad, parse_bad (G.bad_append t hbad)]
    exact ⟨rfl, rfl⟩
  | hframe s f rest hframe ih =>
    rw [parse_frame hframe] at h ⊢
    rw [parse_frame (G.frame_append t hframe)]
    exact ⟨congrArg (f :: ·) (ih h).1, (ih h).2⟩

/-- Before a bad header, reading on is reading what is left together with what arrives. -/
theorem parse_append (t : List α) (h : (G.parse s).2.failed = false) :
    G.parse (s ++ t) = ((G.parse s).1 ++ (G.parse ((G.parse s).2.pending ++ t)).1,
      (G.parse ((G.parse s).2.pending ++ t)).2) := by
  induction s using parse_induction (G := G) with
  | hmore s hmore =>
    rw [parse_more hmore]
    rfl
  | hbad s hbad =>
    rw [parse_bad hbad] at h
    cases h
  | hframe s f rest hframe ih =>
    rw [parse_frame hframe] at h ⊢
    rw [parse_frame (G.frame_append t hframe), ih h]
    rfl

/-- A row of records, each of which reads as one frame, reads as their frames. -/
theorem parse_records {fs : List φ} {records : List (List α)}
    (h : List.Forall₂ (fun f record => ∀ t, G.front (record ++ t) = .frame f t) fs records) (t : List α) :
    G.parse (records.flatten ++ t) = (fs ++ (G.parse t).1, (G.parse t).2) := by
  induction h with
  | nil => rfl
  | cons hrecord _ ih =>
    rw [List.flatten_cons, List.append_assoc, parse_frame (hrecord _), ih]
    rfl

end parse

/-! ### Decoders -/

/-- A decoder: `push` takes a chunk and says whether it could, `next` pops a frame if there is one. -/
structure Decoder (σ α φ : Type*) where
  push : List α → σ → Bool × σ
  next : σ → Option φ × σ
  failed : σ → Bool
  size : σ → ℕ
  shrinks : ∀ {d f d'}, next d = (some f, d') → size d' < size d

/-- A call of a decoder. -/
inductive Call (α : Type*) where
  | push (chunk : List α)
  | next

/-- What a call returns. -/
inductive Answer (φ : Type*) where
  | pushed (taken : Bool)
  | popped (frame : Option φ)
deriving DecidableEq

namespace Decoder

/-- One call. -/
def call (D : Decoder σ α φ) (d : σ) : Call α → Answer φ × σ
  | .push chunk => (.pushed (D.push chunk d).1, (D.push chunk d).2)
  | .next => (.popped (D.next d).1, (D.next d).2)

/-- What the caller sees: the answers, each with the error flag after it. -/
def observations (D : Decoder σ α φ) (d : σ) : List (Call α) → List (Answer φ × Bool)
  | [] => []
  | c :: cs => ((D.call d c).1, D.failed (D.call d c).2) :: D.observations (D.call d c).2 cs

/-- Pops until there is no frame. -/
def popAll (D : Decoder σ α φ) (d : σ) : List φ × σ :=
  match _h : D.next d with
  | (none, d') => ([], d')
  | (some f, d') => (f :: (D.popAll d').1, (D.popAll d').2)
termination_by D.size d
decreasing_by all_goals exact D.shrinks (by assumption)

/-- Pushes the chunks one by one, and pops all frames after each. -/
def feed (D : Decoder σ α φ) (d : σ) : List (List α) → List φ × σ
  | [] => ([], d)
  | chunk :: chunks =>
    ((D.popAll (D.push chunk d).2).1 ++ (D.feed (D.popAll (D.push chunk d).2).2 chunks).1,
      (D.feed (D.popAll (D.push chunk d).2).2 chunks).2)

variable {D : Decoder σ α φ} {d d' : σ} {f : φ}

theorem popAll_none (h : D.next d = (none, d')) : D.popAll d = ([], d') := by
  rw [popAll]
  split
  · next h' =>
    rw [h] at h'
    exact congrArg _ (Prod.mk.inj h').2.symm
  · next h' => rw [h] at h'; cases h'

theorem popAll_some (h : D.next d = (some f, d')) : D.popAll d = (f :: (D.popAll d').1, (D.popAll d').2) := by
  rw [popAll]
  split
  · next h' => rw [h] at h'; cases h'
  · next h' =>
    rw [h] at h'
    obtain ⟨hf, rfl⟩ := Prod.mk.inj h'
    obtain rfl := Option.some.inj hf
    rfl

/-- The first decoder does on each state what the second does on its abstraction. -/
structure Refines (D : Decoder σ α φ) (E : Decoder τ α φ) (abs : σ → τ) : Prop where
  push : ∀ chunk d, E.push chunk (abs d) = ((D.push chunk d).1, abs (D.push chunk d).2)
  next : ∀ d, E.next (abs d) = ((D.next d).1, abs (D.next d).2)
  failed : ∀ d, E.failed (abs d) = D.failed d

namespace Refines
variable {E : Decoder τ α φ} {abs : σ → τ} (h : Refines D E abs)
include h

theorem popAll (d : σ) : E.popAll (abs d) = ((D.popAll d).1, abs (D.popAll d).2) := by
  have hnext := h.next d
  rcases hd : D.next d with ⟨_ | f, d'⟩
  · rw [hd] at hnext
    rw [popAll_none hd, popAll_none hnext]
  · rw [hd] at hnext
    rw [popAll_some hd, popAll_some hnext, popAll d']
termination_by D.size d
decreasing_by exact D.shrinks hd

theorem feed (d : σ) (chunks : List (List α)) :
    E.feed (abs d) chunks = ((D.feed d chunks).1, abs (D.feed d chunks).2) := by
  induction chunks generalizing d with
  | nil => rfl
  | cons chunk chunks ih =>
    unfold Decoder.feed
    rw [h.push, h.popAll, ih]

theorem call (d : σ) (c : Call α) : E.call (abs d) c = ((D.call d c).1, abs (D.call d c).2) := by
  rcases c with chunk | _
  · simp only [Decoder.call, h.push]
  · simp only [Decoder.call, h.next]

/-- The caller cannot tell the two apart. -/
theorem observations (d : σ) (cs : List (Call α)) : E.observations (abs d) cs = D.observations d cs := by
  induction cs generalizing d with
  | nil => rfl
  | cons c cs ih =>
    unfold Decoder.observations
    rw [h.call, h.failed, ih]

end Refines
end Decoder

/-! ### The inbox -/

section inbox
variable (G : Framing α φ) (bound : ℕ)

/-- Takes a chunk if the unread part stays within the bound. -/
def Inbox.push (chunk : List α) (b : Inbox α) : Bool × Inbox α :=
  if b.failed then (false, b)
  else if b.pending.length + chunk.length > bound then (false, { b with failed := true })
  else (true, { b with pending := b.pending ++ chunk })

/-- Pops the frame at the front. -/
def Inbox.next (b : Inbox α) : Option φ × Inbox α :=
  if b.failed then (none, b)
  else match G.front b.pending with
    | .more => (none, b)
    | .bad => (none, { b with failed := true })
    | .frame f rest => (some f, { b with pending := rest })

section
variable {G bound} {b b' : Inbox α} {chunk rest : List α} {f : φ}

theorem Inbox.push_failed (h : b.failed = true) : b.push bound chunk = (false, b) := if_pos h

theorem Inbox.push_full (h : b.failed = false) (hbound : b.pending.length + chunk.length > bound) :
    b.push bound chunk = (false, { b with failed := true }) := by
  unfold Inbox.push
  rw [if_neg (by rw [h]; decide), if_pos hbound]

theorem Inbox.push_taken (h : b.failed = false) (hbound : ¬ b.pending.length + chunk.length > bound) :
    b.push bound chunk = (true, { b with pending := b.pending ++ chunk }) := by
  unfold Inbox.push
  rw [if_neg (by rw [h]; decide), if_neg hbound]

theorem Inbox.next_failed (h : b.failed = true) : b.next G = (none, b) := if_pos h

theorem Inbox.next_more (hfront : G.front b.pending = .more) : b.next G = (none, b) := by
  unfold Inbox.next
  rw [hfront]
  exact ite_self _

theorem Inbox.next_bad (h : b.failed = false) (hfront : G.front b.pending = .bad) :
    b.next G = (none, { b with failed := true }) := by
  unfold Inbox.next
  rw [if_neg (by rw [h]; decide), hfront]

theorem Inbox.next_frame (h : b.failed = false) (hfront : G.front b.pending = .frame f rest) :
    b.next G = (some f, { b with pending := rest }) := by
  unfold Inbox.next
  rw [if_neg (by rw [h]; decide), hfront]

theorem Inbox.next_shrinks (h : b.next G = (some f, b')) : b'.pending.length < b.pending.length := by
  unfold Inbox.next at h
  split at h
  · cases h
  · split at h
    · cases h
    · cases h
    · next hfront =>
      obtain ⟨-, rfl⟩ := Prod.mk.inj h
      exact G.shorter hfront

end

/-- The decoder that keeps the unread part of the stream. -/
def inbox : Decoder (Inbox α) α φ where
  push := Inbox.push bound
  next := Inbox.next G
  failed := Inbox.failed
  size := fun b => b.pending.length
  shrinks := Inbox.next_shrinks

variable {G bound} {b : Inbox α}

/-- Popping all frames reads what is pending. -/
theorem popAll_inbox (h : b.failed = false) : (inbox G bound).popAll b = G.parse b.pending := by
  obtain ⟨s, failed⟩ := b
  obtain rfl : failed = false := h
  induction s using parse_induction (G := G) with
  | hmore s hmore =>
    have hnext : (inbox G bound).next ⟨s, false⟩ = (none, ⟨s, false⟩) :=
      Inbox.next_more (b := ⟨s, false⟩) hmore
    rw [Decoder.popAll_none hnext, parse_more hmore]
  | hbad s hbad =>
    have hnext : (inbox G bound).next ⟨s, false⟩ = (none, ⟨s, true⟩) :=
      Inbox.next_bad (b := ⟨s, false⟩) rfl hbad
    rw [Decoder.popAll_none hnext, parse_bad hbad]
  | hframe s f rest hframe ih =>
    have hnext : (inbox G bound).next ⟨s, false⟩ = (some f, ⟨rest, false⟩) :=
      Inbox.next_frame (b := ⟨s, false⟩) rfl hframe
    rw [Decoder.popAll_some hnext, ih, parse_frame hframe]

theorem popAll_inbox_failed (h : b.failed = true) : (inbox G bound).popAll b = ([], b) :=
  Decoder.popAll_none (Inbox.next_failed h)

/-- An inbox that has been popped empty holds less than a frame. -/
def Inbox.Drained (G : Framing α φ) (b : Inbox α) : Prop := b.failed = false → G.front b.pending = .more

variable {most : ℕ} (hmore : ∀ s, G.front s = .more → s.length < most) (hbound : 2 * most ≤ bound)
include hmore hbound

/-- The bound never stops a chunk that arrives when all frames have been popped. -/
theorem push_inbox (hb : b.Drained G) {chunk : List α} (hchunk : chunk.length ≤ most) :
    Inbox.push bound chunk b =
      if b.failed then (false, b) else (true, { b with pending := b.pending ++ chunk }) := by
  by_cases hfailed : b.failed = true
  · rw [if_pos hfailed, Inbox.push_failed hfailed]
  · have hfalse := eq_false_of_ne_true hfailed
    have hfits := hmore _ (hb hfalse)
    rw [if_neg hfailed, Inbox.push_taken hfalse (by omega)]

omit hmore hbound in
/-- A failed inbox stays as it is. -/
theorem feed_inbox_failed (chunks : List (List α)) (h : b.failed = true) :
    (inbox G bound).feed b chunks = ([], b) := by
  induction chunks with
  | nil => rfl
  | cons chunk chunks ih =>
    have hpush : (inbox G bound).push chunk b = (false, b) := Inbox.push_failed h
    unfold Decoder.feed
    rw [hpush, popAll_inbox_failed h, ih]
    rfl

/-- Popped empty after every chunk, the inbox yields the frames of the stream, and fails where the stream
comes to a bad header. -/
theorem feed_inbox (hb : b.Drained G) (hfailed : b.failed = false) {chunks : List (List α)}
    (hchunks : ∀ c ∈ chunks, c.length ≤ most) :
    ((inbox G bound).feed b chunks).1 = (G.parse (b.pending ++ chunks.flatten)).1 ∧
      ((inbox G bound).feed b chunks).2.failed = (G.parse (b.pending ++ chunks.flatten)).2.failed ∧
      ((inbox G bound).feed b chunks).2.Drained G := by
  induction chunks generalizing b with
  | nil =>
    rw [List.flatten_nil, List.append_nil, parse_more (hb hfailed)]
    exact ⟨rfl, hfailed, hb⟩
  | cons chunk chunks ih =>
    have hpush : (inbox G bound).push chunk b = (true, ⟨b.pending ++ chunk, false⟩) := by
      show Inbox.push bound chunk b = _
      rw [push_inbox hmore hbound hb (hchunks _ List.mem_cons_self), if_neg (by simp [hfailed]), hfailed]
    have hrest : ∀ c ∈ chunks, c.length ≤ most := fun c hc => hchunks c (List.mem_cons_of_mem _ hc)
    unfold Decoder.feed
    rw [hpush, popAll_inbox rfl, List.flatten_cons, ← List.append_assoc]
    rcases hparsed : (G.parse (b.pending ++ chunk)).2.failed with _ | _
    · have hdrained : (G.parse (b.pending ++ chunk)).2.Drained G := fun h => front_pending h
      obtain ⟨hframes, hends, hleft⟩ := ih hdrained hparsed hrest
      rw [parse_append _ hparsed]
      exact ⟨congrArg ((G.parse (b.pending ++ chunk)).1 ++ ·) hframes, hends, hleft⟩
    · obtain ⟨hframes, hends⟩ := parse_append_failed chunks.flatten hparsed
      rw [feed_inbox_failed _ hparsed, hframes, hends]
      refine ⟨List.append_nil _, hparsed, fun h => ?_⟩
      rw [hparsed] at h
      cases h

end inbox

end Reassembly
