import RackMcp.Proof.SessionStep

/-!
# The writer lease from enqueue to execution

A mutating command is admitted on the caller's lease, waits in the reader and in the queue, and is
executed on the lease as it then stands. In between the lease may expire, be released, be lost with
its connection and be acquired again, by anyone. `writer_lease_safety`: over every run, what the pump
executes was enqueued, and from then on its connection held the lease, unexpired and under the one id
the command recorded. The lease follows the discipline of `Leasing`, so an id that is seen twice was
held all the time (`held_between`); what remains is that the recorded id was issued (`LeaseSound`).
-/

namespace RackMcp

open Leasing

variable {cfg : ServiceConfig} {J : Jansson} {rng : Entropy}

/-! ### The ids of leases -/

/-- The lease ids drawn so far. -/
def Shared.issued (rng : Entropy) (sh : Shared) : Set String :=
  { leaseId | ∃ n < sh.uuidDraws, rng.uuid4 n = leaseId }

/-- The lease, and the draws of ids, do not go back on an event. -/
structure LeaseMove (rng : Entropy) (now : Int) (sh sh' : Shared) : Prop where
  draws : sh.uuidDraws ≤ sh'.uuidDraws
  step : Step (sh.issued rng) now sh.leases.tenure sh'.leases.tenure
  issued : (sh.leases.held = true → sh.leases.leaseId ∈ sh.issued rng) →
    sh'.leases.held = true → sh'.leases.leaseId ∈ sh'.issued rng

theorem LeaseMove.refl (now : Int) (sh : Shared) : LeaseMove rng now sh sh :=
  ⟨le_rfl, .keep _, fun h => h⟩

theorem Shared.issued_mono {sh sh' : Shared} (h : sh.uuidDraws ≤ sh'.uuidDraws) :
    sh.issued rng ⊆ sh'.issued rng := by
  intro leaseId hissued
  obtain ⟨n, hn, hid⟩ := hissued
  exact ⟨n, by omega, hid⟩

/-- An operation that draws no id and leaves no other id behind. -/
theorem LeaseMove.of_step {now : Int} {sh : Shared} {leases : LeaseHolder}
    (hstep : Step (sh.issued rng) now sh.leases.tenure leases.tenure)
    (hid : leases.held = true → sh.leases.held = true ∧ leases.leaseId = sh.leases.leaseId) :
    LeaseMove rng now sh { sh with leases } := by
  refine ⟨le_rfl, hstep, ?_⟩
  intro hissued hheld
  obtain ⟨hheld, heq⟩ := hid hheld
  rw [heq]
  exact hissued hheld

/-- With fresh ids, `acquire` draws one that no lease had. -/
theorem acquire_move (hfresh : Function.Injective rng.uuid4) (sh : Shared) (conn : Nat) (nowMs ttlMs : Int)
    (clientName : String) :
    LeaseMove rng nowMs sh
      { sh with
        leases := (sh.leases.acquire conn nowMs ttlMs clientName (rng.uuid4 sh.uuidDraws)).2
        uuidDraws := sh.uuidDraws + if sh.leases.issuesLease nowMs then 1 else 0 } := by
  have hdrawn : rng.uuid4 sh.uuidDraws ∉ sh.issued rng := by
    intro hissued
    obtain ⟨n, hn, hid⟩ := hissued
    have := hfresh hid
    omega
  refine ⟨Nat.le_add_right _ _, LeaseHolder.acquire_step _ _ _ _ _ _ (fun _ => hdrawn), ?_⟩
  intro hissued hheld
  obtain ⟨hissue, hid⟩ | ⟨hbefore, hid⟩ := LeaseHolder.acquire_leaseId rfl hheld
  · rw [hid]
    exact ⟨sh.uuidDraws, by simp [hissue], rfl⟩
  · rw [hid]
    exact Shared.issued_mono (Nat.le_add_right _ _) (hissued hbefore)

/-- With fresh ids, handling a lease method keeps the discipline. -/
theorem handleLeaseRequest_move (hfresh : Function.Injective rng.uuid4) {sh : Shared} {conn : Nat}
    {id method : String} {payload : Option Json} {nowMs : Int} :
    LeaseMove rng nowMs sh (handleLeaseRequest cfg J rng sh conn id method payload nowMs).1 := by
  unfold handleLeaseRequest
  dsimp only
  split
  · have hmove := acquire_move hfresh sh conn nowMs cfg.leaseTtlMs
      (truncateUtf8 (jstr payload "clientName" "unknown") 128)
    obtain heq | ⟨-, heq⟩ | ⟨-, heq⟩ := LeaseHolder.acquire_cases sh.leases conn nowMs cfg.leaseTtlMs
      (truncateUtf8 (jstr payload "clientName" "unknown") 128) (rng.uuid4 sh.uuidDraws)
    · rw [heq]
      exact .refl nowMs sh
    · rw [heq] at hmove ⊢
      exact hmove
    · rw [heq] at hmove ⊢
      exact hmove
  · split
    · have hmove : LeaseMove rng nowMs sh { sh with leases := _ } := .of_step
        (LeaseHolder.renew_step sh.leases conn (jstr payload "leaseId") nowMs cfg.leaseTtlMs)
        (LeaseHolder.renew_leaseId rfl)
      split
      · next heq =>
        rw [heq] at hmove
        exact hmove
      · next heq =>
        rw [heq] at hmove
        exact hmove
    · split
      · apply LeaseMove.of_step
        · exact LeaseHolder.release_step _ _ _ nowMs
        · intro hheld
          have heq := LeaseHolder.release_leaseId rfl hheld
          rw [heq] at hheld
          exact ⟨hheld, congrArg LeaseHolder.leaseId heq⟩
      · exact .refl nowMs sh

/-- A drawn nonce is nothing to the lease. -/
theorem LeaseMove.nonce (now : Int) (sh : Shared) (nonceDraws : Nat) :
    LeaseMove rng now sh { sh with nonceDraws } :=
  ⟨le_rfl, .keep _, fun h => h⟩

theorem LeaseMove.onDisconnect (now : Int) (sh : Shared) (conn : Nat) :
    LeaseMove rng now sh { sh with leases := sh.leases.onDisconnect conn } := by
  apply LeaseMove.of_step
  · exact LeaseHolder.onDisconnect_step _ _ now
  · intro hheld
    have heq := LeaseHolder.onDisconnect_leaseId rfl hheld
    rw [heq] at hheld
    exact ⟨hheld, congrArg LeaseHolder.leaseId heq⟩

theorem FrameStep.lease_move (hfresh : Function.Injective rng.uuid4) {r : FrameReadings} {sh : Shared}
    {s : Session} {bytes : List UInt8} {h : Handled} (hstep : FrameStep cfg J rng r sh s bytes h) :
    LeaseMove rng r.gateMs sh h.shared := by
  cases hstep with
  | closed | authenticated | rejected | answered | admitted => exact .refl _ _
  | entropyFailed | challenged => exact .nonce _ _ _
  | leased => exact handleLeaseRequest_move hfresh

/-- On an event the lease moves at the last instant of the event, or at any instant one likes. -/
theorem ServerStep.lease_move (hfresh : Function.Injective rng.uuid4) {srv srv' : Server} {e : Event}
    {effects : List Effect} (h : ServerStep cfg J rng srv e srv' effects)
    (later : Int) :
    ∃ now, (now = later ∨ now ∈ e.instants ∧ (e.instants.Pairwise (· ≤ ·) → ∀ t ∈ e.instants, t ≤ now)) ∧
      LeaseMove rng now srv.shared srv'.shared := by
  cases h with
  | idle | reaped | connected | attached | pumped | answered | executed => exact ⟨later, .inl rfl, .refl _ _⟩
  | session _ s t sh _ hs hstep =>
    cases hstep with
    | received bytes r h hreading hframe =>
      refine ⟨r.gateMs, .inr ⟨?_, ?_⟩, hframe.lease_move hfresh⟩
      · simp [Event.instants]
      · intro hsorted t ht
        have hle : r.nowMs ≤ r.gateMs := by simpa [Event.instants] using hsorted
        rcases List.mem_pair.mp ht with rfl | rfl
        · exact hle
        · exact le_rfl
    | pushed | refused | left => exact ⟨later, .inl rfl, .refl _ _⟩
    | tornDown => exact ⟨later, .inl rfl, .onDisconnect _ _ _⟩

/-! ### What waits was authorized by an issued lease -/

/-- The lease, the command a reader is about to push and the queued commands carry issued ids. -/
structure LeaseSound (rng : Entropy) (srv : Server) : Prop where
  holder : srv.shared.leases.held = true → srv.shared.leases.leaseId ∈ srv.shared.issued rng
  pending : ∀ s ∈ srv.sessions, ∀ cmd, s.pending = some cmd →
    cmd.connectionId = s.id ∧ (cmd.mutating = true → cmd.leaseId ∈ srv.shared.issued rng)
  queued : ∀ cmd ∈ srv.commandQueue, cmd.mutating = true → cmd.leaseId ∈ srv.shared.issued rng

theorem leaseSound_start : LeaseSound rng {} where
  holder h := by cases h
  pending s hs := by cases hs
  queued cmd hcmd := by cases hcmd

/-- A command a reader has pending after an event was pending before, or was admitted on the lease of its
connection. -/
theorem SessionStep.pending_cases {sh sh' : Shared} {s t : Session} {e : Event} {effects : List Effect}
    {cmd : BridgeCommand} (hstep : SessionStep cfg J rng sh s e t sh' effects) (hpending : t.pending = some cmd) :
    s.pending = some cmd ∨ cmd.connectionId = s.id ∧
      (cmd.mutating = true → ∃ now, sh.leases.HeldBy s.id cmd.leaseId now) := by
  cases hstep with
  | received bytes r h hreading hframe =>
    cases hframe with
    | admitted cmd' hstate hconn hgate =>
      cases hpending
      exact .inr ⟨hconn, fun hmutating => ⟨r.gateMs, hgate hmutating⟩⟩
    | closed | entropyFailed | challenged | authenticated | rejected | answered | leased => exact .inl hpending
  | pushed | refused => cases hpending
  | left | tornDown => exact .inl hpending

theorem leaseSound_step (hfresh : Function.Injective rng.uuid4) {srv srv' : Server} {e : Event}
    {effects : List Effect} (h : ServerStep cfg J rng srv e srv' effects) (hsound : LeaseSound rng srv) :
    LeaseSound rng srv' := by
  obtain ⟨now, -, hmove⟩ := h.lease_move hfresh 0
  have hmono : srv.shared.issued rng ⊆ srv'.shared.issued rng := Shared.issued_mono hmove.draws
  refine ⟨hmove.issued hsound.holder, ?_, ?_⟩
  · intro t ht cmd hpending
    obtain ht | ⟨rfl, -⟩ | ⟨s, hs, hstep⟩ := h.mem_sessions ht
    · obtain ⟨hconn, hissued⟩ := hsound.pending t ht cmd hpending
      exact ⟨hconn, fun hmutating => hmono (hissued hmutating)⟩
    · cases hpending
    · rw [hstep.id_eq]
      obtain hpending | ⟨hconn, hgate⟩ := hstep.pending_cases hpending
      · obtain ⟨hconn, hissued⟩ := hsound.pending s hs cmd hpending
        exact ⟨hconn, fun hmutating => hmono (hissued hmutating)⟩
      · refine ⟨hconn, fun hmutating => ?_⟩
        obtain ⟨now, hheld, -, hid, -⟩ := hgate hmutating
        rw [← hid]
        exact hmono (hsound.holder hheld)
  · intro cmd hcmd hmutating
    obtain hcmd | ⟨s, hs, hpending, -⟩ := h.mem_commandQueue hcmd
    · exact hmono (hsound.queued cmd hcmd hmutating)
    · exact hmono ((hsound.pending s hs cmd hpending).2 hmutating)

/-! ### Executions and pushes -/

theorem commandLeaseStillValid_heldBy {leases : LeaseHolder} {cmd : BridgeCommand} {nowMs : Int}
    (h : commandLeaseStillValid leases cmd nowMs = true) (hmutating : cmd.mutating = true) :
    leases.HeldBy cmd.connectionId cmd.leaseId nowMs := by
  unfold commandLeaseStillValid at h
  rw [if_neg (not_not.mpr hmutating)] at h
  simp only [Bool.and_eq_true, beq_iff_eq] at h
  exact LeaseHolder.heldBy_iff_holder.mpr ⟨h.1.1, h.1.2, h.2⟩

/-- A session's thread executes nothing. -/
theorem SessionStep.not_executed {sh sh' : Shared} {s t : Session} {e : Event} {effects : List Effect}
    {cmd : BridgeCommand} (hstep : SessionStep cfg J rng sh s e t sh' effects) : .executed cmd ∉ effects := by
  cases hstep with
  | received bytes r h hreading hframe =>
    cases hframe with
    | closed | entropyFailed | challenged | answered => simp [Handled.closed, Handled.answered]
    | authenticated | rejected | leased | admitted => simp
  | pushed | refused | left | tornDown => simp

/-- What is executed is the head of the queue, on a lease that is valid then. -/
theorem ServerStep.of_executed {srv srv' : Server} {e : Event} {effects : List Effect} {cmd : BridgeCommand}
    (h : ServerStep cfg J rng srv e srv' effects) (hcmd : .executed cmd ∈ effects) :
    ∃ t answers, e = .drain t answers ∧ cmd ∈ srv.commandQueue ∧
      (cmd.mutating = true → srv.shared.leases.HeldBy cmd.connectionId cmd.leaseId t.leaseMs) := by
  obtain ⟨conn, frame, heq⟩ | ⟨t, answers, cmd', heq, he, hqueued, hvalid⟩ | ⟨s, -, t, -, hstep⟩ :=
    h.effect_cases hcmd
  · cases heq
  · cases heq
    exact ⟨t, answers, he, hqueued, commandLeaseStillValid_heldBy hvalid⟩
  · exact absurd hcmd hstep.not_executed

/-- What is enqueued was pending in its session. -/
theorem ServerStep.of_enqueued {srv srv' : Server} {e : Event} {effects : List Effect} {conn : Nat}
    {cmd : BridgeCommand} (h : ServerStep cfg J rng srv e srv' effects) (hcmd : .enqueued conn cmd ∈ effects) :
    ∃ s ∈ srv.sessions, s.id = conn ∧ s.pending = some cmd := by
  obtain ⟨conn, frame, heq⟩ | ⟨t, answers, cmd', heq, -⟩ | ⟨s, hs, t, -, hstep⟩ := h.effect_cases hcmd
  · cases heq
  · cases heq
  · obtain ⟨rfl, hpending⟩ := hstep.pending_of_pushed hcmd
    exact ⟨s, hs, rfl, hpending⟩

/-! ### Over a run -/

/-- The clock does not run back: its readings over the run, in order, never decrease. -/
def ClockMonotone (es : List Event) : Prop := (es.flatMap Event.instants).Pairwise (· ≤ ·)

section run
variable {es : List Event}

theorem ClockMonotone.sorted (hclock : ClockMonotone es) {k : ℕ} {e : Event} (he : es[k]? = some e) :
    e.instants.Pairwise (· ≤ ·) :=
  (List.pairwise_flatMap.mp hclock).1 e (List.mem_of_getElem? he)

theorem ClockMonotone.le (hclock : ClockMonotone es) {j k : ℕ} {e f : Event} (hjk : j < k)
    (he : es[j]? = some e) (hf : es[k]? = some f) : ∀ t ∈ e.instants, ∀ u ∈ f.instants, t ≤ u := by
  have hpair := List.pairwise_iff_getElem.mp (List.pairwise_flatMap.mp hclock).2
  obtain ⟨hj, rfl⟩ := List.getElem?_eq_some_iff.mp he
  obtain ⟨hk, rfl⟩ := List.getElem?_eq_some_iff.mp hf
  exact hpair j k hj hk hjk

theorem leaseSound_run (hfresh : Function.Injective rng.uuid4) (k : ℕ) :
    LeaseSound rng (stateAt cfg J rng es k) :=
  stateAt_invariant leaseSound_start (fun _ _ _ _ h hsound => leaseSound_step hfresh h hsound) k

theorem issued_stable (hfresh : Function.Injective rng.uuid4) {j k : ℕ} (hjk : j ≤ k) :
    (stateAt cfg J rng es j).shared.issued rng ⊆ (stateAt cfg J rng es k).shared.issued rng := by
  intro leaseId hissued
  refine Trace.stable (P := fun srv : Server => leaseId ∈ srv.shared.issued rng) hjk hissued ?_
  intro i e hji he hi
  obtain ⟨now, -, hmove⟩ := (Server.step_cases cfg J rng _ e).lease_move hfresh 0
  exact Shared.issued_mono hmove.draws hi

/-- Who holds the lease under an id that was issued by then has held it ever since. -/
theorem held_between (hfresh : Function.Injective rng.uuid4) (hclock : ClockMonotone es) {j i : ℕ}
    (hji : j ≤ i) {conn : Nat} {leaseId : String}
    (hissued : leaseId ∈ (stateAt cfg J rng es j).shared.issued rng) {later : Int}
    (hlater : ∀ k e, k < i → es[k]? = some e → ∀ t ∈ e.instants, t ≤ later)
    (hheld : (stateAt cfg J rng es i).shared.leases.HeldBy conn leaseId later) :
    ∀ k e, j ≤ k → k < i → es[k]? = some e → ∀ t ∈ e.instants,
      (stateAt cfg J rng es k).shared.leases.HeldBy conn leaseId t := by
  induction i, hji using Nat.le_induction generalizing later with
  | base =>
    intro k e hjk hki
    omega
  | succ i hji ih =>
    intro k e hjk hki he t ht
    rcases hi : es[i]? with _ | f
    · rw [stateAt, Trace.stateAt_succ_of_none hi] at hheld
      have hne : k ≠ i := by
        intro heq
        rw [heq, hi] at he
        cases he
      exact ih (fun k e hk => hlater k e (by omega)) hheld k e hjk (by omega) he t ht
    · obtain ⟨effects, hstep⟩ : ∃ effects, ServerStep cfg J rng (stateAt cfg J rng es i) f
          (stateAt cfg J rng es (i + 1)) effects := stateAt_step hi
      obtain ⟨now, hnow, hmove⟩ := hstep.lease_move hfresh later
      have hle : now ≤ later := by
        rcases hnow with rfl | ⟨hmem, -⟩
        · exact le_rfl
        · exact hlater i f (by omega) hi now hmem
      have hbefore : (stateAt cfg J rng es i).shared.leases.HeldBy conn leaseId now :=
        LeaseHolder.holds_tenure.mp (hmove.step.holds_before (issued_stable hfresh hji hissued) hle
          (LeaseHolder.holds_tenure.mpr hheld))
      have hbound : ∀ k e, k ≤ i → es[k]? = some e → ∀ t ∈ e.instants, t ≤ now := by
        intro k e hk he t ht
        rcases hnow with rfl | ⟨hmem, hlast⟩
        · exact hlater k e (by omega) he t ht
        · rcases Nat.lt_or_eq_of_le hk with hk | rfl
          · exact hclock.le hk he hi t ht now hmem
          · cases he.symm.trans hi
            exact hlast (hclock.sorted hi) t ht
      rcases Nat.lt_or_eq_of_le (Nat.lt_succ_iff.mp hki) with hki | rfl
      · exact ih (fun k e hk => hbound k e (by omega)) hbefore k e hjk hki he t ht
      · exact LeaseHolder.holds_tenure.mp
          ((LeaseHolder.holds_tenure.mpr hbefore).earlier (hbound k e le_rfl he t ht))

end run

/-! ### Safety -/

/-- With fresh lease ids and a clock that does not run back, over every run: what the pump executes of a
mutating kind was enqueued, and at every event from then on its connection held the lease, unexpired and
under the id the command recorded; and at every instant one connection at most passes the writer test. -/
theorem writer_lease_safety (cfg : ServiceConfig) (J : Jansson) (rng : Entropy)
    (hfresh : Function.Injective rng.uuid4) (es : List Event) (hclock : ClockMonotone es) :
    (∀ i cmd, Emits cfg J rng es i (.executed cmd) → cmd.mutating = true →
      (∃ j < i, Emits cfg J rng es j (.enqueued cmd.connectionId cmd)) ∧
      ∀ j conn, j < i → Emits cfg J rng es j (.enqueued conn cmd) →
        conn = cmd.connectionId ∧ ∀ k e, j ≤ k → k ≤ i → es[k]? = some e → ∀ t ∈ e.instants,
          (stateAt cfg J rng es k).shared.leases.HeldBy cmd.connectionId cmd.leaseId t) ∧
    ∀ k nowMs a b, (stateAt cfg J rng es k).shared.leases.isWriter a nowMs = true →
      (stateAt cfg J rng es k).shared.leases.isWriter b nowMs = true → a = b := by
  refine ⟨?_, fun k nowMs a b => LeaseHolder.isWriter_unique⟩
  intro i cmd hexecuted hmutating
  obtain ⟨e, effects, he, heffect, hstep⟩ := hexecuted.step
  obtain ⟨t, answers, rfl, hqueued, hvalid⟩ := hstep.of_executed heffect
  have hlast : t.leaseMs ∈ (Event.drain t answers).instants := by simp [Event.instants]
  constructor
  · -- The command came onto the queue at some event, and the reader pushed it there.
    obtain ⟨j, f, hj, hf, hbefore, hafter⟩ := stateAt_change (P := fun srv => cmd ∈ srv.commandQueue)
      (by simp) hqueued
    rw [stateAt_succ hf] at hafter
    obtain hcmd | ⟨s, hs, hpending, hcmd⟩ := (Server.step_cases cfg J rng _ f).mem_commandQueue hafter
    · exact absurd hcmd hbefore
    · obtain ⟨hconn, -⟩ := (leaseSound_run hfresh j).pending s hs cmd hpending
      rw [hconn]
      exact ⟨j, hj, f, hf, hcmd⟩
  · intro j conn hji henqueued
    obtain ⟨f, effects, hf, hcmd, hpush⟩ := henqueued.step
    obtain ⟨s, hs, rfl, hpending⟩ := hpush.of_enqueued hcmd
    obtain ⟨hconn, hissued⟩ := (leaseSound_run hfresh j).pending s hs cmd hpending
    refine ⟨hconn.symm, ?_⟩
    intro k g hjk hki hg u hu
    rcases Nat.lt_or_eq_of_le hki with hki | rfl
    · exact held_between hfresh hclock hji.le (hissued hmutating)
        (fun k e hk he' t' ht' => hclock.le hk he' he t' ht' t.leaseMs hlast) (hvalid hmutating) k g hjk hki hg u hu
    · cases hg.symm.trans he
      have hsorted := hclock.sorted he
      have hle : u ≤ t.leaseMs := by
        simp only [Event.instants, List.pairwise_cons, List.mem_cons, List.not_mem_nil, or_false] at hsorted hu
        rcases hu with rfl | rfl | rfl
        · exact hsorted.1 _ (.inr rfl)
        · exact hsorted.2.1 _ rfl
        · exact le_rfl
      exact LeaseHolder.holds_tenure.mp ((LeaseHolder.holds_tenure.mpr (hvalid hmutating)).earlier hle)

theorem benchEntropy_uuid4_injective : Function.Injective benchEntropy.uuid4 := by
  intro m n heq
  have hlength := congrArg String.length heq
  simpa [benchEntropy] using hlength

theorem benchEvents_clock : ClockMonotone benchEvents := by
  show (benchEvents.flatMap Event.instants).Pairwise (· ≤ ·)
  decide

/-- On the bench the undo was enqueued, and ran on the lease its connection held since. -/
theorem writer_lease_safety_bench :
    ∃ cmd, Emits benchConfig benchJansson benchEntropy benchEvents 8 (.executed cmd) ∧
      ∃ j < 8, Emits benchConfig benchJansson benchEntropy benchEvents j (.enqueued cmd.connectionId cmd) ∧
        (stateAt benchConfig benchJansson benchEntropy benchEvents 8).shared.leases.HeldBy cmd.connectionId
          cmd.leaseId 6 := by
  obtain ⟨cmd, hexecuted, hmutating⟩ := bench_executed
  obtain ⟨⟨j, hj, henqueued⟩, hheld⟩ := (writer_lease_safety benchConfig benchJansson benchEntropy
    benchEntropy_uuid4_injective benchEvents benchEvents_clock).1 8 cmd hexecuted hmutating
  refine ⟨cmd, hexecuted, j, hj, henqueued, ?_⟩
  exact (hheld j cmd.connectionId hj henqueued).2 8 _ hj.le le_rfl rfl 6 (by simp [Event.instants])

end RackMcp
