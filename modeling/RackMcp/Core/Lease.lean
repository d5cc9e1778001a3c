import RackMcp.Lib.Leasing

/-!
# The writer lease

`core/lease.cpp`. There is one writer lease for a Rack instance. Each operation runs under the
manager's mutex, so it is a function of the holder. The id a new lease gets is the one `uuid4` draws;
here it is an argument, and `issuesLease` says when it is drawn.
-/

namespace RackMcp

open Leasing

/-- `LeaseHolder`. -/
structure LeaseHolder where
  held : Bool := false
  leaseId : String := ""
  clientName : String := ""
  connectionId : Nat := 0
  expiresAtMs : Int := 0
deriving DecidableEq

/-- `LeaseManager::AcquireResult`, with the lease id the call hands out. -/
inductive AcquireResult where
  | ok (leaseId : String)
  | heldByOther
deriving DecidableEq

namespace LeaseHolder

variable (h : LeaseHolder) (connectionId : Nat) (leaseId : String) (nowMs ttlMs : Int)

/-! ### The operations -/

/-- `expired`, as `acquire` computes it. -/
def expired : Bool := h.held && decide (nowMs ≥ h.expiresAtMs)

/-- `acquire` draws an id for a new lease. -/
def issuesLease : Bool := !h.held || h.expired nowMs

/-- `LeaseManager::acquire`; the connection that holds the lease keeps its id. -/
def acquire (clientName uuid : String) : AcquireResult × LeaseHolder :=
  if h.held ∧ ¬ h.expired nowMs ∧ h.connectionId ≠ connectionId then (.heldByOther, h)
  else if h.held ∧ ¬ h.expired nowMs ∧ h.connectionId = connectionId then
    (.ok h.leaseId, { h with expiresAtMs := nowMs + ttlMs })
  else
    (.ok uuid,
      { held := true, leaseId := uuid, clientName, connectionId, expiresAtMs := nowMs + ttlMs })

/-- `LeaseManager::renew`. -/
def renew : Bool × LeaseHolder :=
  if ¬ h.held ∨ h.connectionId ≠ connectionId ∨ h.leaseId ≠ leaseId then (false, h)
  else if nowMs ≥ h.expiresAtMs then (false, h)
  else (true, { h with expiresAtMs := nowMs + ttlMs })

/-- `LeaseManager::release`. -/
def release : Bool × LeaseHolder :=
  if ¬ h.held ∨ h.connectionId ≠ connectionId ∨ h.leaseId ≠ leaseId then (false, h)
  else (true, {})

/-- `LeaseManager::onDisconnect`. -/
def onDisconnect : LeaseHolder :=
  if h.held ∧ h.connectionId = connectionId then {} else h

/-- `LeaseManager::isWriter`. -/
def isWriter : Bool := h.held && h.connectionId == connectionId && decide (nowMs < h.expiresAtMs)

/-- `LeaseManager::holder`. -/
def holder : LeaseHolder :=
  if h.held ∧ nowMs ≥ h.expiresAtMs then { h with held := false } else h

/-! ### The lease as a tenure -/

/-- Who holds the lease, expired or not. -/
def tenure : Option (Tenure Nat String Int) :=
  if h.held then some ⟨h.connectionId, h.leaseId, h.expiresAtMs⟩ else none

/-- At `nowMs` the connection holds the lease, unexpired, under this id. -/
def HeldBy : Prop :=
  h.held = true ∧ h.connectionId = connectionId ∧ h.leaseId = leaseId ∧ nowMs < h.expiresAtMs

variable {h connectionId leaseId nowMs ttlMs}

theorem holds_tenure : Holds h.tenure connectionId leaseId nowMs ↔ h.HeldBy connectionId leaseId nowMs := by
  unfold tenure HeldBy
  constructor
  · intro hold
    obtain ⟨x, hx, rfl, rfl, hnow⟩ := hold
    split at hx
    · next hheld =>
      obtain rfl := Option.some.inj hx
      exact ⟨hheld, rfl, rfl, hnow⟩
    · cases hx
  · intro hold
    obtain ⟨hheld, rfl, rfl, hnow⟩ := hold
    exact ⟨_, if_pos hheld, rfl, rfl, hnow⟩

/-- The gate and the executor ask `holder` for the connection and the id; that is the holder. -/
theorem heldBy_iff_holder : h.HeldBy connectionId leaseId nowMs ↔
    (h.holder nowMs).held = true ∧ (h.holder nowMs).connectionId = connectionId ∧
      (h.holder nowMs).leaseId = leaseId := by
  unfold HeldBy holder
  split
  · next hexp =>
    constructor
    · intro hold
      exact absurd hold.2.2.2 (by omega)
    · intro hold
      exact absurd hold.1 (by simp)
  · next hexp =>
    constructor
    · intro hold
      exact ⟨hold.1, hold.2.1, hold.2.2.1⟩
    · intro hold
      have hlt : ¬ nowMs ≥ h.expiresAtMs := fun hge => hexp ⟨hold.1, hge⟩
      exact ⟨hold.1, hold.2.1, hold.2.2, by omega⟩

theorem isWriter_iff : h.isWriter connectionId nowMs = true ↔ ∃ leaseId, h.HeldBy connectionId leaseId nowMs := by
  unfold isWriter HeldBy
  simp only [Bool.and_eq_true, beq_iff_eq, decide_eq_true_eq]
  constructor
  · intro hwriter
    exact ⟨h.leaseId, hwriter.1.1, hwriter.1.2, rfl, hwriter.2⟩
  · intro hwriter
    obtain ⟨-, hheld, hconn, -, hnow⟩ := hwriter
    exact ⟨⟨hheld, hconn⟩, hnow⟩

/-- At one instant at most one connection passes the writer test. -/
theorem isWriter_unique {a b : Nat} (ha : h.isWriter a nowMs = true) (hb : h.isWriter b nowMs = true) : a = b := by
  obtain ⟨i, hi⟩ := isWriter_iff.mp ha
  obtain ⟨j, hj⟩ := isWriter_iff.mp hb
  exact (Holds.unique (holds_tenure.mpr hi) (holds_tenure.mpr hj)).1

/-! ### The operations keep the discipline of leases -/

theorem tenure_of_held (hheld : h.held = true) :
    h.tenure = some ⟨h.connectionId, h.leaseId, h.expiresAtMs⟩ := if_pos hheld

/-- Extending a held lease extends the tenure. -/
theorem extended_step {used : Set String} {expires : Int} (hheld : h.held = true) (hnow : nowMs < h.expiresAtMs) :
    Step used nowMs h.tenure ({ h with expiresAtMs := expires } : LeaseHolder).tenure := by
  rw [tenure_of_held hheld, tenure_of_held (h := { h with expiresAtMs := expires }) hheld]
  exact .extended ⟨h.connectionId, h.leaseId, h.expiresAtMs⟩ expires hnow

theorem issuesLease_iff : h.issuesLease nowMs = true ↔ ∀ o i, ¬ h.HeldBy o i nowMs := by
  unfold issuesLease expired HeldBy
  constructor
  · intro hissue o i hold
    obtain ⟨hheld, -, -, hnow⟩ := hold
    simp only [hheld, Bool.not_true, Bool.true_and, Bool.false_or, decide_eq_true_eq] at hissue
    omega
  · intro hnone
    by_cases hheld : h.held = true
    · have hnow : ¬ nowMs < h.expiresAtMs := fun hlt => hnone _ _ ⟨hheld, rfl, rfl, hlt⟩
      simp only [hheld, Bool.not_true, Bool.true_and, Bool.false_or, decide_eq_true_eq]
      omega
    · simp [hheld]

/-- What `acquire` does: refuse, extend the caller's own lease, or grant a new one. -/
theorem acquire_cases (h : LeaseHolder) (connectionId : Nat) (nowMs ttlMs : Int) (clientName uuid : String) :
    h.acquire connectionId nowMs ttlMs clientName uuid = (.heldByOther, h) ∨
    (h.HeldBy connectionId h.leaseId nowMs ∧ h.acquire connectionId nowMs ttlMs clientName uuid =
      (.ok h.leaseId, { h with expiresAtMs := nowMs + ttlMs })) ∨
    (h.issuesLease nowMs = true ∧ h.acquire connectionId nowMs ttlMs clientName uuid =
      (.ok uuid, ⟨true, uuid, clientName, connectionId, nowMs + ttlMs⟩)) := by
  unfold acquire
  by_cases hissue : h.issuesLease nowMs = true
  · refine .inr (.inr ⟨hissue, ?_⟩)
    have hover : ¬ (h.held = true ∧ ¬ h.expired nowMs = true) := by
      intro hvalid
      simp only [issuesLease, hvalid.1, hvalid.2] at hissue
      cases hissue
    rw [if_neg (fun hother => hover ⟨hother.1, hother.2.1⟩), if_neg (fun hown => hover ⟨hown.1, hown.2.1⟩)]
  · simp only [issuesLease, Bool.or_eq_true, Bool.not_eq_true', not_or, Bool.not_eq_false] at hissue
    obtain ⟨hheld, hvalid⟩ := hissue
    by_cases hconn : h.connectionId = connectionId
    · refine .inr (.inl ⟨⟨hheld, hconn, rfl, ?_⟩, ?_⟩)
      · simp only [expired, hheld, Bool.true_and, decide_eq_true_eq] at hvalid
        omega
      · rw [if_neg (fun hother => hother.2.2 hconn), if_pos ⟨hheld, hvalid, hconn⟩]
    · exact .inl (if_pos ⟨hheld, hvalid, hconn⟩)

/-- `acquire` extends the caller's own lease, or grants one under the drawn id when none stands. -/
theorem acquire_step {used : Set String} (h : LeaseHolder) (connectionId : Nat) (nowMs ttlMs : Int)
    (clientName uuid : String) (hfresh : h.issuesLease nowMs = true → uuid ∉ used) :
    Step used nowMs h.tenure (h.acquire connectionId nowMs ttlMs clientName uuid).2.tenure := by
  obtain heq | ⟨hown, heq⟩ | ⟨hissue, heq⟩ := acquire_cases h connectionId nowMs ttlMs clientName uuid
  · rw [heq]
    exact .keep _
  · rw [heq]
    exact extended_step hown.1 hown.2.2.2
  · rw [heq]
    refine .granted _ ⟨connectionId, uuid, nowMs + ttlMs⟩ ?_ (hfresh hissue)
    intro o i hold
    exact issuesLease_iff.mp hissue o i (holds_tenure.mp hold)

/-- The id of the lease after a call is the one before it, or the drawn one. -/
theorem acquire_leaseId {clientName uuid : String} {h' : LeaseHolder}
    (heq : (h.acquire connectionId nowMs ttlMs clientName uuid).2 = h') (hheld : h'.held = true) :
    (h.issuesLease nowMs = true ∧ h'.leaseId = uuid) ∨ h.held = true ∧ h'.leaseId = h.leaseId := by
  subst heq
  obtain heq | ⟨hown, heq⟩ | ⟨hissue, heq⟩ := acquire_cases h connectionId nowMs ttlMs clientName uuid
  · rw [heq] at hheld ⊢
    exact .inr ⟨hheld, rfl⟩
  · rw [heq]
    exact .inr ⟨hown.1, rfl⟩
  · rw [heq]
    exact .inl ⟨hissue, rfl⟩

theorem renew_step {used : Set String} (h : LeaseHolder) (connectionId : Nat) (leaseId : String)
    (nowMs ttlMs : Int) :
    Step used nowMs h.tenure (h.renew connectionId leaseId nowMs ttlMs).2.tenure := by
  unfold renew
  split
  · exact .keep _
  · next hown =>
    split
    · exact .keep _
    · next hnow =>
      have hheld : h.held = true := by
        by_contra hnot
        exact hown (.inl hnot)
      exact extended_step hheld (by omega)

theorem release_step {used : Set String} (h : LeaseHolder) (connectionId : Nat) (leaseId : String)
    (nowMs : Int) : Step used nowMs h.tenure (h.release connectionId leaseId).2.tenure := by
  unfold release
  split
  · exact .keep _
  · exact .ended _

theorem onDisconnect_step {used : Set String} (h : LeaseHolder) (connectionId : Nat) (nowMs : Int) :
    Step used nowMs h.tenure (h.onDisconnect connectionId).tenure := by
  unfold onDisconnect
  split
  · exact .ended _
  · exact .keep _

theorem renew_leaseId {h' : LeaseHolder} (heq : (h.renew connectionId leaseId nowMs ttlMs).2 = h')
    (hheld : h'.held = true) : h.held = true ∧ h'.leaseId = h.leaseId := by
  subst heq
  unfold renew at *
  split at hheld
  · next hother => exact ⟨hheld, by rw [if_pos hother]⟩
  · next hown =>
    rw [if_neg hown]
    split at hheld
    · next hnow => exact ⟨hheld, by rw [if_pos hnow]⟩
    · next hnow => exact ⟨hheld, by rw [if_neg hnow]⟩

theorem release_leaseId {h' : LeaseHolder} (heq : (h.release connectionId leaseId).2 = h')
    (hheld : h'.held = true) : h' = h := by
  subst heq
  unfold release at *
  split at hheld
  · next hother => exact (by rw [if_pos hother])
  · cases hheld

theorem onDisconnect_leaseId {h' : LeaseHolder} (heq : h.onDisconnect connectionId = h')
    (hheld : h'.held = true) : h' = h := by
  subst heq
  unfold onDisconnect at *
  split at hheld
  · cases hheld
  · next hother => exact if_neg hother

end LeaseHolder

end RackMcp
