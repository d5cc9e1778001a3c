import Mathlib.Data.Int.Order.Basic
import RackMcp.Lib.SlidingWindow
import RackMcp.Server.Transactions

/-!
# The rate limiter

`RateLimiter` of `apps/mcp-server/src/ratelimit.ts` for every limit and window. A call of `admit` reads the
clock once to find what has expired and once more when it records its changes or refuses; the clock may have
advanced in between. `rateLimiterAdmit` is this limiter at the limits of the server, on the shared state.
-/

namespace RackMcp.Server

open Gen Cooperative SlidingWindow

/-- `RateLimiter`. -/
structure RateLimiter where
  limit : Int := paramChangesPerSecond
  windowMs : Int := 1000
  hits : List Int := []

/-- A call of `admit`, with the two readings of the clock. -/
structure AdmitCall where
  count : Int
  prunedAt : Int
  decidedAt : Int

/-- What `admit` does: nothing, record the changes at an instant, or refuse. -/
inductive Admission where
  | uncounted
  | recorded (count : Nat) (at_ : Int)
  | refused (wanted retryInMs : Int)
deriving DecidableEq

namespace RateLimiter

/-- The limiter once what has expired is dropped. -/
def expire (r : RateLimiter) (now : Int) : RateLimiter := { r with hits := prune (now - r.windowMs) r.hits }

/-- `retryInMs` of a refusal. -/
def retryInMs (r : RateLimiter) (now : Int) : Int :=
  match r.hits with
  | [] => 1
  | oldest :: _ => max 1 (oldest + r.windowMs - now)

/-- `RateLimiter.admit`. -/
def admitCount (r : RateLimiter) (c : AdmitCall) : Admission × RateLimiter :=
  if c.count ≤ 0 ∨ r.limit ≤ 0 then (.uncounted, r)
  else
    let r := r.expire c.prunedAt
    if r.hits.length + c.count > r.limit then (.refused (r.hits.length + c.count) (r.retryInMs c.decidedAt), r)
    else (.recorded c.count.toNat c.decidedAt, { r with hits := r.hits ++ List.replicate c.count.toNat c.decidedAt })

/-- The error of a refusal. -/
def refusal (r : RateLimiter) (wanted retryInMs : Int) : Thrown :=
  .tool .rateLimited ("parameter changes are limited to " ++ toString r.limit ++
      " per second; this request would make " ++ toString wanted ++ ". Retry in about " ++ toString retryInMs ++
      " ms.") true false
    (some (.object [("limit", .integer r.limit), ("windowMs", .integer r.windowMs), ("retryInMs", .integer retryInMs)]))

/-- The limiter after these calls. -/
def after (r : RateLimiter) (calls : List AdmitCall) : RateLimiter := calls.foldl (fun r c => (r.admitCount c).2) r

/-- What the calls do, in turn. -/
def admissions (r : RateLimiter) : List AdmitCall → List Admission
  | [] => []
  | c :: calls => (r.admitCount c).1 :: (r.admitCount c).2.admissions calls

end RateLimiter

/-- The call is not refused. -/
def Admission.admits : Admission → Bool
  | .refused _ _ => false
  | .uncounted | .recorded _ _ => true

/-- The instants of all changes of the calls that are not refused. -/
def RateLimiter.admitted (r : RateLimiter) : List AdmitCall → List Int
  | [] => []
  | c :: calls =>
    (if (r.admitCount c).1.admits then List.replicate c.count.toNat c.decidedAt else []) ++
      (r.admitCount c).2.admitted calls

/-- The instants of the changes that an admission records. -/
def Admission.instants : Admission → List Int
  | .recorded count at_ => List.replicate count at_
  | .uncounted | .refused _ _ => []

/-- The instants of all changes that the calls record. -/
def RateLimiter.recorded (r : RateLimiter) (calls : List AdmitCall) : List Int :=
  (r.admissions calls).flatMap Admission.instants

/-- The clock never goes back. -/
def ClockAdvances (calls : List AdmitCall) : Prop :=
  (calls.flatMap fun c => [c.prunedAt, c.decidedAt]).Pairwise (· ≤ ·)

namespace RateLimiter

variable {r : RateLimiter} {c : AdmitCall}

/-! ### One call -/

@[simp] theorem expire_limit (now : Int) : (r.expire now).limit = r.limit := rfl

@[simp] theorem expire_windowMs (now : Int) : (r.expire now).windowMs = r.windowMs := rfl

@[simp] theorem expire_hits (now : Int) : (r.expire now).hits = prune (now - r.windowMs) r.hits := rfl

/-- An earlier expiry makes no difference. -/
theorem expire_expire {now now' : Int} (h : now ≤ now') : (r.expire now).expire now' = r.expire now' := by
  unfold expire
  rw [prune_prune (by simpa using h)]

/-- What a call can do. -/
theorem admit_cases (r : RateLimiter) (c : AdmitCall) :
    ((c.count ≤ 0 ∨ r.limit ≤ 0) ∧ r.admitCount c = (.uncounted, r)) ∨
    (0 < c.count ∧ 0 < r.limit ∧ (r.expire c.prunedAt).hits.length + c.count ≤ r.limit ∧
      r.admitCount c = (.recorded c.count.toNat c.decidedAt,
        { r with hits := (r.expire c.prunedAt).hits ++ List.replicate c.count.toNat c.decidedAt })) ∨
    (0 < c.count ∧ 0 < r.limit ∧ r.limit < (r.expire c.prunedAt).hits.length + c.count ∧
      r.admitCount c = (.refused ((r.expire c.prunedAt).hits.length + c.count)
        ((r.expire c.prunedAt).retryInMs c.decidedAt), r.expire c.prunedAt)) := by
  unfold admitCount
  by_cases hnone : c.count ≤ 0 ∨ r.limit ≤ 0
  · exact .inl ⟨hnone, if_pos hnone⟩
  · have hcount : 0 < c.count := by omega
    have hlimit : 0 < r.limit := by omega
    rw [if_neg hnone]
    by_cases hfull : r.limit < (r.expire c.prunedAt).hits.length + c.count
    · exact .inr (.inr ⟨hcount, hlimit, hfull, if_pos hfull⟩)
    · exact .inr (.inl ⟨hcount, hlimit, not_lt.mp hfull, if_neg hfull⟩)

@[simp] theorem admit_limit : (r.admitCount c).2.limit = r.limit := by
  rcases r.admit_cases c with ⟨-, h⟩ | ⟨-, -, -, h⟩ | ⟨-, -, -, h⟩ <;> simp [h]

@[simp] theorem admit_windowMs : (r.admitCount c).2.windowMs = r.windowMs := by
  rcases r.admit_cases c with ⟨-, h⟩ | ⟨-, -, -, h⟩ | ⟨-, -, -, h⟩ <;> simp [h]

/-! ### Runs -/

@[simp] theorem after_cons (calls : List AdmitCall) : r.after (c :: calls) = (r.admitCount c).2.after calls := rfl

@[simp] theorem after_append (calls calls' : List AdmitCall) :
    r.after (calls ++ calls') = (r.after calls).after calls' := List.foldl_append

@[simp] theorem after_limit (calls : List AdmitCall) : (r.after calls).limit = r.limit := by
  induction calls generalizing r with
  | nil => rfl
  | cons c calls ih => rw [after_cons, ih, admit_limit]

@[simp] theorem after_windowMs (calls : List AdmitCall) : (r.after calls).windowMs = r.windowMs := by
  induction calls generalizing r with
  | nil => rfl
  | cons c calls ih => rw [after_cons, ih, admit_windowMs]

theorem admissions_append (calls calls' : List AdmitCall) :
    r.admissions (calls ++ calls') = r.admissions calls ++ (r.after calls).admissions calls' := by
  induction calls generalizing r with
  | nil => rfl
  | cons c calls ih => exact congrArg ((r.admitCount c).1 :: ·) ih

theorem recorded_concat (calls : List AdmitCall) :
    r.recorded (calls ++ [c]) = r.recorded calls ++ ((r.after calls).admitCount c).1.instants := by
  unfold recorded
  rw [admissions_append, List.flatMap_append]
  exact congrArg (_ ++ ·) (List.append_nil _)

/-- A limiter with a limit records the changes of every call that it does not refuse. -/
theorem instants_admitCount (hlimit : 0 < r.limit) : (r.admitCount c).1.instants =
    if (r.admitCount c).1.admits then List.replicate c.count.toNat c.decidedAt else [] := by
  rcases r.admit_cases c with ⟨hnone, h⟩ | ⟨-, -, -, h⟩ | ⟨-, -, -, h⟩
  · have hcount : c.count.toNat = 0 := by omega
    rw [h, hcount]
    rfl
  · rw [h]
    rfl
  · rw [h]
    rfl

theorem admitted_eq_recorded (hlimit : 0 < r.limit) (calls : List AdmitCall) : r.admitted calls = r.recorded calls := by
  induction calls generalizing r with
  | nil => rfl
  | cons c calls ih =>
    have hrest := ih (r := (r.admitCount c).2) (by rwa [admit_limit])
    unfold admitted
    rw [hrest, ← instants_admitCount hlimit]
    rfl

end RateLimiter

/-! ### The limiter of the server -/

/-- The limiter of a server, on its shared state. -/
def Shared.limiter (s : Shared) : RateLimiter := { hits := s.hits }

/-- How the task of a call ends. -/
def RateLimiter.ending (r : RateLimiter) : Admission → Async Unit
  | .refused wanted retryInMs => Task.fail (r.refusal wanted retryInMs)
  | .uncounted | .recorded _ _ => pure ()

variable {N : Node} {C : Comm Shared Call Reply}

/-- `rateLimiterAdmit` is `admit` of the limiter on the shared state, at the next readings of the clock. -/
theorem settle_rateLimiterAdmit (i count : ℕ) (s : Shared) :
    (settle C i (rateLimiterAdmit N count) s).1 =
        s.limiter.ending (s.limiter.admitCount ⟨count, N.now s.draws, N.now (s.draws + 1)⟩).1 ∧
      (settle C i (rateLimiterAdmit N count) s).2.limiter =
        (s.limiter.admitCount ⟨count, N.now s.draws, N.now (s.draws + 1)⟩).2 := by
  by_cases hcount : count = 0
  · subst hcount
    exact ⟨rfl, rfl⟩
  · have hnone : ¬ ((count : Int) ≤ 0 ∨ s.limiter.limit ≤ 0) := by
      have hpositive : s.limiter.limit = 30 := rfl
      omega
    obtain ⟨kept, hkept⟩ : ∃ kept, s.hits.dropWhile (fun x => decide (x ≤ N.now s.draws - 1000)) = kept := ⟨_, rfl⟩
    have hexpire : s.limiter.expire (N.now s.draws) = { hits := kept } := by
      rw [← hkept]
      rfl
    unfold rateLimiterAdmit RateLimiter.admitCount
    rw [if_neg hcount, if_neg hnone, hexpire]
    -- the task up to its check of the limit
    show (settle C i (ite (paramChangesPerSecond < (s.hits.dropWhile _).length + count) _ _) _).1 = _ ∧
      (settle C i (ite (paramChangesPerSecond < (s.hits.dropWhile _).length + count) _ _) _).2.limiter = _
    rw [hkept]
    dsimp only
    by_cases hfull : paramChangesPerSecond < kept.length + count
    · have hfull' : (kept.length : Int) + count > paramChangesPerSecond := by omega
      rw [if_pos hfull, if_pos hfull']
      simp only [id, hkept]
      rcases kept with _ | ⟨oldest, rest⟩
      · have hwanted : (([] : List Int).length : Int) + count = count := Int.zero_add _
        rw [hwanted]
        exact ⟨rfl, rfl⟩
      · exact ⟨rfl, rfl⟩
    · have hfits : ¬ (kept.length : Int) + count > paramChangesPerSecond := by omega
      rw [if_neg hfull, if_neg hfits]
      simp only [id, hkept]
      exact ⟨rfl, rfl⟩

end RackMcp.Server
