import Mathlib.Data.List.Induction
import RackMcp.Server.RateLimiter

/-!
# What the rate limiter promises

`SlidesExactly` collects what a sliding window is for: no window of the length holds more changes than the
limit, only a batch that would exceed it is refused, a refusal leaves no trace, and the queue stays short. The
invariant is `tracks_after`: at every instant from the last reading on, the queue is what the log of all
recorded changes holds after the start of the window.

`retry_succeeds_iff` says when a refused batch gets through once the reported wait is over.
-/

namespace RackMcp.Server

open Gen SlidingWindow

/-! ### The clock of a run -/

theorem clockAdvances_append (calls : List AdmitCall) {later : List AdmitCall} (h : ClockAdvances (calls ++ later)) :
    ClockAdvances calls ∧ ClockAdvances later ∧
      ∀ c ∈ calls, ∀ c' ∈ later, c.decidedAt ≤ c'.prunedAt := by
  unfold ClockAdvances at h
  rw [List.flatMap_append, List.pairwise_append] at h
  refine ⟨h.1, h.2.1, fun c hc c' hc' => h.2.2 _ ?_ _ ?_⟩
  · exact List.mem_flatMap.mpr ⟨c, hc, by simp⟩
  · exact List.mem_flatMap.mpr ⟨c', hc', by simp⟩

theorem ClockAdvances.prunedAt_le {calls later : List AdmitCall} {c c' : AdmitCall}
    (h : ClockAdvances (calls ++ later)) (hc : c ∈ calls) (hc' : c' ∈ later) : c.prunedAt ≤ c'.prunedAt := by
  unfold ClockAdvances at h
  rw [List.flatMap_append, List.pairwise_append] at h
  refine h.2.2 _ ?_ _ ?_
  · exact List.mem_flatMap.mpr ⟨c, hc, by simp⟩
  · exact List.mem_flatMap.mpr ⟨c', hc', by simp⟩

theorem clockAdvances_singleton {c : AdmitCall} : ClockAdvances [c] ↔ c.prunedAt ≤ c.decidedAt := by
  simp [ClockAdvances]

namespace RateLimiter

variable {r : RateLimiter} {c : AdmitCall} {calls : List AdmitCall}

/-! ### The queue and the log -/

/-- An admission at its clock keeps the queue on the track of the log. -/
theorem tracks_admitCount {log : List Int} {now : Int}
    (h : ∀ now, c.prunedAt ≤ now → Tracks (now - r.windowMs) r.hits log) (hlog : ∀ x ∈ log, x ≤ c.prunedAt)
    (hclock : c.prunedAt ≤ c.decidedAt) (hnow : c.decidedAt ≤ now) :
    Tracks (now - r.windowMs) (r.admitCount c).2.hits (log ++ (r.admitCount c).1.instants) := by
  have hexpired : Tracks (now - r.windowMs) (r.expire c.prunedAt).hits log :=
    ((h c.prunedAt le_rfl).prune le_rfl).mono (by omega)
  rcases r.admit_cases c with ⟨-, hadmitted⟩ | ⟨-, -, -, hadmitted⟩ | ⟨-, -, -, hadmitted⟩
  · rw [hadmitted]
    simpa [Admission.instants] using h now (by omega)
  · rw [hadmitted]
    exact hexpired.append _ fun x hx => (hlog x hx).trans hclock
  · rw [hadmitted]
    simpa [Admission.instants] using hexpired

theorem le_of_mem_instants {x : Int} (h : x ∈ (r.admitCount c).1.instants) : x = c.decidedAt := by
  rcases r.admit_cases c with ⟨-, hadmitted⟩ | ⟨-, -, -, hadmitted⟩ | ⟨-, -, -, hadmitted⟩
  · rw [hadmitted] at h
    exact absurd h List.not_mem_nil
  · rw [hadmitted] at h
    exact List.eq_of_mem_replicate h
  · rw [hadmitted] at h
    exact absurd h List.not_mem_nil

/-- What was recorded was recorded at a reading of the clock. -/
theorem exists_of_mem_recorded {x : Int} (h : x ∈ r.recorded calls) : ∃ c ∈ calls, x = c.decidedAt := by
  induction calls using List.reverseRecOn with
  | nil => exact absurd h List.not_mem_nil
  | append_singleton calls c ih =>
    rw [recorded_concat, List.mem_append] at h
    rcases h with h | h
    · obtain ⟨c', hc', hx⟩ := ih h
      exact ⟨c', List.mem_append_left _ hc', hx⟩
    · exact ⟨c, by simp, le_of_mem_instants h⟩

/-- From the last reading on, the queue of a new limiter is what the log holds after the start of the window. -/
theorem tracks_after (hnew : r.hits = []) (hclock : ClockAdvances calls) {now : Int}
    (hnow : ∀ c ∈ calls, c.decidedAt ≤ now) : Tracks (now - r.windowMs) (r.after calls).hits (r.recorded calls) := by
  induction calls using List.reverseRecOn generalizing now with
  | nil =>
    show Tracks _ r.hits []
    rw [hnew]
    exact .nil
  | append_singleton calls c ih =>
    obtain ⟨hcalls, hc, hbefore⟩ := clockAdvances_append _ hclock
    have hbefore' : ∀ c' ∈ calls, c'.decidedAt ≤ c.prunedAt := fun c' hc' => hbefore c' hc' c (by simp)
    have htracks : ∀ now, c.prunedAt ≤ now →
        Tracks (now - (r.after calls).windowMs) (r.after calls).hits (r.recorded calls) := by
      intro now hnow
      rw [after_windowMs]
      exact ih hcalls fun c' hc' => (hbefore' c' hc').trans hnow
    rw [after_append, recorded_concat, ← after_windowMs (r := r) calls]
    refine tracks_admitCount htracks (fun x hx => ?_) (clockAdvances_singleton.mp hc) (hnow c (by simp))
    obtain ⟨c', hc', rfl⟩ := exists_of_mem_recorded hx
    exact hbefore' c' hc'

/-- Where a call prunes, the queue is as long as the log has changes in the window before. -/
theorem length_expired {before : List AdmitCall} (later : List AdmitCall) (hnew : r.hits = [])
    (hclock : ClockAdvances (before ++ c :: later)) :
    ((r.after before).expire c.prunedAt).hits.length =
      (r.recorded before).countP fun x => c.prunedAt - r.windowMs < x := by
  obtain ⟨hbefore, -, hle⟩ := clockAdvances_append _ hclock
  rw [expire_hits, after_windowMs]
  exact (tracks_after hnew hbefore fun c' hc' => hle c' hc' c (by simp)).length_prune le_rfl

/-! ### The limit -/

/-- No two instants of the window are the whole window apart. -/
def Within (windowMs : Int) (window : Int → Bool) : Prop :=
  ∀ x y, window x = true → window y = true → y - windowMs < x

theorem within_closedOpen (windowMs start : Int) :
    Within windowMs fun x => decide (start ≤ x ∧ x < start + windowMs) := by
  intro x y hx hy
  have hx := of_decide_eq_true hx
  have hy := of_decide_eq_true hy
  omega

theorem within_openClosed (windowMs start : Int) :
    Within windowMs fun x => decide (start < x ∧ x ≤ start + windowMs) := by
  intro x y hx hy
  have hx := of_decide_eq_true hx
  have hy := of_decide_eq_true hy
  omega

theorem countP_recorded_le (hnew : r.hits = []) (hlimit : 0 ≤ r.limit) (hclock : ClockAdvances calls)
    {window : Int → Bool} (hwindow : Within r.windowMs window) : (r.recorded calls).countP window ≤ r.limit := by
  induction calls using List.reverseRecOn with
  | nil => exact hlimit
  | append_singleton calls c ih =>
    obtain ⟨hcalls, hc, -⟩ := clockAdvances_append _ hclock
    have hprefix := ih hcalls
    rw [recorded_concat, List.countP_append]
    rcases (r.after calls).admit_cases c with ⟨-, hadmitted⟩ | ⟨hcount, -, hfits, hadmitted⟩ | ⟨-, -, -, hadmitted⟩
    · rw [hadmitted]
      simpa [Admission.instants] using hprefix
    · rw [hadmitted]
      dsimp only
      by_cases hin : window c.decidedAt = true
      · -- what the window holds beside this batch was still in the queue
        have hlength := length_expired [] hnew hclock
        have hle : (r.recorded calls).countP window ≤ ((r.after calls).expire c.prunedAt).hits.length := by
          rw [hlength]
          refine List.countP_mono_left fun x _ hx => decide_eq_true ?_
          have hpruned := clockAdvances_singleton.mp hc
          have hspan := hwindow x c.decidedAt hx hin
          omega
        have hbatch : (Admission.recorded c.count.toNat c.decidedAt).instants.countP window ≤ c.count.toNat := by
          refine List.countP_le_length.trans_eq ?_
          exact List.length_replicate
        rw [after_limit] at hfits
        omega
      · have hbatch : (Admission.recorded c.count.toNat c.decidedAt).instants.countP window = 0 := by
          refine List.countP_eq_zero.mpr fun x hx => ?_
          rw [List.eq_of_mem_replicate hx]
          exact hin
        rw [hbatch]
        simpa using hprefix
    · rw [hadmitted]
      simpa [Admission.instants] using hprefix

/-- The queue holds no more changes than the limit. -/
theorem length_hits_le (hnew : r.hits = []) (hlimit : 0 ≤ r.limit) : (r.after calls).hits.length ≤ r.limit := by
  induction calls using List.reverseRecOn with
  | nil =>
    show (r.hits.length : Int) ≤ r.limit
    rw [hnew]
    exact hlimit
  | append_singleton calls c ih =>
    rw [after_append]
    show ((((r.after calls).admitCount c).2.hits.length : ℕ) : Int) ≤ r.limit
    rcases (r.after calls).admit_cases c with ⟨-, hadmitted⟩ | ⟨hcount, -, hfits, hadmitted⟩ | ⟨-, -, -, hadmitted⟩
    · rw [hadmitted]
      exact ih
    · rw [hadmitted]
      rw [after_limit] at hfits
      simp only [List.length_append, List.length_replicate]
      omega
    · rw [hadmitted]
      have hexpired : ((r.after calls).expire c.prunedAt).hits.length ≤ (r.after calls).hits.length :=
        prune_suffix.length_le
      dsimp only
      omega

/-! ### Refusals -/

/-- A call does the same whether or not what it drops was dropped before, up to what it would drop. -/
theorem admit_expire {now : Int} (h : now ≤ c.prunedAt) :
    ((r.expire now).admitCount c = r.admitCount c) ∨
      ((r.expire now).admitCount c = (.uncounted, r.expire now) ∧ r.admitCount c = (.uncounted, r)) := by
  unfold admitCount
  rw [expire_expire h, expire_limit]
  by_cases hnone : c.count ≤ 0 ∨ r.limit ≤ 0
  · rw [if_pos hnone, if_pos hnone]
    exact .inr ⟨rfl, rfl⟩
  · rw [if_neg hnone, if_neg hnone]
    exact .inl rfl

/-- Dropping what has expired changes no later decision. -/
theorem admissions_expire {now : Int} (h : ∀ c ∈ calls, now ≤ c.prunedAt) :
    (r.expire now).admissions calls = r.admissions calls := by
  induction calls generalizing r with
  | nil => rfl
  | cons c calls ih =>
    have hrest : ∀ c ∈ calls, now ≤ c.prunedAt := fun c' hc' => h c' (List.mem_cons_of_mem _ hc')
    unfold admissions
    rcases admit_expire (r := r) (h c List.mem_cons_self) with heq | ⟨hexpired, hadmitted⟩
    · rw [heq]
    · rw [hexpired, hadmitted]
      exact congrArg (Admission.uncounted :: ·) (ih hrest)

/-- The call is refused. -/
def Refuses (r : RateLimiter) (c : AdmitCall) : Prop := ∃ wanted retryInMs, (r.admitCount c).1 = .refused wanted retryInMs

/-- When a call is refused, and what it leaves. -/
theorem refuses_iff : r.Refuses c ↔
    0 < c.count ∧ 0 < r.limit ∧ r.limit < (r.expire c.prunedAt).hits.length + c.count := by
  unfold Refuses
  rcases r.admit_cases c with ⟨hnone, hadmitted⟩ | ⟨-, -, hfits, hadmitted⟩ | ⟨hcount, hlimit, hfull, hadmitted⟩
  · rw [hadmitted]
    refine ⟨?_, fun h => by omega⟩
    rintro ⟨_, _, h⟩
    exact absurd h (by simp)
  · rw [hadmitted]
    refine ⟨?_, fun h => by omega⟩
    rintro ⟨_, _, h⟩
    exact absurd h (by simp)
  · rw [hadmitted]
    exact ⟨fun _ => ⟨hcount, hlimit, hfull⟩, fun _ => ⟨_, _, rfl⟩⟩

theorem admit_of_refuses (h : r.Refuses c) : r.admitCount c =
    (.refused ((r.expire c.prunedAt).hits.length + c.count) ((r.expire c.prunedAt).retryInMs c.decidedAt),
      r.expire c.prunedAt) := by
  obtain ⟨hcount, hlimit, hfull⟩ := refuses_iff.mp h
  rcases r.admit_cases c with ⟨hnone, -⟩ | ⟨-, -, hfits, -⟩ | ⟨-, -, -, hadmitted⟩
  · omega
  · omega
  · exact hadmitted

/-! ### Retrying -/

/-- The batch fits with the changes that were recorded after the oldest one the window holds, as far as they are
recent enough to stay in it for a millisecond. -/
def FitsAfterOldest (r : RateLimiter) (c : AdmitCall) : Prop :=
  (prune (max ((r.expire c.prunedAt).hits.headD 0) (c.decidedAt + 1 - r.windowMs))
    (r.expire c.prunedAt).hits).length + c.count ≤ r.limit

theorem one_le_retryInMs {now : Int} : 1 ≤ r.retryInMs now := by
  unfold retryInMs
  split
  · exact le_rfl
  · exact le_max_left _ _

/-- The reported wait ends when the oldest change expires, and lasts a millisecond at least. -/
theorem add_retryInMs {now oldest : Int} {rest : List Int} (hhits : r.hits = oldest :: rest) :
    now + r.retryInMs now - r.windowMs = max oldest (now + 1 - r.windowMs) := by
  unfold retryInMs
  rw [hhits]
  dsimp only
  omega

/-- What a limiter holds once the reported wait is over, at the earliest. -/
theorem prune_retryInMs (now : Int) :
    prune (now + r.retryInMs now - r.windowMs) r.hits = prune (max (r.hits.headD 0) (now + 1 - r.windowMs)) r.hits := by
  rcases hhits : r.hits with _ | ⟨oldest, rest⟩
  · rfl
  · rw [add_retryInMs hhits]
    rfl

/-- Calls that record nothing change no later decision. -/
theorem expire_after {now : Int} (hquiet : ∀ a ∈ r.admissions calls, a.instants = [])
    (hnow : ∀ c ∈ calls, c.prunedAt ≤ now) : (r.after calls).expire now = r.expire now := by
  induction calls generalizing r with
  | nil => rfl
  | cons c calls ih =>
    have hrest : ((r.admitCount c).2.after calls).expire now = (r.admitCount c).2.expire now :=
      ih (fun a ha => hquiet a (List.mem_cons_of_mem _ ha)) fun c' hc' => hnow c' (List.mem_cons_of_mem _ hc')
    rw [after_cons, hrest]
    have hfirst : (r.admitCount c).1.instants = [] := hquiet _ List.mem_cons_self
    rcases r.admit_cases c with ⟨-, hadmitted⟩ | ⟨hcount, -, -, hadmitted⟩ | ⟨-, -, -, hadmitted⟩
    · rw [hadmitted]
    · rw [hadmitted] at hfirst
      have hlength := congrArg List.length hfirst
      simp only [Admission.instants, List.length_replicate, List.length_nil] at hlength
      omega
    · rw [hadmitted]
      exact expire_expire (hnow c List.mem_cons_self)

end RateLimiter

/-! ### The sliding window -/

/-- What the sliding window of a new limiter promises of a run of calls. -/
structure SlidesExactly (limit windowMs : Int) (calls : List AdmitCall) : Prop where
  /-- No half-open interval of the window's length has more changes than the limit. -/
  bounded : ∀ start,
    ((RateLimiter.mk limit windowMs []).admitted calls).countP (fun x => start ≤ x ∧ x < start + windowMs) ≤ limit ∧
    ((RateLimiter.mk limit windowMs []).admitted calls).countP (fun x => start < x ∧ x ≤ start + windowMs) ≤ limit
  /-- Only a batch that would exceed the limit with what the preceding window holds is refused. -/
  refused : ∀ before c later, calls = before ++ c :: later →
    ((RateLimiter.mk limit windowMs []).after before).Refuses c →
    limit < c.count + ((RateLimiter.mk limit windowMs []).admitted before).countP
      (fun x => c.prunedAt - windowMs < x ∧ x ≤ c.prunedAt)
  /-- A refused call changes no later decision. -/
  unchanged : ∀ before c later, calls = before ++ c :: later →
    ((RateLimiter.mk limit windowMs []).after before).Refuses c →
    ((RateLimiter.mk limit windowMs []).after (before ++ [c])).admissions later =
      ((RateLimiter.mk limit windowMs []).after before).admissions later
  /-- The queue is never longer than the limit. -/
  retained : ∀ before later, calls = before ++ later →
    ((RateLimiter.mk limit windowMs []).after before).hits.length ≤ limit

/-- Every new limiter slides exactly, over every run in which the clock does not go back. -/
theorem slides_exactly {limit windowMs : Int} (hlimit : 0 < limit) {calls : List AdmitCall}
    (hclock : ClockAdvances calls) : SlidesExactly limit windowMs calls where
  bounded start := by
    rw [RateLimiter.admitted_eq_recorded hlimit]
    exact ⟨RateLimiter.countP_recorded_le rfl hlimit.le hclock (RateLimiter.within_closedOpen windowMs start),
      RateLimiter.countP_recorded_le rfl hlimit.le hclock (RateLimiter.within_openClosed windowMs start)⟩
  refused before c later hcalls hrefuses := by
    subst hcalls
    obtain ⟨-, -, hfull⟩ := RateLimiter.refuses_iff.mp hrefuses
    have hwindow : ∀ x ∈ (RateLimiter.mk limit windowMs []).recorded before,
        (decide (c.prunedAt - windowMs < x) = true ↔
          decide (c.prunedAt - windowMs < x ∧ x ≤ c.prunedAt) = true) := by
      intro x hx
      obtain ⟨c', hc', rfl⟩ := RateLimiter.exists_of_mem_recorded hx
      have hle := (clockAdvances_append _ hclock).2.2 c' hc' c (by simp)
      simp [hle]
    rw [RateLimiter.after_limit, RateLimiter.length_expired later rfl hclock, List.countP_congr hwindow] at hfull
    rw [RateLimiter.admitted_eq_recorded hlimit]
    dsimp only at hfull
    omega
  unchanged before c later hcalls hrefuses := by
    subst hcalls
    obtain ⟨-, hlater, -⟩ := clockAdvances_append _ hclock
    have hle : ∀ c' ∈ later, c.prunedAt ≤ c'.prunedAt := by
      intro c' hc'
      obtain ⟨hc, -, hnext⟩ := clockAdvances_append [c] hlater
      exact (clockAdvances_singleton.mp hc).trans (hnext c (by simp) c' hc')
    rw [RateLimiter.after_append]
    show (((RateLimiter.mk limit windowMs []).after before).admitCount c).2.admissions later = _
    rw [RateLimiter.admit_of_refuses hrefuses]
    exact RateLimiter.admissions_expire hle
  retained before later _ := RateLimiter.length_hits_le rfl hlimit.le

/-- Two calls fill a window, a third is refused and a fourth comes after it. -/
theorem slides_exactly_refused :
    ((RateLimiter.mk 3 1000 []).after [⟨2, 0, 1⟩, ⟨1, 500, 501⟩]).Refuses ⟨1, 900, 900⟩ ∧
      SlidesExactly 3 1000 [⟨2, 0, 1⟩, ⟨1, 500, 501⟩, ⟨1, 900, 900⟩, ⟨2, 1001, 1002⟩] :=
  ⟨RateLimiter.refuses_iff.mpr (by decide), slides_exactly (by decide) (by unfold ClockAdvances; decide)⟩

/-! ### Retrying a commit -/

/-- The call of `admit` that commits this plan. -/
def commitCall (operations : List Json) (prunedAt decidedAt : Int) : AdmitCall :=
  ⟨countParamChanges operations, prunedAt, decidedAt⟩

/-- After a refusal with this hint, the same plan gets through once the wait is over, whatever recorded nothing was
asked of the limiter in between. -/
def RetrySucceeds (r : RateLimiter) (operations : List Json) (prunedAt decidedAt retryInMs : Int) : Prop :=
  ∀ between againPrunedAt againDecidedAt,
    ClockAdvances (commitCall operations prunedAt decidedAt :: (between ++
      [commitCall operations againPrunedAt againDecidedAt])) →
    (∀ a ∈ (r.admitCount (commitCall operations prunedAt decidedAt)).2.admissions between, a.instants = []) →
    decidedAt + retryInMs ≤ againPrunedAt →
    ¬ ((r.admitCount (commitCall operations prunedAt decidedAt)).2.after between).Refuses
      (commitCall operations againPrunedAt againDecidedAt)

/-- A refused commit gets through once the wait it was told is over exactly if its batch fits with the changes that
follow the oldest one. -/
theorem retry_succeeds_iff {r : RateLimiter} {operations : List Json} {prunedAt decidedAt wanted retryInMs : Int}
    (hclock : prunedAt ≤ decidedAt)
    (hrefused : (r.admitCount (commitCall operations prunedAt decidedAt)).1 = .refused wanted retryInMs) :
    RetrySucceeds r operations prunedAt decidedAt retryInMs ↔
      r.FitsAfterOldest (commitCall operations prunedAt decidedAt) := by
  have hrefuses : r.Refuses (commitCall operations prunedAt decidedAt) := ⟨wanted, retryInMs, hrefused⟩
  have hadmitted := RateLimiter.admit_of_refuses hrefuses
  obtain ⟨hcount, hlimit, -⟩ := RateLimiter.refuses_iff.mp hrefuses
  have hretry : retryInMs = (r.expire prunedAt).retryInMs decidedAt := by
    rw [hadmitted] at hrefused
    exact (Admission.refused.inj hrefused).2.symm
  have hpositive : 1 ≤ retryInMs := by
    rw [hretry]
    exact RateLimiter.one_le_retryInMs
  have hfits : r.FitsAfterOldest (commitCall operations prunedAt decidedAt) ↔
      (prune (decidedAt + retryInMs - r.windowMs) (r.expire prunedAt).hits).length +
        (countParamChanges operations : Int) ≤ r.limit := by
    rw [hretry, ← RateLimiter.expire_windowMs (r := r) prunedAt, RateLimiter.prune_retryInMs]
    rfl
  unfold RetrySucceeds
  rw [hfits, hadmitted]
  constructor
  · intro h
    have hagain := h [] (decidedAt + retryInMs) (decidedAt + retryInMs)
      (by simp [ClockAdvances, commitCall]; omega) (fun a ha => absurd ha List.not_mem_nil) le_rfl
    rw [RateLimiter.refuses_iff] at hagain
    exact not_lt.mp fun hfull => hagain ⟨hcount, hlimit, hfull⟩
  · intro h between againPrunedAt againDecidedAt hadvances hquiet hwait hagain
    obtain ⟨-, -, hfull⟩ := RateLimiter.refuses_iff.mp hagain
    have hbetween : ∀ c ∈ between, c.prunedAt ≤ againPrunedAt := fun c hc =>
      hadvances.prunedAt_le (List.mem_cons_of_mem _ hc) (List.mem_singleton_self _)
    have hexpired : ((r.expire prunedAt).after between).expire againPrunedAt =
        (r.expire prunedAt).expire againPrunedAt := RateLimiter.expire_after hquiet hbetween
    rw [RateLimiter.after_limit] at hfull
    dsimp only [commitCall] at hfull
    rw [hexpired] at hfull
    have hlength : ((r.expire prunedAt).expire againPrunedAt).hits.length ≤
        (prune (decidedAt + retryInMs - r.windowMs) (r.expire prunedAt).hits).length :=
      length_prune_anti (by rw [RateLimiter.expire_windowMs]; omega)
    rw [RateLimiter.expire_limit] at hfull
    omega

/-- A plan that sets this many parameters. -/
def settingPlan (n : Nat) : List Json := List.replicate n (.object [("op", .string "set_parameter"),
  ("module", .object [("moduleId", .string "1")]), ("paramId", .integer 0), ("value", .integer 0)])

/-- Two changes, once 29 were recorded 600 ms ago, get through after the reported wait. -/
theorem retry_succeeds_batch : RetrySucceeds (({} : RateLimiter).after [⟨29, 0, 0⟩]) (settingPlan 2) 600 600 400 := by
  have hrefused : ((({} : RateLimiter).after [⟨29, 0, 0⟩]).admitCount (commitCall (settingPlan 2) 600 600)).1 =
      .refused 31 400 := by decide +kernel
  refine (retry_succeeds_iff le_rfl hrefused).mpr ?_
  unfold RateLimiter.FitsAfterOldest
  decide +kernel

/-- One change at 0 and 29 more at 500: at 600 a batch of two is told to wait for the one change alone. -/
theorem retry_refused :
    let r := ({} : RateLimiter).after [⟨1, 0, 0⟩, ⟨29, 500, 500⟩]
    (settingPlan 2).length ≤ 128 ∧ (r.admitCount (commitCall (settingPlan 2) 600 600)).1 = .refused 32 400 ∧
      (toErrorPayload (r.refusal 32 400)).retrySafe = true ∧ ¬ RetrySucceeds r (settingPlan 2) 600 600 400 := by
  refine ⟨by decide, by decide +kernel, rfl, fun h => ?_⟩
  refine h [] 1000 1000 (by unfold ClockAdvances; decide) (fun a ha => absurd ha List.not_mem_nil) (by decide) ?_
  exact RateLimiter.refuses_iff.mpr (by decide +kernel)

end RackMcp.Server
