import RackMcp.Core.Secret
import RackMcp.Lib.SharedCell

/-!
# Whose secret is in the file

The file `secret` is a cell that the Rack processes of one directory share: a call of `loadOrCreateSecret` adopts what
it reads there, or installs what it drew. The temporary file of a process holds what that process has written and
nothing else (`InFlight`), so a `rename` installs a secret whole, and `SharedCell.agrees_run_iff` says when all the
processes have the secret that a client reads.
-/

namespace RackMcp

open SharedCell (Cell Deed)

/-! ### Writes in flight -/

/-- What the temporary file of a call has to hold. -/
def LoadStage.temp? : LoadStage → Option (List UInt8)
  | .writing raw written => some ((secretText raw).take written)
  | .syncing raw => some (secretText raw)
  | .renaming raw => some (secretText raw)
  | _ => none

namespace SecretDir

/-- No temporary file is clobbered. -/
def InFlight (d : SecretDir) : Prop := ∀ pid t, (d.calls pid).temp? = some t → d.temps pid = some t

variable {d : SecretDir} {pid : ℕ} {e : SysCall}

theorem inFlight_initial (secret : Option (List UInt8)) (temps : ℕ → Option (List UInt8)) :
    (initial secret temps).InFlight := by
  intro pid t h
  cases h

theorem inFlight_goes {stage : LoadStage} (h : d.InFlight) (hstage : ∀ t, stage.temp? = some t → d.temps pid = some t) :
    (d.goes pid stage).InFlight := by
  intro i t (hi : (Function.update d.calls pid stage i).temp? = some t)
  show d.temps i = some t
  by_cases hpid : i = pid
  · subst hpid
    rw [Function.update_self] at hi
    exact hstage t hi
  · rw [Function.update_of_ne hpid] at hi
    exact h i t hi

/-- A process touches its own temporary file, at a stage that says what it then holds. -/
theorem inFlight_setTemp {contents : Option (List UInt8)} {stage : LoadStage} (h : d.InFlight)
    (hstage : ∀ t, stage.temp? = some t → contents = some t) : ((d.setTemp pid contents).goes pid stage).InFlight := by
  intro i t (hi : (Function.update d.calls pid stage i).temp? = some t)
  show Function.update d.temps pid contents i = some t
  by_cases hpid : i = pid
  · subst hpid
    rw [Function.update_self] at hi ⊢
    exact hstage t hi
  · rw [Function.update_of_ne hpid] at hi ⊢
    exact h i t hi

theorem inFlight_givesUp (h : d.InFlight) : (d.givesUp pid).InFlight := by
  refine inFlight_setTemp h ?_
  intro t ht
  cases ht

theorem inFlight_step (h : d.InFlight) : (d.step e).InFlight := by
  unfold step
  rcases hstage : d.calls e.pid with _ | _ | _ | raw | ⟨raw, written⟩ | raw | raw | ⟨out, created⟩
  · refine inFlight_goes h ?_
    by_cases hok : e.answer.ok <;> simp [hok, LoadStage.temp?]
  · dsimp only
    generalize (if e.answer.ok then readSecretFile d.secret else none) = found
    rcases found with _ | raw
    · exact inFlight_goes h (by simp [LoadStage.temp?])
    · exact inFlight_goes h (by simp [LoadStage.temp?])
  · refine inFlight_goes h ?_
    by_cases hok : e.answer.ok <;> simp [hok, LoadStage.temp?]
  · by_cases hok : e.answer.ok
    · simp only [hok, if_true]
      exact inFlight_setTemp h (by simp [LoadStage.temp?])
    · simp only [hok]
      exact inFlight_goes h (by simp [LoadStage.temp?])
  · have htemp := h e.pid _ (by rw [hstage]; rfl)
    show InFlight (if e.answer.ok = false ∨ min e.answer.count ((secretText raw).length - written) = 0 then _ else _)
    generalize min e.answer.count ((secretText raw).length - written) = n
    split
    · exact inFlight_givesUp h
    · refine inFlight_setTemp h ?_
      intro t ht
      rw [htemp, Option.getD_some, ← List.take_add, ← ht]
      split
      · rfl
      · next hfull => exact congrArg some (List.take_of_length_le (by omega))
  · have htemp := h e.pid _ (by rw [hstage]; rfl)
    by_cases hok : e.answer.ok
    · simp only [hok, if_true]
      refine inFlight_goes h ?_
      intro t ht
      rw [htemp, ← ht]
      rfl
    · simp only [hok]
      exact inFlight_givesUp h
  · by_cases hok : e.answer.ok
    · simp only [hok, if_true]
      exact inFlight_setTemp h (by simp [LoadStage.temp?])
    · simp only [hok]
      exact inFlight_givesUp h
  · exact h

/-! ### The cell -/

/-- The file as a cell, and the secrets that the calls have returned. -/
def cell (d : SecretDir) : Cell ℕ PairingSecret := ⟨readSecretFile d.secret, fun pid => (d.calls pid).secret?⟩

/-- What a system call does to the cell. -/
def deed (d : SecretDir) (e : SysCall) : Deed PairingSecret :=
  match d.calls e.pid with
  | .reading => if e.answer.ok && (readSecretFile d.secret).isSome then .adopt else .idle
  | .renaming raw => if e.answer.ok then .install raw else .idle
  | _ => .idle

theorem cell_goes (pid : ℕ) (stage : LoadStage) :
    cell (d.goes pid stage) = ⟨(cell d).value, Function.update (cell d).held pid stage.secret?⟩ := by
  show Cell.mk _ _ = Cell.mk _ _
  congr 1
  funext i
  show (Function.update d.calls pid stage i).secret? = Function.update (cell d).held pid stage.secret? i
  by_cases hpid : i = pid
  · subst hpid
    rw [Function.update_self, Function.update_self]
  · rw [Function.update_of_ne hpid, Function.update_of_ne hpid]
    rfl

/-- A call that has not returned and does not return a secret now changes nothing in the cell. -/
theorem cell_goes_of_none {stage : LoadStage} (hnow : (d.calls pid).secret? = none) (hthen : stage.secret? = none) :
    cell (d.goes pid stage) = cell d := by
  rw [cell_goes, hthen]
  show Cell.mk _ _ = Cell.mk _ _
  congr 1
  rw [← hnow]
  exact Function.update_eq_self pid (cell d).held

theorem cell_givesUp (hnow : (d.calls pid).secret? = none) : cell (d.givesUp pid) = cell d := cell_goes_of_none hnow rfl

theorem apply_idle {c : Cell ℕ PairingSecret} : c.apply pid .idle = c := by
  unfold Cell.apply
  split <;> rfl

theorem cell_step (h : d.InFlight) : cell (d.step e) = (cell d).apply e.pid (d.deed e) := by
  unfold step deed
  rcases hstage : d.calls e.pid with _ | _ | _ | raw | ⟨raw, written⟩ | raw | raw | ⟨out, created⟩
  all_goals
    simp only [apply_idle]
  · refine cell_goes_of_none (by rw [hstage]; rfl) ?_
    by_cases hok : e.answer.ok <;> simp [hok, LoadStage.secret?]
  · have hnow : (d.calls e.pid).secret? = none := by rw [hstage]; rfl
    have hheld : (cell d).held e.pid = none := hnow
    by_cases hok : e.answer.ok
    · rcases hread : readSecretFile d.secret with _ | raw
      · simp only [hok, if_true, Option.isSome_none, Bool.and_false, Bool.false_eq_true, if_false, apply_idle]
        exact cell_goes_of_none hnow rfl
      · simp only [hok, if_true, Option.isSome_some, Bool.and_true, Cell.apply, hheld, Option.isSome_none, Bool.false_eq_true,
          if_false]
        rw [cell_goes]
        show Cell.mk _ (Function.update _ _ (some raw)) = Cell.mk _ (Function.update _ _ (readSecretFile d.secret))
        rw [hread]
    · simp only [hok, Bool.false_and, Bool.false_eq_true, if_false, apply_idle]
      exact cell_goes_of_none hnow rfl
  · refine cell_goes_of_none (by rw [hstage]; rfl) ?_
    by_cases hok : e.answer.ok <;> simp [hok, LoadStage.secret?]
  · have hnow : (d.calls e.pid).secret? = none := by rw [hstage]; rfl
    split
    · exact cell_goes_of_none (d := d.setTemp e.pid (some [])) hnow rfl
    · exact cell_goes_of_none hnow rfl
  · have hnow : (d.calls e.pid).secret? = none := by rw [hstage]; rfl
    split
    · exact cell_givesUp hnow
    · refine cell_goes_of_none (d := d.setTemp e.pid _) hnow ?_
      split <;> rfl
  · have hnow : (d.calls e.pid).secret? = none := by rw [hstage]; rfl
    split
    · exact cell_goes_of_none hnow rfl
    · exact cell_givesUp hnow
  · have hnow : (d.calls e.pid).secret? = none := by rw [hstage]; rfl
    have hheld : (cell d).held e.pid = none := hnow
    by_cases hok : e.answer.ok
    · have htemp : d.temps e.pid = some (secretText raw) := h e.pid _ (by rw [hstage]; rfl)
      simp only [hok, if_true, Cell.apply, hheld, Option.isSome_none, Bool.false_eq_true, if_false]
      have hgoes := cell_goes (d := d.setTemp e.pid none) e.pid (.returned (some raw) true)
      show Cell.mk (readSecretFile (d.temps e.pid)) _ = _
      rw [htemp, readSecretFile_secretText]
      exact congrArg (Cell.mk (some raw)) (congrArg Cell.held hgoes)
    · simp only [hok, Bool.false_eq_true, if_false, apply_idle]
      exact cell_givesUp hnow

/-! ### Every interleaving -/

/-- The processes have paired with the directory as it is: every call that has returned true has returned the secret
that is in the file. -/
def Paired (d : SecretDir) : Prop :=
  ∀ pid raw created, d.calls pid = .returned (some raw) created → readSecretFile d.secret = some raw

/-- No `rename` of the run puts a secret over the file after another call has returned a different one. -/
def NoneLeftBehind (d : SecretDir) (events : List SysCall) : Prop :=
  ∀ before e after, events = before ++ e :: after →
    ∀ raw, (d.run before).calls e.pid = .renaming raw → e.answer.ok = true →
      ∀ pid other created, (d.run before).calls pid = .returned (some other) created → other = raw

theorem secret?_eq_some_iff {stage : LoadStage} {raw : PairingSecret} :
    stage.secret? = some raw ↔ ∃ created, stage = .returned (some raw) created := by
  rcases stage with _ | _ | _ | _ | _ | _ | _ | ⟨out, created⟩ <;> simp [LoadStage.secret?]

theorem agrees_iff_paired (d : SecretDir) : (cell d).Agrees ↔ d.Paired := by
  constructor
  · intro h pid raw created hcall
    exact h pid raw (secret?_eq_some_iff.mpr ⟨created, hcall⟩)
  · intro h pid raw hheld
    obtain ⟨created, hcall⟩ := secret?_eq_some_iff.mp hheld
    exact h pid raw created hcall

/-- The deed of a system call that installs a secret is a `rename`. -/
theorem deed_eq_install_iff {raw : PairingSecret} :
    d.deed e = .install raw ↔ d.calls e.pid = .renaming raw ∧ e.answer.ok = true := by
  unfold deed
  rcases d.calls e.pid with _ | _ | _ | raw | ⟨raw, written⟩ | raw | raw | ⟨out, created⟩
  all_goals try simp
  · split <;> simp
  · split <;> simp [*]

theorem overrules_iff : (cell d).Overrules e.pid (d.deed e) ↔
    ∃ raw, d.calls e.pid = .renaming raw ∧ e.answer.ok = true ∧
      ∃ pid other created, d.calls pid = .returned (some other) created ∧ other ≠ raw := by
  constructor
  · intro ⟨_, raw, hdeed, pid, other, hheld, hne⟩
    obtain ⟨hcall, hok⟩ := deed_eq_install_iff.mp hdeed
    obtain ⟨created, hreturned⟩ := secret?_eq_some_iff.mp hheld
    exact ⟨raw, hcall, hok, pid, other, created, hreturned, hne⟩
  · intro ⟨raw, hcall, hok, pid, other, created, hreturned, hne⟩
    have hnow : (cell d).held e.pid = none := by
      show (d.calls e.pid).secret? = none
      rw [hcall]
      rfl
    exact ⟨hnow, raw, deed_eq_install_iff.mpr ⟨hcall, hok⟩, pid, other, secret?_eq_some_iff.mpr ⟨created, hreturned⟩, hne⟩

/-- However the system calls of any number of processes interleave, all of them have the secret in the file exactly
when no `rename` came after another call had returned a different secret. -/
theorem paired_run_iff (secret : Option (List UInt8)) (temps : ℕ → Option (List UInt8)) (events : List SysCall) :
    ((initial secret temps).run events).Paired ↔ NoneLeftBehind (initial secret temps) events := by
  have hstart : (cell (initial secret temps)).Agrees := by
    intro pid raw h
    cases h
  have hrun : (cell ((initial secret temps).run events)).Agrees ↔ ∀ before e after, events = before ++ e :: after →
      ¬ (cell ((initial secret temps).run before)).Overrules e.pid (((initial secret temps).run before).deed e) :=
    SharedCell.agrees_run_iff (fun _ (e : SysCall) h => inFlight_step (e := e) h)
      (fun _ (e : SysCall) h => cell_step (e := e) h) events (inFlight_initial secret temps) hstart
  rw [← agrees_iff_paired]
  refine hrun.trans ?_
  constructor
  · intro h before e after heq raw hcall hok pid other created hreturned
    by_contra hne
    exact h before e after heq (overrules_iff.mpr ⟨raw, hcall, hok, pid, other, created, hreturned, hne⟩)
  · intro h before e after heq hover
    obtain ⟨raw, hcall, hok, pid, other, created, hreturned, hne⟩ := overrules_iff.mp hover
    exact hne (h before e after heq raw hcall hok pid other created hreturned)

/-- Every call that was begun has returned. -/
def Finished (d : SecretDir) : Prop := ∀ pid, d.calls pid = .entering ∨ ∃ out created, d.calls pid = .returned out created

/-- Two processes find no secret; the second is still on its way when the first has returned. -/
def twoStarters : List SysCall :=
  let ones : PairingSecret := ⟨List.replicate 32 1, rfl⟩
  let first := fun a => SysCall.mk 0 a
  let second := fun a => SysCall.mk 1 a
  [first {}, second {}, first {}, second {}, first {}, second { random := ones },
    first {}, first { count := 65 }, first {}, first {}, second {}, second { count := 65 }, second {}, second {}]

/-- The first process keeps a secret that no client can read any more. -/
theorem first_left_behind :
    ((initial none fun _ => none).run twoStarters).Finished ∧ ¬ ((initial none fun _ => none).run twoStarters).Paired := by
  constructor
  · intro pid
    rcases pid with _ | _ | pid
    · exact Or.inr ⟨some ⟨List.replicate 32 0, rfl⟩, true, by decide +kernel⟩
    · exact Or.inr ⟨some ⟨List.replicate 32 1, rfl⟩, true, by decide +kernel⟩
    · exact Or.inl rfl
  · intro h
    have hread := h 0 ⟨List.replicate 32 0, rfl⟩ true (by decide +kernel)
    exact absurd hread (by decide +kernel)

end SecretDir

end RackMcp
