import RackMcp.Server.BridgeClient

/-!
# Bridge clients that nothing references

A client that is not closed belongs to the connection attempt that holds the lock or is the one in use (`Owned`).
Every exit of an attempt keeps that but one: a handshake wait that times out rejects and leaves the socket open. So a
settled attempt leaves an orphan exactly in the runs in which that happens (`no_orphans_iff`).
-/

namespace RackMcp.Server

/-- The attempt of the client is still under way. -/
def Stage.underWay : Stage → Bool
  | .ready | .failed => false
  | _ => true

theorem Client.underWay_of_waits {cl : Client} (h : cl.waits = true) : cl.stage.underWay = true := by
  unfold Client.waits at h
  rcases of_decide_eq_true h with h | h <;> rw [h] <;> rfl

/-- What `teardown` makes of an open client. -/
def Client.closed (cl : Client) : Client :=
  { cl with socket := .closed, stage := if cl.waits then .failed else cl.stage }

theorem Client.waits_closed (cl : Client) : cl.closed.waits = false := by
  unfold Client.closed
  by_cases hwaits : cl.waits = true
  · rw [if_pos hwaits]
    rfl
  · rw [if_neg hwaits]
    exact Bool.eq_false_iff.mpr hwaits

namespace Manager

variable {s t : Manager} {c : ℕ} {cl cl' : Client}

/-- What the connect lock gives: the attempt under way is the one that holds it, no client is in use meanwhile, and
a client that waits is not closed. -/
structure Attempting (s : Manager) : Prop where
  locked : ∀ (c : ℕ) (cl : Client), s.clients[c]? = some cl → cl.stage.underWay → s.attempt = some c
  unused : s.attempt.isSome → s.client = none
  waiting : ∀ (c : ℕ) (cl : Client), s.clients[c]? = some cl → cl.waits → cl.socket ≠ .closed

/-- Each client that is not closed is in use or belongs to the attempt under way. -/
structure Owned (s : Manager) : Prop extends s.Attempting where
  owner : ∀ (c : ℕ) (cl : Client), s.clients[c]? = some cl → cl.socket ≠ .closed → s.client = some c ∨ s.attempt = some c

theorem attempting_start : Attempting {} := ⟨by simp, by simp, by simp⟩

theorem owned_start : Owned {} := ⟨attempting_start, by simp⟩

/-! ### Steps of one client -/

/-- From `s` to `t` only client `c` changes, and becomes `cl`; the other clients keep their owner. -/
structure Changes (s t : Manager) (c : ℕ) (cl : Client) : Prop where
  clients : t.clients = s.clients.set c cl
  client : ∀ d, d ≠ c → s.client = some d → t.client = some d
  attempt : ∀ d, d ≠ c → s.attempt = some d → t.attempt = some d

/-- A client of `t` is a client of `s`, or the one that changed. -/
theorem Changes.getElem? (h : Changes s t c cl') {d : ℕ} (hd : t.clients[d]? = some cl) :
    (d ≠ c ∧ s.clients[d]? = some cl) ∨ (d = c ∧ cl = cl') := by
  rw [h.clients, List.getElem?_set] at hd
  by_cases heq : c = d
  · rw [if_pos heq] at hd
    split at hd
    · exact .inr ⟨heq.symm, (Option.some.inj hd).symm⟩
    · exact absurd hd (by simp)
  · rw [if_neg heq] at hd
    exact .inl ⟨fun h => heq h.symm, hd⟩

theorem Attempting.of_changes (hs : s.Attempting) (h : Changes s t c cl')
    (hlocked : cl'.stage.underWay → t.attempt = some c) (hunused : t.attempt.isSome → t.client = none)
    (hwaiting : cl'.waits → cl'.socket ≠ .closed) : t.Attempting := by
  refine ⟨fun d cl hd hway => ?_, hunused, fun d cl hd hwaits => ?_⟩
  · obtain ⟨hne, hd⟩ | ⟨rfl, rfl⟩ := h.getElem? hd
    · exact h.attempt d hne (hs.locked d cl hd hway)
    · exact hlocked hway
  · obtain ⟨-, hd⟩ | ⟨-, rfl⟩ := h.getElem? hd
    · exact hs.waiting d cl hd hwaits
    · exact hwaiting hwaits

theorem Owned.of_changes (hs : s.Owned) (ht : t.Attempting) (h : Changes s t c cl')
    (howner : cl'.socket ≠ .closed → t.client = some c ∨ t.attempt = some c) : t.Owned := by
  refine ⟨ht, fun d cl hd hopen => ?_⟩
  obtain ⟨hne, hd⟩ | ⟨rfl, rfl⟩ := h.getElem? hd
  · exact (hs.owner d cl hd hopen).imp (h.client d hne) (h.attempt d hne)
  · exact howner hopen

theorem changes_setClient (s : Manager) (c : ℕ) (cl : Client) : Changes s (s.setClient c cl) c cl :=
  ⟨rfl, fun _ _ h => h, fun _ _ h => h⟩

/-- A client whose attempt holds the lock ends it. -/
theorem changes_fail (hattempt : s.attempt = some c) :
    Changes s (s.fail c cl) c { cl with stage := .failed } := by
  refine ⟨rfl, fun _ _ h => h, fun d hne h => ?_⟩
  rw [hattempt] at h
  exact absurd (Option.some.inj h).symm hne

theorem Attempting.fail (cl : Client) (hs : s.Attempting) (hattempt : s.attempt = some c) : (s.fail c cl).Attempting :=
  hs.of_changes (changes_fail hattempt) nofun nofun nofun

/-! ### Closing -/

/-- The state after `teardown` of an open client. -/
def closed (s : Manager) (c : ℕ) (cl : Client) : Manager :=
  { clients := s.clients.set c cl.closed
    client := if s.client = some c then none else s.client
    selected := s.selected
    attempt := if cl.waits then none else s.attempt }

theorem teardown_of_open (hc : s.clients[c]? = some cl) (hopen : cl.socket ≠ .closed) :
    s.teardown c = s.closed c cl := by
  unfold teardown closed Client.closed
  rw [hc]
  dsimp only
  rw [if_neg hopen]
  have hwaits : Client.waits { cl with socket := .closed } = cl.waits := rfl
  rw [hwaits]
  by_cases hw : cl.waits = true
  · by_cases hused : s.client = some c
    · simp [hw, hused, fail, setClient]
    · simp [hw, hused, fail, setClient]
  · by_cases hused : s.client = some c
    · simp [hw, hused, setClient]
    · simp [hw, hused, setClient]

theorem teardown_of_closed (hc : ∀ cl, s.clients[c]? = some cl → cl.socket = .closed) : s.teardown c = s := by
  unfold teardown
  rcases hcl : s.clients[c]? with _ | cl
  · rfl
  · exact if_pos (hc cl hcl)

/-- `teardown` does nothing to a closed client. -/
theorem teardown_cases (s : Manager) (c : ℕ) :
    (s.teardown c = s ∧ ∀ cl, s.clients[c]? = some cl → cl.socket = .closed) ∨
      ∃ cl, s.clients[c]? = some cl ∧ cl.socket ≠ .closed ∧ s.teardown c = s.closed c cl := by
  by_cases hclosed : ∀ cl, s.clients[c]? = some cl → cl.socket = .closed
  · exact .inl ⟨teardown_of_closed hclosed, hclosed⟩
  · push Not at hclosed
    obtain ⟨cl, hcl, hopen⟩ := hclosed
    exact .inr ⟨cl, hcl, hopen, teardown_of_open hcl hopen⟩

theorem changes_closed (hs : s.Attempting) (hc : s.clients[c]? = some cl) :
    Changes s (s.closed c cl) c cl.closed := by
  refine ⟨rfl, fun d hne h => ?_, fun d hne h => ?_⟩
  · show (if s.client = some c then none else s.client) = some d
    rw [h, if_neg (by simpa using hne)]
  · show (if cl.waits then none else s.attempt) = some d
    by_cases hwaits : cl.waits = true
    · have hlocked := hs.locked c cl hc (Client.underWay_of_waits hwaits)
      rw [hlocked] at h
      exact absurd (Option.some.inj h).symm hne
    · rw [if_neg hwaits, h]

theorem Attempting.closed (hs : s.Attempting) (hc : s.clients[c]? = some cl) : (s.closed c cl).Attempting := by
  refine hs.of_changes (changes_closed hs hc) (fun hway => ?_) (fun hsome => ?_) (fun hwaits => ?_)
  · show (if cl.waits then none else s.attempt) = some c
    by_cases hwaits : cl.waits = true
    · simp [Client.closed, hwaits, Stage.underWay] at hway
    · rw [if_neg hwaits]
      have hstage : cl.closed.stage = cl.stage := if_neg hwaits
      exact hs.locked c cl hc (hstage ▸ hway)
  · show (if s.client = some c then none else s.client) = none
    have hunused : s.client = none := by
      refine hs.unused ?_
      have hsome : (if cl.waits then none else s.attempt).isSome = true := hsome
      split at hsome
      · exact absurd hsome (by simp)
      · exact hsome
    rw [hunused]
    rfl
  · rw [cl.waits_closed] at hwaits
    exact absurd hwaits Bool.false_ne_true

theorem Attempting.teardown (hs : s.Attempting) (c : ℕ) : (s.teardown c).Attempting := by
  obtain ⟨heq, -⟩ | ⟨cl, hc, -, heq⟩ := s.teardown_cases c
  · rw [heq]
    exact hs
  · rw [heq]
    exact hs.closed hc

theorem Owned.teardown (hs : s.Owned) (c : ℕ) : (s.teardown c).Owned := by
  obtain ⟨heq, -⟩ | ⟨cl, hc, -, heq⟩ := s.teardown_cases c
  · rw [heq]
    exact hs
  · rw [heq]
    exact hs.of_changes (hs.toAttempting.closed hc) (changes_closed hs.toAttempting hc) (fun h => absurd rfl h)

/-- `teardown` closes the client. -/
theorem socket_teardown (hc : (s.teardown c).clients[c]? = some cl) : cl.socket = .closed := by
  obtain ⟨heq, hclosed⟩ | ⟨cl', hc', -, heq⟩ := s.teardown_cases c
  · rw [heq] at hc
    exact hclosed cl hc
  · rw [heq] at hc
    have hlt := (List.getElem?_eq_some_iff.mp hc').1
    have hset : (s.closed c cl').clients[c]? = _ := List.getElem?_set_self hlt
    rw [hset] at hc
    exact (Option.some.inj hc) ▸ rfl

theorem client_teardown (h : s.client = some c) (d : ℕ) (hd : (s.teardown c).client = some d) : d = c := by
  obtain ⟨heq, -⟩ | ⟨cl, -, -, heq⟩ := s.teardown_cases c
  · rw [heq, h] at hd
    exact (Option.some.inj hd).symm
  · rw [heq] at hd
    have hnone : (s.closed c cl).client = none := if_pos h
    rw [hnone] at hd
    exact absurd hd (by simp)

theorem Attempting.disconnect (hs : s.Attempting) : s.disconnect.Attempting := by
  unfold Manager.disconnect
  rcases s.client with _ | c
  · exact hs
  · have ht := hs.teardown c
    exact ⟨ht.locked, fun _ => rfl, ht.waiting⟩

theorem Owned.disconnect (hs : s.Owned) : s.disconnect.Owned := by
  refine ⟨hs.toAttempting.disconnect, ?_⟩
  intro d cl
  unfold Manager.disconnect
  rcases hclient : s.client with _ | c
  · exact hs.owner d cl
  · intro hd hopen
    obtain hused | hattempt := (hs.teardown c).owner d cl hd hopen
    · obtain rfl := client_teardown hclient d hused
      exact absurd (socket_teardown hd) hopen
    · exact .inr hattempt

/-- After `disconnect` no client is in use. -/
theorem client_disconnect (s : Manager) : s.disconnect.client = none := by
  unfold Manager.disconnect
  rcases h : s.client with _ | c
  · exact h
  · rfl

theorem attempt_teardown (h : s.attempt = none) : (s.teardown c).attempt = none := by
  obtain ⟨heq, -⟩ | ⟨cl, -, -, heq⟩ := s.teardown_cases c
  · rw [heq, h]
  · rw [heq]
    show (if cl.waits then none else s.attempt) = none
    rw [h, ite_self]

theorem attempt_disconnect (h : s.attempt = none) : s.disconnect.attempt = none := by
  unfold Manager.disconnect
  rcases s.client with _ | c
  · exact h
  · exact attempt_teardown h

theorem Changes.trans {u : Manager} (h : Changes s t c cl) (h' : Changes t u c cl') : Changes s u c cl' := by
  refine ⟨?_, fun d hne hd => h'.client d hne (h.client d hne hd), fun d hne hd => h'.attempt d hne (h.attempt d hne hd)⟩
  rw [h'.clients, h.clients, List.set_set]

theorem changes_teardown (hs : s.Attempting) (hc : s.clients[c]? = some cl) :
    ∃ cl', cl'.socket = .closed ∧ Changes s (s.teardown c) c cl' := by
  by_cases hclosed : cl.socket = .closed
  · have heq : s.teardown c = s := teardown_of_closed fun cl' h => by rw [hc] at h; exact Option.some.inj h ▸ hclosed
    refine ⟨cl, hclosed, ?_⟩
    rw [heq]
    obtain ⟨hlt, rfl⟩ := List.getElem?_eq_some_iff.mp hc
    exact ⟨(List.set_getElem_self hlt).symm, fun _ _ h => h, fun _ _ h => h⟩
  · refine ⟨cl.closed, rfl, ?_⟩
    rw [teardown_of_open hc hclosed]
    exact changes_closed hs hc

/-! ### The events -/

/-- What a step keeps. -/
def Keeps (s t : Manager) : Prop := t.Attempting ∧ (s.Owned → t.Owned)

theorem Keeps.refl (hs : s.Attempting) : Keeps s s := ⟨hs, id⟩

theorem Keeps.of_changes (hs : s.Attempting) (h : Changes s t c cl')
    (hlocked : cl'.stage.underWay → t.attempt = some c) (hunused : t.attempt.isSome → t.client = none)
    (hwaiting : cl'.waits → cl'.socket ≠ .closed)
    (howner : cl'.socket ≠ .closed → t.client = some c ∨ t.attempt = some c) : Keeps s t := by
  have ht := hs.of_changes h hlocked hunused hwaiting
  exact ⟨ht, fun hown => hown.of_changes ht h howner⟩

theorem Keeps.disconnect (hs : s.Attempting) : Keeps s s.disconnect := ⟨hs.disconnect, Owned.disconnect⟩

theorem Keeps.teardown (hs : s.Attempting) : Keeps s (s.teardown c) := ⟨hs.teardown c, fun h => h.teardown c⟩

/-- The client of the attempt goes on to another stage. -/
theorem Keeps.goOn (hs : s.Attempting) (hattempt : s.attempt = some c) (hwaiting : cl.waits → cl.socket ≠ .closed) :
    Keeps s (s.setClient c cl) :=
  Keeps.of_changes hs (changes_setClient s c cl) (fun _ => hattempt) hs.unused hwaiting (fun _ => .inr hattempt)

/-- A new client, while no attempt holds the lock. -/
theorem Keeps.dial (hs : s.Attempting) (hattempt : s.attempt = none) :
    Keeps s { s.disconnect with
      selected := none
      clients := s.disconnect.clients ++ [({} : Client)]
      attempt := some s.disconnect.clients.length } := by
  have hnone := attempt_disconnect hattempt
  -- a client that was there, or the new one
  have hsplit : ∀ (d : ℕ) (cl : Client), (s.disconnect.clients ++ [({} : Client)])[d]? = some cl →
      s.disconnect.clients[d]? = some cl ∨ d = s.disconnect.clients.length ∧ cl = {} := by
    intro d cl hd
    by_cases hlt : d < s.disconnect.clients.length
    · rw [List.getElem?_append_left hlt] at hd
      exact .inl hd
    · rw [List.getElem?_append_right (Nat.le_of_not_lt hlt)] at hd
      have hzero : d - s.disconnect.clients.length = 0 := by
        have := (List.getElem?_eq_some_iff.mp hd).1
        rw [List.length_singleton] at this
        omega
      rw [hzero] at hd
      exact .inr ⟨by omega, (Option.some.inj hd).symm⟩
  have ht : Attempting { s.disconnect with
      selected := none
      clients := s.disconnect.clients ++ [({} : Client)]
      attempt := some s.disconnect.clients.length } := by
    refine ⟨fun d cl hd hway => ?_, fun _ => s.client_disconnect, fun d cl hd hwaits => ?_⟩
    · obtain hd | ⟨rfl, -⟩ := hsplit d cl hd
      · have hlocked := hs.disconnect.locked d cl hd hway
        rw [hnone] at hlocked
        exact absurd hlocked (by simp)
      · rfl
    · obtain hd | ⟨-, rfl⟩ := hsplit d cl hd
      · exact hs.disconnect.waiting d cl hd hwaits
      · exact absurd hwaits (by decide)
  refine ⟨ht, fun hown => ⟨ht, fun d cl hd hopen => ?_⟩⟩
  obtain hd | ⟨rfl, -⟩ := hsplit d cl hd
  · exfalso
    have howner := hown.disconnect.owner d cl hd hopen
    rw [hnone, client_disconnect] at howner
    simp at howner
  · exact .inr rfl

theorem Keeps.connectTo (hs : s.Attempting) (hattempt : s.attempt = none) (instanceId : String) (outlook : Outlook) :
    Keeps s (s.connectTo instanceId outlook) := by
  unfold Manager.connectTo
  by_cases hsame : s.connected = true ∧ s.selected = some instanceId
  · rw [if_pos hsame]
    exact .refl hs
  · rw [if_neg hsame]
    rcases outlook with _ | _ | _
    · exact .refl hs
    · have hd := hs.disconnect
      exact ⟨⟨hd.locked, hd.unused, hd.waiting⟩, fun h => ⟨⟨hd.locked, hd.unused, hd.waiting⟩, h.disconnect.owner⟩⟩
    · exact .dial hs hattempt

theorem Keeps.dispatch (hs : s.Attempting) (hc : s.clients[c]? = some cl) (f : ClientFrame) :
    Keeps s (s.dispatch c cl f) := by
  unfold Manager.dispatch
  split
  · exact .disconnect hs
  · exact .teardown hs
  · exact .refl hs
  · split
    · next hstage => exact .goOn hs (hs.locked c cl hc (by rw [hstage]; rfl)) nofun
    · next hstage => exact .goOn hs (hs.locked c cl hc (by rw [hstage]; rfl)) nofun
    · exact .refl hs

theorem Keeps.refuse (hs : s.Attempting) (hc : s.clients[c]? = some cl) (hattempt : s.attempt = some c) :
    Keeps s (s.refuse c cl) := by
  have hfail := hs.fail cl hattempt
  have hlt := (List.getElem?_eq_some_iff.mp hc).1
  obtain ⟨cl', hclosed, hchanges⟩ := changes_teardown hfail (List.getElem?_set_self hlt)
  exact ⟨hfail.teardown c, fun hown =>
    hown.of_changes (hfail.teardown c) ((changes_fail hattempt).trans hchanges) (fun h => absurd hclosed h)⟩

/-- The attempt ends with a client that is closed. -/
theorem Keeps.fail (hs : s.Attempting) (hattempt : s.attempt = some c) (hclosed : cl.socket = .closed) :
    Keeps s (s.fail c cl) :=
  ⟨hs.fail cl hattempt, fun hown =>
    hown.of_changes (hs.fail cl hattempt) (changes_fail hattempt) (fun h => absurd hclosed h)⟩

theorem Keeps.resume (hs : s.Attempting) (hc : s.clients[c]? = some cl) : Keeps s (s.resume c cl) := by
  have hlocked := hs.locked c cl hc
  unfold Manager.resume
  split
  · next hstage =>
    have hattempt := hlocked (by rw [hstage]; rfl)
    by_cases hclosed : cl.socket = .closed
    · rw [if_pos hclosed]
      exact .fail hs hattempt hclosed
    · rw [if_neg hclosed]
      exact .goOn hs hattempt (fun _ => hclosed)
  · next hstage => exact .refuse hs hc (hlocked (by rw [hstage]; rfl))
  · next hstage =>
    have hattempt := hlocked (by rw [hstage]; rfl)
    have hunused : s.client = none := hs.unused (by rw [hattempt]; rfl)
    have hchanges : Changes s { s.setClient c { cl with stage := .ready } with
        client := some c, selected := some cl.instanceId, attempt := none } c { cl with stage := .ready } := by
      refine ⟨rfl, fun d _ h => ?_, fun d hne h => ?_⟩
      · rw [hunused] at h
        exact absurd h (by simp)
      · rw [hattempt] at h
        exact absurd (Option.some.inj h).symm hne
    exact .of_changes hs hchanges nofun nofun nofun (fun _ => .inl rfl)
  · next hstage => exact .refuse hs hc (hlocked (by rw [hstage]; rfl))
  · exact .refl hs

/-- The timer of a handshake wait fires. -/
def TimesOut (s : Manager) : ConnectEvent → Bool
  | .handshakeTimeout c => (s.clients[c]?).any Client.waits
  | _ => false

theorem waits_of_timesOut {e : ConnectEvent} (h : s.TimesOut e = true) :
    ∃ c cl, e = .handshakeTimeout c ∧ s.clients[c]? = some cl ∧ cl.waits = true := by
  unfold TimesOut at h
  split at h
  · next c =>
    obtain ⟨cl, hc, hwaits⟩ := (Option.any_eq_true ..).mp h
    exact ⟨c, cl, rfl, hc, hwaits⟩
  · exact absurd h Bool.false_ne_true

theorem step_handshakeTimeout (hc : s.clients[c]? = some cl) :
    (s.step (.handshakeTimeout c)).1 = if cl.waits then s.fail c cl else s := by
  unfold step
  simp only [hc]

/-- An event of a client that there is. -/
theorem Keeps.event (hs : s.Attempting) (hc : s.clients[c]? = some cl) {e : ConnectEvent}
    (he : e = .dialed c ∨ e = .dialFailed c ∨ (∃ f, e = .frame c f) ∨ e = .resume c ∨ e = .socketClosed c) :
    Keeps s (s.step e).1 := by
  have hattempt : cl.stage = .dialing → s.attempt = some c := fun h => hs.locked c cl hc (by rw [h]; rfl)
  obtain rfl | rfl | ⟨f, rfl⟩ | rfl | rfl := he <;> unfold step <;> simp only [hc]
  · by_cases hstage : cl.stage = .dialing
    · rw [if_pos hstage]
      exact .goOn hs (hattempt hstage) (fun _ => nofun)
    · rw [if_neg hstage]
      exact .refl hs
  · by_cases hstage : cl.stage = .dialing
    · rw [if_pos hstage]
      exact .fail hs (hattempt hstage) rfl
    · rw [if_neg hstage]
      exact .refl hs
  · by_cases hopen : cl.socket = .opened
    · rw [if_pos hopen]
      exact .dispatch hs hc f
    · rw [if_neg hopen]
      exact .refl hs
  · exact .resume hs hc
  · exact .teardown hs

/-- Every event keeps what the lock gives, and every event but the timeout of a handshake the ownership. -/
theorem step_keeps (hs : s.Attempting) (e : ConnectEvent) :
    (s.step e).1.Attempting ∧ (s.TimesOut e = false → s.Owned → (s.step e).1.Owned) := by
  have hkeeps : Keeps s (s.step e).1 →
      (s.step e).1.Attempting ∧ (s.TimesOut e = false → s.Owned → (s.step e).1.Owned) := fun h => ⟨h.1, fun _ => h.2⟩
  -- an event that names a client there is not is lost
  have hnamed : ∀ c : ℕ, (s.clients[c]? = none → (s.step e).1 = s) →
      (∀ cl, s.clients[c]? = some cl → (s.step e).1.Attempting ∧ (s.TimesOut e = false → s.Owned → (s.step e).1.Owned)) →
      (s.step e).1.Attempting ∧ (s.TimesOut e = false → s.Owned → (s.step e).1.Owned) := by
    intro c hlost hfound
    rcases hc : s.clients[c]? with _ | cl
    · exact hkeeps (by rw [hlost hc]; exact .refl hs)
    · exact hfound cl hc
  rcases e with ⟨instanceId, outlook⟩ | c | c | ⟨c, f⟩ | c | c | c | _
  · apply hkeeps
    unfold step
    dsimp only
    rcases hattempt : s.attempt with _ | d
    · exact .connectTo hs hattempt instanceId outlook
    · exact .refl hs
  · exact hnamed c (fun h => by simp [step, h]) fun cl hc => hkeeps (.event hs hc (.inl rfl))
  · exact hnamed c (fun h => by simp [step, h]) fun cl hc => hkeeps (.event hs hc (.inr (.inl rfl)))
  · exact hnamed c (fun h => by simp [step, h]) fun cl hc => hkeeps (.event hs hc (.inr (.inr (.inl ⟨f, rfl⟩))))
  · exact hnamed c (fun h => by simp [step, h]) fun cl hc => hkeeps (.event hs hc (.inr (.inr (.inr (.inl rfl)))))
  · refine hnamed c (fun h => by simp [step, h]) fun cl hc => ?_
    rw [step_handshakeTimeout hc]
    by_cases hwaits : cl.waits = true
    · rw [if_pos hwaits]
      refine ⟨hs.fail cl (hs.locked c cl hc (Client.underWay_of_waits hwaits)), fun hnot => ?_⟩
      simp [TimesOut, hc, hwaits] at hnot
    · rw [if_neg hwaits]
      exact ⟨hs, fun _ => id⟩
  · exact hnamed c (fun h => by simp [step, h]) fun cl hc => hkeeps (.event hs hc (.inr (.inr (.inr (.inr rfl)))))
  · exact hkeeps (.disconnect hs)

theorem attempting_run (es : List ConnectEvent) (k : ℕ) : (stateAt es k).Attempting :=
  Trace.invariant attempting_start (fun _ e h => (step_keeps h e).1) k

/-! ### Settled attempts -/

/-- No client but the one in use can still be reached by the plugin. A client with a closed socket cannot become
authenticated, and the plugin releases its lease. -/
def Orphanless (s : Manager) : Prop :=
  ∀ (c : ℕ) (cl : Client), s.clients[c]? = some cl → cl.socket ≠ .closed → s.client = some c

/-- The timeout of a handshake settles the attempt and leaves an orphan. -/
theorem orphan_of_timesOut (hs : s.Attempting) {e : ConnectEvent} (h : s.TimesOut e = true) :
    (s.step e).1.attempt = none ∧ ¬ (s.step e).1.Orphanless := by
  obtain ⟨c, cl, rfl, hc, hwaits⟩ := waits_of_timesOut h
  have hattempt := hs.locked c cl hc (Client.underWay_of_waits hwaits)
  have hunused : s.client = none := hs.unused (by rw [hattempt]; rfl)
  rw [step_handshakeTimeout hc, if_pos hwaits]
  refine ⟨rfl, fun horphanless => ?_⟩
  have hlt := (List.getElem?_eq_some_iff.mp hc).1
  have howner : s.client = some c :=
    horphanless c { cl with stage := .failed } (List.getElem?_set_self hlt) (hs.waiting c cl hc hwaits)
  rw [hunused] at howner
  exact absurd howner (by simp)

/-- In every order of events: whenever no attempt is under way, the only client whose socket is not closed is the one
the manager references, exactly if no handshake wait of the run times out. -/
theorem no_orphans_iff (es : List ConnectEvent) :
    (∀ k, (stateAt es k).attempt = none → (stateAt es k).Orphanless) ↔
      ∀ k e, es[k]? = some e → (stateAt es k).TimesOut e = false := by
  refine ⟨fun horphanless k e he => ?_, fun hintime k hsettled => ?_⟩
  · by_contra htimes
    obtain ⟨hsettled, horphan⟩ := orphan_of_timesOut (attempting_run es k) (eq_true_of_ne_false htimes)
    have hnext : stateAt es (k + 1) = ((stateAt es k).step e).1 := Trace.stateAt_succ he
    rw [← hnext] at hsettled horphan
    exact horphan (horphanless (k + 1) hsettled)
  · have howned : (stateAt es k).Owned := by
      refine Trace.stable (P := Owned) (Nat.zero_le k) owned_start (fun i e _ he hi => ?_)
      exact (step_keeps hi.toAttempting e).2 (hintime i e he) hi
    intro c cl hc hopen
    obtain hused | hattempt := howned.owner c cl hc hopen
    · exact hused
    · rw [hsettled] at hattempt
      exact absurd hattempt (by simp)

/-- The bridge accepts the connection and does not answer the hello in time. -/
theorem slow_welcome_orphans :
    ¬ ∀ (es : List ConnectEvent) (k : ℕ), (stateAt es k).attempt = none → (stateAt es k).Orphanless := by
  intro hall
  have horphanless := hall [.connectTo "rack" .dials, .dialed 0, .handshakeTimeout 0] 3 rfl
  have howner := horphanless 0 { socket := .opened, stage := .failed } rfl nofun
  exact absurd howner (by decide)

end Manager

end RackMcp.Server
