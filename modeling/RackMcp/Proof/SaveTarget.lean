import RackMcp.Proof.Lockstep
import RackMcp.Proof.WorldRun

/-!
# Where a save without a path writes

The path of Rack's patch manager is written by saves, loads, clears and by the user. Every branch of these but
one leaves a path that was given, or none: the catch block of a load keeps what the patch manager took over
from the archive. `PathHistory` follows a run with the paths that were given so far and with the one that was
left behind like that. The server asks for a path to be taken over only where the tool is to load a patch, and not
where it restores a checkpoint.
-/

namespace RackMcp

variable {rack : Rack} {J : Jansson} {h : Host}

/-! ### The path after a command -/

theorem ensureBridge_path (r : RackReadings) (h : Host) : (ensureBridge r h).2.path = h.path := by
  unfold ensureBridge
  split
  · rfl
  · rcases r.insertion with _ | _ | _ | ⟨m, panels⟩ | ⟨e, patch⟩ <;> rfl

theorem finishReplacement_path (r : RackReadings) (saved : Bool) (h : Host) :
    (finishReplacement rack r saved h).2.path = h.path := by
  have hensure := ensureBridge_path r h.bumpEpoch
  unfold finishReplacement
  rcases heq : ensureBridge r h.bumpEpoch with ⟨e | warnings, left⟩
  · rw [heq] at hensure
    exact hensure
  · rw [heq] at hensure
    exact hensure

theorem loadFailed_path (r : RackReadings) (what : String) (h : Host) :
    (loadFailed r what h).2.path = h.path := by
  have hensure := ensureBridge_path r h.bumpEpoch
  unfold loadFailed
  rcases heq : ensureBridge r h.bumpEpoch with ⟨e | warnings, left⟩
  · rw [heq] at hensure
    exact hensure
  · rw [heq] at hensure
    exact hensure

/-- The save reached the file it was to write. -/
def saveLands (r : RackReadings) (target : String) : Bool := (savePatchAtomic r target).isNone

theorem patchSave_path (r : RackReadings) (request : Json) (h : Host) :
    (patchSave rack r request h).2.path =
      if saveLands r (saveTarget request h) then saveTarget request h else h.path := by
  unfold patchSave saveLands
  dsimp only
  split
  · next hempty =>
    have hpath : h.path = "" := by
      unfold saveTarget at hempty
      split at hempty
      · exact hempty
      · contradiction
    rw [hempty, hpath]
    simp
  · rcases savePatchAtomic r (saveTarget request h) with _ | (what | what | _) <;> rfl

theorem patchSaveCopy_path (r : RackReadings) (request : Json) (h : Host) :
    (patchSaveCopy rack r request h).2.path = h.path := by
  unfold patchSaveCopy
  dsimp only
  split
  · rfl
  · rcases savePatchAtomic r (jstr request "path") with _ | (what | what | _) <;> rfl

/-- The path a load leaves: of one that succeeds the file, or none; of one that throws what was taken over. -/
def loadedPath (r : RackReadings) (request : Json) (h : Host) : String :=
  if jstr request "path" = "" then h.path
  else
    match r.replacement.threw with
    | some _ => r.replacement.adoptedPath.getD h.path
    | none => if jbool request "setPath" true then jstr request "path" else ""

theorem patchLoad_path (r : RackReadings) (request : Json) (h : Host) :
    (patchLoad rack r request h).2.path = loadedPath r request h := by
  unfold patchLoad loadedPath
  dsimp only
  split
  · rfl
  · rcases r.replacement.threw with _ | (what | what | _)
    · exact finishReplacement_path r true _
    · exact loadFailed_path r what _
    · rfl
    · rfl

theorem patchClear_path (r : RackReadings) (h : Host) :
    (patchClear rack r h).2.path = if r.replacement.threw.isSome then h.path else "" := by
  unfold patchClear
  dsimp only
  rcases r.replacement.threw with _ | (what | what | _)
  · exact finishReplacement_path r false _
  · rfl
  · rfl
  · rfl

theorem after_path_of_other {r : RackReadings} {cmd : BridgeCommand}
    (hsave : cmd.method ≠ "patchfile.save") (hload : cmd.method ≠ "patchfile.load")
    (hclear : cmd.method ≠ "patchfile.clear") : (h.after rack r cmd).path = h.path := by
  unfold Host.after
  split
  · unfold Host.txn
    split
    · rfl
    split
    · rfl
    · rfl
  · split
    · next hmethod =>
      have hcopy : cmd.method = "patchfile.saveCopy" := by
        simp only [patchFileMethods, List.mem_cons, List.not_mem_nil, or_false] at hmethod
        rcases hmethod with hm | hm | hm | hm
        · exact absurd hm hsave
        · exact hm
        · exact absurd hm hload
        · exact absurd hm hclear
      unfold Host.patchFile
      rw [hcopy, if_neg (by decide), if_pos rfl]
      exact patchSaveCopy_path r cmd.payload h
    · rfl

theorem after_eq_patchFile {r : RackReadings} {cmd : BridgeCommand} (hmethod : cmd.method ∈ patchFileMethods) :
    h.after rack r cmd = (h.patchFile rack r cmd.method cmd.payload).2 := by
  have hall : ∀ method ∈ patchFileMethods, method ∉ Host.txnMethods := by decide
  unfold Host.after
  rw [if_neg (hall _ hmethod), if_pos hmethod]

/-! ### The history of the path -/

/-- A run of the host with the paths that were given so far, and the path that a load left behind when it threw,
while it stands. -/
structure PathHistory where
  host : Host
  given : List String
  stranded : Option String := none

/-- The paths an event gives: to a save, to a load that takes the path over, or the user's own. -/
def HostEvent.givenPaths : HostEvent → List String
  | .execute _ _ cmd =>
    if cmd.method = "patchfile.save" ∨ (cmd.method = "patchfile.load" ∧ jbool cmd.payload "setPath" true) then
      [jstr cmd.payload "path"]
    else []
  | .userFile _ _ _ path => [path]
  | .edit .. | .poll => []

/-- The path left behind after a command whose handler ran: a load that throws leaves what it took over, and a save
under a path, a load or a clear that succeeds leaves nothing behind. -/
def strandedAfter (r : RackReadings) (cmd : BridgeCommand) (h : Host) (stranded : Option String) : Option String :=
  if cmd.method = "patchfile.load" then
    if jstr cmd.payload "path" = "" then stranded
    else if r.replacement.threw.isSome then r.replacement.adoptedPath.or stranded
    else none
  else if cmd.method = "patchfile.clear" then (if r.replacement.threw.isSome then stranded else none)
  else if cmd.method = "patchfile.save" then
    if jstr cmd.payload "path" ≠ "" ∧ saveLands r (saveTarget cmd.payload h) then none else stranded
  else stranded

/-- The history after an event, and the files saves write. -/
def PathHistory.step (rack : Rack) (J : Jansson) (p : PathHistory) (e : HostEvent) : PathHistory × List SaveWrite :=
  let stepped := p.host.step rack J e
  let stranded := match e with
    | .execute t r cmd =>
      if (p.host.execute rack J t r cmd).1.handlerRan then strandedAfter r cmd p.host p.stranded else p.stranded
    | .userFile .. => none
    | .edit .. | .poll => p.stranded
  (⟨stepped.1, p.given ++ e.givenPaths, stranded⟩, stepped.2)

/-- The path is the one left behind, or it was given, or there is none. -/
def PathHistory.Sound (p : PathHistory) : Prop :=
  match p.stranded with
  | some path => p.host.path = path
  | none => p.host.path = "" ∨ p.host.path ∈ p.given

theorem PathHistory.Sound.mono {p : PathHistory} (hsound : p.Sound) {q : PathHistory}
    (hpath : q.host.path = p.host.path) (hstranded : q.stranded = p.stranded) (hgiven : p.given ⊆ q.given) :
    q.Sound := by
  unfold PathHistory.Sound at *
  rw [hstranded, hpath]
  rcases hs : p.stranded with _ | path
  · rw [hs] at hsound
    exact hsound.imp_right fun hmem => hgiven hmem
  · rw [hs] at hsound
    exact hsound

theorem Host.execute_path (t : ExecutionReadings) (r : RackReadings) (cmd : BridgeCommand) :
    (h.execute rack J t r cmd).2.path =
      if (h.execute rack J t r cmd).1.handlerRan then (h.after rack r cmd).path else h.path := by
  unfold Host.execute
  dsimp only
  split <;> rfl

theorem pollPatchReplacement_path (h : Host) : h.pollPatchReplacement.path = h.path := by
  unfold Host.pollPatchReplacement
  dsimp only
  split
  · rfl
  split
  · rfl
  split
  · rfl
  · rfl

/-- The history after a command whose handler ran and left `left`. -/
def PathHistory.afterCommand (p : PathHistory) (t : ExecutionReadings) (r : RackReadings) (cmd : BridgeCommand)
    (left : Host) : PathHistory :=
  ⟨left, p.given ++ (HostEvent.execute t r cmd).givenPaths, strandedAfter r cmd p.host p.stranded⟩

section command
variable {p : PathHistory} (hsound : p.Sound) {t : ExecutionReadings} {r : RackReadings} {cmd : BridgeCommand}
  {left : Host}
include hsound

namespace PathHistory

theorem Sound.kept (hpath : left.path = p.host.path)
    (hstranded : strandedAfter r cmd p.host p.stranded = p.stranded) : (p.afterCommand t r cmd left).Sound :=
  hsound.mono hpath hstranded (List.subset_append_left _ _)

omit hsound in
theorem sound_of_given (hstranded : strandedAfter r cmd p.host p.stranded = none)
    (hpath : left.path = "" ∨ left.path ∈ (HostEvent.execute t r cmd).givenPaths) :
    (p.afterCommand t r cmd left).Sound := by
  unfold Sound afterCommand
  dsimp only
  rw [hstranded]
  exact hpath.imp_right fun hmem => List.mem_append_right _ hmem

omit hsound in
theorem mem_givenPaths
    (hgives : cmd.method = "patchfile.save" ∨ (cmd.method = "patchfile.load" ∧ jbool cmd.payload "setPath" true)) :
    jstr cmd.payload "path" ∈ (HostEvent.execute t r cmd).givenPaths := by
  unfold HostEvent.givenPaths
  dsimp only
  rw [if_pos hgives]
  exact List.mem_singleton_self _

theorem Sound.load (hload : cmd.method = "patchfile.load")
    (hleft : left.path = (p.host.after rack r cmd).path) : (p.afterCommand t r cmd left).Sound := by
  have hpath : left.path = loadedPath r cmd.payload p.host := by
    rw [hleft, after_eq_patchFile (by rw [hload]; decide), hload]
    exact patchLoad_path r cmd.payload p.host
  have hstranded : strandedAfter r cmd p.host p.stranded =
      if jstr cmd.payload "path" = "" then p.stranded
      else if r.replacement.threw.isSome then r.replacement.adoptedPath.or p.stranded else none := if_pos hload
  unfold loadedPath at hpath
  split at hpath
  · next hempty => exact hsound.kept hpath (by rw [hstranded, if_pos hempty])
  · next hnonempty =>
    rw [if_neg hnonempty] at hstranded
    rcases hthrew : r.replacement.threw with _ | e
    · rw [hthrew] at hpath hstranded
      refine sound_of_given hstranded ?_
      rw [hpath]
      dsimp only
      split
      · next hset => exact .inr (mem_givenPaths (.inr ⟨hload, hset⟩))
      · exact .inl rfl
    · rw [hthrew] at hpath hstranded
      -- the catch block leaves the path the archive named
      rcases hadopted : r.replacement.adoptedPath with _ | path
      · rw [hadopted] at hpath hstranded
        exact hsound.kept hpath hstranded
      · rw [hadopted] at hpath hstranded
        unfold Sound afterCommand
        dsimp only
        rw [hstranded]
        exact hpath

theorem Sound.clear (hclear : cmd.method = "patchfile.clear")
    (hleft : left.path = (p.host.after rack r cmd).path) : (p.afterCommand t r cmd left).Sound := by
  have hload : cmd.method ≠ "patchfile.load" := by
    rw [hclear]
    decide
  have hpath : left.path = if r.replacement.threw.isSome then p.host.path else "" := by
    rw [hleft, after_eq_patchFile (by rw [hclear]; decide), hclear]
    exact patchClear_path r p.host
  have hstranded : strandedAfter r cmd p.host p.stranded =
      if r.replacement.threw.isSome then p.stranded else none := by
    unfold strandedAfter
    rw [if_neg hload, if_pos hclear]
  split at hpath
  · next hthrew => exact hsound.kept hpath (by rw [hstranded, if_pos hthrew])
  · next hthrew =>
    rw [if_neg hthrew] at hstranded
    exact sound_of_given hstranded (.inl hpath)

theorem Sound.save (hsave : cmd.method = "patchfile.save")
    (hleft : left.path = (p.host.after rack r cmd).path) : (p.afterCommand t r cmd left).Sound := by
  have hpath : left.path =
      if saveLands r (saveTarget cmd.payload p.host) then saveTarget cmd.payload p.host else p.host.path := by
    rw [hleft, after_eq_patchFile (by rw [hsave]; decide), hsave]
    exact patchSave_path r cmd.payload p.host
  have hstranded : strandedAfter r cmd p.host p.stranded =
      if jstr cmd.payload "path" ≠ "" ∧ saveLands r (saveTarget cmd.payload p.host) then none
      else p.stranded := by
    unfold strandedAfter
    rw [if_neg (by rw [hsave]; decide), if_neg (by rw [hsave]; decide), if_pos hsave]
  by_cases hnamed : jstr cmd.payload "path" = ""
  · have htarget : saveTarget cmd.payload p.host = p.host.path := if_pos hnamed
    refine hsound.kept ?_ (by rw [hstranded, if_neg (fun hboth => hboth.1 hnamed)])
    rw [hpath, htarget, ite_self]
  · have htarget : saveTarget cmd.payload p.host = jstr cmd.payload "path" := if_neg hnamed
    split at hpath
    · next hlands =>
      refine sound_of_given (by rw [hstranded, if_pos ⟨hnamed, hlands⟩]) (.inr ?_)
      rw [hpath, htarget]
      exact mem_givenPaths (.inl hsave)
    · next hlands => exact hsound.kept hpath (by rw [hstranded, if_neg (fun hboth => hlands hboth.2)])

/-- A handler that ran keeps the history sound. -/
theorem Sound.after (hleft : left.path = (p.host.after rack r cmd).path) :
    (p.afterCommand t r cmd left).Sound := by
  by_cases hload : cmd.method = "patchfile.load"
  · exact hsound.load hload hleft
  by_cases hclear : cmd.method = "patchfile.clear"
  · exact hsound.clear hclear hleft
  by_cases hsave : cmd.method = "patchfile.save"
  · exact hsound.save hsave hleft
  · refine hsound.kept (hleft.trans (after_path_of_other hsave hload hclear)) ?_
    unfold strandedAfter
    rw [if_neg hload, if_neg hclear, if_neg hsave]

end PathHistory

end command

theorem PathHistory.sound_step (p : PathHistory) (e : HostEvent) (hsound : p.Sound) :
    (p.step rack J e).1.Sound := by
  rcases e with ⟨t, r, cmd⟩ | ⟨patch, history, undone⟩ | ⟨patch, history, undone, path⟩ | _
  · have hpath := @Host.execute_path rack J p.host t r cmd
    unfold PathHistory.step Host.step
    dsimp only
    by_cases hran : (p.host.execute rack J t r cmd).1.handlerRan = true
    · rw [if_pos hran] at hpath ⊢
      exact hsound.after hpath
    · rw [if_neg hran] at hpath ⊢
      exact hsound.mono hpath rfl (List.subset_append_left _ _)
  · exact hsound.mono rfl rfl (List.subset_append_left _ _)
  · exact .inr (List.mem_append_right _ (List.mem_singleton_self _))
  · exact hsound.mono (pollPatchReplacement_path p.host) rfl (List.subset_append_left _ _)

/-! ### Runs -/

/-- The start of a run: the path the user had open is given. -/
def PathHistory.start (h : Host) : PathHistory := { host := h, given := [h.path] }

theorem PathHistory.sound_start (h : Host) : (start h).Sound := .inr (List.mem_singleton_self _)

theorem PathHistory.sound_run (h : Host) (es : List HostEvent) (k : ℕ) :
    (Trace.stateAt (PathHistory.step rack J) (start h) es k).Sound :=
  Trace.invariant (sound_start h) (fun p e => p.sound_step e) k

/-- A save without a path writes where the patch lives. -/
theorem target_of_pathless {p : PathHistory} {e : HostEvent} {w : SaveWrite}
    (hw : w ∈ (p.step rack J e).2) (hpathless : w.pathless = true) :
    w.target = p.host.path ∧ w.target ≠ "" := by
  rcases e with ⟨t, r, cmd⟩ | ⟨patch, history, undone⟩ | ⟨patch, history, undone, path⟩ | _
  · change w ∈ p.host.writes cmd _ at hw
    unfold Host.writes at hw
    split at hw
    · next hran =>
      rw [List.mem_singleton.mp hw] at hpathless ⊢
      have hempty : jstr cmd.payload "path" = "" := by simpa using hpathless
      exact ⟨if_pos hempty, hran.2.2⟩
    · cases hw
  · cases hw
  · cases hw
  · cases hw

/-! ### Which loads take a path over -/

namespace Server

/-- The loads that take the path over are those of `commit_load_patch`. -/
def Shared.TakesOver (s : Shared) (e : Exchange) (r : Request) : Prop :=
  ∀ tool, s.tools[e.caller]? = some tool →
    (Json.get r.payload "setPath" = some (.bool true) ↔ ∃ token operationId, tool = .commitLoadPatch token operationId)

theorem takesOver_of_reachable {N : Node} {s : Shared} (hreach : Reachable N s) {e : Exchange}
    (he : e ∈ s.exchanges) {r : Request} (hcall : e.call = .request r) (hmethod : r.method = "patchfile.load") :
    s.TakesOver e r := by
  intro tool htool
  obtain ⟨n, hn⟩ := List.getElem?_of_mem he
  obtain ⟨s₀, -, -, hallowed, -, hgrows⟩ := origin hreach hn
  have hposted : Grows N s₀ (bridgeComm.post e.caller e.call s₀) := .single (.link (.post _ _ _ hallowed))
  have hsanctioned := (hallowed r hcall).2
  rcases hsanctioned
  case load selected kind operationId path id binding _ hconfirmed _ _ hpayload _ =>
    obtain ⟨tool', token, htool', hreplaces, -⟩ := hconfirmed.tool
    have hlater : Grows N s₀ s := hposted.trans hgrows
    rw [hlater.tool htool'] at htool
    obtain rfl := Option.some.inj htool
    rw [hpayload]
    show some (Json.bool (decide (kind = .load))) = some (.bool true) ↔ _
    rw [Option.some.injEq, Json.bool.injEq, decide_eq_true_eq]
    constructor
    · rintro rfl
      rcases tool' <;> simp_all [ToolCall.Replaces]
    · rintro ⟨token', operationId', rfl⟩
      exact hreplaces.1
  case reads hreads _ =>
    rw [hmethod] at hreads
    exact absurd (by decide) hreads
  all_goals
    next hother _ _ =>
    rw [hother] at hmethod
    exact absurd hmethod (by decide)

end Server

/-- In every run of the host: every save without a path writes to a path that was given before, to a save, to a
load that takes it over or by the user, exactly when none is executed while the path of the patch manager is
one a load took out of an archive before it threw, and that was not given. And in every run of a server, a load
takes its path over exactly where the tool is to load a patch. -/
theorem save_target_iff (rack : Rack) (J : Jansson) (h : Host) (es : List HostEvent) :
    ((∀ k w, Trace.Emits (PathHistory.step rack J) (PathHistory.start h) es k w → w.pathless = true →
        w.target ∈ (Trace.stateAt (PathHistory.step rack J) (PathHistory.start h) es k).given) ↔
      ∀ k w, Trace.Emits (PathHistory.step rack J) (PathHistory.start h) es k w → w.pathless = true →
        ∀ path ∈ (Trace.stateAt (PathHistory.step rack J) (PathHistory.start h) es k).stranded,
          path ∈ (Trace.stateAt (PathHistory.step rack J) (PathHistory.start h) es k).given) ∧
    ∀ (N : Server.Node) (sites : List Server.Site) (events : List Server.WorldEvent) (k : ℕ),
      ∀ e ∈ (Server.World.stateAt N rack J sites events k).server.exchanges, ∀ r, e.call = .request r →
        r.method = "patchfile.load" → (Server.World.stateAt N rack J sites events k).server.TakesOver e r := by
  refine ⟨?_, fun N sites events k e he r hcall hmethod =>
    Server.takesOver_of_reachable (Server.World.reachable_stateAt (N := N) rack J sites events k) he hcall hmethod⟩
  constructor
  · intro hgiven k w hw hpathless path hpath
    have hsound := @PathHistory.sound_run rack J h es k
    obtain ⟨e, -, hmem⟩ := id hw
    have htarget := target_of_pathless hmem hpathless
    unfold PathHistory.Sound at hsound
    rw [Option.mem_def.mp hpath] at hsound
    have hwrites := hgiven k w hw hpathless
    rw [htarget.1, hsound] at hwrites
    exact hwrites
  · intro hstranded k w hw hpathless
    have hsound := @PathHistory.sound_run rack J h es k
    obtain ⟨e, -, hmem⟩ := id hw
    obtain ⟨htarget, hne⟩ := target_of_pathless hmem hpathless
    unfold PathHistory.Sound at hsound
    rw [htarget] at hne ⊢
    split at hsound
    · next path hpath =>
      rw [hsound]
      exact hstranded k w hw hpathless path hpath
    · exact hsound.resolve_left hne

/-! ### A stranded path on the bench -/

/-- A load whose archive names a path of its own and then fails. -/
def benchLoadThrows : RackReadings where
  frame _ := .ok ""
  replacement :=
    { patch := ⟨[], [], []⟩, adoptedPath := some "/archive.vcv", threw := some (.exception "bad module") }
  getStem path := path

def benchPathCommand (method operationId path : String) : BridgeCommand where
  connectionId := 1
  requestId := "00000000000000c1"
  method := method
  operationId := operationId
  payload := .object [("path", .string path), ("setPath", .bool true)]
  deadlineAtMs := 5000
  mutating := true
  leaseId := "00000000-0000-4000-8000-000000000000"

/-- The load, and a save without a path. -/
def benchPathEvents : List HostEvent :=
  [.execute ⟨6, 7⟩ benchLoadThrows (benchPathCommand "patchfile.load" "load" "/song.vcv"),
   .execute ⟨8, 9⟩ benchLoadThrows (benchPathCommand "patchfile.save" "save" "")]

/-- The save writes to the path that the archive named. -/
theorem save_writes_archive_path :
    ¬ ∀ (rack : Rack) (J : Jansson) (h : Host) (es : List HostEvent) (k : ℕ) (w : SaveWrite),
      Trace.Emits (PathHistory.step rack J) (PathHistory.start h) es k w → w.pathless = true →
        w.target ∈ (Trace.stateAt (PathHistory.step rack J) (PathHistory.start h) es k).given := by
  intro hall
  have hwrites : Trace.Emits (PathHistory.step benchRack ⟨fun _ => none, fun _ => none, fun _ => none, fun _ => none⟩)
      (PathHistory.start { rack := { patch := benchPatch } }) benchPathEvents 1 ⟨true, "/archive.vcv"⟩ :=
    ⟨_, rfl, by decide⟩
  have hmem := hall _ _ _ _ _ _ hwrites rfl
  revert hmem
  decide

end RackMcp
