import RackMcp.Proof.ProbeAttachment

/-!
# Detaching a probe

`detach_probe` tells which cables it removed from a snapshot it took before, while the plugin removes what it finds in
its own patch. The two agree on the complete cables, and nothing else of the patch is touched
(`detached_probe_reports`).
-/

namespace RackMcp

open Gen Decimal Outcomes

/-! ### The report -/

/-- The plan of a detachment. -/
def detachOperation (text : String) (n : Int) : Json :=
  .object [("op", .string "disconnect_port"),
    ("port", Server.portRef (.object [("moduleId", .string text)]) "input" n), ("policy", .string "all")]

/-- The cable ids that `detachProbe` answers with. -/
def detachReport (snap : Json) (text : String) (n : Int) : List Json :=
  ((Server.items snap "cables").filter (Server.feeds text n)).map fun cable : Json =>
    (Json.get cable "cableId").getD .null

/-- The server previews the plan, commits it and answers with the report. -/
theorem detachProbe_eq (N : Server.Node) (text : String) (n : Int) (operationId : String) (epoch : Int) :
    Server.detachProbe N text n operationId epoch = (do
      let i ← (Server.ensureConnected N).await
      let before ← (Server.snapshot N).await
      let p ← (Server.preview N "Detach probe" [detachOperation text n] i none (some epoch)).await
      let committed ← (Server.commit N (Server.commitPreviewed p operationId (some p.confirmationToken)) i).await
      pure (.object ([("detached", .bool true), ("removedCableIds", .array (detachReport before text n))] ++
        Server.copied committed ["newFingerprint", "replayed"]))) := by
  have hread : ∀ cables : List Json, ((cables >>= fun cable => pure (some cable)).map
      fun cable => (Json.get cable "cableId").getD .null) =
        cables.map fun cable => (Json.get (some cable) "cableId").getD .null := by
    intro cables
    show (cables.flatMap fun cable => [some cable]).map _ = _
    rw [← List.map_eq_flatMap, List.map_map]
    rfl
  unfold Server.detachProbe
  simp only [hread]
  rfl

section Report
variable {R : SnapshotReadings} {rack : Rack} {p : Patch} {c : Cable} {payload : Json} {text : String} {n id : Int}

/-- An id that parses is the text of the id. -/
theorem toString_of_parse (h : parseDecimalId text = some id) : toString id = text := by
  have hinto : (parseDecimalIdInto (utf8 text) (-1)).1 = true := by
    rw [parseDecimalIdInto_eq]
    unfold parseDecimalId at h
    rw [h]
    rfl
  obtain ⟨n, hn⟩ := exists_numeral_of_parse hinto
  have hparsed := parseDecimalIdInto_numeral n (-1)
  rw [← hn, parseDecimalIdInto_eq] at hparsed
  unfold parseDecimalId at h
  rw [h] at hparsed
  split at hparsed
  · obtain rfl : id = n := (Prod.mk.inj hparsed).2
    have hbytes : (toString n).toUTF8.data.toList = text.toUTF8.data.toList := hn.symm
    exact String.toByteArray_inj.mp (ByteArray.ext (Array.toList_inj.mp hbytes))
  · exact absurd (Prod.mk.inj hparsed).1 (by simp)

theorem feeds_read (hin : c.plan.hasInput = true) :
    Server.feeds (toString id) n (buildCable R c) = c.plan.entersPort id n := by
  have hmodule : Json.get (some (buildCable R c)) "inputModuleId" =
      some (.string (toString c.plan.inputModuleId)) := rfl
  have hport : Json.get (some (buildCable R c)) "inputId" = some (.integer c.plan.inputId) := rfl
  unfold Server.feeds Server.holdsString Server.holdsInt PlanCable.entersPort
  rw [hmodule, hport, hin, Bool.true_and]
  show ((toString c.plan.inputModuleId == toString id) && (c.plan.inputId == n)) = _
  congr 1
  rw [Bool.eq_iff_iff, beq_iff_eq, beq_iff_eq]
  exact ⟨toString_inj, congrArg _⟩

/-- The server names the complete cables into the input. -/
theorem mem_detachReport (h : buildPatchSnapshot R rack p false = some payload) (hnodup : (p.cables.map (·.id)).Nodup)
    {j : Json} : j ∈ detachReport payload (toString id) n ↔
      ∃ c ∈ p.cables, c.plan.hasOutput = true ∧ c.plan.entersPort id n = true ∧ j = idStr c.id := by
  unfold detachReport
  rw [(items_payload h).2, List.mem_map]
  constructor
  · rintro ⟨_, hcable, rfl⟩
    obtain ⟨hmem, hfeeds⟩ := List.mem_filter.mp hcable
    obtain ⟨c, hc, rfl⟩ := List.mem_map.mp hmem
    obtain ⟨hc, hout, hin⟩ := (mem_snapshotCables hnodup).mp hc
    exact ⟨c, hc, hout, (feeds_read hin).symm.trans hfeeds, rfl⟩
  · rintro ⟨c, hc, hout, henters, rfl⟩
    have hin : c.plan.hasInput = true := by
      unfold PlanCable.entersPort at henters
      rw [Bool.and_eq_true, Bool.and_eq_true] at henters
      exact henters.1.1
    refine ⟨buildCable R c, List.mem_filter.mpr ⟨List.mem_map_of_mem ((mem_snapshotCables hnodup).mpr
      ⟨hc, hout, hin⟩), (feeds_read hin).trans henters⟩, rfl⟩

/-- What the server names is what is gone, of the complete cables. -/
theorem mem_detachReport_iff_gone (h : buildPatchSnapshot R rack p false = some payload)
    (hnodup : (p.cables.map (·.id)).Nodup) {p' : Patch}
    (hcables : p'.cables = p.cables.filter fun c => !c.plan.entersPort id n) {j : Json} :
    j ∈ detachReport payload (toString id) n ↔
      ∃ c ∈ p.cables, c ∉ p'.cables ∧ c.plan.hasOutput = true ∧ j = idStr c.id := by
  have hgone : ∀ c ∈ p.cables, c ∉ p'.cables ↔ c.plan.entersPort id n = true := by
    intro c hc
    rw [hcables, List.mem_filter]
    simp [hc]
  rw [mem_detachReport h hnodup]
  constructor
  · rintro ⟨c, hc, hout, henters, hj⟩
    exact ⟨c, hc, (hgone c hc).mpr henters, hout, hj⟩
  · rintro ⟨c, hc, hgoes, hout, hj⟩
    exact ⟨c, hc, hout, (hgone c hc).mp hgoes, hj⟩

end Report

/-! ### The plan -/

section Plan
variable {rack : Rack} {p : Patch} {ops : List Json} {st : PreviewState} {s s' : Applier} {text : String} {n : Int}

theorem removeCables_effects (st : PreviewState) (ids : List Int) :
    (st.removeCables ids).removedModules = st.removedModules ∧
    (st.removeCables ids).replacedInputs = st.replacedInputs ∧
    (st.removeCables ids).removesBridge = st.removesBridge := by
  unfold PreviewState.removeCables
  induction ids generalizing st with
  | nil => exact ⟨rfl, rfl, rfl⟩
  | cons id ids ih =>
    obtain ⟨hmodules, hinputs, hbridge⟩ := @ih (st.removeCable id)
    have hone : (st.removeCable id).removedModules = st.removedModules ∧
        (st.removeCable id).replacedInputs = st.replacedInputs ∧
        (st.removeCable id).removesBridge = st.removesBridge := by
      unfold PreviewState.removeCable
      split
      · exact ⟨rfl, rfl, rfl⟩
      · exact ⟨rfl, rfl, rfl⟩
    exact ⟨hmodules.trans hone.1, hinputs.trans hone.2.1, hbridge.trans hone.2.2⟩

/-- What the plan of a detachment discloses: the cables into the input, and nothing else. -/
structure Detaches (p : Patch) (id n : Int) (st : PreviewState) : Prop where
  removedModules : st.removedModules = []
  replacedInputs : st.replacedInputs = []
  removesBridge : st.removesBridge = false
  removedCables : 0 < st.removedCables.length ↔ ∃ c ∈ p.cables, c.plan.entersPort id n = true

/-- The plan of a detachment passes the preview exactly when the module is there. -/
theorem validate_detach (rack : Rack) (ops : List Json) (text : String) (h : p.Wired) (hn : 0 ≤ n ∧ n ≤ 65535) :
    (∃ m ∈ p.modules, parseDecimalId text = some m.id ∧ ∃ st,
      validateOne (snapshotWorld rack p ops) (detachOperation text n) {} = .done st ∧ Detaches p m.id n st) ∨
    ((∀ m ∈ p.modules, parseDecimalId text ≠ some m.id) ∧
      ∃ e t, validateOne (snapshotWorld rack p ops) (detachOperation text n) {} = .thrown e t) := by
  have hdetach : validateOne (snapshotWorld rack p ops) (detachOperation text n) {} =
      validateDisconnectPort (detachOperation text n) (snapshotWorld rack p ops) {} := rfl
  have hresolve : resolveModuleRef (Json.get (Json.get (some (detachOperation text n)) "port") "module")
      ({} : PreviewState).aliases = (parseDecimalId text).elim {} fun id => { ok := true, moduleId := id } :=
    resolve_moduleId text _
  have hread : readIntField (Json.get (some (detachOperation text n)) "port") "portId" = .ok n :=
    Recipes.readIntField_ok rfl hn
  have htype : jstr (Json.get (some (detachOperation text n)) "port") "portType" = "input" := rfl
  have hpolicy : jstr (some (detachOperation text n)) "policy" "all" = "all" := rfl
  rw [hdetach]
  unfold validateDisconnectPort
  dsimp only
  rcases hparse : parseDecimalId text with _ | id
  · rw [hparse] at hresolve
    refine .inr ⟨fun m _ hsome => Option.some_ne_none _ hsome.symm, ?_⟩
    have hbad : ¬ (resolveModuleRef (Json.get (Json.get (some (detachOperation text n)) "port") "module")
        ({} : PreviewState).aliases).ok = true ∧ (resolveModuleRef (Json.get (Json.get
          (some (detachOperation text n)) "port") "module") ({} : PreviewState).aliases).moduleId < 0 := by
      rw [hresolve]
      exact ⟨Bool.false_ne_true, by decide⟩
    rw [if_pos hbad]
    exact ⟨_, _, rfl⟩
  rw [hparse] at hresolve
  have hnonneg : 0 ≤ id := parseDecimalId_nonneg hparse
  have hok : (resolveModuleRef (Json.get (Json.get (some (detachOperation text n)) "port") "module")
      ({} : PreviewState).aliases).ok = true := by rw [hresolve]; rfl
  have hid : (resolveModuleRef (Json.get (Json.get (some (detachOperation text n)) "port") "module")
      ({} : PreviewState).aliases).moduleId = id := by rw [hresolve]; rfl
  have hlive : ¬ (resolveModuleRef (Json.get (Json.get (some (detachOperation text n)) "port") "module")
      ({} : PreviewState).aliases).moduleId < 0 := by
    rw [hid]
    omega
  rw [if_neg fun hbad => hbad.1 hok, if_neg hlive, hid, hread, htype, hpolicy]
  by_cases hmodule : ∃ m ∈ p.modules, m.id = id
  · obtain ⟨m, hm, rfl⟩ := hmodule
    refine .inl ⟨m, hm, rfl, ?_⟩
    rw [liveModule_shape h rfl hm]
    dsimp only
    rw [if_neg (by simp)]
    obtain ⟨hmodules, hinputs, hbridge⟩ := removeCables_effects
      { touchesAudio := false || isAudioModule (toWorldModule m) }
      (selectMatches "all" (cablesOnPort (snapshotWorld rack p ops).cables [] m.id "input" n))
    refine ⟨_, rfl, hmodules, hinputs, hbridge, ?_⟩
    rw [List.length_pos_iff_exists_mem]
    constructor
    · rintro ⟨x, hx⟩
      obtain hx : x ∈ cablesOnPort (snapshotWorld rack p ops).cables [] m.id "input" n :=
        (PreviewState.mem_removeCables.mp hx).resolve_left List.not_mem_nil
      obtain ⟨plan, hplan, rfl⟩ := List.mem_map.mp hx
      obtain ⟨hplan, hon⟩ := List.mem_filter.mp hplan
      obtain ⟨c, hc, rfl⟩ := List.mem_map.mp hplan
      rw [Sim.onPort_input] at hon
      exact ⟨c, hc, hon⟩
    · rintro ⟨c, hc, henters⟩
      refine ⟨c.id, PreviewState.mem_removeCables.mpr (.inr ?_)⟩
      show c.plan.id ∈ cablesOnPort (snapshotWorld rack p ops).cables [] m.id "input" n
      refine List.mem_map_of_mem (List.mem_filter.mpr ⟨List.mem_map_of_mem hc, ?_⟩)
      rw [Sim.onPort_input]
      exact henters
  · refine .inr ⟨fun m hm hsome => hmodule ⟨m, hm, (Option.some.inj hsome).symm⟩, ?_⟩
    have hnone : liveModule (snapshotWorld rack p ops) {} id = none := by
      unfold liveModule
      rw [if_neg List.not_mem_nil]
      refine Keyed.find?_eq_none.mpr fun hmem => ?_
      obtain ⟨shape, hshape, rfl⟩ := List.mem_map.mp hmem
      obtain ⟨m, hm, rfl⟩ := List.mem_map.mp hshape
      exact hmodule ⟨m, hm, rfl⟩
    rw [hnone]
    exact ⟨_, _, rfl⟩

/-- The detachment of an input takes the cables into it, and leaves the other cables and all modules. -/
theorem detach_takes (hw : s.AllWidgets) (hnodup : (s.patch.cables.map (·.id)).Nodup) (hn : 0 ≤ n ∧ n ≤ 65535)
    {id : Int} (hparse : parseDecimalId text = some id)
    (h : Applier.applyOne rack (detachOperation text n) s = .done s') : s'.patch.shapes = s.patch.shapes ∧
      s'.patch.cables = s.patch.cables.filter fun c => !c.plan.entersPort id n := by
  have hkind : opType (detachOperation text n) = .disconnectPort := rfl
  have hread : readIntField (Json.get (some (detachOperation text n)) "port") "portId" = .ok n :=
    Recipes.readIntField_ok rfl hn
  have hstep := Applier.applyOne_step hw h
  cases hstep with
  | disconnectPort _ id' portId resolved port cables _ same =>
    obtain rfl := Except.ok.inj (hread.symm.trans port)
    have hresolved : s.resolve (some (.object [("moduleId", .string text)])) = some id := by
      unfold Applier.resolve
      rw [resolve_moduleId, hparse]
      rfl
    obtain rfl := Option.some.inj (hresolved.symm.trans resolved)
    refine ⟨same.shapes, cables.trans (List.filter_congr fun c hc => ?_)⟩
    show decide (c.id ∉ (s.patch.cables.filter (fun d => d.plan.onPort id "input" n)).map (·.id)) = _
    have hmem : c.id ∈ (s.patch.cables.filter (fun d => d.plan.onPort id "input" n)).map (·.id) ↔
        c.plan.onPort id "input" n = true := Sim.mem_ids (fun plan => plan.onPort id "input" n) hnodup hc
    rw [Bool.eq_iff_iff, decide_eq_true_eq, hmem, Sim.onPort_input]
    simp
  | modify kind => rcases kind with kind | kind | kind <;> exact absurd (hkind.symm.trans kind) (by decide)
  | add kind | remove kind | randomize kind | move kind | disconnect kind | connect kind =>
    exact absurd (hkind.symm.trans kind) (by decide)

end Plan

/-! ### The report is what was removed -/

/-- `detach_probe` on a patch, whatever commits did to it: the plan passes the preview exactly when the module is there,
it needs a confirmation exactly when there is something to take, its commit takes the cables into the input and nothing
else, and what the server reports as removed is what was removed of the complete cables. -/
theorem detached_probe_reports (R : SnapshotReadings) (rack : Rack) {rs : RackState} {payload preview : Json}
    {text : String} {n : Int} (hreached : Reached rs)
    (hpayload : buildPatchSnapshot R rack rs.patch false = some payload)
    (hn : 0 ≤ n ∧ n ≤ 65535) (hpreview : Json.get preview "operations" = some (.array [detachOperation text n])) :
    ((txnPreview rack preview rs).payload.isSome ↔ ∃ m ∈ rs.patch.modules, parseDecimalId text = some m.id) ∧
    ∀ answer, (txnPreview rack preview rs).payload = some answer →
      ∃ m ∈ rs.patch.modules, parseDecimalId text = some m.id ∧
        (jbool (Json.get answer "risk") "confirmationRequired" true = true ↔
          ∃ c ∈ rs.patch.cables, c.plan.entersPort m.id n = true) ∧
        ∀ (commit : Json) (durationMs : Double), Json.get commit "plan" = Json.get answer "plan" →
          (txnCommit rack commit durationMs rs).1.errorCode = none →
          (txnCommit rack commit durationMs rs).2.patch.shapes = rs.patch.shapes ∧
          (txnCommit rack commit durationMs rs).2.patch.cables =
            rs.patch.cables.filter (fun c => !c.plan.entersPort m.id n) ∧
          ∀ j, j ∈ detachReport payload text n ↔ ∃ c ∈ rs.patch.cables,
            c ∉ (txnCommit rack commit durationMs rs).2.patch.cables ∧ c.plan.hasOutput = true ∧ j = idStr c.id := by
  have hwired := hreached.patch_wired
  obtain ⟨base, hbase, -⟩ := Option.map_eq_some_iff.mp hpayload
  have hverdict := validate_detach rack [detachOperation text n] text hwired hn
  refine ⟨?_, fun answer hanswer => ?_⟩
  · rw [txnPreview_isSome_iff hpreview hbase]
    rcases hverdict with ⟨m, hm, hparse, st, hdone, -⟩ | ⟨hnone, e, t, hthrown⟩
    · exact ⟨fun _ => ⟨m, hm, hparse⟩, fun _ => ⟨st, .cons hdone (.nil st)⟩⟩
    · refine ⟨fun ⟨st, hruns⟩ => ?_, fun ⟨m, hm, hparse⟩ => absurd hparse (hnone m hm)⟩
      obtain ⟨_, hdone, -⟩ := Runs.cons_iff.mp hruns
      rw [hthrown] at hdone
      cases hdone
  · obtain ⟨st, hruns, hprevious⟩ := txnPreview_answer hpreview hbase hanswer
    obtain ⟨st₁, hdone, hend⟩ := Runs.cons_iff.mp hruns
    obtain rfl := Runs.nil_iff.mp hend
    rcases hverdict with ⟨m, hm, hparse, st', hdone', hdetaches⟩ | ⟨-, e, t, hthrown⟩
    · obtain rfl := Outcome.done.inj (hdone.symm.trans hdone')
      refine ⟨m, hm, hparse, ?_, fun commit durationMs hplan hsuccess => ?_⟩
      · have hrandomizes : [detachOperation text n].any (fun op : Json => jstr op "op" == "randomize_module") = false :=
          rfl
        rw [hprevious, Recipes.confirmation_previewed, hrandomizes, hdetaches.removedModules,
          hdetaches.replacedInputs, hdetaches.removesBridge, ← hdetaches.removedCables]
        simp
      · obtain ⟨s, happlied, hafter⟩ := txnCommit_of_answer hpreview hbase hanswer hplan hsuccess
        obtain ⟨s₁, hstep, hend⟩ := Runs.cons_iff.mp happlied
        obtain rfl := Runs.nil_iff.mp hend
        have hw : Applier.AllWidgets { patch := rs.patch } := hwired.widgets
        have hnodup : (({ patch := rs.patch } : Applier).patch.cables.map (·.id)).Nodup := hwired.cableIds
        obtain ⟨hshapes, hcables⟩ := detach_takes hw hnodup hn hparse hstep
        rw [hafter, ← toString_of_parse hparse]
        exact ⟨hshapes, hcables, fun j => mem_detachReport_iff_gone hpayload hwired.cableIds hcables⟩
    · rw [hthrown] at hdone
      cases hdone

/-! ### The bench -/

/-- The cable 10 out of the probe 4. -/
def detachPreview : Json := .object [("operations", .array [detachOperation "4" 0])]

def detachPlan : Json := .object [("label", .string "transaction"), ("operations", .array [detachOperation "4" 0])]

def detachCommit : Json :=
  .object [("operationId", .string "22222222-b"), ("planHash", .string "plan"), ("expectedFingerprint", .string "1 4"),
    ("plan", detachPlan)]

theorem detached_probe_reports_bench : ∃ payload, buildPatchSnapshot probeReadings benchRack probePatch false =
    some payload ∧ (txnCommit benchRack detachCommit .nan { patch := probePatch }).2.patch.cables = [] ∧
      idStr 10 ∈ detachReport payload "4" 0 := by
  obtain ⟨payload, hpayload⟩ : ∃ payload, buildPatchSnapshot probeReadings benchRack probePatch false = some payload :=
    ⟨_, rfl⟩
  have hreached : Reached { patch := probePatch } := .wired probePatch_wired
  have hpreview : Json.get detachPreview "operations" = some (.array [detachOperation "4" 0]) := rfl
  obtain ⟨hverdict, hdetached⟩ := detached_probe_reports probeReadings benchRack hreached hpayload (by decide) hpreview
  have hthere : ∃ m ∈ probePatch.modules, parseDecimalId "4" = some m.id :=
    ⟨_, List.mem_cons_of_mem _ List.mem_cons_self, by decide⟩
  obtain ⟨answer, hanswer⟩ := Option.isSome_iff_exists.mp (hverdict.mpr hthere)
  obtain ⟨m, hm, hparse, -, hcommitted⟩ := hdetached answer hanswer
  have hplan : Json.get detachCommit "plan" = Json.get answer "plan" := by
    have hbase : benchRack.computePatchFingerprint probePatch = some "1 4" := by decide
    have hport : (0 : Int) ≤ 0 ∧ (0 : Int) ≤ 65535 := by decide
    rcases validate_detach benchRack [detachOperation "4" 0] "4" probePatch_wired hport with
      ⟨-, -, -, st, hdone, -⟩ | ⟨hnone, -⟩
    · have hpayload : (txnPreview benchRack detachPreview { patch := probePatch }).payload = some _ :=
        Recipes.txnPreview_of_runs hpreview (Runs.cons hdone (.nil st)) hbase
      obtain rfl := Option.some.inj (hpayload.symm.trans hanswer)
      rfl
    · obtain ⟨m, hm, hparse⟩ := hthere
      exact absurd hparse (hnone m hm)
  have hsuccess : (txnCommit benchRack detachCommit .nan { patch := probePatch }).1.errorCode = none := by
    rw [← Option.isNone_iff_eq_none]
    decide +kernel
  obtain ⟨-, hcables, hreport⟩ := hcommitted detachCommit .nan hplan hsuccess
  have hid : m.id = 4 := by
    have hfour : parseDecimalId "4" = some 4 := by decide
    exact (Option.some.inj (hfour.symm.trans hparse)).symm
  rw [hid] at hcables
  refine ⟨payload, hpayload, hcables, (hreport _).mpr ⟨_, List.mem_cons_self, ?_, rfl, rfl⟩⟩
  rw [hcables]
  exact List.not_mem_nil

end RackMcp
