import RackMcp.Proof.DecimalIds
import RackMcp.Proof.RecipeBuilds
import RackMcp.Proof.SnapshotValidation
import RackMcp.Server.Tools

/-!
# Attaching a probe

`preview_attach_probe` where the caller names no slot: `chooseSlot` reads the payload of `patch.snapshot` and takes a
free input of a probe, or else adds a probe (`chooseSlot_cases`). What the server previews then finds its input free on
the other side as well, so that the plan takes nothing away (`attached_probe_takes_nothing`), although its connect has
the policy `replace_all`.
-/

namespace RackMcp

open Gen Decimal Outcomes

/-! ### The slot -/

/-- `isRackMcpProbe`. -/
def Module.isProbe (m : Module) : Bool := m.pluginSlug == "RackMCP" && m.modelSlug == "Probe"

/-- An input of a probe that nothing is connected to. -/
structure FreeSlot (R : SnapshotReadings) (p : Patch) (m : Module) (i : ℕ) : Prop where
  mem : m ∈ p.modules
  probe : m.isProbe = true
  considered : i < 8
  input : i < m.inputs
  free : ((R.module m).inputs i).connected = false

section Slot
variable {R : SnapshotReadings} {rack : Rack} {p : Patch} {m : Module} {payload : Json}

/-- The modules and the cables that the server finds in the payload. -/
theorem items_payload (h : buildPatchSnapshot R rack p false = some payload) :
    Server.items payload "modules" = ((snapshotModules p).map fun m => buildOneModule R p m false) ∧
      Server.items payload "cables" = (snapshotCables p).map (buildCable R) := by
  obtain ⟨fingerprint, -, rfl⟩ := Option.map_eq_some_iff.mp h
  unfold Server.items Json.get
  by_cases hname : R.patchName = []
  · simp [hname, List.lookup_append, lookup_textMember, List.lookup_cons]
  · simp [hname, List.lookup_append, lookup_textMember, List.lookup_cons]

theorem isProbe_read : jbool (some (buildOneModule R p m false)) "isProbe" false = m.isProbe := by
  unfold buildOneModule jbool Json.get
  cases p.widget m.id <;> simp [List.lookup_append, lookup_textMember, List.lookup_cons, Module.isProbe]

theorem connected_read (i : ℕ) :
    jbool (some (buildPort R m i true)) "connected" false = ((R.module m).inputs i).connected := by
  unfold buildPort jbool Json.get
  simp [List.lookup_append, lookup_textMember, List.lookup_cons]

theorem portId_read (i j : ℕ) : Server.holdsInt (some (buildPort R m j true)) "portId" i = decide (j = i) := by
  have hget : Json.get (some (buildPort R m j true)) "portId" = some (.integer j) := rfl
  unfold Server.holdsInt
  rw [hget]
  show ((j : Int) == (i : Int)) = _
  rw [Bool.eq_iff_iff, beq_iff_eq, decide_eq_true_eq, Int.natCast_inj]

/-- The server sees the inputs that are there, and whether they are connected. -/
theorem freeInput_read (i : ℕ) : Server.freeInput (buildOneModule R p m false) i = true ↔
    i < m.inputs ∧ ((R.module m).inputs i).connected = false := by
  have hitems : Server.items (some (buildOneModule R p m false)) "inputs" =
      (List.range m.inputs).map fun j => buildPort R m j true := by
    unfold Server.items
    rw [get_inputs]
  have hports : (Server.items (some (buildOneModule R p m false)) "inputs" >>= fun q => pure (some q)) =
      (List.range m.inputs).map fun j => some (buildPort R m j true) := by
    rw [hitems]
    show ((List.range m.inputs).map fun j => buildPort R m j true).flatMap (fun q => [some q]) = _
    rw [← List.map_eq_flatMap, List.map_map]
    rfl
  have hsame : ((fun q : Option Json => Server.holdsInt q "portId" i) ∘ fun j => some (buildPort R m j true)) =
      fun j => decide (j = i) := by
    funext j
    exact portId_read (R := R) (m := m) i j
  unfold Server.freeInput
  rw [hports, List.find?_map, hsame]
  by_cases hi : i < m.inputs
  · have hfind : (List.range m.inputs).find? (fun j => decide (j = i)) = some i := by
      rw [List.find?_range_eq_some]
      refine ⟨decide_eq_true rfl, List.mem_range.mpr hi, fun j hj => ?_⟩
      have hne : j ≠ i := by omega
      simp [hne]
    rw [hfind]
    show (!jbool (some (buildPort R m i true)) "connected" false) = true ↔ _
    rw [connected_read, Bool.not_eq_true']
    exact ⟨fun h => ⟨hi, h⟩, fun h => h.2⟩
  · have hfind : (List.range m.inputs).find? (fun j => decide (j = i)) = none := by
      rw [List.find?_range_eq_none]
      intro j hj
      have hne : j ≠ i := by omega
      simp [hne]
    rw [hfind]
    exact ⟨fun h => absurd h Bool.false_ne_true, fun h => absurd h.1 hi⟩

/-- The free inputs that the server reads, in the order in which it tries them. -/
def freeSlots (snap : Json) : List (String × ℕ) :=
  ((Server.items snap "modules").filter fun m : Json => jbool m "isProbe" false).flatMap fun probe =>
    ((List.range 8).filter (Server.freeInput probe)).map fun inputId => (jstr probe "moduleId", inputId)

theorem chooseSlot_eq (snap : Json) : Server.chooseSlot snap none = (freeSlots snap).head?.elim
    ⟨none, some "rackmcp_probe", 0, true⟩ fun slot => ⟨some slot.1, none, slot.2, false⟩ := by
  unfold Server.chooseSlot
  dsimp only
  show _ = (freeSlots snap).head?.elim _ _
  unfold freeSlots
  split
  · next heq => rw [heq]; rfl
  · next heq => rw [heq]; rfl

theorem mem_freeSlots (h : buildPatchSnapshot R rack p false = some payload)
    (hnodup : (p.modules.map (·.id)).Nodup) {slot : String × ℕ} :
    slot ∈ freeSlots payload ↔ ∃ m i, FreeSlot R p m i ∧ slot = (toString m.id, i) := by
  unfold freeSlots
  rw [(items_payload h).1, List.mem_flatMap]
  constructor
  · rintro ⟨_, hprobe, hslot⟩
    obtain ⟨hmem, hprobe⟩ := List.mem_filter.mp hprobe
    obtain ⟨m, hm, rfl⟩ := List.mem_map.mp hmem
    obtain ⟨i, hi, rfl⟩ := List.mem_map.mp hslot
    obtain ⟨hconsidered, hfree⟩ := List.mem_filter.mp hi
    obtain ⟨hinput, hfree⟩ := (freeInput_read i).mp hfree
    exact ⟨m, i, ⟨(mem_snapshotModules hnodup).mp hm, isProbe_read.symm.trans hprobe, List.mem_range.mp hconsidered,
      hinput, hfree⟩, rfl⟩
  · rintro ⟨m, i, hslot, rfl⟩
    refine ⟨buildOneModule R p m false, List.mem_filter.mpr ⟨List.mem_map_of_mem
      ((mem_snapshotModules hnodup).mpr hslot.mem), isProbe_read.trans hslot.probe⟩, ?_⟩
    exact List.mem_map_of_mem (f := fun inputId : ℕ => (toString m.id, inputId)) (List.mem_filter.mpr
      ⟨List.mem_range.mpr hslot.considered, (freeInput_read i).mpr ⟨hslot.input, hslot.free⟩⟩)

/-- The server takes a free input while a probe has one, and otherwise adds a probe. -/
theorem chooseSlot_cases (h : buildPatchSnapshot R rack p false = some payload)
    (hnodup : (p.modules.map (·.id)).Nodup) :
    (∃ m i, FreeSlot R p m i ∧ Server.chooseSlot payload none = ⟨some (toString m.id), none, i, false⟩) ∨
      ((∀ m i, ¬ FreeSlot R p m i) ∧
        Server.chooseSlot payload none = ⟨none, some "rackmcp_probe", 0, true⟩) := by
  rw [chooseSlot_eq]
  rcases hslots : freeSlots payload with _ | ⟨slot, rest⟩
  · refine .inr ⟨fun m i hslot => ?_, rfl⟩
    have hmem := (mem_freeSlots h hnodup).mpr ⟨m, i, hslot, rfl⟩
    rw [hslots] at hmem
    exact absurd hmem List.not_mem_nil
  · have hmem : slot ∈ freeSlots payload := hslots ▸ List.mem_cons_self
    obtain ⟨m, i, hslot, rfl⟩ := (mem_freeSlots h hnodup).mp hmem
    exact .inl ⟨m, i, hslot, rfl⟩

end Slot

/-! ### The operations -/

/-- The module that an attachment adds. -/
def attachAdd : Json :=
  .object [("op", .string "add_module"), ("pluginSlug", .string "RackMCP"), ("modelSlug", .string "Probe"),
    ("alias", .string "rackmcp_probe"), ("placement", .string "auto")]

/-- The connect of an attachment. -/
def attachConnect (probe : Json) (sourceModuleId : String) (sourcePortId probeInputId : Int) : Json :=
  .object [("op", .string "connect"),
    ("output", Server.portRef (.object [("moduleId", .string sourceModuleId)]) "output" sourcePortId),
    ("input", Server.portRef probe "input" probeInputId),
    ("inputPolicy", .string "replace_all"), ("color", .string "#2a7fc8")]

section Operations
variable {text id : String} {n i : Int}

theorem attachOperations_taken : Server.attachOperations ⟨some id, none, i, false⟩ text n =
    [attachConnect (.object [("moduleId", .string id)]) text n i] := rfl

theorem attachOperations_added : Server.attachOperations ⟨none, some "rackmcp_probe", 0, true⟩ text n =
    [attachAdd, attachConnect (Recipes.aliasRef "rackmcp_probe") text n 0] := rfl

theorem parseDecimalId_toString {id : Int} (h : 0 ≤ id) (hmax : id ≤ int64Max) :
    parseDecimalId (toString id) = some id := by
  obtain ⟨n, rfl⟩ := Int.eq_ofNat_of_zero_le h
  have hinto := parseDecimalIdInto_numeral n (-1)
  rw [if_pos hmax, parseDecimalIdInto_eq] at hinto
  obtain ⟨hsome, hget⟩ := Prod.mk.inj hinto
  obtain ⟨m, hm⟩ := Option.isSome_iff_exists.mp hsome
  rw [hm] at hget
  show parseDecimalIdBytes (numeral n) = _
  rw [hm, ← hget]
  rfl

/-- `{ moduleId }` resolves to the id, when it is one. -/
theorem resolve_moduleId (text : String) (aliases : AliasMap) :
    resolveModuleRef (some (.object [("moduleId", .string text)])) aliases =
      (parseDecimalId text).elim {} fun id => { ok := true, moduleId := id } := by
  have hobject : Json.isObject (some (.object [("moduleId", .string text)])) = true := rfl
  have hget : Json.get (some (.object [("moduleId", .string text)])) "moduleId" = some (.string text) := rfl
  unfold resolveModuleRef
  rw [if_neg (not_not.mpr hobject), hget]
  dsimp only
  cases parseDecimalId text <;> rfl

end Operations

/-! ### The preview -/

section Preview
variable {world : PlanWorld} {st st' : PreviewState} {probe : Json} {text : String}
  {n i inId : Int}

/-- The source of a connect is there. -/
def Sourced (world : PlanWorld) (st : PreviewState) (text : String) (n : Int) : Prop :=
  ∃ id m, parseDecimalId text = some id ∧ liveModule world st id = some m ∧ n < m.outputCount

/-- What the plan takes away is the same. -/
structure TakesNothingMore (st st' : PreviewState) : Prop where
  removedModules : st'.removedModules = st.removedModules
  removedCables : st'.removedCables = st.removedCables
  replacedInputs : st'.replacedInputs = st.replacedInputs
  removesBridge : st'.removesBridge = st.removesBridge

theorem TakesNothingMore.trans {st₁ st₂ st₃ : PreviewState} (h : TakesNothingMore st₁ st₂)
    (h' : TakesNothingMore st₂ st₃) : TakesNothingMore st₁ st₃ where
  removedModules := h'.removedModules.trans h.removedModules
  removedCables := h'.removedCables.trans h.removedCables
  replacedInputs := h'.replacedInputs.trans h.replacedInputs
  removesBridge := h'.removesBridge.trans h.removesBridge

/-- An input that the preview finds free. -/
structure Unclaimed (world : PlanWorld) (st : PreviewState) (inId i : Int) : Prop where
  unclaimed : st.inputClaimed inId i = false
  there : 0 ≤ inId → (∃ m ∈ liveModule world st inId, 0 ≤ i ∧ i < m.inputCount) ∧
    cablesOnPort world.cables st.removedCables inId "input" i = []

theorem claimInput_free {op : Json} {t : PreviewState} (h : t.inputClaimed inId i = false)
    (ht : TakesNothingMore st t) : ∃ st', claimInput op inId i [] t = .done st' ∧ TakesNothingMore st st' := by
  unfold claimInput
  dsimp only
  rw [if_neg (by simp [h])]
  exact ⟨_, rfl, ht.removedModules, ht.removedCables, ht.replacedInputs, ht.removesBridge⟩

/-- The connect of an attachment passes exactly when its source is there, and takes nothing away. -/
theorem validate_attach (text : String) (hok : (resolveModuleRef (some probe) st.aliases).ok = true)
    (hn : 0 ≤ n ∧ n ≤ 65535) (hi : 0 ≤ i ∧ i ≤ 65535)
    (hfree : Unclaimed world st (resolveModuleRef (some probe) st.aliases).moduleId i) :
    (Sourced world st text n ∧ ∃ st', validateOne world (attachConnect probe text n i) st = .done st' ∧
      TakesNothingMore st st') ∨
    (¬ Sourced world st text n ∧ ∃ e t, validateOne world (attachConnect probe text n i) st = .thrown e t) := by
  have hconnect : validateOne world (attachConnect probe text n i) st =
      validateConnect (attachConnect probe text n i) world st := rfl
  have hreadOut : readIntField (Json.get (some (attachConnect probe text n i)) "output") "portId" = .ok n :=
    Recipes.readIntField_ok rfl hn
  have hreadIn : readIntField (Json.get (some (attachConnect probe text n i)) "input") "portId" = .ok i :=
    Recipes.readIntField_ok rfl hi
  have houtput : resolveModuleRef (Json.get (Json.get (some (attachConnect probe text n i)) "output") "module")
      st.aliases = (parseDecimalId text).elim {} fun id => { ok := true, moduleId := id } := resolve_moduleId text _
  have hinOk : (resolveModuleRef (Json.get (Json.get (some (attachConnect probe text n i)) "input") "module")
      st.aliases).ok := hok
  by_cases hsource : Sourced world st text n
  · refine .inl ⟨hsource, ?_⟩
    obtain ⟨id, m, hparse, hlive, hlt⟩ := hsource
    rw [hparse] at houtput
    have houtOk : (resolveModuleRef (Json.get (Json.get (some (attachConnect probe text n i)) "output") "module")
        st.aliases).ok := by rw [houtput]; rfl
    have houtLive : ∃ m ∈ liveModule world st
        (resolveModuleRef (Json.get (Json.get (some (attachConnect probe text n i)) "output") "module")
          st.aliases).moduleId, 0 ≤ n ∧ n < m.outputCount := by
      rw [houtput]
      exact ⟨m, hlive, hn.1, hlt⟩
    rw [hconnect]
    unfold validateConnect
    dsimp only
    rw [if_neg (not_or.mpr ⟨not_not.mpr houtOk, not_not.mpr hinOk⟩), hreadOut, hreadIn]
    dsimp only
    rw [if_neg fun hbad => hbad.2 houtLive]
    split
    · exact claimInput_free hfree.unclaimed ⟨rfl, rfl, rfl, rfl⟩
    · next hge =>
      obtain ⟨hinput, hnone⟩ := hfree.there (not_lt.mp hge)
      have hnone : cablesOnPort world.cables st.removedCables
          (resolveModuleRef (Json.get (Json.get (some (attachConnect probe text n i)) "input") "module")
            st.aliases).moduleId "input" i = [] := hnone
      rw [if_neg (by exact not_not.mpr hinput), hnone]
      exact claimInput_free hfree.unclaimed ⟨rfl, rfl, rfl, rfl⟩
  · refine .inr ⟨hsource, ?_⟩
    have hnot : ¬ ∃ id portId, PortsInOrder world (attachConnect probe text n i) st id portId := by
      rintro ⟨_, _, hin⟩
      obtain ⟨outPort, hread, hrange⟩ := hin.outRange
      have houtOk := hin.outOk
      rw [houtput] at houtOk hrange
      rcases hparse : parseDecimalId text with _ | id
      · rw [hparse] at houtOk
        exact absurd houtOk Bool.false_ne_true
      · rw [hparse] at hrange
        obtain ⟨m, hlive, -, hlt⟩ := hrange (parseDecimalId_nonneg hparse)
        obtain rfl := Except.ok.inj (hreadOut.symm.trans hread)
        exact hsource ⟨id, m, hparse, hlive, hlt⟩
    obtain ⟨code, message, t, hrefused, -⟩ := validateConnect_not_inOrder rfl hnot
    exact ⟨_, t, hrefused⟩

end Preview

/-! ### The plan on the patch -/

/-- `Port::isConnected`: an input that is not connected has no cable. -/
def SnapshotReadings.SeesCables (R : SnapshotReadings) (p : Patch) : Prop :=
  ∀ m ∈ p.modules, ∀ i : ℕ, ((R.module m).inputs i).connected = false →
    ∀ c ∈ p.cables, c.plan.entersPort m.id i = false

/-- The port is an output of the patch. -/
def HasOutput (p : Patch) (text : String) (n : Int) : Prop :=
  ∃ m ∈ p.modules, parseDecimalId text = some m.id ∧ n < m.outputs

/-- The source is there, and the probe can be made if one is needed. -/
def Attachable (rack : Rack) (p : Patch) (slot : Server.AttachMeta) (text : String) (n : Int) : Prop :=
  HasOutput p text n ∧ (slot.addsProbeModule = true → (rack.getModel "RackMCP" "Probe").isSome)

/-- One patch has a cable more than another, from the source into the slot, and nothing less. -/
structure Attached (p q : Patch) (c : Cable) (slot : Server.AttachMeta) (text : String) (n : Int) : Prop where
  shapes : ∀ shape ∈ p.shapes, shape ∈ q.shapes
  cables : q.cables.Perm (c :: p.cables)
  source : parseDecimalId text = some c.plan.outputModuleId ∧ c.plan.outputId = n
  input : c.plan.inputId = slot.probeInputId
  probe : slot.addsProbeModule = false → slot.probeModuleId = some (toString c.plan.inputModuleId)
  added : slot.addsProbeModule = true → c.plan.inputModuleId ∉ p.shapes.map (·.id)

section Plan
variable {R : SnapshotReadings} {rack : Rack} {p : Patch} {m : Module} {ops : List Json} {st : PreviewState}
  {text : String} {n id portId : Int} {i : ℕ}

theorem cablesOnPort_free (h : ∀ c ∈ p.cables, c.plan.entersPort id portId = false) (removed : List Int) :
    cablesOnPort (snapshotWorld rack p ops).cables removed id "input" portId = [] := by
  unfold cablesOnPort
  rw [List.map_eq_nil_iff, List.filter_eq_nil_iff]
  intro plan hplan
  obtain ⟨c, hc, rfl⟩ := List.mem_map.mp hplan
  simp [PlanCable.onPort, h c hc]

theorem inputCables_free (h : ∀ c ∈ p.cables, c.plan.entersPort id portId = false) :
    Applier.inputCables p id portId = [] := by
  unfold Applier.inputCables
  rw [List.map_eq_nil_iff, List.filter_eq_nil_iff]
  intro c hc
  rw [h c hc]
  exact Bool.false_ne_true

theorem liveModule_shape (h : p.Wired) (hremoved : st.removedModules = []) (hm : m ∈ p.modules) :
    liveModule (snapshotWorld rack p ops) st m.id = some (toWorldModule m) := by
  unfold liveModule
  rw [hremoved, if_neg List.not_mem_nil]
  exact Keyed.find?_eq_some h.moduleIds (List.mem_map_of_mem hm)

theorem sourced_iff (h : p.Wired) (hremoved : st.removedModules = []) :
    Sourced (snapshotWorld rack p ops) st text n ↔ HasOutput p text n := by
  constructor
  · rintro ⟨id, shape, hparse, hlive, hlt⟩
    unfold liveModule at hlive
    rw [hremoved, if_neg List.not_mem_nil] at hlive
    obtain ⟨hmem, hid⟩ := Keyed.mem_of_find? hlive
    obtain ⟨m, hm, rfl⟩ := List.mem_map.mp hmem
    exact ⟨m, hm, hparse.trans (congrArg some hid.symm), hlt⟩
  · rintro ⟨m, hm, hparse, hlt⟩
    exact ⟨m.id, toWorldModule m, hparse, liveModule_shape h hremoved hm, hlt⟩

/-- A free input of a probe is free to the preview. -/
theorem FreeSlot.unclaimed (hslot : FreeSlot R p m i) (h : p.Wired) (hsees : R.SeesCables p) :
    Unclaimed (snapshotWorld rack p ops) {} m.id i where
  unclaimed := rfl
  there _ := by
    have hport : (i : Int) < m.inputs := Int.ofNat_lt.mpr hslot.input
    exact ⟨⟨toWorldModule m, liveModule_shape h rfl hslot.mem, Int.natCast_nonneg i, hport⟩,
      cablesOnPort_free (hsees m hslot.mem i hslot.free) []⟩

theorem installed_attachAdd {connect : Json} (hconnect : jstr connect "op" = "connect")
    (hops : ops = [attachAdd, connect]) :
    (snapshotWorld rack p ops).modelInstalled "RackMCP" "Probe" ↔ (rack.getModel "RackMCP" "Probe").isSome := by
  have hkept : ops.filter (fun op : Json => jstr op "op" == "add_module") = [attachAdd] := by
    have hadd : jstr attachAdd "op" = "add_module" := rfl
    rw [hops]
    simp [hadd, hconnect]
  show ("RackMCP", "Probe") ∈ installedModels rack ops ↔ _
  unfold installedModels
  rw [hkept]
  show ("RackMCP", "Probe") ∈ [attachAdd].filterMap (fun op : Json =>
    (rack.getModel (jstr op "pluginSlug") (jstr op "modelSlug")).map fun _ =>
      (jstr op "pluginSlug", jstr op "modelSlug")) ↔ _
  have hslugs : jstr attachAdd "pluginSlug" = "RackMCP" ∧ jstr attachAdd "modelSlug" = "Probe" := ⟨rfl, rfl⟩
  rw [List.filterMap_cons, hslugs.1, hslugs.2]
  cases rack.getModel "RackMCP" "Probe" <;> simp

theorem validateAdd_attachAdd {world : PlanWorld} (h : world.modelInstalled "RackMCP" "Probe") :
    ∃ st, validateAdd attachAdd world {} = .done st ∧ TakesNothingMore {} st ∧
      st.aliases.lookup "rackmcp_probe" = some (-1000) ∧ st.claimedInputs = [] := by
  have hinstalled : ¬ ¬ world.modelInstalled (jstr attachAdd "pluginSlug") (jstr attachAdd "modelSlug") :=
    not_not.mpr h
  have hnew : ¬ (jstr attachAdd "alias" = "" ∨ jstr attachAdd "alias" ∈ ({} : PreviewState).aliases) := by
    rintro (hempty | hmem)
    · exact absurd hempty (by decide)
    · exact absurd hmem (AList.notMem_empty _)
  unfold validateAdd
  dsimp only
  rw [if_neg hinstalled, if_neg hnew]
  exact ⟨_, rfl, ⟨rfl, rfl, rfl, rfl⟩, AList.lookup_insert _, rfl⟩

/-- The plan of an attachment passes the preview exactly when it can be carried out, and takes nothing away. -/
theorem preview_attach {payload : Json} (h : p.Wired) (hids : ∀ m ∈ p.modules, 0 ≤ m.id ∧ m.id ≤ int64Max)
    (hsees : R.SeesCables p) (hpayload : buildPatchSnapshot R rack p false = some payload) (hn : 0 ≤ n ∧ n ≤ 65535)
    {slot : Server.AttachMeta} (hslot : slot = Server.chooseSlot payload none)
    (hops : ops = Server.attachOperations slot text n) :
    (Attachable rack p slot text n ∧ ∃ st, Runs (validateOne (snapshotWorld rack p ops)) ops {} st ∧
      TakesNothingMore {} st) ∨
    (¬ Attachable rack p slot text n ∧ ∀ st, ¬ Runs (validateOne (snapshotWorld rack p ops)) ops {} st) := by
  rcases chooseSlot_cases hpayload (modules_nodup h) with ⟨m, i, hfree, hchosen⟩ | ⟨-, hchosen⟩
  · obtain ⟨hnonneg, hmax⟩ := hids m hfree.mem
    have hparse := parseDecimalId_toString hnonneg hmax
    have hi : 0 ≤ (i : Int) ∧ (i : Int) ≤ 65535 := by
      have := hfree.considered
      omega
    rw [hchosen] at hslot
    subst hslot
    rw [attachOperations_taken] at hops
    have hresolve := resolve_moduleId (toString m.id) ({} : PreviewState).aliases
    rw [hparse] at hresolve
    have hunclaimed : Unclaimed (snapshotWorld rack p ops) {} (resolveModuleRef
        (some (.object [("moduleId", .string (toString m.id))])) ({} : PreviewState).aliases).moduleId i := by
      rw [hresolve]
      exact hfree.unclaimed h hsees
    rcases validate_attach text (by rw [hresolve]; rfl) hn hi hunclaimed with
      ⟨hsource, st, hdone, htakes⟩ | ⟨hsource, e, t, hthrown⟩
    · refine .inl ⟨⟨(sourced_iff h rfl).mp hsource, fun hadds => absurd hadds Bool.false_ne_true⟩, st, ?_, htakes⟩
      rw [hops] at hdone ⊢
      exact .cons hdone (.nil st)
    · refine .inr ⟨fun hattach => hsource ((sourced_iff h rfl).mpr hattach.1), fun st hruns => ?_⟩
      rw [hops] at hthrown hruns
      obtain ⟨_, hdone, -⟩ := Runs.cons_iff.mp hruns
      rw [hthrown] at hdone
      cases hdone
  · rw [hchosen] at hslot
    subst hslot
    rw [attachOperations_added] at hops
    have hadd : validateOne (snapshotWorld rack p ops) attachAdd {} =
        validateAdd attachAdd (snapshotWorld rack p ops) {} := rfl
    have hinstalled : (snapshotWorld rack p ops).modelInstalled "RackMCP" "Probe" ↔
        (rack.getModel "RackMCP" "Probe").isSome := installed_attachAdd rfl hops
    by_cases hmodel : (rack.getModel "RackMCP" "Probe").isSome
    · obtain ⟨st, hdone, htakes, hlookup, hclaimed⟩ := validateAdd_attachAdd (hinstalled.mpr hmodel)
      have hresolve := Recipes.resolve_aliasRef hlookup
      have hunclaimed : Unclaimed (snapshotWorld rack p ops) st (resolveModuleRef
          (some (Recipes.aliasRef "rackmcp_probe")) st.aliases).moduleId 0 := by
        rw [hresolve]
        refine ⟨?_, fun hge => absurd hge (by decide)⟩
        unfold PreviewState.inputClaimed
        rw [hclaimed]
        rfl
      rcases validate_attach text (by rw [hresolve]) hn (by decide) hunclaimed with
        ⟨hsource, st', hconnected, htakes'⟩ | ⟨hsource, e, t, hthrown⟩
      · refine .inl ⟨⟨(sourced_iff h htakes.removedModules).mp hsource, fun _ => hmodel⟩, st', ?_,
          htakes.trans htakes'⟩
        rw [← hadd] at hdone
        rw [hops] at hdone hconnected ⊢
        exact .cons hdone (.cons hconnected (.nil st'))
      · refine .inr ⟨fun hattach => hsource ((sourced_iff h htakes.removedModules).mpr hattach.1), fun u hruns => ?_⟩
        rw [← hadd] at hdone
        rw [hops] at hdone hthrown hruns
        obtain ⟨t', hadded, hrest⟩ := Runs.cons_iff.mp hruns
        obtain rfl := Outcome.done.inj (hdone.symm.trans hadded)
        obtain ⟨_, hconnected, -⟩ := Runs.cons_iff.mp hrest
        rw [hthrown] at hconnected
        cases hconnected
    · refine .inr ⟨fun hattach => hmodel (hattach.2 rfl), fun st hruns => ?_⟩
      have hruns : Runs (validateOne (snapshotWorld rack p ops))
          [attachAdd, attachConnect (Recipes.aliasRef "rackmcp_probe") text n 0] {} st := by
        rw [← hops]
        exact hruns
      obtain ⟨t, hdone, -⟩ := Runs.cons_iff.mp hruns
      have hnot : ¬ (snapshotWorld rack p ops).modelInstalled (jstr attachAdd "pluginSlug")
          (jstr attachAdd "modelSlug") := fun hmem => hmodel (hinstalled.mp hmem)
      rw [hadd] at hdone
      unfold validateAdd at hdone
      dsimp only at hdone
      rw [if_pos hnot] at hdone
      cases hdone

end Plan

/-! ### The commit -/

section Commit
variable {R : SnapshotReadings} {w : PanelPatch} {s s' : Applier} {probe : Json} {text : String} {n i inId : Int}
  {ops : List Json} {slot : Server.AttachMeta} {payload : Json}

/-- The connect of an attachment into a free input adds its cable, and leaves the other cables and all modules. -/
theorem attach_connects (hw : s.AllWidgets) (hinput : s.resolve (some probe) = some inId) (hn : 0 ≤ n ∧ n ≤ 65535)
    (hi : 0 ≤ i ∧ i ≤ 65535) (hfree : ∀ c ∈ s.patch.cables, c.plan.entersPort inId i = false)
    (h : Applier.applyOne w.rack (attachConnect probe text n i) s = .done s') :
    s'.patch.shapes = s.patch.shapes ∧ ∃ c : Cable, s'.patch.cables.Perm (c :: s.patch.cables) ∧
      (parseDecimalId text = some c.plan.outputModuleId ∧ c.plan.outputId = n) ∧
      c.plan.inputModuleId = inId ∧ c.plan.inputId = i := by
  have hkind : opType (attachConnect probe text n i) = .connect := rfl
  have hreadOut : readIntField (Json.get (some (attachConnect probe text n i)) "output") "portId" = .ok n :=
    Recipes.readIntField_ok rfl hn
  have hreadIn : readIntField (Json.get (some (attachConnect probe text n i)) "input") "portId" = .ok i :=
    Recipes.readIntField_ok rfl hi
  have hstep := Applier.applyOne_step hw h
  cases hstep with
  | connect _ outId inId' outPort inPort output input outputPort inputPort _ _ _ _ _ _ _ cables _ same =>
    obtain rfl := Option.some.inj (input.symm.trans hinput)
    obtain rfl := Except.ok.inj (hreadOut.symm.trans outputPort)
    obtain rfl := Except.ok.inj (hreadIn.symm.trans inputPort)
    have hsource : parseDecimalId text = some outId := by
      have output : s.resolve (some (.object [("moduleId", .string text)])) = some outId := output
      unfold Applier.resolve at output
      rw [resolve_moduleId] at output
      rcases hparse : parseDecimalId text with _ | id
      · rw [hparse] at output
        cases output
      · rw [hparse] at output
        exact output
    have hkept : s.survivors [] = s.patch.cables := List.filter_eq_self.mpr fun c _ => by simp
    rw [inputCables_free hfree, hkept] at cables
    refine ⟨same.shapes, _, cables ▸ w.relist_perm _ _, ⟨hsource, rfl⟩, rfl, rfl⟩
  | modify kind => rcases kind with kind | kind | kind <;> exact absurd (hkind.symm.trans kind) (by decide)
  | add kind | remove kind | randomize kind | move kind | disconnect kind | disconnectPort kind =>
    exact absurd (hkind.symm.trans kind) (by decide)

/-- What the plan of an attachment makes of the patch. -/
theorem apply_attach (h : w.patch.Wired) (hids : ∀ m ∈ w.patch.modules, 0 ≤ m.id ∧ m.id ≤ int64Max)
    (hsees : R.SeesCables w.patch) (hpayload : buildPatchSnapshot R w.rack w.patch false = some payload)
    (hn : 0 ≤ n ∧ n ≤ 65535) (hslot : slot = Server.chooseSlot payload none)
    (hops : ops = Server.attachOperations slot text n)
    (hruns : Runs (Applier.applyOne w.rack) ops { patch := w.patch } s) :
    ∃ c, Attached w.patch s.patch c slot text n := by
  have hw : Applier.AllWidgets { patch := w.patch } := h.widgets
  rcases chooseSlot_cases hpayload (modules_nodup h) with ⟨m, i, hfree, hchosen⟩ | ⟨-, hchosen⟩
  · obtain ⟨hnonneg, hmax⟩ := hids m hfree.mem
    have hi : 0 ≤ (i : Int) ∧ (i : Int) ≤ 65535 := by
      have := hfree.considered
      omega
    rw [hchosen] at hslot
    subst hslot
    rw [attachOperations_taken] at hops
    subst hops
    obtain ⟨s₁, hconnect, hend⟩ := Runs.cons_iff.mp hruns
    obtain rfl := Runs.nil_iff.mp hend
    have hinput : Applier.resolve { patch := w.patch } (some (.object [("moduleId", .string (toString m.id))])) =
        some m.id := by
      unfold Applier.resolve
      rw [resolve_moduleId, parseDecimalId_toString hnonneg hmax]
      rfl
    obtain ⟨hshapes, c, hcables, hsource, hinId, hport⟩ :=
      attach_connects hw hinput hn hi (hsees m hfree.mem i hfree.free) hconnect
    exact ⟨c, fun shape hshape => hshapes ▸ hshape, hcables, hsource, hport, fun _ => by rw [hinId],
      fun hadds => absurd hadds Bool.false_ne_true⟩
  · rw [hchosen] at hslot
    subst hslot
    rw [attachOperations_added] at hops
    subst hops
    obtain ⟨s₁, hadd, hrest⟩ := Runs.cons_iff.mp hruns
    obtain ⟨s₂, hconnect, hend⟩ := Runs.cons_iff.mp hrest
    obtain rfl := Runs.nil_iff.mp hend
    have hadd : Applier.applyAdd w.rack attachAdd { patch := w.patch } = .done s₁ := hadd
    obtain ⟨model, quantities, inputs, outputs, state, -, -, hadds⟩ := Applier.applyAdd_adds hadd
    have hid : w.rack.moduleIds 0 ∉ w.patch.shapes.map (·.id) := by
      unfold Patch.shapes
      rw [List.map_map]
      exact w.module_fresh 0
    have hw₁ : s₁.AllWidgets := by
      intro c hc
      rw [hadds.cables] at hc
      exact h.widgets c hc
    have hinput : s₁.resolve (some (Recipes.aliasRef "rackmcp_probe")) = some (w.rack.moduleIds 0) := by
      have hlookup : s₁.aliasMap.lookup "rackmcp_probe" = some (w.rack.moduleIds 0) := by
        rw [hadds.aliasMap]
        exact AList.lookup_insert _
      exact Recipes.resolve_live hlookup
    have hnew : ∀ c ∈ s₁.patch.cables, c.plan.entersPort (w.rack.moduleIds 0) 0 = false := by
      intro c hc
      rw [hadds.cables] at hc
      by_contra henters
      rw [Bool.not_eq_false] at henters
      unfold PlanCable.entersPort at henters
      rw [Bool.and_eq_true, Bool.and_eq_true, beq_iff_eq] at henters
      obtain ⟨shape, hshape, hshapeId, -⟩ := h.inputs c hc henters.1.1
      exact hid (List.mem_map.mpr ⟨shape, hshape, hshapeId.trans henters.1.2⟩)
    obtain ⟨hshapes, c, hcables, hsource, hinId, hport⟩ :=
      attach_connects hw₁ hinput hn (by decide) hnew hconnect
    refine ⟨c, fun shape hshape => ?_, hadds.cables ▸ hcables, hsource, hport,
      fun htaken => absurd htaken (by decide), fun _ => hinId ▸ hid⟩
    rw [hshapes, hadds.shapes]
    exact List.mem_append_left _ hshape

end Commit

/-! ### From the preview to the commit -/

section Previewed
variable {rack : Rack} {request answer commit op : Json} {rest : List Json} {rs : RackState} {base : String}
  {durationMs : Double}

theorem txnPreview_of_not_runs (hget : Json.get request "operations" = some (.array (op :: rest)))
    (hnot : ∀ st, ¬ Runs (validateOne (snapshotWorld rack rs.patch (op :: rest))) (op :: rest) {} st) :
    (txnPreview rack request rs).payload = none := by
  unfold txnPreview
  rw [hget]
  dsimp only
  rcases hall : validateAll (snapshotWorld rack rs.patch (op :: rest)) (op :: rest) with st | ⟨⟨i, e⟩, st⟩
  · exact absurd (runFrom_done_iff.mp hall) (hnot st)
  · rfl

/-- What `txnPreview` answers is a plan that validates. -/
theorem txnPreview_answer (hget : Json.get request "operations" = some (.array (op :: rest)))
    (hbase : rack.computePatchFingerprint rs.patch = some base)
    (hanswer : (txnPreview rack request rs).payload = some answer) :
    ∃ st, Runs (validateOne (snapshotWorld rack rs.patch (op :: rest))) (op :: rest) {} st ∧
      answer = previewPayload rack request (op :: rest) base rs.patchEpoch st := by
  by_cases hruns : ∃ st, Runs (validateOne (snapshotWorld rack rs.patch (op :: rest))) (op :: rest) {} st
  · obtain ⟨st, hruns⟩ := hruns
    have hpayload := Recipes.txnPreview_of_runs hget hruns hbase
    exact ⟨st, hruns, Option.some.inj (hanswer.symm.trans hpayload)⟩
  · rw [txnPreview_of_not_runs hget fun st hst => hruns ⟨st, hst⟩] at hanswer
    cases hanswer

/-- The preview answers exactly the plans that validate. -/
theorem txnPreview_isSome_iff (hget : Json.get request "operations" = some (.array (op :: rest)))
    (hbase : rack.computePatchFingerprint rs.patch = some base) : (txnPreview rack request rs).payload.isSome ↔
      ∃ st, Runs (validateOne (snapshotWorld rack rs.patch (op :: rest))) (op :: rest) {} st := by
  constructor
  · intro hsome
    obtain ⟨answer, hanswer⟩ := Option.isSome_iff_exists.mp hsome
    obtain ⟨st, hruns, -⟩ := txnPreview_answer hget hbase hanswer
    exact ⟨st, hruns⟩
  · rintro ⟨st, hruns⟩
    rw [Recipes.txnPreview_of_runs hget hruns hbase]
    rfl

/-- The commit of a previewed plan applies its operations. -/
theorem txnCommit_of_answer (hget : Json.get request "operations" = some (.array (op :: rest)))
    (hbase : rack.computePatchFingerprint rs.patch = some base)
    (hanswer : (txnPreview rack request rs).payload = some answer)
    (hplan : Json.get commit "plan" = Json.get answer "plan")
    (hsuccess : (txnCommit rack commit durationMs rs).1.errorCode = none) :
    ∃ s, Runs (Applier.applyOne rack) (op :: rest) { patch := rs.patch } s ∧
      (txnCommit rack commit durationMs rs).2.patch = s.patch := by
  obtain ⟨st, -, rfl⟩ := txnPreview_answer hget hbase hanswer
  obtain ⟨s, fp, happly, -, hafter⟩ := txnCommit_of_success hsuccess
  have hplanned : planOperations (Json.get commit "plan") = op :: rest := by
    rw [hplan]
    rfl
  rw [hplanned] at happly
  exact ⟨s, runFrom_done_iff.mp happly, congrArg RackState.patch hafter⟩

end Previewed

/-! ### Nothing is taken away -/

theorem attachOperations_not_random (slot : Server.AttachMeta) (text : String) (n : Int) :
    (Server.attachOperations slot text n).any (fun op : Json => jstr op "op" == "randomize_module") = false := by
  unfold Server.attachOperations
  cases slot.addsProbeModule <;> rfl

/-- Whatever commits did to the patch, a probe is attached to it without a loss: the server takes a free input of a
probe and adds a probe only when none has one, the plan passes the preview exactly when its source is there and a probe
can be made if one is needed, it needs no confirmation, and its commit leaves all modules and cables with the one cable
more. -/
theorem attached_probe_takes_nothing (R : SnapshotReadings) (w : PanelPatch) {rs : RackState} {payload preview : Json}
    {text : String} {n : Int} (hreached : Reached rs) (hpatch : rs.patch = w.patch)
    (hids : ∀ m ∈ rs.patch.modules, 0 ≤ m.id ∧ m.id ≤ int64Max) (hsees : R.SeesCables rs.patch)
    (hpayload : buildPatchSnapshot R w.rack rs.patch false = some payload) (hn : 0 ≤ n ∧ n ≤ 65535)
    (hpreview : Json.get preview "operations" =
      some (.array (Server.attachOperations (Server.chooseSlot payload none) text n))) :
    ((Server.chooseSlot payload none).addsProbeModule = true ↔ ∀ m i, ¬ FreeSlot R rs.patch m i) ∧
    ((Server.chooseSlot payload none).addsProbeModule = false → ∃ m i, FreeSlot R rs.patch m i ∧
      Server.chooseSlot payload none = ⟨some (toString m.id), none, i, false⟩) ∧
    ((txnPreview w.rack preview rs).payload.isSome ↔
      Attachable w.rack rs.patch (Server.chooseSlot payload none) text n) ∧
    ∀ answer, (txnPreview w.rack preview rs).payload = some answer →
      jbool (Json.get answer "risk") "confirmationRequired" true = false ∧
      ∀ (commit : Json) (durationMs : Double), Json.get commit "plan" = Json.get answer "plan" →
        (txnCommit w.rack commit durationMs rs).1.errorCode = none →
        ∃ c, Attached rs.patch (txnCommit w.rack commit durationMs rs).2.patch c (Server.chooseSlot payload none)
          text n := by
  have hwired := hreached.patch_wired
  obtain ⟨base, hbase, -⟩ := Option.map_eq_some_iff.mp hpayload
  generalize hslot : Server.chooseSlot payload none = slot at hpreview
  have hverdict := preview_attach hwired hids hsees hpayload hn hslot.symm
    (rfl : Server.attachOperations slot text n = _)
  obtain ⟨op, rest, hops⟩ : ∃ op rest, Server.attachOperations slot text n = op :: rest :=
    List.exists_cons_of_ne_nil (List.append_ne_nil_of_right_ne_nil _ (List.cons_ne_nil _ _))
  have hchosen := chooseSlot_cases hpayload (modules_nodup hwired)
  rw [hslot] at hchosen
  refine ⟨?_, fun hkeeps => ?_, ?_, fun answer hanswer => ?_⟩
  · rcases hchosen with ⟨m, i, hfree, hchosen⟩ | ⟨hnone, hchosen⟩
    · rw [hchosen]
      exact ⟨fun hadds => absurd hadds Bool.false_ne_true, fun hnone => absurd hfree (hnone m i)⟩
    · rw [hchosen]
      exact ⟨fun _ => hnone, fun _ => rfl⟩
  · rcases hchosen with hfree | ⟨-, hchosen⟩
    · exact hfree
    · rw [hchosen] at hkeeps
      exact absurd hkeeps.symm Bool.false_ne_true
  · rw [hops] at hpreview hverdict
    rw [txnPreview_isSome_iff hpreview hbase]
    rcases hverdict with ⟨hattach, st, hruns, -⟩ | ⟨hnot, hnone⟩
    · exact ⟨fun _ => hattach, fun _ => ⟨st, hruns⟩⟩
    · exact ⟨fun ⟨st, hruns⟩ => absurd hruns (hnone st), fun hattach => absurd hattach hnot⟩
  · have hrandomizes := attachOperations_not_random slot text n
    rw [hops] at hpreview hverdict hrandomizes
    refine ⟨?_, fun commit durationMs hplan hsuccess => ?_⟩
    · obtain ⟨st, hruns, rfl⟩ := txnPreview_answer hpreview hbase hanswer
      obtain ⟨-, st', hruns', htakes⟩ | ⟨-, hnone⟩ := hverdict
      · obtain rfl := Runs.unique hruns hruns'
        rw [Recipes.confirmation_previewed, hrandomizes, htakes.removedModules, htakes.removedCables,
          htakes.replacedInputs, htakes.removesBridge]
        rfl
      · exact absurd hruns (hnone st)
    · obtain ⟨s, happlied, hafter⟩ := txnCommit_of_answer hpreview hbase hanswer hplan hsuccess
      rw [← hops] at happlied
      rw [hafter]
      rw [hpatch] at hwired hids hsees hpayload happlied ⊢
      exact apply_attach hwired hids hsees hpayload hn hslot.symm rfl happlied

/-! ### The bench -/

/-- An oscillator 1 and a probe 4, with the cable 10 from 1:0 to 4:0. -/
def probePatch : Patch where
  modules :=
    [⟨1, "Fundamental", "VCO", [some ⟨.finite 0, .finite 1⟩], 2, 2, ⟨[.finite 0], false, ""⟩⟩,
     ⟨4, "RackMCP", "Probe", [], 8, 0, ⟨[], false, ""⟩⟩]
  panels :=
    [⟨some 1, ⟨⟨(30000 : ℚ), (38000 : ℚ)⟩, ⟨(90 : ℚ), (380 : ℚ)⟩⟩⟩,
     ⟨some 4, ⟨⟨(30090 : ℚ), (38000 : ℚ)⟩, ⟨(90 : ℚ), (380 : ℚ)⟩⟩⟩]
  cables := [⟨.connected 10 1 0 4 0, some ⟨0, 0, 0, 255⟩⟩]

theorem probePatch_module_fresh (n : ℕ) : benchRack.moduleIds n ∉ probePatch.modules.map (·.id) := by
  intro h
  simp only [benchRack, probePatch, List.map_cons, List.map_nil, List.mem_cons, List.not_mem_nil, or_false] at h
  omega

theorem probePatch_cable_fresh (n : ℕ) : benchRack.cableIds n ∉ probePatch.cables.map (·.id) := by
  intro h
  simp only [benchRack, probePatch, List.map_cons, List.map_nil, List.mem_cons, List.not_mem_nil, or_false, Cable.id,
    PlanCable.connected] at h
  omega

theorem probePatch_panel_fresh (n : ℕ) (o : Layout.Occupant) (ho : o ∈ probePatch.panels) :
    o.moduleId ≠ some (benchRack.moduleIds n) := by
  intro heq
  have hid : some (benchRack.moduleIds n) ∈ probePatch.panels.map (·.moduleId) := List.mem_map.mpr ⟨o, ho, heq⟩
  simp only [benchRack, probePatch, List.map_cons, List.map_nil, List.mem_cons, Option.some.injEq, List.not_mem_nil,
    or_false] at hid
  omega

/-- The patch with its panels. -/
def probePanels : PanelPatch where
  rack := benchRack
  patch := probePatch
  moduleIds_nodup := by decide
  cableIds_nodup := by decide
  moduleIds_injective := benchRack_moduleIds_injective
  cableIds_injective := benchRack_cableIds_injective
  module_fresh := probePatch_module_fresh
  cable_fresh := probePatch_cable_fresh
  relist_perm := benchRack_relist_perm
  panelIds_nodup := by decide
  panel_fresh := probePatch_panel_fresh

theorem probePatch_wired : probePatch.Wired where
  moduleIds := by decide
  cableIds := by decide
  widgets := by decide
  outputs := by decide
  inputs := by decide
  single c hc d hd _ := by rw [List.mem_singleton.mp hc, List.mem_singleton.mp hd]

/-- What the engine says of the one cable. -/
def probeReadings : SnapshotReadings :=
  { benchSnapshotReadings with
    module := fun m =>
      { benchSnapshotReadings.module m with inputs := fun i => ⟨[], 0, m.id == 4 && i == 0⟩ } }

theorem probeReadings_sees : probeReadings.SeesCables probePatch := by
  intro m _ i hfree c hc
  simp only [probePatch, List.mem_singleton] at hc
  subst hc
  have hfree : (m.id == 4 && i == 0) = false := hfree
  rw [Bool.and_eq_false_iff, beq_eq_false_iff_ne, beq_eq_false_iff_ne] at hfree
  simp only [PlanCable.entersPort, PlanCable.connected, Bool.true_and, Bool.and_eq_false_iff, beq_eq_false_iff_ne]
  omega

/-- The second input of the probe, for the second output of the oscillator. -/
def probeAttachment : List Json := Server.attachOperations ⟨some "4", none, 1, false⟩ "1" 1

def probePreview : Json := .object [("operations", .array probeAttachment)]

def probePlan : Json := .object [("label", .string "transaction"), ("operations", .array probeAttachment)]

def probeCommit : Json :=
  .object [("operationId", .string "11111111-a"), ("planHash", .string "plan"), ("expectedFingerprint", .string "1 4"),
    ("plan", probePlan)]

theorem attached_probe_takes_nothing_bench : ∃ c, Attached probePatch
    (txnCommit benchRack probeCommit .nan { patch := probePatch }).2.patch c ⟨some "4", none, 1, false⟩ "1" 1 := by
  obtain ⟨payload, hpayload⟩ : ∃ payload, buildPatchSnapshot probeReadings benchRack probePatch false = some payload :=
    ⟨_, rfl⟩
  have hsort : sortIds [1, 4] = [1, 4] := List.mergeSort_of_pairwise (by decide)
  have hmodules : snapshotModules probePatch = probePatch.modules := congrArg (List.filterMap probePatch.module) hsort
  have hslots : (freeSlots payload).head? = some ("4", 1) := by
    unfold freeSlots
    rw [(items_payload hpayload).1, hmodules]
    rfl
  have hslot : Server.chooseSlot payload none = ⟨some "4", none, 1, false⟩ := by
    rw [chooseSlot_eq, hslots]
    rfl
  have hpreview : Json.get probePreview "operations" =
      some (.array (Server.attachOperations (Server.chooseSlot payload none) "1" 1)) := by
    rw [hslot]
    rfl
  have hids : ∀ m ∈ probePatch.modules, 0 ≤ m.id ∧ m.id ≤ int64Max := by decide
  have hreached : Reached { patch := probePatch } := .wired probePatch_wired
  obtain ⟨-, -, -, hattached⟩ := attached_probe_takes_nothing probeReadings probePanels hreached rfl hids
    probeReadings_sees hpayload (by decide) hpreview
  rw [hslot] at hattached
  have hattach : Attachable benchRack probePatch ⟨some "4", none, 1, false⟩ "1" 1 :=
    ⟨⟨_, List.mem_cons_self, by decide, by decide⟩, fun hadds => absurd hadds Bool.false_ne_true⟩
  rcases preview_attach probePatch_wired hids probeReadings_sees hpayload (by decide) hslot.symm
    (rfl : probeAttachment = _) with ⟨-, st, hruns, -⟩ | ⟨hnot, -⟩
  · have hbase : benchRack.computePatchFingerprint probePatch = some "1 4" := by decide
    have hget : Json.get probePreview "operations" = some (.array probeAttachment) := rfl
    have hanswer : (txnPreview benchRack probePreview { patch := probePatch }).payload = some _ :=
      Recipes.txnPreview_of_runs hget hruns hbase
    have hsuccess : (txnCommit benchRack probeCommit .nan { patch := probePatch }).1.errorCode = none := by
      rw [← Option.isNone_iff_eq_none]
      decide +kernel
    exact (hattached _ hanswer).2 probeCommit .nan rfl hsuccess
  · exact absurd hattach hnot

end RackMcp
