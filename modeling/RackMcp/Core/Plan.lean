import RackMcp.Gen
import RackMcp.Core.Layout

/-!
# The Rack-free half of transaction validation

`core/plan.cpp`: id parsing, module-reference resolution, the field checks of an operation, cable
accounting and risk classification.
-/

namespace RackMcp

open Gen

/-! ### Ids -/

/-- The bytes of a `std::string`. -/
def utf8 (text : String) : List UInt8 := text.toUTF8.data.toList

def int64Max : Int := 9223372036854775807
def intMin : Int := -2147483648
def intMax : Int := 2147483647

/-- The digit loop of `parseDecimalId`, with its overflow check before each step. -/
def accumulateDigits (value : Int) : List UInt8 → Option Int
  | [] => some value
  | c :: rest =>
    let digit : Int := (c.toNat : Int) - 48
    if value > (int64Max - digit) / 10 then none else accumulateDigits (value * 10 + digit) rest

/-- `parseDecimalId` on the bytes of the text: `^(0|[1-9][0-9]{0,18})$`, at most `INT64_MAX`. The `out` parameter,
written only when it is `some`, is the caller's. -/
def parseDecimalIdBytes (text : List UInt8) : Option Int :=
  if text = [] ∨ text.length > 19 then none
  else if text.head? = some 48 then (if text.length ≠ 1 then none else some 0)
  else if text.any (fun c => c < 48 || c > 57) then none
  else accumulateDigits 0 text

/-- `parseDecimalId`. -/
def parseDecimalId (text : String) : Option Int := parseDecimalIdBytes (utf8 text)

/-! ### The snapshot -/

/-- A cable as validation sees it; an end may be detached. -/
structure PlanCable where
  id : Int
  hasOutput : Bool
  hasInput : Bool
  outputModuleId : Int
  inputModuleId : Int
  outputId : Int
  inputId : Int
deriving DecidableEq

/-- `PlanCable::connected`. -/
def PlanCable.connected (id outModule outPort inModule inPort : Int) : PlanCable :=
  ⟨id, true, true, outModule, inModule, outPort, inPort⟩

/-- The input end of the cable is on this port. -/
def PlanCable.entersPort (c : PlanCable) (moduleId portId : Int) : Bool :=
  c.hasInput && c.inputModuleId == moduleId && c.inputId == portId

/-- The output end of the cable is on this port. -/
def PlanCable.leavesPort (c : PlanCable) (moduleId portId : Int) : Bool :=
  c.hasOutput && c.outputModuleId == moduleId && c.outputId == portId

/-- One of the ends is on this module. -/
def PlanCable.touches (c : PlanCable) (moduleId : Int) : Bool :=
  (c.hasInput && c.inputModuleId == moduleId) || (c.hasOutput && c.outputModuleId == moduleId)

/-- The cable is on this port; a port type other than the two matches nothing. -/
def PlanCable.onPort (c : PlanCable) (moduleId : Int) (portType : String) (portId : Int) : Bool :=
  (portType == "input" && c.entersPort moduleId portId) ||
    (portType == "output" && c.leavesPort moduleId portId)

/-- One live module, as plain data; a module with no model has two empty slugs. -/
structure WorldModule where
  id : Int
  pluginSlug : String
  modelSlug : String
  paramCount : Nat
  inputCount : Nat
  outputCount : Nat
deriving DecidableEq

/-- `slug.rfind("Audio", 0) == 0`. -/
def isAudioSlug (slug : String) : Bool := "Audio".toList.isPrefixOf slug.toList

def isAudioModule (m : WorldModule) : Bool := m.pluginSlug == "Core" && isAudioSlug m.modelSlug

def isBridgeModule (m : WorldModule) : Bool := m.pluginSlug == "RackMCP" && m.modelSlug == "Bridge"

/-- The Rack-free snapshot that validation reads. -/
structure PlanWorld where
  installedModels : List (String × String)
  modules : List WorldModule
  occupants : List Layout.Occupant
  cables : List PlanCable
  grid : Layout.Grid

namespace PlanWorld

variable (world : PlanWorld)

def modelInstalled (pluginSlug modelSlug : String) : Prop :=
  (pluginSlug, modelSlug) ∈ world.installedModels

instance (pluginSlug modelSlug : String) : Decidable (world.modelInstalled pluginSlug modelSlug) :=
  inferInstanceAs (Decidable (_ ∈ _))

/-- The live module with this id, or none. -/
def module (moduleId : Int) : Option WorldModule := world.modules.find? (·.id == moduleId)

/-- The index of the panel `RackWidget::getModule` would have returned. -/
def widgetIndex (moduleId : Int) : Option Nat :=
  world.occupants.findIdx? (·.moduleId == some moduleId)

def hasCable (cableId : Int) : Prop := ∃ c ∈ world.cables, c.id = cableId

instance (cableId : Int) : Decidable (world.hasCable cableId) :=
  inferInstanceAs (Decidable (∃ c ∈ _, _))

end PlanWorld

/-- Bridge modules that would still exist once `removed` is applied. -/
def remainingBridgeCount (modules : List WorldModule) (removed : List Int) : Nat :=
  modules.countP fun m => isBridgeModule m && !removed.contains m.id

/-- Cable ids touching the module at either end, without those already removed, in engine order. -/
def cablesOnModule (cables : List PlanCable) (removed : List Int) (moduleId : Int) : List Int :=
  (cables.filter fun c => !removed.contains c.id && c.touches moduleId).map (·.id)

/-- As `cablesOnModule`, narrowed to one port. -/
def cablesOnPort (cables : List PlanCable) (removed : List Int) (moduleId : Int) (portType : String)
    (portId : Int) : List Int :=
  (cables.filter fun c => !removed.contains c.id && c.onPort moduleId portType portId).map (·.id)

/-! ### Reading fields -/

/-- Whether a value satisfies a declared JSON type. -/
def typeMatches (declared : JsonType) (v : Json) : Bool :=
  match declared, v with
  | .any, _ => true
  | .string, .string _ => true
  | .boolean, .bool _ => true
  | .integer, .integer _ => true
  | .number, v => v.isNumber
  | .object, .object _ => true
  | .array, .array _ => true
  | _, _ => false

/-- `readIntField`: the integer, or the message naming the key and the problem. -/
def readIntField (obj : Option Json) (key : String) : Except String Int :=
  match Json.get obj key with
  | none => .error ("missing required field \"" ++ key ++ "\"")
  | some (.integer raw) =>
    if raw < intMin ∨ raw > intMax then .error ("field \"" ++ key ++ "\" is out of range")
    else .ok raw
  | some v => .error ("field \"" ++ key ++ "\" must be an integer, not " ++ v.actualTypeName)

/-- The bounded `readIntField`. -/
def readIntFieldIn (obj : Option Json) (key : String) (min max : Int) : Except String Int :=
  match readIntField obj key with
  | .error err => .error err
  | .ok v =>
    if v < min ∨ v > max then
      .error ("field \"" ++ key ++ "\" is outside the allowed range " ++ toString min ++ ".." ++
        toString max)
    else .ok v

/-- `readGridPosition`: both axes, each against its own domain. -/
def readGridPosition (position : Option Json) : Except String (Int × Int) :=
  match readIntFieldIn position "x" gridPositionXMin gridPositionXMax with
  | .error err => .error err
  | .ok gx =>
    match readIntFieldIn position "y" gridPositionYMin gridPositionYMax with
    | .error err => .error err
    | .ok gy => .ok (gx, gy)

/-- The parameter target a `set_parameter` spec names. -/
inductive ParamTarget where
  | value (number : Double)
  | normalized (number : Double)
  | display (text : String)
deriving DecidableEq

/-- `readParamTarget`: exactly one of `value`, `normalized` and `display`, of the right type. -/
def readParamTarget (spec : Option Json) : Except String ParamTarget :=
  if ¬ Json.isObject spec then .error "parameter target is not a JSON object"
  else
    match Json.get spec "value", Json.get spec "normalized", Json.get spec "display" with
    | some v, none, none =>
      if v.isNumber then .ok (.value v.numberValue)
      else .error ("\"value\" must be a number, not " ++ v.actualTypeName)
    | none, some n, none =>
      if n.isNumber then .ok (.normalized n.numberValue)
      else .error ("\"normalized\" must be a number, not " ++ n.actualTypeName)
    | none, none, some (.string text) => .ok (.display text)
    | none, none, some d => .error ("\"display\" must be a string, not " ++ d.actualTypeName)
    | none, none, none =>
      .error ("exactly one of \"value\", \"normalized\" or \"display\" is required, " ++
        "and none was given")
    | v, n, d =>
      .error ("exactly one of \"value\", \"normalized\" or \"display\" is required, and " ++
        toString (v.toList.length + n.toList.length + d.toList.length) ++ " were given")

/-! ### The declared fields of an operation -/

/-- The check of one declared field: none when the value is what the table declares. -/
def checkDeclaredField (what : String) (field : FieldSpec) (obj : Option Json) : Option String :=
  match Json.get obj field.name with
  | none =>
    some (what ++ ": missing required field \"" ++ field.name ++ "\" (declared " ++
      field.jsonType.name ++ ")")
  | some value =>
    if ¬ typeMatches field.jsonType value then
      some (what ++ ": field \"" ++ field.name ++ "\" must be " ++ field.jsonType.name ++ ", not " ++
        value.actualTypeName)
    else
      match field.allowed, value with
      | some allowed, .string actual =>
        if actual ∈ allowed then none
        else
          some (what ++ ": field \"" ++ field.name ++ "\" must be one of " ++
            String.intercalate ", " allowed ++ ", not \"" ++ actual ++ "\"")
      | _, _ => none

/-- `checkDeclaredFields`: the message of the first field that is not as declared. -/
def checkDeclaredFields (what : String) (fields : List FieldSpec) (obj : Option Json) :
    Option String :=
  if ¬ Json.isObject obj then some (what ++ ": payload is not a JSON object")
  else fields.findSome? fun field => checkDeclaredField what field obj

/-- `checkOperationFields`; an operation the table does not know passes. -/
def checkOperationFields (op : Json) : Option String :=
  if ¬ Json.isObject op then some "operation is not a JSON object"
  else
    match Json.get op "op" with
    | some (.string name) =>
      match operationSpecs.find? (·.op == name) with
      | none => none
      | some spec => checkDeclaredFields name spec.fields op
    | _ => some "operation has no \"op\" string"

/-! ### Module references -/

/-- The aliases an earlier operation of the plan declared (`std::map<std::string, int64_t>`). -/
abbrev AliasMap := AList (fun _ : String => Int)

/-- A resolved module reference. -/
structure ModuleRef where
  ok : Bool := false
  isAlias : Bool := false
  moduleId : Int := -1
  aliasName : String := ""
deriving DecidableEq

/-- `resolveModuleRef`: `moduleId` wins when both are present, and a malformed one is not read as an
alias. -/
def resolveModuleRef (ref : Option Json) (aliases : AliasMap) : ModuleRef :=
  if ¬ Json.isObject ref then {}
  else
    match Json.get ref "moduleId" with
    | some (.string mid) =>
      match parseDecimalId mid with
      | some id => { ok := true, moduleId := id }
      | none => {}
    | _ =>
      match Json.get ref "alias" with
      | some (.string al) =>
        match aliases.lookup al with
        | some id => { ok := true, isAlias := true, aliasName := al, moduleId := id }
        | none => { isAlias := true, aliasName := al }
      | _ => {}

theorem accumulateDigits_nonneg {text : List UInt8} {value n : Int} (hvalue : 0 ≤ value)
    (hdigits : ∀ c ∈ text, 48 ≤ c) (h : accumulateDigits value text = some n) : 0 ≤ n := by
  induction text generalizing value with
  | nil =>
    cases h
    exact hvalue
  | cons c rest ih =>
    simp only [accumulateDigits] at h
    split at h
    · cases h
    · have hc : 48 ≤ c.toNat := UInt8.le_iff_toNat_le.mp (hdigits c List.mem_cons_self)
      exact ih (by omega) (fun d hd => hdigits d (List.mem_cons_of_mem _ hd)) h

theorem parseDecimalId_nonneg {text : String} {n : Int} (h : parseDecimalId text = some n) : 0 ≤ n := by
  unfold parseDecimalId parseDecimalIdBytes at h
  split at h
  · cases h
  split at h
  · split at h
    · cases h
    · cases h
      exact le_refl _
  split at h
  · cases h
  rename_i hdigits
  refine accumulateDigits_nonneg (le_refl _) (fun c hc => ?_) h
  simp only [List.any_eq_true, not_exists, not_and, Bool.or_eq_true, decide_eq_true_eq, not_or] at hdigits
  exact UInt8.not_lt.mp (hdigits c hc).1

/-- What a reference names, whatever aliases it is resolved against: a live id, an alias, or nothing. -/
inductive RefShape (ref : Option Json) : Prop where
  | byId (id : Int) (nonneg : 0 ≤ id)
      (resolve : ∀ aliases, resolveModuleRef ref aliases = { ok := true, moduleId := id })
  | byAlias (name : String)
      (resolve : ∀ aliases : AliasMap, resolveModuleRef ref aliases =
        match aliases.lookup name with
        | some id => { ok := true, isAlias := true, aliasName := name, moduleId := id }
        | none => { isAlias := true, aliasName := name })
  | bad (resolve : ∀ aliases, resolveModuleRef ref aliases = {})

theorem refShape (ref : Option Json) : RefShape ref := by
  by_cases hobject : Json.isObject ref = true
  swap
  · exact .bad fun aliases => by rw [resolveModuleRef, if_pos hobject]
  by_cases hmid : ∃ text, Json.get ref "moduleId" = some (.string text)
  · obtain ⟨text, hmid⟩ := hmid
    cases hparse : parseDecimalId text with
    | some id =>
      exact .byId id (parseDecimalId_nonneg hparse) fun aliases => by
        simp [resolveModuleRef, hobject, hmid, hparse]
    | none => exact .bad fun aliases => by simp [resolveModuleRef, hobject, hmid, hparse]
  · have hskip : ∀ aliases : AliasMap, resolveModuleRef ref aliases =
        match Json.get ref "alias" with
        | some (.string al) =>
          match aliases.lookup al with
          | some id => { ok := true, isAlias := true, aliasName := al, moduleId := id }
          | none => { isAlias := true, aliasName := al }
        | _ => {} := by
      intro aliases
      rw [resolveModuleRef, if_neg (not_not.mpr hobject)]
      split
      · exact absurd ⟨_, ‹_›⟩ hmid
      · rfl
    by_cases hal : ∃ name, Json.get ref "alias" = some (.string name)
    · obtain ⟨name, hal⟩ := hal
      exact .byAlias name fun aliases => by rw [hskip, hal]
    · refine .bad fun aliases => ?_
      rw [hskip]
      split
      · exact absurd ⟨_, ‹_›⟩ hal
      · rfl

theorem moduleId_of_not_ok {ref : Option Json} {aliases : AliasMap}
    (h : ¬ (resolveModuleRef ref aliases).ok) : (resolveModuleRef ref aliases).moduleId = -1 := by
  rcases refShape ref with ⟨id, -, hr⟩ | ⟨name, hr⟩ | hr
  · simp [hr] at h
  · rw [hr] at h ⊢
    cases hlookup : aliases.lookup name with
    | some id => simp [hlookup] at h
    | none => rfl
  · rw [hr]

/-! ### Risk -/

/-- What validation found the plan would do. -/
structure PlanEffects where
  removesBridge : Bool := false
  touchesAudio : Bool := false
  missingModule : Bool := false
  adapterUncertainty : Bool := false
  possibleFeedback : Bool := false
  randomizes : Bool := false
  removedModules : Nat := 0
  removedCables : Nat := 0
  replacedInputs : Nat := 0
  stackedInputs : Nat := 0
  operationCount : Nat := 0

/-- The risk summary: flags with their reasons in display order, the level, and the gate. -/
structure PlanRisk where
  entries : List (RiskFlag × String)
  level : String
  confirmationRequired : Bool

/-- The plan destroys something that existed before it. -/
def PlanEffects.destructive (e : PlanEffects) : Bool :=
  0 < e.removedModules || 0 < e.removedCables || 0 < e.replacedInputs || e.removesBridge

/-- `computeRisk`. -/
def computeRisk (e : PlanEffects) (maxOperations : Int) : PlanRisk where
  entries :=
    (if e.removesBridge then [(.removesBridge, "removes a RackMCP-Bridge module")] else []) ++
    (if 0 < e.removedModules then
      [(.removesModules, "removes " ++ toString e.removedModules ++ " module(s)")] else []) ++
    (if 0 < e.removedCables then
      [(.removesCables, "removes " ++ toString e.removedCables ++ " cable(s)")] else []) ++
    (if 0 < e.replacedInputs then
      [(.replacesCables, "replaces the cables on " ++ toString e.replacedInputs ++ " input port(s)")]
      else []) ++
    (if 0 < e.stackedInputs then
      [(.stacksInputs, "stacks " ++ toString e.stackedInputs ++ " input port(s)")] else []) ++
    (if e.randomizes then [(.randomize, "randomizes module parameters")] else []) ++
    (if e.touchesAudio then
      [(.affectsAudioPath, "changes the audio-destination signal path")] else []) ++
    (if e.missingModule then [(.missingModules, "a referenced model is not installed")] else []) ++
    (if e.adapterUncertainty then
      [(.adapterUncertainty, "adds third-party modules without a verified adapter")] else []) ++
    (if e.possibleFeedback then [(.possibleFeedback, "may create a feedback loop")] else []) ++
    (if 0 < maxOperations ∧ (e.operationCount : Int) * 2 > maxOperations then
      [(.largeTransaction, "applies " ++ toString e.operationCount ++
        " operations in one transaction (limit " ++ toString maxOperations ++ ")")] else [])
  level :=
    if e.removesBridge then "high" else if e.destructive || e.randomizes then "destructive" else "low"
  confirmationRequired := e.destructive || e.randomizes

end RackMcp
