import RackMcp.Proof.Applicable
import RackMcp.Proof.CommitGate
import RackMcp.Server.Recipes
import RackMcp.Server.Tools

/-!
# Every recipe builds

A template is ready for an operation if the operations before it declare what it names, the adapters list the ports and
parameters, and no input is taken and no parameter set twice. `wellFormed` checks this for a whole template, and each
recipe of the registry passes. Step by step such a template is accepted by the preview and applied by the commit, where
`Progress` says what both have made of the operations so far.
-/

namespace RackMcp.Recipes

open Gen Outcomes

/-! ### What a template declares -/

/-- The roles that are added, with their aliases. -/
def added (ts : List Template) : List (String × String) :=
  ts.filterMap fun t => match t with
    | .addRole roleKey aliasName => some (roleKey, aliasName)
    | _ => none

def aliases (ts : List Template) : List String := (added ts).map (·.2)

/-- The parameters that are set. -/
def settings (ts : List Template) : List (String × ℤ) :=
  ts.filterMap fun t => match t with
    | .setNorm aliasName paramId _ => some (aliasName, paramId)
    | _ => none

/-- A cable from an output of a module to an input of another, the modules by their aliases. -/
structure Wire where
  outAlias : String
  outPort : ℤ
  inAlias : String
  inPort : ℤ
deriving DecidableEq

def wires (ts : List Template) : List Wire :=
  ts.filterMap fun t => match t with
    | .connect outAlias outPort inAlias inPort => some ⟨outAlias, outPort, inAlias, inPort⟩
    | _ => none

def preferredOf (roles : List RoleRequirement) (roleKey : String) : Option ModelRef :=
  (roles.find? (·.role == roleKey)).map (·.preferred)

/-- The adapter of the module that is added under an alias. -/
def adapterOf (roles : List RoleRequirement) (before : List Template) (aliasName : String) : Option ModuleAdapter :=
  ((added before).find? (·.2 == aliasName)).bind fun entry =>
    (preferredOf roles entry.1).bind fun model => getAdapter model.1 model.2

/-- The ids that an adapter lists. -/
def idsOf (adapter : Option ModuleAdapter) (ids : ModuleAdapter → List ℤ) : List ℤ :=
  (adapter.elim [] ids).filter fun id => 0 ≤ id ∧ id ≤ 65535

/-- What an operation names is declared before it, and it neither sets a parameter nor takes an input a second time. -/
def Template.Ready (roles : List RoleRequirement) (before : List Template) : Template → Prop
  | .addRole roleKey aliasName =>
    roleKey ∈ roles.map (·.role) ∧ aliasName ≠ "" ∧ aliasName ∉ aliases before
  | .setNorm aliasName paramId _ =>
    paramId ∈ idsOf (adapterOf roles before aliasName) (fun a => a.params.map (·.paramId)) ∧
      (aliasName, paramId) ∉ settings before
  | .connect outAlias outPort inAlias inPort =>
    outPort ∈ idsOf (adapterOf roles before outAlias) (fun a => a.outputs.map (·.portId)) ∧
      inPort ∈ idsOf (adapterOf roles before inAlias) (fun a => a.inputs.map (·.portId)) ∧
      (inAlias, inPort) ∉ (wires before).map fun wire => (wire.inAlias, wire.inPort)

instance (roles : List RoleRequirement) (before : List Template) : ∀ t : Template, Decidable (t.Ready roles before)
  | .addRole .. => inferInstanceAs (Decidable (_ ∧ _ ∧ _))
  | .setNorm .. => inferInstanceAs (Decidable (_ ∧ _))
  | .connect .. => inferInstanceAs (Decidable (_ ∧ _ ∧ _))

/-- Each operation is ready for after those before it. -/
def wellFormed (roles : List RoleRequirement) (before : List Template) : List Template → Bool
  | [] => true
  | t :: ts => decide (t.Ready roles before) && wellFormed roles (before ++ [t]) ts

/-- The recipes of the registry are well-formed, and none has two roles under one key. -/
theorem wellFormed_recipeDocs : recipeDocs.all (fun recipe =>
    decide (recipe.roles.map (·.role)).Nodup && wellFormed recipe.roles [] recipe.template &&
      !recipe.template.isEmpty) = true := by
  decide +kernel

/-! ### The expansion -/

section expansion
variable {roles : List RoleRequirement} {installed : List ModelRef} {assignments : AList fun _ : String => ModelRef}
  {unresolved : List RoleRequirement} {before : List Template} {t : Template}

/-- The operation with the model that its role prefers. -/
def Template.expanded (roles : List RoleRequirement) : Template → Json
  | .addRole roleKey aliasName =>
    withSlugs ((preferredOf roles roleKey).getD ("", "")) (Template.addRole roleKey aliasName).operation
  | t => t.operation

theorem assignRoles_unresolved : (assignRoles installed roles assignments unresolved).2 =
    unresolved ++ roles.filter (·.preferred ∉ installed) := by
  induction roles generalizing assignments unresolved with
  | nil => exact (List.append_nil unresolved).symm
  | cons role roles ih =>
    unfold assignRoles
    by_cases hin : role.preferred ∈ installed
    · rw [if_pos hin, ih, List.filter_cons_of_neg (by simpa using hin)]
    · rw [if_neg hin, ih, List.filter_cons_of_pos (by simpa using hin), List.append_assoc]
      rfl

theorem preferredOf_cons (role : RoleRequirement) (roleKey : String) : preferredOf (role :: roles) roleKey =
    if role.role = roleKey then some role.preferred else preferredOf roles roleKey := by
  unfold preferredOf
  by_cases hkey : role.role = roleKey
  · rw [if_pos hkey, List.find?_cons_of_pos (by simpa using hkey)]
    rfl
  · rw [if_neg hkey, List.find?_cons_of_neg (by simpa using hkey)]

theorem assignRoles_lookup (hinstalled : ∀ role ∈ roles, role.preferred ∈ installed)
    (hkeys : (roles.map (·.role)).Nodup) (roleKey : String) :
    (assignRoles installed roles assignments unresolved).1.lookup roleKey =
      (preferredOf roles roleKey).or (assignments.lookup roleKey) := by
  induction roles generalizing assignments with
  | nil => rfl
  | cons role roles ih =>
    rw [List.map_cons, List.nodup_cons] at hkeys
    unfold assignRoles
    rw [if_pos (hinstalled role List.mem_cons_self),
      ih (fun r hr => hinstalled r (List.mem_cons_of_mem _ hr)) hkeys.2, preferredOf_cons]
    by_cases hkey : role.role = roleKey
    · subst hkey
      have hnone : preferredOf roles role.role = none := by
        unfold preferredOf
        rw [Keyed.find?_eq_none.mpr hkeys.1]
        rfl
      rw [hnone, if_pos rfl, AList.lookup_insert]
      rfl
    · rw [if_neg hkey, AList.lookup_insert_ne (Ne.symm hkey)]

theorem preferredOf_isSome {roleKey : String} (h : roleKey ∈ roles.map (·.role)) :
    ∃ role ∈ roles, role.role = roleKey ∧ preferredOf roles roleKey = some role.preferred := by
  obtain ⟨role, hfind⟩ := Option.isSome_iff_exists.mp (Keyed.find?_isSome.mpr h)
  obtain ⟨hmem, hkey⟩ := Keyed.mem_of_find? hfind
  refine ⟨role, hmem, hkey, ?_⟩
  unfold preferredOf
  rw [hfind]
  rfl

theorem expandOperation_eq (recipeId : String)
    (hlookup : ∀ roleKey, assignments.lookup roleKey = preferredOf roles roleKey) (hready : t.Ready roles before) :
    expandOperation recipeId assignments t.operation = .ok (t.expanded roles) := by
  cases t with
  | addRole roleKey aliasName =>
    obtain ⟨role, -, -, hpreferred⟩ := preferredOf_isSome hready.1
    show (subst recipeId assignments "$role" roleKey).map _ =
      .ok (withSlugs ((preferredOf roles roleKey).getD ("", "")) (Template.addRole roleKey aliasName).operation)
    unfold subst
    rw [if_neg (by decide), hlookup, hpreferred]
    rfl
  | setNorm aliasName paramId normalized => rfl
  | connect outAlias outPort inAlias inPort => rfl

theorem mapM_ok {α β : Type} {f : α → Except String β} {g : α → β} {l : List α} (h : ∀ a ∈ l, f a = .ok (g a)) :
    l.mapM f = .ok (l.map g) := by
  induction l with
  | nil => rfl
  | cons a l ih =>
    rw [List.mapM_cons, h a List.mem_cons_self, ih fun b hb => h b (List.mem_cons_of_mem _ hb)]
    rfl

theorem ready_of_wellFormed {ts : List Template} (h : wellFormed roles before ts = true) (ht : t ∈ ts) :
    ∃ before', t.Ready roles before' := by
  induction ts generalizing before with
  | nil => exact absurd ht List.not_mem_nil
  | cons first ts ih =>
    have h : (decide (first.Ready roles before) && wellFormed roles (before ++ [first]) ts) = true := h
    rw [Bool.and_eq_true, decide_eq_true_eq] at h
    rcases List.mem_cons.mp ht with rfl | ht
    · exact ⟨before, h.1⟩
    · exact ih h.2 ht

/-- A resolved recipe expands to its template with the preferred models. -/
theorem expand_resolved {recipe : Recipe} (hkeys : (recipe.roles.map (·.role)).Nodup)
    (hwell : wellFormed recipe.roles [] recipe.template = true)
    (hresolved : (resolveRecipe recipe installed).resolved = true) :
    expandRecipeOperations recipe (resolveRecipe recipe installed) =
      .ok (recipe.template.map (·.expanded recipe.roles)) := by
  have hinstalled : ∀ role ∈ recipe.roles, role.preferred ∈ installed := by
    have hnone : (assignRoles installed recipe.roles ∅ []).2 = [] := List.isEmpty_iff.mp hresolved
    rw [assignRoles_unresolved, List.nil_append, List.filter_eq_nil_iff] at hnone
    exact fun role hrole => by simpa using hnone role hrole
  have hlookup : ∀ roleKey, (resolveRecipe recipe installed).assignments.lookup roleKey =
      preferredOf recipe.roles roleKey := by
    intro roleKey
    refine (assignRoles_lookup hinstalled hkeys roleKey).trans ?_
    rw [AList.lookup_empty, Option.or_none]
  unfold expandRecipeOperations Recipe.operations
  rw [if_neg (not_not.mpr hresolved), List.mapM_map]
  refine mapM_ok fun t ht => ?_
  obtain ⟨before, hready⟩ := ready_of_wellFormed hwell ht
  exact expandOperation_eq recipe.id hlookup hready

/-! What `buildRecipe` of the tools makes of a recipe is the same. -/

/-- The recipe as the tool has it. -/
def Recipe.forTool (recipe : Recipe) : Server.Recipe where
  name := recipe.name
  roles := recipe.roles.map fun role => (role.role, role.preferred)
  operations := recipe.operations

theorem lookup_forTool (recipe : Recipe) (roleKey : String) :
    recipe.forTool.roles.lookup roleKey = preferredOf recipe.roles roleKey := by
  show (recipe.roles.map fun role => (role.role, role.preferred)).lookup roleKey = _
  induction recipe.roles with
  | nil => rfl
  | cons role roles ih =>
    rw [List.map_cons, List.lookup_cons, preferredOf_cons, ih]
    by_cases hkey : role.role = roleKey
    · rw [if_pos hkey, hkey, beq_self_eq_true]
    · rw [if_neg hkey, beq_eq_false_iff_ne.mpr (Ne.symm hkey)]

theorem resolved_iff_forTool (recipe : Recipe) (installed : List ModelRef) :
    (resolveRecipe recipe installed).resolved = true ↔ Server.unresolvedRoles recipe.forTool installed = [] := by
  have hresolved : (resolveRecipe recipe installed).resolved =
      (assignRoles installed recipe.roles ∅ []).2.isEmpty := rfl
  rw [hresolved, List.isEmpty_iff, assignRoles_unresolved, List.nil_append, List.filter_eq_nil_iff]
  unfold Server.unresolvedRoles Recipe.forTool
  rw [List.filter_map, List.map_eq_nil_iff, List.filter_eq_nil_iff]
  refine forall₂_congr fun role _ => ?_
  rw [Function.comp_apply, List.contains_eq_mem, decide_eq_true_eq, Bool.not_eq_true', decide_eq_false_iff_not]

theorem operations_forTool {recipe : Recipe} (hwell : wellFormed recipe.roles [] recipe.template = true) :
    recipe.forTool.operations.map (Server.substituteRole recipe.forTool) =
      recipe.template.map (·.expanded recipe.roles) := by
  show (recipe.template.map Template.operation).map _ = _
  rw [List.map_map]
  refine List.map_congr_left fun t ht => ?_
  obtain ⟨before, hready⟩ := ready_of_wellFormed hwell ht
  cases t with
  | addRole roleKey aliasName =>
    obtain ⟨role, -, -, hpreferred⟩ := preferredOf_isSome hready.1
    have hslug : jstr (Template.addRole roleKey aliasName).operation "modelSlug" = roleKey := rfl
    show Server.substituteRole recipe.forTool (Template.addRole roleKey aliasName).operation =
      withSlugs ((preferredOf recipe.roles roleKey).getD ("", "")) (Template.addRole roleKey aliasName).operation
    unfold Server.substituteRole
    rw [hslug, lookup_forTool, hpreferred]
    rfl
  | setNorm aliasName paramId normalized => rfl
  | connect outAlias outPort inAlias inPort => rfl

end expansion

/-! ### The operations as the plugin reads them -/

section accessors
variable {roles : List RoleRequirement} {model : ModelRef} {aliasName outAlias inAlias : String}
  {paramId outPort inPort : ℤ} {normalized : ℚ}

/-- An `add_module` of a template. -/
def addOperation (model : ModelRef) (aliasName : String) : Json :=
  .object [("op", .string "add_module"), ("pluginSlug", .string model.1), ("modelSlug", .string model.2),
    ("alias", .string aliasName), ("placement", .string "auto")]

theorem expanded_addRole {roleKey : String} (h : preferredOf roles roleKey = some model) :
    (Template.addRole roleKey aliasName).expanded roles = addOperation model aliasName := by
  show withSlugs ((preferredOf roles roleKey).getD ("", "")) (Template.addRole roleKey aliasName).operation = _
  rw [h]
  rfl

theorem isNumber_jsonNumber (q : ℚ) : (jsonNumber q).isNumber = true := by
  unfold jsonNumber
  split <;> rfl

theorem readParamTarget_setNorm : readParamTarget (some (Template.setNorm aliasName paramId normalized).operation) =
    .ok (.normalized (jsonNumber normalized).numberValue) := by
  show (if (jsonNumber normalized).isNumber then _ else _) = _
  rw [if_pos (isNumber_jsonNumber normalized)]

/-- `{ alias }` resolves to what the alias stands for. -/
theorem resolve_aliasRef {aliasMap : AliasMap} {id : Int} (h : aliasMap.lookup aliasName = some id) :
    resolveModuleRef (some (aliasRef aliasName)) aliasMap =
      { ok := true, isAlias := true, aliasName := aliasName, moduleId := id } := by
  have hmid : Json.get (some (aliasRef aliasName)) "moduleId" = none := rfl
  have hname : Json.get (some (aliasRef aliasName)) "alias" = some (.string aliasName) := rfl
  have hobject : Json.isObject (some (aliasRef aliasName)) = true := rfl
  unfold resolveModuleRef
  rw [if_neg (not_not.mpr hobject), hmid, hname]
  dsimp only
  rw [h]

theorem readIntField_ok {obj : Option Json} {key : String} {n : ℤ} (hget : Json.get obj key = some (.integer n))
    (hn : 0 ≤ n ∧ n ≤ 65535) : readIntField obj key = .ok n := by
  unfold readIntField
  rw [hget]
  dsimp only
  rw [if_neg]
  unfold intMin intMax
  omega

end accessors

/-! ### The aliases -/

section numbering
variable {all before after : List Template} {t : Template} {aliasName : String}

/-- Where the template adds the module of an alias. -/
def position (all : List Template) (aliasName : String) : ℕ := (aliases all).idxOf aliasName

/-- The id of the preview for the module of an alias. -/
def plannedId (all : List Template) (aliasName : String) : ℤ := -1000 - position all aliasName

/-- The id that the engine gives to the module of an alias. -/
def liveId (rack : Rack) (all : List Template) (aliasName : String) : ℤ := rack.moduleIds (position all aliasName)

theorem added_append (ts us : List Template) : added (ts ++ us) = added ts ++ added us := List.filterMap_append
theorem wires_append (ts us : List Template) : wires (ts ++ us) = wires ts ++ wires us := List.filterMap_append

theorem aliases_append (ts us : List Template) : aliases (ts ++ us) = aliases ts ++ aliases us := by
  unfold aliases
  rw [added_append, List.map_append]

theorem mem_aliases_of_before (hall : all = before ++ after) (h : aliasName ∈ aliases before) :
    aliasName ∈ aliases all := by
  rw [hall, aliases_append]
  exact List.mem_append_left _ h

/-- A new alias is numbered by the modules before it. -/
theorem position_of_new {roleKey : String} (hall : all = before ++ .addRole roleKey aliasName :: after)
    (hnew : aliasName ∉ aliases before) : position all aliasName = (aliases before).length := by
  unfold position
  rw [hall, aliases_append, List.idxOf_append_of_notMem hnew]
  show (aliases before).length + List.idxOf aliasName (aliasName :: aliases after) = _
  rw [List.idxOf_cons_self, Nat.add_zero]

theorem position_inj {other : String} (h : aliasName ∈ aliases all)
    (heq : position all aliasName = position all other) : aliasName = other :=
  (List.idxOf_inj h).mp heq

/-- An id that is ready to be named is listed by the adapter of a module that is added before. -/
theorem listed_of_ready {roles : List RoleRequirement} {id : ℤ} {ids : ModuleAdapter → List ℤ}
    (h : id ∈ idsOf (adapterOf roles before aliasName) ids) :
    (∃ entry ∈ added before, entry.2 = aliasName ∧ ∃ model a, preferredOf roles entry.1 = some model ∧
      getAdapter model.1 model.2 = some a ∧ id ∈ ids a) ∧ 0 ≤ id ∧ id ≤ 65535 := by
  unfold idsOf at h
  rw [List.mem_filter, decide_eq_true_eq] at h
  obtain ⟨h, hrange⟩ := h
  refine ⟨?_, hrange⟩
  rcases hadapter : adapterOf roles before aliasName with _ | a
  · rw [hadapter] at h
    exact absurd h List.not_mem_nil
  rw [hadapter] at h
  obtain ⟨entry, hfind, hadapter⟩ := Option.bind_eq_some_iff.mp hadapter
  obtain ⟨model, hmodel, ha⟩ := Option.bind_eq_some_iff.mp hadapter
  obtain ⟨hmem, hname⟩ := Keyed.mem_of_find? hfind
  exact ⟨entry, hmem, hname, model, a, hmodel, ha, h⟩

theorem mem_aliases_of_ready {roles : List RoleRequirement} {id : ℤ} {ids : ModuleAdapter → List ℤ}
    (h : id ∈ idsOf (adapterOf roles before aliasName) ids) : aliasName ∈ aliases before := by
  obtain ⟨⟨entry, hmem, rfl, -⟩, -⟩ := listed_of_ready h
  exact List.mem_map_of_mem hmem

end numbering

/-! ### The preview -/

section preview
variable {roles : List RoleRequirement} {all before after : List Template} {t : Template} {world : PlanWorld}
  {st : PreviewState}

/-- What the preview has made of the operations so far. -/
structure Previewed (all before : List Template) (st : PreviewState) : Prop where
  aliases : ∀ aliasName, st.aliases.lookup aliasName =
    if aliasName ∈ Recipes.aliases before then some (plannedId all aliasName) else none
  nextSyntheticId : st.nextSyntheticId = -1000 - (Recipes.aliases before).length
  claimed : ∀ c ∈ st.claimedInputs, ∃ wire ∈ wires before, c = (plannedId all wire.inAlias, wire.inPort)
  removedModules : st.removedModules = []
  removedCables : st.removedCables = []
  replacedInputs : st.replacedInputs = []
  removesBridge : st.removesBridge = false

theorem previewed_start (all : List Template) : Previewed all [] {} where
  aliases _ := rfl
  nextSyntheticId := rfl
  claimed _ h := absurd h List.not_mem_nil
  removedModules := rfl
  removedCables := rfl
  replacedInputs := rfl
  removesBridge := rfl

theorem plannedId_neg (all : List Template) (aliasName : String) : plannedId all aliasName < 0 := by
  unfold plannedId
  omega

theorem Previewed.lookup (h : Previewed all before st) {aliasName : String}
    (hmem : aliasName ∈ Recipes.aliases before) :
    st.aliases.lookup aliasName = some (plannedId all aliasName) := by
  rw [h.aliases, if_pos hmem]

theorem aliases_concat_of_not_add (h : ∀ roleKey aliasName, t ≠ .addRole roleKey aliasName) :
    Recipes.aliases (before ++ [t]) = Recipes.aliases before := by
  rw [aliases_append]
  cases t with
  | addRole roleKey aliasName => exact absurd rfl (h roleKey aliasName)
  | setNorm _ _ _ => exact List.append_nil _
  | connect _ _ _ _ => exact List.append_nil _

theorem previewed_addRole {roleKey aliasName : String} {model : ModelRef} (h : Previewed all before st)
    (hall : all = before ++ .addRole roleKey aliasName :: after)
    (hready : (Template.addRole roleKey aliasName).Ready roles before)
    (hinstalled : world.modelInstalled model.1 model.2) :
    ∃ st', validateOne world (addOperation model aliasName) st = .done st' ∧
      Previewed all (before ++ [.addRole roleKey aliasName]) st' := by
  obtain ⟨-, hne, hnew⟩ := hready
  have hfresh : aliasName ∉ st.aliases := by
    rw [← AList.lookup_eq_none, h.aliases, if_neg hnew]
  have hposition := position_of_new hall hnew
  have hadd : validateOne world (addOperation model aliasName) st =
      validateAdd (addOperation model aliasName) world st := rfl
  have hplugin : jstr (addOperation model aliasName) "pluginSlug" = model.1 := rfl
  have hmodel : jstr (addOperation model aliasName) "modelSlug" = model.2 := rfl
  have halias : jstr (addOperation model aliasName) "alias" = aliasName := rfl
  rw [hadd]
  unfold validateAdd
  rw [hplugin, hmodel, halias]
  dsimp only
  rw [if_neg (not_not.mpr hinstalled), if_neg (not_or.mpr ⟨hne, hfresh⟩)]
  refine ⟨_, rfl, ?_, ?_, ?_, h.removedModules, h.removedCables, h.replacedInputs, h.removesBridge⟩
  · intro other
    rw [aliases_append]
    show (st.aliases.insert aliasName st.nextSyntheticId).lookup other =
      if other ∈ Recipes.aliases before ++ [aliasName] then some (plannedId all other) else none
    by_cases hother : other = aliasName
    · subst hother
      rw [AList.lookup_insert, if_pos (List.mem_append_right _ List.mem_cons_self), h.nextSyntheticId]
      unfold plannedId
      rw [hposition]
    · rw [AList.lookup_insert_ne hother, h.aliases]
      have hiff : other ∈ Recipes.aliases before ++ [aliasName] ↔ other ∈ Recipes.aliases before := by
        rw [List.mem_append, List.mem_singleton]
        exact or_iff_left hother
      simp only [hiff]
  · rw [aliases_append]
    show st.nextSyntheticId - 1 = -1000 - ((Recipes.aliases before ++ [aliasName]).length : ℤ)
    rw [h.nextSyntheticId, List.length_append, List.length_singleton]
    omega
  · intro c hc
    obtain ⟨wire, hwire, rfl⟩ := h.claimed c hc
    exact ⟨wire, by rw [wires_append]; exact List.mem_append_left _ hwire, rfl⟩

theorem previewed_setNorm {aliasName : String} {paramId : ℤ} {normalized : ℚ} (h : Previewed all before st)
    (hready : (Template.setNorm aliasName paramId normalized).Ready roles before) :
    ∃ st', validateOne world (Template.setNorm aliasName paramId normalized).operation st = .done st' ∧
      Previewed all (before ++ [.setNorm aliasName paramId normalized]) st' := by
  have hlookup := h.lookup (mem_aliases_of_ready hready.1)
  have hmodify : validateOne world (Template.setNorm aliasName paramId normalized).operation st =
      validateModify .setParameter (Template.setNorm aliasName paramId normalized).operation world st := rfl
  have href : Json.get (some (Template.setNorm aliasName paramId normalized).operation) "module" =
      some (aliasRef aliasName) := rfl
  rw [hmodify]
  unfold validateModify
  rw [href, resolve_aliasRef hlookup]
  dsimp only
  rw [if_neg (not_not.mpr rfl), if_pos (plannedId_neg all aliasName)]
  refine ⟨_, rfl, ?_, ?_, ?_, h.removedModules, h.removedCables, h.replacedInputs, h.removesBridge⟩
  · rw [aliases_concat_of_not_add fun _ _ => Template.noConfusion]
    exact h.aliases
  · rw [aliases_concat_of_not_add fun _ _ => Template.noConfusion]
    exact h.nextSyntheticId
  · intro c hc
    obtain ⟨wire, hwire, rfl⟩ := h.claimed c hc
    exact ⟨wire, by rw [wires_append]; exact List.mem_append_left _ hwire, rfl⟩

theorem previewed_connect {outAlias inAlias : String} {outPort inPort : ℤ} (h : Previewed all before st)
    (hall : all = before ++ after) (hready : (Template.connect outAlias outPort inAlias inPort).Ready roles before) :
    ∃ st', validateOne world (Template.connect outAlias outPort inAlias inPort).operation st = .done st' ∧
      Previewed all (before ++ [.connect outAlias outPort inAlias inPort]) st' := by
  obtain ⟨hout, hin, hfree⟩ := hready
  have hinMem := mem_aliases_of_ready hin
  have hconnect : validateOne world (Template.connect outAlias outPort inAlias inPort).operation st =
      validateConnect (Template.connect outAlias outPort inAlias inPort).operation world st := rfl
  have hunclaimed : st.inputClaimed (plannedId all inAlias) inPort = false := by
    unfold PreviewState.inputClaimed
    rw [List.contains_eq_mem, decide_eq_false_iff_not]
    intro hc
    obtain ⟨wire, hwire, heq⟩ := h.claimed _ hc
    obtain ⟨hid, hport⟩ := Prod.mk.inj heq
    have hposition : position all inAlias = position all wire.inAlias := by
      unfold plannedId at hid
      omega
    have halias := position_inj (mem_aliases_of_before hall hinMem) hposition
    exact hfree (List.mem_map.mpr ⟨wire, hwire, by rw [← halias, ← hport]⟩)
  have hrefs :
      Json.get (Json.get (some (Template.connect outAlias outPort inAlias inPort).operation) "output") "module" =
        some (aliasRef outAlias) ∧
      Json.get (Json.get (some (Template.connect outAlias outPort inAlias inPort).operation) "input") "module" =
        some (aliasRef inAlias) := ⟨rfl, rfl⟩
  have houtPort : readIntField
      (Json.get (some (Template.connect outAlias outPort inAlias inPort).operation) "output") "portId" = .ok outPort :=
    readIntField_ok rfl (listed_of_ready hout).2
  have hinPort : readIntField
      (Json.get (some (Template.connect outAlias outPort inAlias inPort).operation) "input") "portId" = .ok inPort :=
    readIntField_ok rfl (listed_of_ready hin).2
  rw [hconnect]
  unfold validateConnect
  dsimp only
  rw [hrefs.1, hrefs.2, resolve_aliasRef (h.lookup (mem_aliases_of_ready hout)),
    resolve_aliasRef (h.lookup hinMem), houtPort, hinPort]
  dsimp only
  have hneg := plannedId_neg all outAlias
  rw [if_neg (by simp), if_neg (fun hlive => absurd hlive.1 (not_le.mpr hneg)), if_pos (plannedId_neg all inAlias)]
  unfold claimInput
  dsimp only
  rw [if_neg]
  · refine ⟨_, rfl, ?_, ?_, ?_, h.removedModules, h.removedCables, h.replacedInputs, h.removesBridge⟩
    · rw [aliases_concat_of_not_add fun _ _ => Template.noConfusion]
      exact h.aliases
    · rw [aliases_concat_of_not_add fun _ _ => Template.noConfusion]
      exact h.nextSyntheticId
    · intro c hc
      rw [wires_append]
      rcases List.mem_append.mp hc with hc | hc
      · obtain ⟨wire, hwire, rfl⟩ := h.claimed c hc
        exact ⟨wire, List.mem_append_left _ hwire, rfl⟩
      · exact ⟨⟨outAlias, outPort, inAlias, inPort⟩, List.mem_append_right _ List.mem_cons_self,
          List.mem_singleton.mp hc⟩
  · rintro (hclaimed | hne)
    · exact absurd (hunclaimed.symm.trans hclaimed) Bool.false_ne_true
    · exact hne rfl

end preview

/-! ### The commit -/

/-- A module has the parameters and ports that its adapter lists, and each of the parameters a range. -/
structure Fits (adapter : ModuleAdapter) (quantities : List (Option ParamQuantity)) (inputs outputs : ℕ) : Prop where
  params : ∀ param ∈ adapter.params, ∃ quantity, quantities[param.paramId.toNat]? = some (some quantity)
  inputs : ∀ port ∈ adapter.inputs, port.portId < inputs
  outputs : ∀ port ∈ adapter.outputs, port.portId < outputs

/-- Rack constructs the model and its panel, with a value for each parameter, and as its adapter describes it. -/
def Provides (rack : Rack) (ref : ModelRef) : Prop :=
  ∃ model quantities inputs outputs state, rack.getModel ref.1 ref.2 = some model ∧
    model.module = some (quantities, inputs, outputs, state) ∧ (∃ size, model.widget = .ok size) ∧
    model.addError = none ∧ state.values.length = quantities.length ∧
    ∀ adapter, getAdapter ref.1 ref.2 = some adapter → Fits adapter quantities inputs outputs

/-- The module that stands in the patch for a role and its alias. -/
structure MadeFor (rack : Rack) (roles : List RoleRequirement) (all : List Template) (entry : String × String)
    (m : Module) : Prop where
  preferred : preferredOf roles entry.1 = some (m.pluginSlug, m.modelSlug)
  id : m.id = liveId rack all entry.2
  fits : ∀ adapter, getAdapter m.pluginSlug m.modelSlug = some adapter → Fits adapter m.quantities m.inputs m.outputs
  values : m.state.values.length = m.quantities.length

/-- A parameter reads what Rack made of the normalized value, set on the module as it was then. -/
def ParamSet (rack : Rack) (all : List Template) (built : List Module) (aliasName : String) (paramId : ℤ)
    (normalized : ℚ) : Prop :=
  0 ≤ paramId ∧ ∃ m ∈ built, m.id = liveId rack all aliasName ∧ ∃ quantity m', toWorldModule m' = toWorldModule m ∧
    m.quantities[paramId.toNat]? = some (some quantity) ∧ m.state.values[paramId.toNat]? =
      some (rack.setValue m' paramId.toNat (rack.scale quantity (jsonNumber normalized).numberValue))

/-- The cables of a template, with the ids that the engine gives them. -/
def wired (rack : Rack) (all before : List Template) : List Cable :=
  (wires before).mapIdx fun k wire =>
    ⟨.connected (rack.cableIds k) (liveId rack all wire.outAlias) wire.outPort (liveId rack all wire.inAlias)
      wire.inPort, some (Applier.parseColor "")⟩

section applier
variable {w : PatchWorld} {roles : List RoleRequirement} {all before after : List Template} {t : Template} {s : Applier}

/-- What the commit has made of the operations so far. -/
structure AppliedSoFar (w : PatchWorld) (roles : List RoleRequirement) (all before : List Template) (s : Applier) :
    Prop where
  aliasMap : ∀ aliasName, aliasName ∈ aliases before →
    s.aliasMap.lookup aliasName = some (liveId w.rack all aliasName)
  modulesMade : s.modulesMade = (aliases before).length
  cablesMade : s.cablesMade = (wires before).length
  modules : ∃ built, s.patch.modules = w.patch.modules ++ built ∧
    List.Forall₂ (MadeFor w.rack roles all) (added before) built ∧
    ∀ aliasName paramId normalized, .setNorm aliasName paramId normalized ∈ before →
      ParamSet w.rack all built aliasName paramId normalized
  cables : s.patch.cables.Perm (w.patch.cables ++ wired w.rack all before)

theorem appliedSoFar_start (w : PatchWorld) (roles : List RoleRequirement) (all : List Template) :
    AppliedSoFar w roles all [] w.start where
  aliasMap _ h := absurd h List.not_mem_nil
  modulesMade := rfl
  cablesMade := rfl
  modules := ⟨[], (List.append_nil _).symm, .nil, fun _ _ _ h => absurd h List.not_mem_nil⟩
  cables := by
    show w.patch.cables.Perm (w.patch.cables ++ [])
    rw [List.append_nil]

/-- What an `add_module` of a template does to the patch. -/
theorem applyOne_addOperation {rack : Rack} {ref : ModelRef} {aliasName : String} {model : Model}
    {quantities : List (Option ParamQuantity)} {inputs outputs : ℕ} {state : ModuleState} {size : Layout.Point}
    (hmodel : rack.getModel ref.1 ref.2 = some model)
    (hmodule : model.module = some (quantities, inputs, outputs, state)) (hsize : model.widget = .ok size)
    (hadd : model.addError = none) :
    ∃ s', Applier.applyOne rack (addOperation ref aliasName) s = .done s' ∧
      s'.patch.modules = s.patch.modules ++ [⟨rack.moduleIds s.modulesMade, ref.1, ref.2, quantities, inputs, outputs,
        state⟩] ∧
      s'.patch.cables = s.patch.cables ∧ s'.aliasMap = s.aliasMap.insert aliasName (rack.moduleIds s.modulesMade) ∧
      s'.modulesMade = s.modulesMade + 1 ∧ s'.cablesMade = s.cablesMade := by
  have happly : Applier.applyOne rack (addOperation ref aliasName) s =
      Applier.applyAdd rack (addOperation ref aliasName) s := rfl
  have hplugin : jstr (addOperation ref aliasName) "pluginSlug" = ref.1 := rfl
  have hslug : jstr (addOperation ref aliasName) "modelSlug" = ref.2 := rfl
  have hinitial : Applier.initialParams (addOperation ref aliasName) = [] := rfl
  have hbypassed : jbool (addOperation ref aliasName) "bypassed" false = false := rfl
  have hnone : ¬ jhasKey (addOperation ref aliasName) "position" := Bool.false_ne_true
  obtain ⟨pos, hpos⟩ := Applier.addPosition_of_no_position rack
    (s.patch.panels ++ [⟨some (rack.moduleIds s.modulesMade), ⟨⟨0, 0⟩, size⟩⟩]) hnone
  rw [happly]
  unfold Applier.applyAdd
  rw [hplugin, hslug]
  dsimp only
  rw [hmodel]
  dsimp only
  rw [hmodule]
  dsimp only
  rw [hsize]
  dsimp only
  rw [hadd]
  unfold Applier.finishAdd
  dsimp only
  rw [hpos, hinitial, hbypassed]
  exact ⟨_, rfl, rfl, rfl, rfl, rfl, rfl⟩

theorem resolve_live {aliasName : String} {id : ℤ} (h : s.aliasMap.lookup aliasName = some id) :
    s.resolve (some (aliasRef aliasName)) = some id := by
  unfold Applier.resolve
  rw [resolve_aliasRef h]
  rfl

/-- What a `set_parameter` of a template does to the patch. -/
theorem applyOne_setNorm {rack : Rack} {aliasName : String} {paramId id : ℤ} {normalized : ℚ} {m : Module}
    {quantity : ParamQuantity} (hid : s.aliasMap.lookup aliasName = some id) (hm : s.patch.module id = some m)
    (hparam : 0 ≤ paramId ∧ paramId ≤ 65535) (hquantity : m.quantities[paramId.toNat]? = some (some quantity)) :
    ∃ s', Applier.applyOne rack (Template.setNorm aliasName paramId normalized).operation s = .done s' ∧
      s'.patch = s.patch.setState id (fun st => { st with
        values := st.values.set paramId.toNat
          (rack.setValue m paramId.toNat (rack.scale quantity (jsonNumber normalized).numberValue)) }) ∧
      s'.aliasMap = s.aliasMap ∧ s'.modulesMade = s.modulesMade ∧ s'.cablesMade = s.cablesMade := by
  have happly : Applier.applyOne rack (Template.setNorm aliasName paramId normalized).operation s =
      Applier.applySetParam rack (Template.setNorm aliasName paramId normalized).operation s := rfl
  have href : Json.get (some (Template.setNorm aliasName paramId normalized).operation) "module" =
      some (aliasRef aliasName) := rfl
  have hread : readIntField (some (Template.setNorm aliasName paramId normalized).operation) "paramId" = .ok paramId :=
    readIntField_ok rfl hparam
  have hrange : ∃ m ∈ s.patch.module id, 0 ≤ paramId ∧ paramId < m.quantities.length := by
    obtain ⟨hlt, -⟩ := List.getElem?_eq_some_iff.mp hquantity
    exact ⟨m, hm, by omega⟩
  rw [happly]
  unfold Applier.applySetParam Applier.resolving
  rw [href, resolve_live hid, hread]
  dsimp only
  rw [if_neg (not_not.mpr hrange)]
  unfold Applier.setParamValue
  rw [hm, readParamTarget_setNorm]
  dsimp only
  rw [hquantity]
  exact ⟨_, rfl, rfl, rfl, rfl, rfl⟩

/-- What a `connect` of a template does to the patch. -/
theorem applyOne_connect {rack : Rack} {outAlias inAlias : String} {outPort inPort outId inId : ℤ}
    {outMod inMod : Module} (hout : s.aliasMap.lookup outAlias = some outId)
    (hin : s.aliasMap.lookup inAlias = some inId) (houtMod : s.patch.module outId = some outMod)
    (hinMod : s.patch.module inId = some inMod) (houtPort : 0 ≤ outPort ∧ outPort ≤ 65535)
    (hinPort : 0 ≤ inPort ∧ inPort ≤ 65535) (houtRange : outPort < outMod.outputs) (hinRange : inPort < inMod.inputs)
    (hfree : Applier.inputCables s.patch inId inPort = []) :
    ∃ s', Applier.applyOne rack (Template.connect outAlias outPort inAlias inPort).operation s = .done s' ∧
      s'.patch.modules = s.patch.modules ∧
      s'.patch.cables = rack.relist s.patch.cables
        ⟨.connected (rack.cableIds s.cablesMade) outId outPort inId inPort, some (Applier.parseColor "")⟩ ∧
      s'.aliasMap = s.aliasMap ∧ s'.modulesMade = s.modulesMade ∧ s'.cablesMade = s.cablesMade + 1 := by
  have happly : Applier.applyOne rack (Template.connect outAlias outPort inAlias inPort).operation s =
      Applier.applyConnect rack (Template.connect outAlias outPort inAlias inPort).operation s := rfl
  have hrefs :
      Json.get (Json.get (some (Template.connect outAlias outPort inAlias inPort).operation) "output") "module" =
        some (aliasRef outAlias) ∧
      Json.get (Json.get (some (Template.connect outAlias outPort inAlias inPort).operation) "input") "module" =
        some (aliasRef inAlias) := ⟨rfl, rfl⟩
  have hreadOut : readIntField
      (Json.get (some (Template.connect outAlias outPort inAlias inPort).operation) "output") "portId" = .ok outPort :=
    readIntField_ok rfl houtPort
  have hreadIn : readIntField
      (Json.get (some (Template.connect outAlias outPort inAlias inPort).operation) "input") "portId" = .ok inPort :=
    readIntField_ok rfl hinPort
  rw [happly]
  unfold Applier.applyConnect Applier.resolving
  dsimp only
  rw [hrefs.1, hrefs.2, resolve_live hout, resolve_live hin, hreadOut, hreadIn]
  dsimp only
  rw [houtMod, hinMod]
  dsimp only
  rw [if_neg (by omega), hfree, if_neg (fun h => h.1 rfl), if_neg (fun h => h.1 rfl)]
  exact ⟨_, rfl, rfl, rfl, rfl, rfl, rfl⟩

theorem liveId_inj {name other : String} (h : name ∈ aliases all)
    (heq : liveId w.rack all name = liveId w.rack all other) : name = other :=
  position_inj h (w.moduleIds_injective heq)

theorem wired_of_not_connect (h : wires [t] = []) : wired w.rack all (before ++ [t]) = wired w.rack all before := by
  unfold wired
  rw [wires_append, h, List.append_nil]

/-- The modules that are added are none of the patch. -/
theorem base_ne_live {m : Module} (hm : m ∈ w.patch.modules) (aliasName : String) :
    m.id ≠ liveId w.rack all aliasName :=
  fun heq => w.module_fresh _ (List.mem_map.mpr ⟨m, hm, heq⟩)

section made
variable {built : List Module} (hmade : List.Forall₂ (MadeFor w.rack roles all) (added before) built)

include hmade

theorem ids_built : built.map (·.id) = (aliases before).map (liveId w.rack all) := by
  have heq : List.Forall₂ Eq ((added before).map fun entry => liveId w.rack all entry.2) (built.map (·.id)) :=
    List.forall₂_map_left_iff.mpr (List.forall₂_map_right_iff.mpr (hmade.imp fun _ _ h => h.id.symm))
  rw [List.forall₂_eq_eq_eq] at heq
  rw [← heq]
  unfold aliases
  rw [List.map_map]
  rfl

theorem nodup_ids (hall : all = before ++ after) (hnodup : (aliases before).Nodup) :
    ((w.patch.modules ++ built).map (·.id)).Nodup := by
  rw [List.map_append, ids_built hmade, List.nodup_append]
  refine ⟨w.moduleIds_nodup, ?_, ?_⟩
  · exact hnodup.map_on fun name hname other _ heq => liveId_inj (mem_aliases_of_before hall hname) heq
  · intro id hbase id' hlive heq
    obtain ⟨m, hm, rfl⟩ := List.mem_map.mp hbase
    obtain ⟨name, -, rfl⟩ := List.mem_map.mp hlive
    exact base_ne_live hm name heq

/-- The module of an alias is the one that is found under its id. -/
theorem found_live (hmodules : s.patch.modules = w.patch.modules ++ built) (hall : all = before ++ after)
    (hnodup : (aliases before).Nodup) {entry : String × String} (hentry : entry ∈ added before) :
    ∃ m ∈ built, MadeFor w.rack roles all entry m ∧ s.patch.module (liveId w.rack all entry.2) = some m := by
  obtain ⟨hlength, hget⟩ := List.forall₂_iff_get.mp hmade
  obtain ⟨i, hi, rfl⟩ := List.getElem_of_mem hentry
  have hbuilt : i < built.length := hlength ▸ hi
  have hm : MadeFor w.rack roles all (added before)[i] built[i] := hget i hi hbuilt
  refine ⟨_, List.getElem_mem hbuilt, hm, ?_⟩
  unfold Patch.module
  rw [hmodules, ← hm.id]
  exact Keyed.find?_eq_some (nodup_ids hmade hall hnodup)
    (List.mem_append_right _ (List.getElem_mem _))

end made

theorem ParamSet.mono {rack : Rack} {built built' : List Module} {aliasName : String} {paramId : ℤ} {normalized : ℚ}
    (h : ParamSet rack all built aliasName paramId normalized) (hsub : built ⊆ built') :
    ParamSet rack all built' aliasName paramId normalized := by
  obtain ⟨hparam, m, hm, hset⟩ := h
  exact ⟨hparam, m, hsub hm, hset⟩

theorem applied_addRole {roleKey aliasName : String} (h : AppliedSoFar w roles all before s)
    (hall : all = before ++ .addRole roleKey aliasName :: after)
    (hready : (Template.addRole roleKey aliasName).Ready roles before)
    (hprovides : ∀ role ∈ roles, Provides w.rack role.preferred) :
    ∃ s', Applier.applyOne w.rack ((Template.addRole roleKey aliasName).expanded roles) s = .done s' ∧
      AppliedSoFar w roles all (before ++ [.addRole roleKey aliasName]) s' := by
  obtain ⟨hkey, -, hnew⟩ := hready
  obtain ⟨role, hrole, -, hpreferred⟩ := preferredOf_isSome hkey
  obtain ⟨model, quantities, inputs, outputs, state, hmodel, hmodule, ⟨size, hsize⟩, hadd, hvalues, hfits⟩ :=
    hprovides role hrole
  obtain ⟨s', hdone, hmodules, hcables, haliases, hmade', hcablesMade⟩ :=
    applyOne_addOperation (s := s) hmodel hmodule hsize hadd
  have hid : w.rack.moduleIds s.modulesMade = liveId w.rack all aliasName := by
    unfold liveId
    rw [position_of_new hall hnew, h.modulesMade]
  have haliasesOf : aliases (before ++ [.addRole roleKey aliasName]) = aliases before ++ [aliasName] :=
    aliases_append _ _
  rw [expanded_addRole hpreferred]
  refine ⟨s', hdone, ?_, ?_, ?_, ?_, ?_⟩
  · intro name hname
    rw [haliases]
    rw [haliasesOf, List.mem_append, List.mem_singleton] at hname
    by_cases heq : name = aliasName
    · subst heq
      rw [AList.lookup_insert, hid]
    · rw [AList.lookup_insert_ne heq]
      exact h.aliasMap name (hname.resolve_right heq)
  · rw [haliasesOf, hmade', h.modulesMade, List.length_append]
    rfl
  · rw [hcablesMade, h.cablesMade, wires_append]
    exact congrArg List.length (List.append_nil _).symm
  · obtain ⟨built, hbuilt, hmade, hset⟩ := h.modules
    refine ⟨built ++ [⟨w.rack.moduleIds s.modulesMade, role.preferred.1, role.preferred.2, quantities, inputs, outputs,
      state⟩], ?_, ?_, ?_⟩
    · rw [hmodules, hbuilt, List.append_assoc]
    · rw [added_append]
      exact List.rel_append hmade (.cons ⟨hpreferred, hid, hfits, hvalues⟩ .nil)
    · intro name paramId normalized hmem
      have hbefore := (List.mem_append.mp hmem).resolve_right fun hlast =>
        Template.noConfusion (List.mem_singleton.mp hlast)
      exact (hset name paramId normalized hbefore).mono (List.subset_append_left _ _)
  · rw [hcables, wired_of_not_connect rfl]
    exact h.cables

theorem applied_setNorm {aliasName : String} {paramId : ℤ} {normalized : ℚ} (h : AppliedSoFar w roles all before s)
    (hall : all = before ++ after) (hnodup : (aliases before).Nodup)
    (hready : (Template.setNorm aliasName paramId normalized).Ready roles before) :
    ∃ s', Applier.applyOne w.rack (Template.setNorm aliasName paramId normalized).operation s = .done s' ∧
      AppliedSoFar w roles all (before ++ [.setNorm aliasName paramId normalized]) s' := by
  obtain ⟨hlisted, hnew⟩ := hready
  obtain ⟨⟨entry, hentry, rfl, ref, adapter, href, hadapter, hlisted⟩, hrange⟩ := listed_of_ready hlisted
  obtain ⟨param, hparam, rfl⟩ := List.mem_map.mp hlisted
  obtain ⟨built, hbuilt, hmade, hset⟩ := h.modules
  obtain ⟨m, hm, hmadeFor, hfound⟩ := found_live hmade hbuilt hall hnodup hentry
  obtain rfl : ref = (m.pluginSlug, m.modelSlug) := Option.some.inj (href.symm.trans hmadeFor.preferred)
  obtain ⟨quantity, hquantity⟩ := (hmadeFor.fits adapter hadapter).params param hparam
  have halias := List.mem_map_of_mem (f := (·.2)) hentry
  obtain ⟨s', hdone, hpatch, haliases, hmodulesMade, hcablesMade⟩ :=
    applyOne_setNorm (h.aliasMap _ halias) hfound hrange hquantity
  generalize hwrite : (fun st : ModuleState => { st with
    values := st.values.set param.paramId.toNat (w.rack.setValue m param.paramId.toNat
      (w.rack.scale quantity (jsonNumber normalized).numberValue)) }) = write at hpatch
  have hlength : ∀ st, (write st).values.length = st.values.length := by
    intro st
    rw [← hwrite]
    exact List.length_set
  have haliasesOf : aliases (before ++ [.setNorm entry.2 param.paramId normalized]) = aliases before :=
    aliases_concat_of_not_add fun _ _ => Template.noConfusion
  refine ⟨s', hdone, ?_, ?_, ?_, ?_, ?_⟩
  · rw [haliasesOf, haliases]
    exact h.aliasMap
  · rw [haliasesOf, hmodulesMade]
    exact h.modulesMade
  · rw [hcablesMade, h.cablesMade, wires_append]
    exact congrArg List.length (List.append_nil _).symm
  · refine ⟨Keyed.update Module.id (liveId w.rack all entry.2) (fun m => { m with state := write m.state }) built,
      ?_, ?_, ?_⟩
    · rw [hpatch]
      show Keyed.update Module.id _ _ s.patch.modules = _
      rw [hbuilt]
      unfold Keyed.update
      rw [List.map_append]
      exact congrArg (· ++ _) (Keyed.update_eq_self _ fun m hm heq => absurd heq (base_ne_live hm _))
    · rw [added_append]
      refine (List.append_nil (added before)).symm ▸ List.forall₂_map_right_iff.mpr (hmade.imp fun e m hm => ?_)
      split
      · exact ⟨hm.preferred, hm.id, hm.fits, (hlength _).trans hm.values⟩
      · exact hm
    · intro name p q hmem
      rcases List.mem_append.mp hmem with hmem | hmem
      · obtain ⟨hp, m', hm', hid', quantity', before', hshape, hquantity', hread⟩ := hset name p q hmem
        refine ⟨hp, _, List.mem_map_of_mem hm', ?_⟩
        by_cases hsame : m'.id = liveId w.rack all entry.2
        · rw [if_pos hsame]
          have hne : param.paramId.toNat ≠ p.toNat := by
            intro heq
            have hparamId : param.paramId = p := by omega
            have hname := liveId_inj (mem_aliases_of_before hall halias) (hsame.symm.trans hid')
            refine hnew (List.mem_filterMap.mpr ⟨.setNorm name p q, hmem, ?_⟩)
            rw [hname, hparamId]
          refine ⟨hid', quantity', before', hshape, hquantity', ?_⟩
          show (write m'.state).values[p.toNat]? = _
          rw [← hwrite]
          exact (List.getElem?_set_ne hne).trans hread
        · rw [if_neg hsame]
          exact ⟨hid', quantity', before', hshape, hquantity', hread⟩
      · obtain ⟨rfl, rfl, rfl⟩ := Template.setNorm.inj (List.mem_singleton.mp hmem)
        refine ⟨hrange.1, _, List.mem_map_of_mem hm, ?_⟩
        rw [if_pos hmadeFor.id]
        refine ⟨hmadeFor.id, quantity, m, rfl, hquantity, ?_⟩
        show (write m.state).values[param.paramId.toNat]? = _
        rw [← hwrite]
        refine List.getElem?_set_self ?_
        rw [hmadeFor.values]
        exact (List.getElem?_eq_some_iff.mp hquantity).1
  · rw [hpatch, wired_of_not_connect rfl]
    exact h.cables

theorem mem_wired {c : Cable} (h : c ∈ wired w.rack all before) : ∃ wire ∈ wires before, ∃ k, c =
    ⟨.connected (w.rack.cableIds k) (liveId w.rack all wire.outAlias) wire.outPort (liveId w.rack all wire.inAlias)
      wire.inPort, some (Applier.parseColor "")⟩ := by
  unfold wired at h
  obtain ⟨k, hk, rfl⟩ := List.mem_mapIdx.mp h
  exact ⟨_, List.getElem_mem hk, k, rfl⟩

/-- No cable of the patch, old or new, is on an input that is ready to be taken. -/
theorem inputCables_of_ready {inAlias : String} {inPort : ℤ} (h : AppliedSoFar w roles all before s)
    (halias : inAlias ∈ aliases all)
    (hfree : (inAlias, inPort) ∉ (wires before).map fun wire => (wire.inAlias, wire.inPort)) :
    Applier.inputCables s.patch (liveId w.rack all inAlias) inPort = [] := by
  unfold Applier.inputCables
  rw [List.map_eq_nil_iff, List.filter_eq_nil_iff]
  intro c hc henters
  unfold PlanCable.entersPort at henters
  rw [Bool.and_eq_true, Bool.and_eq_true, beq_iff_eq, beq_iff_eq] at henters
  obtain ⟨⟨hinput, hmodule⟩, hport⟩ := henters
  rcases List.mem_append.mp (h.cables.mem_iff.mp hc) with hbase | hnew
  · refine w.end_fresh (position all inAlias) c hbase ?_
    unfold PlanCable.touches
    rw [hinput, hmodule]
    show (true && liveId w.rack all inAlias == liveId w.rack all inAlias || _) = true
    rw [beq_self_eq_true]
    rfl
  · obtain ⟨wire, hwire, k, rfl⟩ := mem_wired hnew
    have hname := liveId_inj halias hmodule.symm
    exact hfree (List.mem_map.mpr ⟨wire, hwire, Prod.ext hname.symm hport⟩)

theorem applied_connect {outAlias inAlias : String} {outPort inPort : ℤ} (h : AppliedSoFar w roles all before s)
    (hall : all = before ++ after) (hnodup : (aliases before).Nodup)
    (hready : (Template.connect outAlias outPort inAlias inPort).Ready roles before) :
    ∃ s', Applier.applyOne w.rack (Template.connect outAlias outPort inAlias inPort).operation s = .done s' ∧
      AppliedSoFar w roles all (before ++ [.connect outAlias outPort inAlias inPort]) s' := by
  obtain ⟨hout, hin, hfree⟩ := hready
  obtain ⟨built, hbuilt, hmade, hset⟩ := h.modules
  obtain ⟨⟨outEntry, houtEntry, rfl, outRef, outAdapter, houtRef, houtAdapter, houtListed⟩, houtRange⟩ :=
    listed_of_ready hout
  obtain ⟨⟨inEntry, hinEntry, rfl, inRef, inAdapter, hinRef, hinAdapter, hinListed⟩, hinRange⟩ := listed_of_ready hin
  obtain ⟨outMod, -, houtMade, houtFound⟩ := found_live hmade hbuilt hall hnodup houtEntry
  obtain ⟨inMod, -, hinMade, hinFound⟩ := found_live hmade hbuilt hall hnodup hinEntry
  obtain rfl : outRef = (outMod.pluginSlug, outMod.modelSlug) := Option.some.inj (houtRef.symm.trans houtMade.preferred)
  obtain rfl : inRef = (inMod.pluginSlug, inMod.modelSlug) := Option.some.inj (hinRef.symm.trans hinMade.preferred)
  obtain ⟨outSemantics, houtSemantics, rfl⟩ := List.mem_map.mp houtListed
  obtain ⟨inSemantics, hinSemantics, rfl⟩ := List.mem_map.mp hinListed
  have hinAlias := List.mem_map_of_mem (f := (·.2)) hinEntry
  obtain ⟨s', hdone, hmodules, hcables, haliases, hmodulesMade, hcablesMade⟩ :=
    applyOne_connect (h.aliasMap _ (List.mem_map_of_mem houtEntry)) (h.aliasMap _ hinAlias) houtFound
      hinFound houtRange hinRange ((houtMade.fits outAdapter houtAdapter).outputs _ houtSemantics)
      ((hinMade.fits inAdapter hinAdapter).inputs _ hinSemantics)
      (inputCables_of_ready h (mem_aliases_of_before hall hinAlias) hfree)
  have haliasesOf : aliases (before ++ [.connect outEntry.2 outSemantics.portId inEntry.2 inSemantics.portId]) =
      aliases before := aliases_concat_of_not_add fun _ _ => Template.noConfusion
  refine ⟨s', hdone, ?_, ?_, ?_, ?_, ?_⟩
  · rw [haliasesOf, haliases]
    exact h.aliasMap
  · rw [haliasesOf, hmodulesMade]
    exact h.modulesMade
  · rw [hcablesMade, h.cablesMade, wires_append, List.length_append]
    rfl
  · refine ⟨built, hmodules.trans hbuilt, ?_, ?_⟩
    · rw [added_append]
      exact (List.append_nil (added before)).symm ▸ hmade
    · intro name paramId normalized hmem
      have hbefore := (List.mem_append.mp hmem).resolve_right fun hlast =>
        Template.noConfusion (List.mem_singleton.mp hlast)
      exact hset name paramId normalized hbefore
  · rw [hcables]
    refine (w.relist_perm _ _).trans ((h.cables.cons _).trans ?_)
    have hlast : wired w.rack all (before ++ [.connect outEntry.2 outSemantics.portId inEntry.2 inSemantics.portId]) =
        wired w.rack all before ++ [⟨.connected (w.rack.cableIds s.cablesMade) (liveId w.rack all outEntry.2)
          outSemantics.portId (liveId w.rack all inEntry.2) inSemantics.portId, some (Applier.parseColor "")⟩] := by
      rw [h.cablesMade]
      exact (congrArg (List.mapIdx _) (wires_append before _)).trans List.mapIdx_concat
    rw [hlast, ← List.append_assoc]
    exact (List.perm_append_singleton _ _).symm

end applier

/-! ### Whole templates -/

section template
variable {w : PatchWorld} {roles : List RoleRequirement} {all before ts : List Template} {t : Template}
  {ops : List Json} {st : PreviewState} {s : Applier}

theorem nodup_aliases_concat (h : (aliases before).Nodup) (hready : t.Ready roles before) :
    (aliases (before ++ [t])).Nodup := by
  cases t with
  | addRole roleKey aliasName =>
    rw [aliases_append]
    refine List.nodup_append.mpr ⟨h, List.nodup_singleton _, fun name hname other hother heq => ?_⟩
    obtain rfl : other = aliasName := List.mem_singleton.mp hother
    exact hready.2.2 (heq ▸ hname)
  | setNorm _ _ _ =>
    rw [aliases_concat_of_not_add fun _ _ => Template.noConfusion]
    exact h
  | connect _ _ _ _ =>
    rw [aliases_concat_of_not_add fun _ _ => Template.noConfusion]
    exact h

/-- The preview accepts and the commit applies an operation that the template is ready for. -/
theorem ready_step {after : List Template} (hall : all = before ++ t :: after)
    (hops : ops = all.map (·.expanded roles)) (hprovides : ∀ role ∈ roles, Provides w.rack role.preferred)
    (hnodup : (aliases before).Nodup) (hready : t.Ready roles before) (hp : Previewed all before st)
    (hc : AppliedSoFar w roles all before s) :
    ∃ st' s', validateOne (w.world ops) (t.expanded roles) st = .done st' ∧
      Applier.applyOne w.rack (t.expanded roles) s = .done s' ∧ Previewed all (before ++ [t]) st' ∧
      AppliedSoFar w roles all (before ++ [t]) s' := by
  cases t with
  | addRole roleKey aliasName =>
    obtain ⟨role, hrole, -, hpreferred⟩ := preferredOf_isSome hready.1
    obtain ⟨model, -, -, -, -, hmodel, -⟩ := hprovides role hrole
    have hmem : addOperation role.preferred aliasName ∈ ops := by
      rw [hops, ← expanded_addRole hpreferred, hall]
      exact List.mem_map_of_mem (List.mem_append_right _ List.mem_cons_self)
    have hinstalled : (w.world ops).modelInstalled role.preferred.1 role.preferred.2 :=
      installed_of_getModel hmem rfl hmodel
    obtain ⟨st', hvalidate, hp'⟩ := previewed_addRole hp hall hready hinstalled
    obtain ⟨s', happly, hc'⟩ := applied_addRole hc hall hready hprovides
    exact ⟨st', s', (expanded_addRole hpreferred).symm ▸ hvalidate, happly, hp', hc'⟩
  | setNorm aliasName paramId normalized =>
    obtain ⟨st', hvalidate, hp'⟩ := previewed_setNorm hp hready
    obtain ⟨s', happly, hc'⟩ := applied_setNorm hc hall hnodup hready
    exact ⟨st', s', hvalidate, happly, hp', hc'⟩
  | connect outAlias outPort inAlias inPort =>
    obtain ⟨st', hvalidate, hp'⟩ := previewed_connect hp hall hready
    obtain ⟨s', happly, hc'⟩ := applied_connect hc hall hnodup hready
    exact ⟨st', s', hvalidate, happly, hp', hc'⟩

theorem wellFormed_runs (hall : all = before ++ ts) (hops : ops = all.map (·.expanded roles))
    (hprovides : ∀ role ∈ roles, Provides w.rack role.preferred) (hwell : wellFormed roles before ts = true)
    (hnodup : (aliases before).Nodup) (hp : Previewed all before st) (hc : AppliedSoFar w roles all before s) :
    ∃ st' s', Runs (validateOne (w.world ops)) (ts.map (·.expanded roles)) st st' ∧
      Runs (Applier.applyOne w.rack) (ts.map (·.expanded roles)) s s' ∧ Previewed all all st' ∧
      AppliedSoFar w roles all all s' := by
  induction ts generalizing before st s with
  | nil =>
    rw [List.append_nil] at hall
    subst hall
    exact ⟨st, s, .nil st, .nil s, hp, hc⟩
  | cons t ts ih =>
    have hwell : (decide (t.Ready roles before) && wellFormed roles (before ++ [t]) ts) = true := hwell
    rw [Bool.and_eq_true, decide_eq_true_eq] at hwell
    obtain ⟨hready, hrest⟩ := hwell
    obtain ⟨st', s', hvalidate, happly, hp', hc'⟩ := ready_step hall hops hprovides hnodup hready hp hc
    obtain ⟨st'', s'', hpruns, hcruns, hpend, hcend⟩ := ih (hall.trans (List.append_cons before t ts)) hrest
      (nodup_aliases_concat hnodup hready) hp' hc'
    exact ⟨st'', s'', .cons hvalidate hpruns, .cons happly hcruns, hpend, hcend⟩

theorem checkOperationFields_expanded (hready : t.Ready roles before) :
    checkOperationFields (t.expanded roles) = none := by
  cases t with
  | addRole roleKey aliasName =>
    obtain ⟨role, -, -, hpreferred⟩ := preferredOf_isSome hready.1
    rw [expanded_addRole hpreferred]
    rfl
  | setNorm _ _ _ => rfl
  | connect _ _ _ _ => rfl

theorem op_expanded (roles : List RoleRequirement) (t : Template) :
    jstr (t.expanded roles) "op" ≠ "randomize_module" := by
  cases t with
  | addRole roleKey aliasName => exact show ("add_module" : String) ≠ _ by decide
  | setNorm _ _ _ => exact show ("set_parameter" : String) ≠ _ by decide
  | connect _ _ _ _ => exact show ("connect" : String) ≠ _ by decide

end template

/-! ### The recipes -/

/-- A patch with a recipe built into it: the modules and cables that it had, unchanged, a module for each role, with
every parameter of the template set, and the cables of the template. -/
structure BuiltInto (w : PatchWorld) (recipe : Recipe) (p : Patch) : Prop where
  modules : ∃ built, p.modules = w.patch.modules ++ built ∧
    List.Forall₂ (MadeFor w.rack recipe.roles recipe.template) (added recipe.template) built ∧
    ∀ aliasName paramId normalized, .setNorm aliasName paramId normalized ∈ recipe.template →
      ParamSet w.rack recipe.template built aliasName paramId normalized
  cables : p.cables.Perm (w.patch.cables ++ wired w.rack recipe.template recipe.template)

/-- What `txnPreview` answers for a plan that validates. -/
theorem txnPreview_of_runs {rack : Rack} {request : Json} {rs : RackState} {op : Json} {rest : List Json}
    {st : PreviewState} {base : String} (hget : Json.get request "operations" = some (.array (op :: rest)))
    (hruns : Runs (validateOne (snapshotWorld rack rs.patch (op :: rest))) (op :: rest) {} st)
    (hbase : rack.computePatchFingerprint rs.patch = some base) :
    (txnPreview rack request rs).payload = some (previewPayload rack request (op :: rest) base rs.patchEpoch st) := by
  have hall : validateAll (snapshotWorld rack rs.patch (op :: rest)) (op :: rest) = .done st :=
    runFrom_done_iff.mpr hruns
  unfold txnPreview
  rw [hget]
  dsimp only
  rw [hall, hbase]

/-- What a previewed plan needs a confirmation for. -/
theorem confirmation_previewed (rack : Rack) (request : Json) (ops : List Json) (base : String) (patchEpoch : Int)
    (st : PreviewState) :
    jbool (Json.get (previewPayload rack request ops base patchEpoch st) "risk") "confirmationRequired" true =
      ((decide (0 < st.removedModules.length) || decide (0 < st.removedCables.length) ||
        decide (0 < st.replacedInputs.length) || st.removesBridge) ||
        ops.any fun op : Json => jstr op "op" == "randomize_module") := rfl

/-- A commit that hands in a plan, its hash and the fingerprint of the patch passes the gate. -/
theorem commitGate_of_preview {rack : Rack} {request commit : Json} {rs : RackState} {ops : List Json} {base : String}
    (hne : ops ≠ []) (hshapes : ∀ op ∈ ops, checkOperationFields op = none)
    (hbase : rack.computePatchFingerprint rs.patch = some base)
    (hplan : Json.get commit "plan" = some (normalizedPlan request ops))
    (hhash : jstr commit "planHash" = rack.canonicalFingerprint (normalizedPlan request ops))
    (hfingerprint : jstr commit "expectedFingerprint" = base) : commitGate rack commit rs = none := by
  have hops : planOperations (Json.get commit "plan") = ops := by
    rw [hplan]
    rfl
  have hshape : badShape ops = none := by
    unfold badShape
    rw [List.findSome?_eq_none_iff]
    intro entry hentry
    rw [hshapes entry.1 (List.fst_mem_of_mem_zipIdx hentry)]
    rfl
  have hobject : Json.isObject (some (normalizedPlan request ops)) = true := rfl
  unfold commitGate
  dsimp only
  rw [hops, hshape, hplan, hbase, hhash, hfingerprint]
  dsimp only [Option.getD_some]
  rw [if_neg (not_not.mpr hobject), if_neg hne, if_neg (not_not.mpr rfl), if_neg (not_not.mpr rfl)]

/-- Every recipe of the registry that resolves is built into any patch: its expansion passes the preview and needs no
confirmation, and the commit of the previewed plan leaves the patch with the recipe built into it, in one step of the
history. -/
theorem recipe_builds {recipe : Recipe} (hrecipe : recipe ∈ recipeDocs) {installed : List ModelRef}
    (hresolved : (resolveRecipe recipe installed).resolved = true) (w : PatchWorld)
    (hprovides : ∀ role ∈ recipe.roles, Provides w.rack role.preferred) (rs : RackState) (hpatch : rs.patch = w.patch)
    {base : String} (hbase : w.rack.computePatchFingerprint w.patch = some base) :
    ∃ ops, expandRecipeOperations recipe (resolveRecipe recipe installed) = .ok ops ∧
      ∀ preview : Json, Json.get preview "operations" = some (.array ops) →
        ∃ answer, (txnPreview w.rack preview rs).payload = some answer ∧
          jbool (Json.get answer "risk") "confirmationRequired" true = false ∧
          ∀ commit : Json, Json.get commit "plan" = Json.get answer "plan" →
            jstr commit "planHash" = jstr answer "planHash" →
            jstr commit "expectedFingerprint" = jstr answer "baseFingerprint" → ∀ durationMs,
              BuiltInto w recipe (txnCommit w.rack commit durationMs rs).2.patch ∧
              (∃ entry, (txnCommit w.rack commit durationMs rs).2.history = rs.history ++ [entry]) ∧
              ((w.rack.computePatchFingerprint (txnCommit w.rack commit durationMs rs).2.patch).isSome →
                (txnCommit w.rack commit durationMs rs).1.errorCode = none) := by
  have hdoc := List.all_eq_true.mp wellFormed_recipeDocs recipe hrecipe
  rw [Bool.and_eq_true, Bool.and_eq_true, decide_eq_true_eq, Bool.not_eq_true'] at hdoc
  obtain ⟨⟨hkeys, hwell⟩, hnonempty⟩ := hdoc
  refine ⟨_, expand_resolved hkeys hwell hresolved, fun preview hget => ?_⟩
  generalize hops : recipe.template.map (·.expanded recipe.roles) = ops at hget
  obtain ⟨st, s, hpruns, hcruns, hp, hc⟩ := wellFormed_runs rfl hops.symm
    hprovides hwell List.nodup_nil (previewed_start _) (appliedSoFar_start w _ _)
  rw [hops] at hpruns hcruns
  have hne : ops ≠ [] := by
    rintro rfl
    rw [List.map_eq_nil_iff] at hops
    rw [hops] at hnonempty
    cases hnonempty
  obtain ⟨op, rest, rfl⟩ := List.exists_cons_of_ne_nil hne
  have hworld : snapshotWorld w.rack rs.patch (op :: rest) = w.world (op :: rest) := by
    rw [hpatch]
    rfl
  have hanswer := txnPreview_of_runs hget (hworld ▸ hpruns) (hpatch ▸ hbase)
  refine ⟨_, hanswer, ?_, fun commit hplan hhash hfingerprint durationMs => ?_⟩
  · have hrandomizes : ((op :: rest).any fun op : Json => jstr op "op" == "randomize_module") = false := by
      rw [List.any_eq_false]
      intro o ho
      rw [← hops] at ho
      obtain ⟨t, -, rfl⟩ := List.mem_map.mp ho
      rw [beq_iff_eq]
      exact op_expanded recipe.roles t
    rw [confirmation_previewed, hrandomizes, hp.removedModules, hp.removedCables, hp.replacedInputs, hp.removesBridge]
    rfl
  · have hshapes : ∀ o ∈ op :: rest, checkOperationFields o = none := by
      intro o ho
      rw [← hops] at ho
      obtain ⟨t, ht, rfl⟩ := List.mem_map.mp ho
      obtain ⟨before, hready⟩ := ready_of_wellFormed hwell ht
      exact checkOperationFields_expanded hready
    have hgate := commitGate_of_preview hne hshapes (hpatch ▸ hbase) hplan hhash hfingerprint
    have hplanned : planOperations (Json.get commit "plan") = op :: rest := by
      rw [hplan]
      rfl
    have happly : Applier.apply w.rack (op :: rest) rs.patch = .done s := by
      rw [hpatch]
      exact runFrom_done_iff.mpr hcruns
    unfold txnCommit
    rw [hgate]
    dsimp only
    rw [hplanned, happly]
    dsimp only
    unfold finishCommit
    dsimp only
    split
    · next hnone =>
      refine ⟨⟨hc.modules, hc.cables⟩, ⟨_, rfl⟩, fun hsome => ?_⟩
      have hsome : (w.rack.computePatchFingerprint s.patch).isSome := hsome
      rw [hnone] at hsome
      cases hsome
    · exact ⟨⟨hc.modules, hc.cables⟩, ⟨_, rfl⟩, fun _ => rfl⟩

/-- A model that is as its adapter says. -/
def adaptedModel (a : ModuleAdapter) : Model where
  module := some (List.replicate a.params.length (some ⟨.finite 0, .finite 1⟩), a.inputs.length, a.outputs.length,
    ⟨List.replicate a.params.length (.finite 0), false, ""⟩)
  widget := .ok ⟨benchRack.grid.width, benchRack.grid.height⟩
  addError := none

def adaptedRack : Rack := { benchRack with getModel := fun plugin model => (getAdapter plugin model).map adaptedModel }

theorem adaptedRack_cable_fresh : ∀ n, adaptedRack.cableIds n ∉ benchPatch.cables.map (·.id) := bench.cable_fresh

def adaptedBench : PatchWorld := { bench with rack := adaptedRack, cable_fresh := adaptedRack_cable_fresh }

theorem provides_adapted {ref : ModelRef} (h : hasAdapter ref.1 ref.2 = true) : Provides adaptedRack ref := by
  have hids : adapterDocs.all (fun a => a.params.all (fun param => param.paramId.toNat < a.params.length) &&
      a.inputs.all (fun port => port.portId < a.inputs.length) &&
      a.outputs.all (fun port => port.portId < a.outputs.length)) = true := by
    decide +kernel
  obtain ⟨a, ha⟩ := Option.isSome_iff_exists.mp h
  have hmem := List.all_eq_true.mp hids a (List.mem_of_find?_eq_some ha)
  rw [Bool.and_eq_true, Bool.and_eq_true, List.all_eq_true, List.all_eq_true, List.all_eq_true] at hmem
  obtain ⟨⟨hparams, hinputs⟩, houtputs⟩ := hmem
  refine ⟨adaptedModel a, _, _, _, _, congrArg (Option.map adaptedModel) ha, rfl, ⟨_, rfl⟩, rfl, ?_, ?_⟩
  · rw [List.length_replicate, List.length_replicate]
  · intro b hb
    obtain rfl := Option.some.inj (ha.symm.trans hb)
    refine ⟨fun param hparam => ?_, fun port hport => ?_, fun port hport => ?_⟩
    · exact ⟨_, List.getElem?_replicate_of_lt (of_decide_eq_true (hparams param hparam))⟩
    · exact of_decide_eq_true (hinputs port hport)
    · exact of_decide_eq_true (houtputs port hport)

theorem recipe_builds_basicMono : ∃ commit, BuiltInto adaptedBench basicMono
    (txnCommit adaptedRack commit (.finite 3) { patch := benchPatch }).2.patch := by
  have hdoc : basicMono ∈ recipeDocs := List.mem_cons_self
  have hadapted : basicMono.roles.all (fun role => hasAdapter role.preferred.1 role.preferred.2) = true := by decide
  have hresolved : (resolveRecipe basicMono (basicMono.roles.map (·.preferred))).resolved = true := by decide
  obtain ⟨ops, -, hbuilds⟩ := recipe_builds hdoc hresolved adaptedBench
    (fun role hrole => provides_adapted (List.all_eq_true.mp hadapted role hrole)) { patch := benchPatch } rfl rfl
  obtain ⟨answer, -, -, hcommit⟩ := hbuilds (.object [("operations", .array ops)]) rfl
  rcases hplan : Json.get answer "plan" with _ | plan
  · exact ⟨_, (hcommit (.object [("planHash", .string (jstr answer "planHash")),
      ("expectedFingerprint", .string (jstr answer "baseFingerprint"))]) (hplan ▸ rfl) rfl rfl _).1⟩
  · exact ⟨_, (hcommit (.object [("plan", plan), ("planHash", .string (jstr answer "planHash")),
      ("expectedFingerprint", .string (jstr answer "baseFingerprint"))]) (hplan ▸ rfl) rfl rfl _).1⟩

end RackMcp.Recipes
