import RackMcp.Lib.Tarjan
import RackMcp.Lib.LongestPath
import RackMcp.Server.Text
import Mathlib.Data.List.Infix
import Mathlib.Algebra.GroupWithZero.Nat

/-!
# The patch analysis

What `modulesInCycles`, `longestCablePathTo` and `describePatch` of `apps/mcp-server/src/analysis.ts` compute from a
snapshot, with the bounds of `packages/schemas/src/snapshot.ts` and `packages/schemas/src/tools.ts`. Of the snapshot
the members stay that these read; a computation with a loop takes fuel, and is `none` when that runs out. The adapter
table is a parameter.
-/

namespace RackMcp.Analysis

open Reachability

structure ModuleS where
  moduleId : String
  modelName : String
  modelSlug : String
  pluginSlug : String

structure CableS where
  outputModuleId : String
  inputModuleId : String
deriving DecidableEq

structure Snapshot where
  modules : List ModuleS
  cables : List CableS
  bridgeModuleCount : ℕ

/-- `/audio/i`. -/
def isAudioDestination (m : ModuleS) : Bool :=
  m.pluginSlug == "Core" && decide ("audio".toList <:+: m.modelSlug.toList.map Char.toLower)

/-! ### Cycles -/

namespace Snapshot

variable (snap : Snapshot)

/-- The keys of `adj`, in the order in which they are set. -/
def keys : List String := (snap.modules.map (·.moduleId)).foldl setAdd []

/-- `adj.get(v) ?? []`: a cable is entered under its output module, if that is listed. -/
def neighbors (v : String) : List String :=
  if v ∈ snap.keys then (snap.cables.filter (·.outputModuleId == v)).map (·.inputModuleId) else []

def selfLoop : List String :=
  ((snap.cables.filter fun c => c.outputModuleId == c.inputModuleId).map (·.outputModuleId)).foldl setAdd []

/-- `incoming.get(id) ?? []`, by the output modules. -/
def incoming (id : String) : List String := (snap.cables.filter (·.inputModuleId == id)).map (·.outputModuleId)

/-- `byId.get(id)?.modelName ?? id`: of several modules with an id, the last one is in the map. -/
def nameOf (id : String) : String := ((snap.modules.reverse.find? (·.moduleId == id)).map (·.modelName)).getD id

def destinations : List ModuleS := snap.modules.filter isAudioDestination

end Snapshot

def modulesInCycles (snap : Snapshot) (fuel : ℕ) : Option (List String) :=
  Tarjan.inCycles snap.neighbors snap.keys snap.selfLoop fuel

/-- `longestCablePathTo`, with the `incoming` map of the snapshot. -/
def longestCablePathTo (snap : Snapshot) (dest : String) (fuel : ℕ) : Option (List String) :=
  LongestPath.longestPathTo snap.incoming dest fuel

/-! ### The description -/

inductive Confidence where
  | certain
  | adapter
  | heuristic

structure SignalChain where
  description : String
  moduleIds : List String
  confidence : Confidence

structure DescribePatchOutput where
  summary : String
  moduleCount : ℕ
  cableCount : ℕ
  chains : List SignalChain
  unknownModuleCount : ℕ
  warnings : List String

/-- The key of a pair of modules in `onPath` and `seenPair`. -/
def pairKey (source target : String) : String := source ++ "->" ++ target

/-- `onPath`: the keys of the pairs that follow each other. -/
def onPath : List String → List String
  | a :: b :: path => pairKey a b :: onPath (b :: path)
  | _ => []

/-- The loop over the cables that collects `extras`. -/
def collectExtras (ancestors : List String) : List CableS → List String → List (String × String)
  | [], _ => []
  | c :: cables, seenPair =>
    if c.outputModuleId ∉ ancestors ∨ c.inputModuleId ∉ ancestors ∨
        pairKey c.outputModuleId c.inputModuleId ∈ seenPair then
      collectExtras ancestors cables seenPair
    else
      (c.outputModuleId, c.inputModuleId) ::
        collectExtras ancestors cables (pairKey c.outputModuleId c.inputModuleId :: seenPair)

/-- A pair of modules in words. -/
def clause (nameOf : String → String) (pair : String × String) : String := nameOf pair.1 ++ " → " ++ nameOf pair.2

/-- The clause that stands for the connections that are left. -/
def andMore (n : ℕ) : String := "and " ++ toString n ++ " more"

/-- The loop over `extras`, with the clauses shown and the module ids so far. -/
def showExtras (nameOf : String → String) (description : String) (count : ℕ) :
    List (String × String) → List String → List String → List String × List String
  | [], shown, moduleIds => (shown, moduleIds)
  | pair :: extras, shown, moduleIds =>
    if utf16Length description + utf16Length (", ".intercalate shown) + utf16Length (clause nameOf pair) + 24 > 1000 then
      (shown ++ [andMore (count - shown.length)], moduleIds)
    else
      showExtras nameOf description count extras (shown ++ [clause nameOf pair])
        ([pair.1, pair.2].foldl setAdd moduleIds)

/-- The headline of a chain. -/
def headline (snap : Snapshot) (dest : ModuleS) (path : List String) : String :=
  "Signal path into " ++ dest.modelName ++ ": " ++ " → ".intercalate (path.map snap.nameOf)

/-- The chain of a destination, from its ancestors and the path to it. -/
def chainFrom (snap : Snapshot) (dest : ModuleS) (ancestors path : List String) : SignalChain :=
  let extras := collectExtras ancestors snap.cables (onPath path)
  let description := headline snap dest path
  match extras with
  | [] => ⟨description, path.take 256, .certain⟩
  | _ :: _ =>
    let (shown, moduleIds) := showExtras snap.nameOf description extras.length extras [] path
    ⟨description ++ "; also feeding it: " ++ ", ".intercalate shown, moduleIds.take 256, .certain⟩

/-- One round of the loop over the destinations. -/
def chainOf (snap : Snapshot) (fuel : ℕ) (dest : ModuleS) : Option SignalChain := do
  let ancestors ← reaching snap.incoming [dest.moduleId] fuel
  let path ← longestCablePathTo snap dest.moduleId fuel
  some (chainFrom snap dest ancestors path)

def unknownModuleCount (hasAdapter : String → String → Bool) (snap : Snapshot) : ℕ :=
  (snap.modules.filter fun m => !hasAdapter m.pluginSlug m.modelSlug).length

def warnings (snap : Snapshot) : List String :=
  (if snap.destinations.length = 0 then
    ["No Core Audio destination module found; the patch produces no audio output."] else []) ++
  if snap.bridgeModuleCount = 0 then
    ["No RackMCP-Bridge module: this patch cannot reconnect after a Rack restart."] else []

def summaryParts (hasAdapter : String → String → Bool) (snap : Snapshot) : List String :=
  [toString snap.modules.length ++ " modules, " ++ toString snap.cables.length ++ " cables.",
   if snap.destinations.length > 0 then toString snap.destinations.length ++ " audio destination(s)."
    else "No audio destination.",
   if unknownModuleCount hasAdapter snap > 0 then
    toString (unknownModuleCount hasAdapter snap) ++ " module(s) without a verified adapter, described heuristically."
    else ""].filter (· ≠ "")

def describePatch (hasAdapter : String → String → Bool) (snap : Snapshot) (fuel : ℕ) : Option DescribePatchOutput := do
  let chains ← snap.destinations.mapM (chainOf snap fuel)
  some
    { summary := " ".intercalate (summaryParts hasAdapter snap)
      moduleCount := snap.modules.length
      cableCount := snap.cables.length
      chains := chains
      unknownModuleCount := unknownModuleCount hasAdapter snap
      warnings := warnings snap }

/-! ### The schemas -/

/-- `DecimalId`: `^(0|[1-9][0-9]{0,18})$`. -/
def DecimalId (id : String) : Prop :=
  id = "0" ∨ (id.toList.head?.any fun c => '1' ≤ c ∧ c ≤ '9') ∧ (id.toList.tail.all fun d => '0' ≤ d ∧ d ≤ '9') ∧
    id.toList.length ≤ 19

instance (id : String) : Decidable (DecimalId id) := inferInstanceAs (Decidable (_ ∨ _))

/-- `Slug`. -/
def Slug (slug : String) : Prop := 1 ≤ utf16Length slug ∧ utf16Length slug ≤ 255

instance (slug : String) : Decidable (Slug slug) := inferInstanceAs (Decidable (_ ∧ _))

/-- `PatchSnapshot`. -/
structure Snapshot.Admitted (snap : Snapshot) : Prop where
  modules_length : snap.modules.length ≤ 4096
  cables_length : snap.cables.length ≤ 16384
  moduleId : ∀ m ∈ snap.modules, DecimalId m.moduleId
  modelName : ∀ m ∈ snap.modules, utf16Length m.modelName ≤ 256
  slugs : ∀ m ∈ snap.modules, Slug m.pluginSlug ∧ Slug m.modelSlug
  cable_ends : ∀ c ∈ snap.cables, DecimalId c.outputModuleId ∧ DecimalId c.inputModuleId

/-- `SignalChain`. -/
structure SignalChain.Admitted (chain : SignalChain) : Prop where
  description : utf16Length chain.description ≤ 1024
  moduleIds : ∀ id ∈ chain.moduleIds, DecimalId id
  moduleIds_length : chain.moduleIds.length ≤ 256

/-- `DescribePatchOutput`. -/
structure DescribePatchOutput.Admitted (output : DescribePatchOutput) : Prop where
  summary : utf16Length output.summary ≤ 8192
  chains : ∀ chain ∈ output.chains, chain.Admitted
  chains_length : output.chains.length ≤ 128
  warnings : ∀ warning ∈ output.warnings, utf16Length warning ≤ 1024
  warnings_length : output.warnings.length ≤ 128

end RackMcp.Analysis
