import RackMcp.Core.ActivityLog
import RackMcp.Core.Plan
import Mathlib.Data.List.Infix
import Mathlib.Data.List.Sort

/-!
# The catalog of installed models

`buildModelInfo` and `buildModelCatalog` of `rackside/Snapshot.cpp`, and `handleCatalogList` of `rackside/Handlers.cpp`. A
text is the bytes of a `std::string`.
-/

namespace RackMcp

/-! ### What is installed -/

/-- What the catalog reads of a `plugin::Plugin`. -/
structure PluginMeta where
  slug : List UInt8
  name : List UInt8
  version : List UInt8
deriving DecidableEq

/-- What the catalog reads of a `plugin::Model`. -/
structure InstalledModel where
  /-- `m->plugin`, which may be NULL -/
  plugin : Option PluginMeta
  slug : List UInt8
  name : List UInt8
  description : List UInt8
  tagIds : List Int
deriving DecidableEq

/-- `max_size` of a vector of pointers. -/
def vectorMaxSize : ℕ := (2 ^ 63 - 1) / 8

/-- `plugin::plugins`, each with its models; their pointers fit into a vector. -/
structure InstalledPlugins where
  plugins : List (PluginMeta × List InstalledModel)
  room : (plugins.flatMap (·.2)).length ≤ vectorMaxSize

/-! ### `std::sort` -/

/-- The order asked for by `std::sort`: incomparable elements form classes. -/
structure StrictWeak {α : Type} (lt : α → α → Bool) : Prop where
  asymm : ∀ a b, lt a b = true → lt b a = false
  cotrans : ∀ a b c, lt a c = true → lt a b = true ∨ lt b c = true

/-- `std::sort` is some function that puts the elements in order; it does not say which of two equivalent ones comes
first. -/
structure StdSort (α : Type) where
  sort : (α → α → Bool) → List α → List α
  perm : ∀ lt l, StrictWeak lt → (sort lt l).Perm l
  sorted : ∀ lt l, StrictWeak lt → (sort lt l).Pairwise fun a b => lt b a = false

/-- A merge sort is one. -/
def StdSort.merge (α : Type) : StdSort α where
  sort lt l := l.mergeSort fun a b => !lt b a
  perm lt l _ := List.mergeSort_perm l _
  sorted lt l h := by
    have htrans : ∀ a b c : α, (!lt b a) = true → (!lt c b) = true → (!lt c a) = true := by
      intro a b c hba hcb
      rw [Bool.not_eq_true'] at hba hcb ⊢
      by_contra hca
      rcases h.cotrans c b a (Bool.eq_true_of_not_eq_false hca) with hlt | hlt
      · exact absurd (hlt.symm.trans hcb) (by decide)
      · exact absurd (hlt.symm.trans hba) (by decide)
    have htotal : ∀ a b : α, ((!lt b a) || (!lt a b)) = true := by
      intro a b
      rcases hab : lt a b with _ | _
      · rw [Bool.not_false, Bool.or_true]
      · rw [h.asymm a b hab]
        rfl
    exact (List.pairwise_mergeSort htrans htotal l).imp fun hle => (Bool.not_eq_true' _).mp hle

/-! ### A page -/

/-- `::tolower` of a byte. -/
def toLower (c : UInt8) : UInt8 := if 0x41 ≤ c ∧ c ≤ 0x5a then c + 0x20 else c

/-- `json_string`, which is NULL for a text that is not UTF-8. -/
def jsonString (text : List UInt8) : Option String := String.fromUTF8? (cString text).toByteArray

/-- `CatalogModelInfo`; a member whose value is NULL is not set. -/
structure CatalogModelInfo where
  pluginSlug : Option String
  pluginName : Option String
  pluginVersion : Option String
  modelSlug : Option String
  modelName : Option String
  description : Option String
  tags : List String
deriving DecidableEq

/-- The loop over `tagIds`; `getTag` is Rack's `tag::getTag`. -/
def collectTags (getTag : Int → List UInt8) (tags : List String) : List Int → List String
  | [] => tags
  | id :: rest =>
    if tags.length ≥ 32 then tags
    else if getTag id = [] then collectTags getTag tags rest
    else collectTags getTag (tags ++ (jsonString (truncateUtf8Bytes (getTag id) 64)).toList) rest

/-- `buildModelInfo`. -/
def buildModelInfo (getTag : Int → List UInt8) (m : InstalledModel) : CatalogModelInfo where
  pluginSlug := jsonString (truncateUtf8Bytes (m.plugin.elim [] (·.slug)) 255)
  pluginName := jsonString (truncateUtf8Bytes (m.plugin.elim [] (·.name)) 256)
  pluginVersion := jsonString (truncateUtf8Bytes (m.plugin.elim [] (·.version)) 64)
  modelSlug := jsonString (truncateUtf8Bytes m.slug 255)
  modelName := jsonString (truncateUtf8Bytes m.name 256)
  description := jsonString (truncateUtf8Bytes m.description 2048)
  tags := collectTags getTag [] m.tagIds

/-- The filter of a query. -/
def matchesQuery (q : List UInt8) (p : PluginMeta) (m : InstalledModel) : Bool :=
  q.isEmpty ||
    decide (q <:+: (p.slug ++ [0x20] ++ p.name ++ [0x20] ++ m.slug ++ [0x20] ++ m.name).map toLower)

/-- The models that match a query, as the loops come upon them. -/
def matchingModels (installed : InstalledPlugins) (query : List UInt8) : List InstalledModel :=
  installed.plugins.flatMap fun (p, models) => models.filter (matchesQuery (query.map toLower) p)

/-- The comparison of `buildModelCatalog`. -/
def slugsBefore (a b : InstalledModel) : Bool :=
  let as := a.plugin.elim [] (·.slug)
  let bs := b.plugin.elim [] (·.slug)
  if as ≠ bs then decide (as < bs) else decide (a.slug < b.slug)

/-- A reply of `catalog.listModels`. -/
structure CatalogPage where
  models : List CatalogModelInfo
  totalModels : ℕ
  nextCursor : Option String
deriving DecidableEq

/-- The loop that reads `all[i]`; there is no result if one of them is out of range. -/
def readModels (all : List InstalledModel) (start stop : ℕ) : Option (List InstalledModel) :=
  (List.range' start (stop - start)).mapM fun i => all[i]?

/-- `buildModelCatalog`, for a limit that is positive. -/
def buildModelCatalog (std : StdSort InstalledModel) (getTag : Int → List UInt8) (installed : InstalledPlugins)
    (cursor : List UInt8) (limit : ℕ) (query : List UInt8) : Option CatalogPage :=
  let all := std.sort slugsBefore (matchingModels installed query)
  let start := if cursor ≠ [] then ((parseDecimalIdBytes cursor).getD 0).toNat else 0
  let start := if start > all.length then all.length else start
  let stop := min all.length (start + limit)
  (readModels all start stop).map fun models =>
    { models := models.map (buildModelInfo getTag)
      totalModels := all.length
      nextCursor := if stop < all.length then some (toString stop) else none }

/-- `json_string_value` of a member that is a string; else the empty string. -/
def stringMember (payload : Option Json) (key : String) : List UInt8 := cString (utf8 (jstr payload key))

/-- The limit of a payload: 100 unless it is an integer, cut to 32 bits and then to 1..500. -/
def catalogLimit (limit : Option Json) : ℕ :=
  let limit : Int :=
    match limit with
    | some (.integer n) => n.bmod (2 ^ 32)
    | _ => 100
  if limit < 1 then 1 else if limit > 500 then 500 else limit.toNat

/-- `handleCatalogList`. -/
def handleCatalogList (std : StdSort InstalledModel) (getTag : Int → List UInt8) (installed : InstalledPlugins)
    (payload : Option Json) : Option CatalogPage :=
  buildModelCatalog std getTag installed (stringMember payload "cursor") (catalogLimit (Json.get payload "limit"))
    (stringMember payload "query")

/-! ### A client that reads the catalog -/

/-- Its payload. -/
def catalogPayload (cursor query : String) (limit : Json) : Json :=
  .object [("cursor", .string cursor), ("query", .string query), ("limit", limit)]

/-- The pages that it gets with these limits when it follows `nextCursor`, and the cursor that is outstanding. -/
def followCatalog (list : Option Json → Option CatalogPage) (query cursor : String) :
    List Json → List CatalogPage × Option String
  | [] => ([], some cursor)
  | limit :: limits =>
    match list (some (catalogPayload cursor query limit)) with
    | none => ([], some cursor)
    | some page =>
      match page.nextCursor with
      | none => ([page], none)
      | some next =>
        let (pages, rest) := followCatalog list query next limits
        (page :: pages, rest)

/-! ### On the wire -/

/-- The members of an object that are set. -/
def setMembers (members : List (String × Option String)) : List (String × Json) :=
  members.filterMap fun (key, value) => value.map fun text => (key, Json.string text)

def CatalogModelInfo.toJson (info : CatalogModelInfo) : Json :=
  .object (setMembers [("pluginSlug", info.pluginSlug), ("pluginName", info.pluginName),
      ("pluginVersion", info.pluginVersion), ("modelSlug", info.modelSlug), ("modelName", info.modelName),
      ("description", info.description)] ++ [("tags", .array (info.tags.map .string))])

def CatalogPage.toJson (page : CatalogPage) : Json :=
  .object [("models", .array (page.models.map CatalogModelInfo.toJson)), ("totalModels", .integer page.totalModels),
    ("nextCursor", page.nextCursor.elim .null .string)]

end RackMcp
