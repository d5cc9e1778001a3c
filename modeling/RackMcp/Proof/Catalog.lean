import RackMcp.Lib.Paging
import RackMcp.Rackside.Catalog
import RackMcp.Server.Tools
import RackMcp.Proof.DecimalIds
import Mathlib.Data.List.TakeWhile

/-!
# The catalog page by page

The catalog is one list in the order of the slugs, and a reply is a page of it at the position that the cursor names. So a
client that follows the cursors reads it once, and a scan knows whether it has read all of it.
-/

namespace RackMcp

open Decimal

/-! ### The order -/

/-- The slug of the plugin, which is empty without one. -/
def InstalledModel.pluginSlug (m : InstalledModel) : List UInt8 := m.plugin.elim [] (·.slug)

theorem slugsBefore_eq_true_iff {a b : InstalledModel} :
    slugsBefore a b = true ↔ a.pluginSlug < b.pluginSlug ∨ a.pluginSlug = b.pluginSlug ∧ a.slug < b.slug := by
  show (if a.pluginSlug ≠ b.pluginSlug then decide (a.pluginSlug < b.pluginSlug) else decide (a.slug < b.slug)) = true ↔ _
  by_cases heq : a.pluginSlug = b.pluginSlug
  · have hirrefl : ¬ b.pluginSlug < b.pluginSlug := List.lt_irrefl _
    simp [heq, hirrefl]
  · simp [heq]

theorem strictWeak_slugsBefore : StrictWeak slugsBefore := by
  constructor
  case asymm =>
    intro a b h
    rw [slugsBefore_eq_true_iff] at h
    rw [Bool.eq_false_iff, ne_eq, slugsBefore_eq_true_iff]
    rintro (h' | ⟨heq, h'⟩)
    · rcases h with h | ⟨heq, -⟩
      · exact List.lt_irrefl _ (List.lt_trans h h')
      · exact List.lt_irrefl _ (heq ▸ h')
    · rcases h with h | ⟨-, h⟩
      · exact List.lt_irrefl _ (heq ▸ h)
      · exact List.lt_irrefl _ (List.lt_trans h h')
  case cotrans =>
    intro a b c
    simp only [slugsBefore_eq_true_iff]
    intro h
    rcases Std.lt_trichotomy a.pluginSlug b.pluginSlug with hab | hab | hba
    · exact .inl (.inl hab)
    · rw [hab] at h ⊢
      rcases h with h | ⟨heq, h⟩
      · exact .inr (.inl h)
      · rcases Std.lt_trichotomy a.slug b.slug with hslug | hslug | hslug
        · exact .inl (.inr ⟨rfl, hslug⟩)
        · exact .inr (.inr ⟨heq, hslug ▸ h⟩)
        · exact .inr (.inr ⟨heq, List.lt_trans hslug h⟩)
    · rcases h with h | ⟨heq, -⟩
      · exact .inr (.inl (List.lt_trans hba h))
      · exact .inr (.inl (heq ▸ hba))

/-! ### What matches -/

/-- The text in which a query is looked for. -/
def searchText (p : PluginMeta) (m : InstalledModel) : List UInt8 :=
  p.slug ++ [0x20] ++ p.name ++ [0x20] ++ m.slug ++ [0x20] ++ m.name

/-- The query is empty, or in the text of the model, whatever the case of its letters. -/
def Matches (query : List UInt8) (p : PluginMeta) (m : InstalledModel) : Prop :=
  query = [] ∨ query.map toLower <:+: (searchText p m).map toLower

instance (query : List UInt8) (p : PluginMeta) (m : InstalledModel) : Decidable (Matches query p m) :=
  inferInstanceAs (Decidable (_ ∨ _))

/-- All models, each with the plugin that lists it. -/
def InstalledPlugins.listed (installed : InstalledPlugins) : List (PluginMeta × InstalledModel) :=
  installed.plugins.flatMap fun (p, models) => models.map (p, ·)

theorem matchesQuery_iff {query : List UInt8} {p : PluginMeta} {m : InstalledModel} :
    matchesQuery (query.map toLower) p m = true ↔ Matches query p m := by
  unfold matchesQuery Matches
  rw [Bool.or_eq_true, List.isEmpty_iff, List.map_eq_nil_iff, decide_eq_true_eq]
  rfl

theorem matchingModels_eq (installed : InstalledPlugins) (query : List UInt8) :
    matchingModels installed query = (installed.listed.filter fun e => Matches query e.1 e.2).map Prod.snd := by
  unfold matchingModels InstalledPlugins.listed
  induction installed.plugins with
  | nil => rfl
  | cons entry rest ih =>
    obtain ⟨p, models⟩ := entry
    have hfilter : ((models.map (p, ·)).filter fun e => Matches query e.1 e.2).map Prod.snd =
        models.filter (matchesQuery (query.map toLower) p) := by
      rw [List.filter_map, List.map_map]
      refine (List.map_id _).trans (List.filter_congr fun m _ => ?_)
      rw [Bool.eq_iff_iff, matchesQuery_iff]
      exact decide_eq_true_iff
    rw [List.flatMap_cons, List.flatMap_cons, List.filter_append, List.map_append, ih, hfilter]

theorem mem_matchingModels {installed : InstalledPlugins} {query : List UInt8} {m : InstalledModel} :
    m ∈ matchingModels installed query ↔
      ∃ p models, (p, models) ∈ installed.plugins ∧ m ∈ models ∧ Matches query p m := by
  unfold matchingModels
  rw [List.mem_flatMap]
  constructor
  · rintro ⟨⟨p, models⟩, hplugin, hmem⟩
    obtain ⟨hm, hmatches⟩ := List.mem_filter.mp hmem
    exact ⟨p, models, hplugin, hm, matchesQuery_iff.mp hmatches⟩
  · rintro ⟨p, models, hplugin, hm, hmatches⟩
    exact ⟨(p, models), hplugin, List.mem_filter.mpr ⟨hm, matchesQuery_iff.mpr hmatches⟩⟩

/-- The empty query leaves nothing out. -/
theorem matchingModels_nil (installed : InstalledPlugins) :
    matchingModels installed [] = installed.plugins.flatMap (·.2) := by
  unfold matchingModels
  refine List.flatMap_congr fun entry _ => List.filter_eq_self.mpr fun m _ => ?_
  exact matchesQuery_iff.mpr (.inl rfl)

/-- The models that match a query, in the order of the catalog. -/
def catalogOrder (std : StdSort InstalledModel) (installed : InstalledPlugins) (query : String) : List InstalledModel :=
  std.sort slugsBefore (matchingModels installed (cString (utf8 query)))

theorem perm_catalogOrder (std : StdSort InstalledModel) (installed : InstalledPlugins) (query : String) :
    (catalogOrder std installed query).Perm (matchingModels installed (cString (utf8 query))) :=
  std.perm _ _ strictWeak_slugsBefore

/-- The pointers of the models fit into a vector, so a position is a 64-bit number. -/
theorem length_catalogOrder_le (std : StdSort InstalledModel) (installed : InstalledPlugins) (query : String) :
    ((catalogOrder std installed query).length : Int) ≤ int64Max := by
  have hfilter : (matchingModels installed (cString (utf8 query))).length ≤
      (installed.plugins.flatMap (·.2)).length := by
    unfold matchingModels
    induction installed.plugins with
    | nil => exact Nat.le_refl _
    | cons entry rest ih =>
      rw [List.flatMap_cons, List.flatMap_cons, List.length_append, List.length_append]
      exact Nat.add_le_add (List.length_filter_le _ _) ih
  have hroom := installed.room
  rw [← (perm_catalogOrder std installed query).length_eq] at hfilter
  unfold vectorMaxSize at hroom
  unfold int64Max
  omega

/-! ### A page -/

theorem readModels_eq (all : List InstalledModel) {start stop : ℕ} (h : stop ≤ all.length) :
    readModels all start stop = some ((all.drop start).take (stop - start)) := by
  unfold readModels
  induction hn : stop - start generalizing start with
  | zero => rfl
  | succ n ih =>
    have hstart : start < all.length := by omega
    rw [List.range'_succ, List.mapM_cons, ih (by omega), List.getElem?_eq_getElem hstart, List.drop_eq_getElem_cons hstart]
    rfl

/-- The position of a cursor. -/
def cursorStart (cursor : List UInt8) : ℕ := if cursor ≠ [] then ((parseDecimalIdBytes cursor).getD 0).toNat else 0

theorem catalogLimit_bounds (limit : Option Json) : 1 ≤ catalogLimit limit ∧ catalogLimit limit ≤ 500 := by
  have hclamp : ∃ n : Int, catalogLimit limit = if n < 1 then 1 else if n > 500 then 500 else n.toNat := ⟨_, rfl⟩
  obtain ⟨n, hn⟩ := hclamp
  rw [hn]
  split
  · omega
  split
  · omega
  · omega

variable (std : StdSort InstalledModel) (getTag : Int → List UInt8) (installed : InstalledPlugins)

theorem page_eq (all : List InstalledModel) {start : ℕ} (h : start ≤ all.length) (limit : ℕ) :
    readModels all start (min all.length (start + limit)) = some (Paging.page all start limit) := by
  rw [readModels_eq all (Nat.min_le_left _ _), Paging.page]
  by_cases hlong : start + limit ≤ all.length
  · rw [Nat.min_eq_right hlong, Nat.add_sub_cancel_left]
  · rw [Nat.min_eq_left (by omega), List.take_of_length_le, List.take_of_length_le]
    · rw [List.length_drop]
      omega
    · rw [List.length_drop]

theorem nextCursor_eq (all : List InstalledModel) (start limit : ℕ) :
    (if min all.length (start + limit) < all.length then some (toString (min all.length (start + limit))) else none) =
      (Paging.next all start limit).map toString := by
  unfold Paging.next
  by_cases hnext : start + limit < all.length
  · rw [if_pos hnext, Nat.min_eq_right hnext.le, if_pos hnext]
    rfl
  · rw [if_neg hnext, if_neg (by omega)]
    rfl

/-- The page of the catalog at a position. -/
def catalogPage (query : String) (start limit : ℕ) : CatalogPage where
  models := (Paging.page (catalogOrder std installed query) start limit).map (buildModelInfo getTag)
  totalModels := (catalogOrder std installed query).length
  nextCursor := (Paging.next (catalogOrder std installed query) start limit).map toString

/-- Whatever the cursor is, a reply is a page of the catalog. -/
theorem handleCatalogList_eq (payload : Option Json) :
    handleCatalogList std getTag installed payload =
      some (catalogPage std getTag installed (jstr payload "query")
        (min (cursorStart (stringMember payload "cursor")) (catalogOrder std installed (jstr payload "query")).length)
        (catalogLimit (Json.get payload "limit"))) := by
  unfold handleCatalogList buildModelCatalog catalogPage stringMember
  have horder : std.sort slugsBefore (matchingModels installed (cString (utf8 (jstr payload "query")))) =
    catalogOrder std installed (jstr payload "query") := rfl
  have hclamp : ∀ n size : ℕ, (if n > size then size else n) = min n size := by
    intro n size
    split <;> omega
  simp only [horder, hclamp]
  generalize catalogOrder std installed (jstr payload "query") = order
  rw [page_eq order (Nat.min_le_right _ _), nextCursor_eq]
  rfl

/-! ### The cursor -/

theorem cString_numeral (n : ℕ) : cString (numeral n) = numeral n := by
  unfold cString
  rw [List.takeWhile_eq_self_iff]
  intro c hc
  have hdigit := (isDigit_of_mem_numeral hc).1
  rw [decide_eq_true_iff]
  rintro rfl
  exact absurd hdigit (by decide)

/-- A cursor that was sent comes back as the position it was made of. -/
theorem cursorStart_toString {n : ℕ} (h : (n : Int) ≤ int64Max) : cursorStart (cString (utf8 (toString n))) = n := by
  have hnumeral : utf8 (toString n) = numeral n := rfl
  have hparse := (parseDecimalIdInto_eq (numeral n) 0).symm.trans (parseDecimalIdInto_numeral n 0)
  rw [if_pos h] at hparse
  have hvalue : (parseDecimalIdBytes (numeral n)).getD 0 = (n : Int) := congrArg Prod.snd hparse
  rw [hnumeral, cString_numeral, cursorStart, if_pos (numeral_ne_nil n), hvalue]
  exact Int.toNat_natCast n

theorem cursorStart_next {query : String} {start limit start' : ℕ}
    (h : Paging.next (catalogOrder std installed query) start limit = some start') :
    min (cursorStart (cString (utf8 (toString start')))) (catalogOrder std installed query).length = start' := by
  have hlt := (Paging.drop_of_next_eq_some h).2.1
  have hroom := length_catalogOrder_le std installed query
  rw [cursorStart_toString (by omega)]
  omega

/-- A client that follows the cursors reads the list page by page. -/
theorem followCatalog_eq (query cursor : String) (limits : List Json) {start : ℕ}
    (hstart : min (cursorStart (cString (utf8 cursor))) (catalogOrder std installed query).length = start) :
    let reads := followCatalog (handleCatalogList std getTag installed) query cursor limits
    let follows := Paging.follow (catalogOrder std installed query) start (limits.map fun limit => catalogLimit (some limit))
    reads.1.flatMap (·.models) = follows.1.flatten.map (buildModelInfo getTag) ∧ (reads.2 = none ↔ follows.2 = none) := by
  induction limits generalizing cursor start with
  | nil => exact ⟨rfl, by simp [followCatalog, Paging.follow]⟩
  | cons limit limits ih =>
    intro reads follows
    have hpage : handleCatalogList std getTag installed (some (catalogPayload cursor query limit)) =
        some (catalogPage std getTag installed query start (catalogLimit (some limit))) := by
      rw [← hstart]
      exact handleCatalogList_eq std getTag installed (some (catalogPayload cursor query limit))
    have hreads : reads = followCatalog (handleCatalogList std getTag installed) query cursor (limit :: limits) := rfl
    have hfollows : follows = Paging.follow (catalogOrder std installed query) start
        (catalogLimit (some limit) :: limits.map fun limit => catalogLimit (some limit)) := rfl
    unfold followCatalog at hreads
    unfold Paging.follow at hfollows
    rw [hpage] at hreads
    dsimp only at hreads
    rcases hnext : Paging.next (catalogOrder std installed query) start (catalogLimit (some limit)) with _ | start'
    · have hcursor : (catalogPage std getTag installed query start (catalogLimit (some limit))).nextCursor = none := by
        show Option.map _ (Paging.next _ _ _) = none
        rw [hnext]
        rfl
      rw [hcursor] at hreads
      rw [hnext] at hfollows
      rw [hreads, hfollows]
      refine ⟨?_, by simp⟩
      rw [List.flatMap_singleton, List.flatten_singleton]
      rfl
    · have hcursor : (catalogPage std getTag installed query start (catalogLimit (some limit))).nextCursor =
          some (toString start') := by
        show Option.map _ (Paging.next _ _ _) = some _
        rw [hnext]
        rfl
      rw [hcursor] at hreads
      rw [hnext] at hfollows
      obtain ⟨hmodels, hrest⟩ := ih (toString start') (cursorStart_next std installed hnext)
      rw [hreads, hfollows]
      refine ⟨?_, hrest⟩
      show (catalogPage _ _ _ _ _ _).models ++ List.flatMap _ (followCatalog _ _ _ _).1 = _
      rw [hmodels]
      show _ = (Paging.page _ _ _ ++ List.flatten _).map _
      rw [List.map_append]
      rfl

/-! ### The scan -/

theorem lookup_setMembers_cons (key k : String) (value : Option String) (members : List (String × Option String))
    (rest : List (String × Json)) :
    (setMembers ((k, value) :: members) ++ rest).lookup key =
      if key = k then (value.map Json.string).or ((setMembers members ++ rest).lookup key)
      else (setMembers members ++ rest).lookup key := by
  unfold setMembers
  rw [List.filterMap_cons]
  rcases value with _ | text
  · simp
  · show List.lookup key ((k, Json.string text) :: _) = _
    rw [List.lookup_cons]
    by_cases hkey : key = k
    · simp [hkey]
    · rw [beq_eq_false_iff_ne.mpr hkey, if_neg hkey]
      rfl

theorem lookup_setMembers_nil (key : String) (rest : List (String × Json)) :
    (setMembers [] ++ rest).lookup key = rest.lookup key := rfl

/-- A model as the scan keeps it. -/
def scannedModel (m : InstalledModel) : String × String :=
  ((buildModelInfo getTag m).pluginSlug.getD "", (buildModelInfo getTag m).modelSlug.getD "")

/-- The members that a scan reads. -/
theorem jstr_toJson (info : CatalogModelInfo) :
    jstr (some info.toJson) "pluginSlug" = info.pluginSlug.getD "" ∧
      jstr (some info.toJson) "modelSlug" = info.modelSlug.getD "" := by
  have hlookup : ∀ key, jstr (some info.toJson) key = Json.stringOr ((setMembers [("pluginSlug", info.pluginSlug),
      ("pluginName", info.pluginName), ("pluginVersion", info.pluginVersion), ("modelSlug", info.modelSlug),
      ("modelName", info.modelName), ("description", info.description)] ++
        [("tags", Json.array (info.tags.map Json.string))]).lookup key) "" := fun key => rfl
  have hstring : ∀ text : Option String, Json.stringOr (text.map Json.string) "" = text.getD "" := by
    intro text
    rcases text with _ | text
    · rfl
    · rfl
  constructor
  · rw [hlookup]
    simp [lookup_setMembers_cons, lookup_setMembers_nil, List.lookup_cons, hstring]
  · rw [hlookup]
    simp [lookup_setMembers_cons, lookup_setMembers_nil, List.lookup_cons, hstring]

open Server Cooperative

theorem pageModels_toJson (page : CatalogPage) :
    pageModels page.toJson = page.models.map fun info => (info.pluginSlug.getD "", info.modelSlug.getD "") := by
  show (page.models.map CatalogModelInfo.toJson).map _ = _
  rw [List.map_map]
  apply List.map_congr_left
  intro info _
  show (jstr (some info.toJson) "pluginSlug", jstr (some info.toJson) "modelSlug") = _
  rw [(jstr_toJson info).1, (jstr_toJson info).2]

theorem jstr_nextCursor (page : CatalogPage) : jstr (some page.toJson) "nextCursor" = page.nextCursor.getD "" := by
  show Json.stringOr (some (page.nextCursor.elim .null .string)) "" = _
  rcases page.nextCursor with _ | next
  · rfl
  · rfl

/-- A request for a page is answered with it or fails. -/
def ServedBy (list : Option Json → Option CatalogPage) : Server.Call → Server.Reply → Prop
  | .request r, reply =>
    r.method = "catalog.listModels" → ∀ v, reply.value = .ok v → ∃ page, list (some r.payload) = some page ∧ v = page.toJson
  | _, _ => True

variable {N : Node}

theorem of_yields_clientRequest {answers : Server.Call → Server.Reply → Prop} {c : ℕ} {method : String} {payload : Json}
    {operationId : Option String} {deadlineMs : Int} {v : Json}
    (h : (clientRequest N c method payload operationId deadlineMs).Yields answers v) :
    ∃ r reply, r.method = method ∧ r.payload = payload ∧ answers (.request r) reply ∧ reply.value = .ok v := by
  obtain ⟨s, -, h⟩ := h.of_bind
  split at h
  · cases h
  obtain ⟨id, -, h⟩ := h.of_bind
  dsimp only at h
  split at h
  · cases h
  obtain ⟨reply, hreply, h⟩ := h.of_bind
  obtain _ | _ | _ | ⟨b, hb, hreply⟩ := hreply
  obtain _ | _ := hreply
  exact ⟨_, _, rfl, rfl, hb, h.of_ofExcept⟩

theorem of_yields_request {answers : Server.Call → Server.Reply → Prop} {method : String} {payload v : Json}
    (h : (request N method payload).Yields answers v) :
    ∃ r reply, r.method = method ∧ r.payload = payload ∧ answers (.request r) reply ∧ reply.value = .ok v := by
  obtain ⟨selected, -, h⟩ := h.of_bind
  obtain ⟨s, -, h⟩ := h.of_bind
  split at h
  · cases h
  · exact of_yields_clientRequest h

/-- The cursor of a scan that has come to a position. -/
def ScanCursor (cursor : Option String) (start : ℕ) : Prop :=
  min (cursorStart (cString (utf8 (cursor.getD "")))) (catalogOrder std installed "").length = start

theorem toString_ne_empty (n : ℕ) : toString n ≠ "" := by
  intro h
  have hnumeral : numeral n = utf8 "" := congrArg utf8 h
  exact numeral_ne_nil n hnumeral

/-- A scan has the pages of the catalog from its position on, as many as it may read. -/
theorem of_yields_scan {answers : Server.Call → Server.Reply → Prop}
    (hserved : ∀ r reply, answers r reply → ServedBy (handleCatalogList std getTag installed) r reply)
    (cursor : Option String) (pages : ℕ) {start : ℕ} (hcursor : ScanCursor std installed cursor start)
    {result : List (String × String) × Bool} (h : (scanInstalledModels N cursor pages).Yields answers result) :
    let follows := Paging.follow (catalogOrder std installed "") start (List.replicate pages 300)
    result = (follows.1.flatten.map (scannedModel getTag), follows.2.isNone) := by
  induction pages generalizing cursor start result with
  | zero =>
    obtain _ | _ := h
    rfl
  | succ pages ih =>
    obtain ⟨res, hres, h⟩ := h.of_bind
    obtain ⟨r, reply, hmethod, hpayload, hanswer, hvalue⟩ := of_yields_request hres.of_await
    obtain ⟨page, hpage, rfl⟩ := hserved _ _ hanswer hmethod _ hvalue
    have hquery : jstr (some r.payload) "query" = "" := by
      rw [hpayload]
      rcases cursor with _ | cursor <;> rfl
    have hstart : stringMember (some r.payload) "cursor" = cString (utf8 (cursor.getD "")) := by
      rw [hpayload]
      rcases cursor with _ | cursor <;> rfl
    have hlimit : catalogLimit (Json.get (some r.payload) "limit") = 300 := by
      rw [hpayload]
      rfl
    rw [handleCatalogList_eq, hquery, hstart, hlimit, hcursor] at hpage
    obtain rfl := Option.some.inj hpage
    intro follows
    have hfollows : follows = Paging.follow (catalogOrder std installed "") start (300 :: List.replicate pages 300) := rfl
    have hmodels : pageModels (catalogPage std getTag installed "" start 300).toJson =
        (Paging.page (catalogOrder std installed "") start 300).map (scannedModel getTag) := by
      rw [pageModels_toJson]
      exact List.map_map
    unfold Paging.follow at hfollows
    rw [jstr_nextCursor, hmodels] at h
    rcases hnext : Paging.next (catalogOrder std installed "") start 300 with _ | start'
    · have hnone : (catalogPage std getTag installed "" start 300).nextCursor = none := by
        show Option.map _ (Paging.next _ _ _) = none
        rw [hnext]
        rfl
      rw [hnone] at h
      obtain _ | _ := h
      rw [hnext] at hfollows
      rw [hfollows, List.flatten_singleton]
      rfl
    · have hsome : (catalogPage std getTag installed "" start 300).nextCursor = some (toString start') := by
        show Option.map _ (Paging.next _ _ _) = some _
        rw [hnext]
        rfl
      rw [hsome] at h
      rw [hnext] at hfollows
      dsimp only [Option.getD_some] at h
      split at h
      · next hempty => exact absurd hempty (toString_ne_empty start')
      · obtain ⟨rest, hrest, h⟩ := h.of_bind
        obtain _ | _ := h
        rw [ih (some (toString start')) (cursorStart_next std installed hnext) hrest, hfollows]
        show _ = ((Paging.page _ _ _ ++ List.flatten _).map _, _)
        rw [List.map_append]

/-- A request that is answered while the connection is up returns the answer. -/
theorem yields_request (hpatience : N.patience ≠ 0) (hsmall : ∀ frame, N.byteLength frame ≤ Gen.limitBridgeFrameBytes)
    {answers : Server.Call → Server.Reply → Prop} {method : String} {payload v : Json}
    (hanswer : ∀ r : Request, r.method = method → r.payload = payload → answers (.request r) (.payload v)) :
    (request N method payload).Yields answers v := by
  let up : Server.Shared :=
    { client := some 0, selected := some ⟨"", "", "", "", 0, 0⟩, conns := [{ port := 0 }] }
  have hconnected : (ensureConnected N).Yields answers ⟨"", "", "", "", 0, 0⟩ := by
    obtain ⟨depth, hdepth⟩ := Nat.exists_eq_succ_of_ne_zero hpatience
    unfold ensureConnected
    rw [hdepth]
    exact .step 0 up (.done _)
  refine hconnected.await.bind (.step 0 up ?_)
  refine .step 0 up (.step 0 up ?_)
  refine Task.Yields.bind (.done _) ?_
  dsimp only
  rw [if_neg (not_lt.mpr (hsmall _))]
  exact .call (.payload v) (hanswer _ rfl rfl) (.done v)

/-- So a scan may come to its end. -/
theorem exists_yields_scan (hpatience : N.patience ≠ 0) (hsmall : ∀ frame, N.byteLength frame ≤ Gen.limitBridgeFrameBytes)
    (cursor : Option String) (pages : ℕ) :
    ∃ result, (scanInstalledModels N cursor pages).Yields (ServedBy (handleCatalogList std getTag installed)) result := by
  induction pages generalizing cursor with
  | zero => exact ⟨_, .done _⟩
  | succ pages ih =>
    rw [scanInstalledModels]
    have hpage : ∃ page, handleCatalogList std getTag installed (some (.object ([("limit", .integer modelsPage)] ++
        member "cursor" (cursor.map .string)))) = some page := ⟨_, handleCatalogList_eq std getTag installed _⟩
    obtain ⟨page, hpage⟩ := hpage
    have hanswer : ∀ r : Request, r.method = "catalog.listModels" → r.payload = .object ([("limit", .integer modelsPage)] ++
        member "cursor" (cursor.map .string)) →
        ServedBy (handleCatalogList std getTag installed) (.request r) (.payload page.toJson) := by
      intro r _ hpayload _ v hv
      refine ⟨page, ?_, (Except.ok.inj hv).symm⟩
      rw [hpayload, hpage]
    have hrequest := (yields_request hpatience hsmall hanswer).await
    obtain ⟨rest, hrest⟩ := ih (some (jstr (some page.toJson) "nextCursor"))
    by_cases hlast : jstr (some page.toJson) "nextCursor" = ""
    · refine ⟨(pageModels page.toJson, true), hrequest.bind ?_⟩
      rw [hlast]
      exact .done _
    · refine ⟨(pageModels page.toJson ++ rest.1, rest.2), hrequest.bind ?_⟩
      split
      · next hempty => exact absurd hempty hlast
      · exact hrest.bind (.done _)

/-- Pages end at the last model, or leave some. -/
theorem follow_outstanding {α : Type} (xs : List α) (limit pages : ℕ) (hpages : 0 < pages) :
    (Paging.follow xs 0 (List.replicate pages limit)).2 = none ↔
      (Paging.follow xs 0 (List.replicate pages limit)).1.flatten.length = xs.length := by
  have hflatten := congrArg List.length (Paging.flatten_follow xs 0 (List.replicate pages limit))
  have hrest := Paging.follow_replicate xs 0 limit pages hpages
  rw [List.length_append, List.drop_zero] at hflatten
  rw [hrest] at hflatten ⊢
  split
  · next hlt =>
    rw [if_pos hlt] at hflatten
    rw [Option.elim_some, List.length_drop] at hflatten
    simp only [reduceCtorEq, false_iff]
    omega
  · next hle =>
    rw [if_neg hle] at hflatten
    rw [Option.elim_none, List.length_nil] at hflatten
    simp only [true_iff]
    omega

end RackMcp
