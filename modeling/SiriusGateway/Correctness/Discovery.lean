import SiriusGateway.ModelRegistry.Discovery
import SiriusGateway.Routing.Service

/-!
# `Correctness.Discovery` — which routes discovery takes away

Discovery files what a provider lists under a guessed capability matrix that never has tool support, and
upserts it over the baked-in catalog. A route of the catalog survives any sequence of runs exactly when no
surviving listing repeats a tool-capable entry of the catalog or shadows one of its aliases
(`discovery_keepsRoutes_iff`).

## Contents
- **The catalog.** The facts about `DEFAULT_MODEL_CATALOG` the argument rests on, each by evaluation.
- **The condition.** `Undisturbed`.
- **Routes survive.** The string still resolves to the same model id, and its entry is still eligible.
- **Routes are lost.** Each way to break the condition loses a request with tools.
-/

namespace Sirius

open RoutingService

/-! ## The catalog -/

/-- What is checked of the catalog entry by entry. -/
structure CatalogFacts : Prop where
  modelIds_nodup : (defaultModelCatalog.map (·.modelId)).Nodup
  colonFree : ∀ c ∈ defaultModelCatalog, ':' ∉ c.provider.toList ∧ ':' ∉ c.modelId.toList
  provider_ne_empty : ∀ c ∈ defaultModelCatalog, c.provider ≠ ""
  /-- No alias is a model id or a composite key of the catalog, or ends like a composite key of one. -/
  alias_fresh : ∀ c ∈ defaultModelCatalog, ∀ a ∈ c.aliases, ∀ x ∈ defaultModelCatalog,
    x.modelId ≠ a ∧ x.key ≠ a ∧ ¬ (':' :: x.modelId.toList) <:+ a.toList
  /-- An entry without tool support is an embedding model with an embedding model's name and no alias. -/
  embedding : ∀ c ∈ defaultModelCatalog, c.capabilities.tools = false →
    c.capabilities = embeddingCapabilities ∧ looksLikeEmbeddingModel c.modelId = true ∧ c.aliases = []
  meetsCaps : ∀ c ∈ defaultModelCatalog, c.capabilities.tools = true →
    RoutingService.meetsCaps ["chat", "tools"] c = true

theorem catalog_facts : CatalogFacts := by
  constructor <;> decide

theorem initial_listModels : ModelRegistry.initial.listModels = defaultModelCatalog := rfl

/-- Every alias of the catalog names the one entry that declares it. -/
theorem initial_aliasMap : ModelRegistry.initial.aliasMap.entries =
    defaultModelCatalog.flatMap fun c => c.aliases.map fun a => (a, [c.key]) := rfl

theorem catalog_modelId_inj {c c' : ModelCapabilityMatrix} (hc : c ∈ defaultModelCatalog)
    (hc' : c' ∈ defaultModelCatalog) (hid : c'.modelId = c.modelId) : c' = c :=
  List.inj_on_of_nodup_map (CatalogFacts.modelIds_nodup catalog_facts) hc' hc hid

theorem catalog_key_inj {c c' : ModelCapabilityMatrix} (hc : c ∈ defaultModelCatalog)
    (hc' : c' ∈ defaultModelCatalog) (hkey : c'.key = c.key) : c' = c := by
  have hget := ModelRegistry.get_of_mem_listModels (initial_listModels ▸ hc)
  rw [← hkey, ModelRegistry.get_of_mem_listModels (initial_listModels ▸ hc')] at hget
  exact Option.some.inj hget

theorem initial_aliasHead {c : ModelCapabilityMatrix} {a : String} (hc : c ∈ defaultModelCatalog)
    (ha : a ∈ c.aliases) : aliasHead ModelRegistry.initial.aliasMap a = some c.key := by
  have hget : ModelRegistry.initial.aliasMap.get a = some [c.key] := by
    rw [JsMap.get_eq_some_iff, initial_aliasMap]
    exact List.mem_flatMap.mpr ⟨c, hc, List.mem_map.mpr ⟨a, ha, rfl⟩⟩
  unfold aliasHead
  rw [hget]
  rfl

/-- A string the catalog declares nowhere is no alias. -/
theorem initial_aliasHead_eq_none {s : String} (h : ∀ c ∈ defaultModelCatalog, s ∉ c.aliases) :
    aliasHead ModelRegistry.initial.aliasMap s = none := by
  unfold aliasHead
  cases hget : ModelRegistry.initial.aliasMap.get s with
  | none => rfl
  | some ks =>
      have hentry := JsMap.get_eq_some_iff.mp hget
      rw [initial_aliasMap] at hentry
      obtain ⟨c, hc, hpair⟩ := List.mem_flatMap.mp hentry
      obtain ⟨a, ha, heq⟩ := List.mem_map.mp hpair
      obtain ⟨rfl, -⟩ := Prod.mk.inj heq
      exact absurd ha (h c hc)

/-- What a string that resolves in the initial registry is to the entry it resolves to. -/
theorem initial_resolveEntry {s : String} {c : ModelCapabilityMatrix}
    (h : ModelRegistry.initial.resolveEntry s = some c) :
    c ∈ defaultModelCatalog ∧ (s = c.key ∨ s = c.modelId ∨ s ∈ c.aliases) := by
  obtain ⟨hmem, hcases⟩ := ModelRegistry.resolveEntry_cases h
  rw [initial_listModels] at hmem
  refine ⟨hmem, ?_⟩
  rcases hcases with hkey | hid | halias
  · exact Or.inl hkey
  · exact Or.inr (Or.inl hid.symm)
  · obtain ⟨ks, hks, hhead⟩ := Option.bind_eq_some_iff.mp halias
    have hentry := JsMap.get_eq_some_iff.mp hks
    rw [initial_aliasMap] at hentry
    obtain ⟨c', hc', hpair⟩ := List.mem_flatMap.mp hentry
    obtain ⟨a, ha, heq⟩ := List.mem_map.mp hpair
    obtain ⟨rfl, rfl⟩ := Prod.mk.inj heq
    rw [catalog_key_inj hmem hc' (Option.some.inj hhead)] at ha
    exact Or.inr (Or.inr ha)

/-- Every model id and alias of the catalog resolves to its entry. -/
theorem initial_resolveModel {c : ModelCapabilityMatrix} {s : String} (hc : c ∈ defaultModelCatalog)
    (hs : s = c.modelId ∨ s ∈ c.aliases) : ModelRegistry.initial.resolveModel s = some c.resolved := by
  rw [ModelRegistry.resolveModel_eq]
  have hmem : c ∈ ModelRegistry.initial.listModels := initial_listModels ▸ hc
  rcases hs with rfl | halias
  · have hkey : ModelRegistry.initial.NoKey c.modelId :=
      fun hcolon => absurd hcolon (CatalogFacts.colonFree catalog_facts c hc).2
    obtain ⟨m, hm, hlisted, hid⟩ := ModelRegistry.resolveEntry_of_id hkey hmem rfl
    rw [hm, catalog_modelId_inj hc (initial_listModels ▸ hlisted) hid]
    rfl
  · have hkey : ModelRegistry.initial.NoKey s := by
      intro _
      cases hget : ModelRegistry.initial.models.get s with
      | none => rfl
      | some x =>
          have hx := initial_listModels ▸ ModelRegistry.mem_listModels_of_get hget
          exact absurd (ModelRegistry.key_of_get hget).symm
            (CatalogFacts.alias_fresh catalog_facts c hc s halias x hx).2.1
    have hid : ∀ m ∈ ModelRegistry.initial.listModels, m.modelId ≠ s := fun m hm =>
      (CatalogFacts.alias_fresh catalog_facts c hc s halias m (initial_listModels ▸ hm)).1
    rw [ModelRegistry.resolveEntry_of_alias hkey hid (initial_aliasHead hc halias),
      ModelRegistry.get_of_mem_listModels hmem]
    rfl


/-! ## The condition -/

/-- A listing repeats an entry, is filed under one of its aliases, or has one as composite key. -/
def Disturbs (g : Registration) (c : ModelCapabilityMatrix) : Prop :=
  (g.provider = c.provider ∧ g.modelId = c.modelId) ∨ g.modelId ∈ c.aliases ∨ g.key ∈ c.aliases

/-- No listing that stays disturbs a tool-capable catalog entry of a registered provider. -/
def Undisturbed (providers : ProviderRegistry) (gs : List Registration) : Prop :=
  ∀ c ∈ defaultModelCatalog, c.capabilities.tools = true →
    (providers.get c.provider).isSome = true → ∀ g ∈ gs, Last gs g → ¬ Disturbs g c

/-- The routing service before the runs. -/
def serviceBefore (providers : ProviderRegistry) (latency : LatencyTracker) : RoutingService :=
  ⟨ModelRegistry.initial, providers, latency⟩

/-- The routing service after the runs. -/
def serviceAfter (providers : ProviderRegistry) (runs : List DiscoveryRun) (latency : LatencyTracker) :
    RoutingService :=
  ⟨applyAll providers ModelRegistry.initial runs, providers, latency⟩

/-- Every request the default strategy names a provider for before the runs gets one after them. -/
def KeepsDefaultRoutes (providers : ProviderRegistry) (runs : List DiscoveryRun) : Prop :=
  ∀ (before after : LatencyTracker) (request : RouteRequest),
    ((serviceBefore providers before).route request none).selectedProvider ≠ "" →
    ((serviceAfter providers runs after).route request none).selectedProvider ≠ ""

/-- Every request a strategy selects a candidate for before the runs gets one after them. -/
def KeepsRoutes (providers : ProviderRegistry) (runs : List DiscoveryRun) : Prop :=
  ∀ (before after : LatencyTracker) (request : RouteRequest) (preferred : Option String),
    ((serviceBefore providers before).route request preferred).attemptNumber = 1 →
    ((serviceAfter providers runs after).route request preferred).attemptNumber = 1

variable {providers : ProviderRegistry} {runs : List DiscoveryRun} {c : ModelCapabilityMatrix}

/-- A composite key without a second colon names its provider and its model id. -/
theorem key_inj_of_colonFree {m : ModelCapabilityMatrix} (hp : ':' ∉ c.provider.toList)
    (hid : ':' ∉ c.modelId.toList) (h : c.key = m.key) :
    c.provider = m.provider ∧ c.modelId = m.modelId := by
  have hlist : c.provider.toList ++ ':' :: c.modelId.toList =
      m.provider.toList ++ ':' :: m.modelId.toList := by
    have h' := congrArg String.toList h
    simpa [ModelCapabilityMatrix.key, String.toList_append] using h'
  obtain ⟨h1, -, h2⟩ := (List.append_cons_inj_of_notMem hp hid).mp hlist
  exact ⟨String.toList_inj.mp h1, String.toList_inj.mp h2⟩

/-- A catalog key still holds an entry of the same provider and model id. -/
theorem get_catalog_key (providers : ProviderRegistry) (runs : List DiscoveryRun)
    (hc : c ∈ defaultModelCatalog) :
    ∃ e, (applyAll providers ModelRegistry.initial runs).models.get c.key = some e ∧
      e.provider = c.provider ∧ e.modelId = c.modelId := by
  have hold : ModelRegistry.initial.models.get c.key = some c :=
    ModelRegistry.get_of_mem_listModels (initial_listModels ▸ hc)
  obtain ⟨e, he⟩ : ∃ e, (applyAll providers ModelRegistry.initial runs).models.get c.key = some e := by
    rw [get_applyAll, hold]
    cases ((registrations providers runs).reverse.find? fun g => g.key = c.key) with
    | none => exact ⟨c, rfl⟩
    | some g => exact ⟨g.matrix, rfl⟩
  obtain ⟨hp, hid⟩ := CatalogFacts.colonFree catalog_facts c hc
  obtain ⟨h1, h2⟩ := key_inj_of_colonFree hp hid (ModelRegistry.key_of_get he)
  exact ⟨e, he, h1.symm, h2.symm⟩

/-! ## Routes survive -/

/-- **The string still resolves to the same model id**, unless a listing shadows the alias. -/
theorem resolve_after (hc : c ∈ defaultModelCatalog) {s : String}
    (hs : s = c.key ∨ s = c.modelId ∨ s ∈ c.aliases)
    (hsafe : c.aliases ≠ [] → ∀ g ∈ registrations providers runs,
      Last (registrations providers runs) g → ¬ Disturbs g c) :
    ∃ e, (applyAll providers ModelRegistry.initial runs).resolveEntry s = some e ∧
      e.modelId = c.modelId := by
  obtain ⟨e, he, -, hid⟩ := get_catalog_key providers runs hc
  obtain ⟨hcp, hcid⟩ := CatalogFacts.colonFree catalog_facts c hc
  rcases hs with rfl | rfl | halias
  · exact ⟨e, ModelRegistry.resolveEntry_of_key (colon_mem_key c) he, hid⟩
  · obtain ⟨e', he', -, hid'⟩ := ModelRegistry.resolveEntry_of_id
      (fun hcolon => absurd hcolon hcid) (ModelRegistry.mem_listModels_of_get he) hid
    exact ⟨e', he', hid'⟩
  · -- an entry filed under the alias, as key or as id, would be a listing the condition excludes
    have hfresh : ∀ m ∈ (applyAll providers ModelRegistry.initial runs).listModels,
        m.modelId ≠ s ∧ m.key ≠ s := by
      intro m hm
      rcases mem_listModels_after hm with ⟨g, hg, hlast, rfl⟩ | ⟨hold, -⟩
      · have hno := hsafe (List.ne_nil_of_mem halias) g hg hlast
        refine ⟨fun h => hno (Or.inr (Or.inl ?_)), fun h => hno (Or.inr (Or.inr ?_))⟩
        · rw [← Registration.matrix_modelId, h]
          exact halias
        · rw [← Registration.matrix_key, h]
          exact halias
      · have hm' : m ∈ defaultModelCatalog := initial_listModels ▸ hold
        obtain ⟨h1, h2, -⟩ := CatalogFacts.alias_fresh catalog_facts c hc s halias m hm'
        exact ⟨h1, h2⟩
    have hnokey : (applyAll providers ModelRegistry.initial runs).NoKey s := by
      intro _
      cases hget : (applyAll providers ModelRegistry.initial runs).models.get s with
      | none => rfl
      | some m =>
          exact absurd (ModelRegistry.key_of_get hget).symm
            (hfresh m (ModelRegistry.mem_listModels_of_get hget)).2
    have hhead : aliasHead (applyAll providers ModelRegistry.initial runs).aliasMap s = some c.key := by
      rw [applyAll_eq_addModels, ModelRegistry.aliasHead_addModels, initial_aliasHead hc halias,
        Option.some_or]
    refine ⟨e, ?_, hid⟩
    rw [ModelRegistry.resolveEntry_of_alias hnokey (fun m hm => (hfresh m hm).1) hhead]
    exact he

/-- The capabilities discovery guesses for an id that looks like an embedding model. -/
theorem matrix_capabilities_of_embedding {g : Registration}
    (h : looksLikeEmbeddingModel g.modelId = true) : g.matrix.capabilities = embeddingCapabilities := by
  show (toCapabilityMatrix g.info g.provider).capabilities = _
  unfold Registration.modelId at h
  simp only [toCapabilityMatrix, h, embeddingCapabilities, Bool.not_true]

/-- The entry under a catalog key still has every capability the catalog gave it, unless a listing that
    stays repeats a tool-capable entry. -/
theorem capabilities_after (hc : c ∈ defaultModelCatalog)
    (hsafe : c.capabilities.tools = true → ∀ g ∈ registrations providers runs,
      Last (registrations providers runs) g → ¬ Disturbs g c)
    {e : ModelCapabilityMatrix} (he : e ∈ (applyAll providers ModelRegistry.initial runs).listModels)
    (hp : e.provider = c.provider) (hid : e.modelId = c.modelId) :
    e.capabilities = c.capabilities := by
  rcases mem_listModels_after he with ⟨g, hg, hlast, rfl⟩ | ⟨hold, -⟩
  · cases htools : c.capabilities.tools with
    | true => exact absurd (Or.inl ⟨hp, hid⟩) (hsafe htools g hg hlast)
    | false =>
        obtain ⟨hcaps, hlook, -⟩ := CatalogFacts.embedding catalog_facts c hc htools
        have hgid : g.modelId = c.modelId := hid
        rw [hcaps, matrix_capabilities_of_embedding (hgid ▸ hlook)]
  · rw [catalog_modelId_inj hc (initial_listModels ▸ hold) hid]

/-- **The entries of the catalog stay in front**: of the entries of one model id that fit, the catalog's is
    the first when it fits. -/
theorem find_of_catalog (hc : c ∈ defaultModelCatalog) {fits : ModelCapabilityMatrix → Bool}
    {e : ModelCapabilityMatrix}
    (he : (applyAll providers ModelRegistry.initial runs).models.get c.key = some e)
    (hfits : fits e = true) (honly : ∀ m, fits m = true → m.modelId = c.modelId) :
    ∃ first, (applyAll providers ModelRegistry.initial runs).listModels.find? fits = some first ∧
      first.provider = c.provider := by
  have hkey : e.key ∈ ModelRegistry.initial.models.keys := by
    rw [← ModelRegistry.key_of_get he, ← ModelRegistry.map_key_listModels, initial_listModels]
    exact List.mem_map_of_mem hc
  rw [applyAll_eq_addModels] at he ⊢
  obtain ⟨first, hfirst, hfront⟩ :=
    ModelRegistry.find_front (ModelRegistry.mem_listModels_of_get he) hkey hfits
  refine ⟨first, hfirst, ?_⟩
  rw [← ModelRegistry.map_key_listModels, initial_listModels] at hfront
  obtain ⟨x, hx, hxkey⟩ := List.mem_map.mp hfront
  obtain ⟨hp, hid⟩ := CatalogFacts.colonFree catalog_facts x hx
  obtain ⟨hprovider, hmodelId⟩ := key_inj_of_colonFree hp hid hxkey
  have hxc : x = c := catalog_modelId_inj hc hx (hmodelId.trans (honly first (List.find?_some hfirst)))
  rw [← hprovider, hxc]

/-- The first eligible entry of a catalog model id has the catalog's provider. -/
theorem head_eligible_after (hc : c ∈ defaultModelCatalog) (svc : RoutingService)
    (hsvc : svc.modelRegistry = applyAll providers ModelRegistry.initial runs) {required : List String}
    {e : ModelCapabilityMatrix} (he : svc.modelRegistry.models.get c.key = some e)
    (hid : e.modelId = c.modelId) (hel : svc.Eligible required e) :
    ∃ first rest, svc.eligible c.modelId required = first :: rest ∧ first.provider ≠ "" := by
  rw [hsvc] at he
  obtain ⟨first, hfirst, hprovider⟩ := @find_of_catalog _ _ _ hc
    (fun m => decide (m.modelId = c.modelId ∧ svc.Eligible required m)) _ he
    (by simpa using ⟨hid, hel⟩) (fun m hm => (of_decide_eq_true hm).1)
  rw [← hsvc, ← List.head?_filter] at hfirst
  obtain ⟨rest, hlist⟩ := List.head?_eq_some_iff.mp hfirst
  exact ⟨first, rest, hlist, hprovider ▸ CatalogFacts.provider_ne_empty catalog_facts c hc⟩

/-- A request routed before the runs names a catalog entry of a registered provider that meets it. -/
theorem routed_before {latency : LatencyTracker} {request : RouteRequest} {preferred : Option String}
    (h : ((serviceBefore providers latency).route request preferred).attemptNumber = 1) :
    ∃ c ∈ defaultModelCatalog,
      (request.model = c.key ∨ request.model = c.modelId ∨ request.model ∈ c.aliases) ∧
      (providers.get c.provider).isSome = true ∧ meetsCaps (deriveCapabilities request) c = true := by
  obtain ⟨resolved, hres, hne⟩ := attemptNumber_eq_one_iff.mp h
  rw [ModelRegistry.resolveModel_eq] at hres
  obtain ⟨c, hresolve, rfl⟩ := Option.map_eq_some_iff.mp hres
  obtain ⟨hc, hs⟩ := initial_resolveEntry hresolve
  obtain ⟨m, hm⟩ := List.exists_mem_of_ne_nil _ hne
  obtain ⟨hlist, hid, hreg, hcaps⟩ := mem_eligible.mp hm
  obtain rfl : m = c := catalog_modelId_inj hc (initial_listModels ▸ hlist) hid
  exact ⟨m, hc, hs, hreg, hcaps⟩

/-- **An undisturbed route survives**, with a named provider first among the eligible entries. -/
theorem routed_after (hu : Undisturbed providers (registrations providers runs))
    {before : LatencyTracker} {request : RouteRequest} {preferred : Option String}
    (h : ((serviceBefore providers before).route request preferred).attemptNumber = 1)
    (after : LatencyTracker) :
    ∃ resolved first rest,
      (serviceAfter providers runs after).modelRegistry.resolveModel request.model = some resolved ∧
      (serviceAfter providers runs after).eligibleFor request resolved = first :: rest ∧
      first.provider ≠ "" := by
  obtain ⟨c, hc, hs, hreg, hcaps⟩ := routed_before h
  have hsafe : c.aliases ≠ [] → c.capabilities.tools = true := by
    intro halias
    cases htools : c.capabilities.tools with
    | true => rfl
    | false => exact absurd (CatalogFacts.embedding catalog_facts c hc htools).2.2 halias
  obtain ⟨e', hresolve, hid'⟩ := resolve_after hc hs fun halias => hu c hc (hsafe halias) hreg
  obtain ⟨e, he, hp, hid⟩ := get_catalog_key providers runs hc
  have hcap := capabilities_after hc (fun htools => hu c hc htools hreg)
    (ModelRegistry.mem_listModels_of_get he) hp hid
  have hel : (serviceAfter providers runs after).Eligible (deriveCapabilities request) e := by
    refine ⟨hp ▸ hreg, ?_⟩
    unfold meetsCaps at hcaps ⊢
    rwa [hcap]
  obtain ⟨first, rest, hlist, hne⟩ := head_eligible_after hc
    (serviceAfter providers runs after) rfl he hid hel
  refine ⟨e'.resolved, first, rest, ?_, ?_, hne⟩
  · rw [ModelRegistry.resolveModel_eq]
    exact congrArg (Option.map (·.resolved)) hresolve
  · unfold RoutingService.eligibleFor
    rw [show e'.resolved.modelId = c.modelId from hid']
    exact hlist

/-! ## Routes are lost -/

/-- A tool every request below declares. -/
def someTool : UnifiedTool where
  type := .json (.str "function")
  function := ⟨.json (.str "lookup"), .undefined, .undefined, .undefined⟩

/-- A chat request for `model` with one tool. -/
def toolRequest (model : String) : RouteRequest := ⟨model, false, some [someTool], false⟩

/-- A tool-capable catalog entry of a registered provider is routed to with tools, by id and by alias. -/
theorem toolRequest_before (hc : c ∈ defaultModelCatalog) (htools : c.capabilities.tools = true)
    (hreg : (providers.get c.provider).isSome = true) {s : String}
    (hs : s = c.modelId ∨ s ∈ c.aliases) (latency : LatencyTracker) :
    ∃ resolved first rest,
      (serviceBefore providers latency).modelRegistry.resolveModel s = some resolved ∧
      (serviceBefore providers latency).eligibleFor (toolRequest s) resolved = first :: rest ∧
      first.provider ≠ "" := by
  have hmem : c ∈ (serviceBefore providers latency).eligibleFor (toolRequest s) c.resolved :=
    mem_eligible.mpr ⟨initial_listModels ▸ hc, rfl, hreg, CatalogFacts.meetsCaps catalog_facts c hc htools⟩
  obtain ⟨first, rest, hlist⟩ := List.exists_cons_of_ne_nil (List.ne_nil_of_mem hmem)
  refine ⟨c.resolved, first, rest, initial_resolveModel hc hs, hlist, ?_⟩
  have hfirst := (mem_eligible.mp (hlist ▸ List.mem_cons_self : first ∈ _)).1
  exact CatalogFacts.provider_ne_empty catalog_facts first (initial_listModels ▸ hfirst)

/-- A request with tools has no route when every catalog entry of its model id was registered again. -/
theorem toolRequest_after {s : String} {e : ModelCapabilityMatrix}
    (hresolve : (applyAll providers ModelRegistry.initial runs).resolveEntry s = some e)
    (hover : ∀ x ∈ defaultModelCatalog, x.modelId = e.modelId →
      ∃ g ∈ registrations providers runs, g.key = x.key)
    {after : LatencyTracker} {preferred : Option String} :
    ((serviceAfter providers runs after).route (toolRequest s) preferred).attemptNumber = 0 ∧
      ((serviceAfter providers runs after).route (toolRequest s) preferred).selectedProvider = "" := by
  have hres : (serviceAfter providers runs after).modelRegistry.resolveModel (toolRequest s).model =
      some e.resolved := by
    rw [ModelRegistry.resolveModel_eq]
    exact congrArg (Option.map (·.resolved)) hresolve
  refine route_of_no_candidate hres ?_ preferred
  refine List.eq_nil_iff_forall_not_mem.mpr fun m hm => ?_
  obtain ⟨hlist, hid, -, hcaps⟩ := mem_eligible.mp hm
  have htools : m.capabilities.tools = true := by
    have hall : meetsCaps ["chat", "tools"] m = true := hcaps
    exact List.all_eq_true.mp hall "tools" (by decide)
  rcases mem_listModels_after hlist with ⟨g, -, -, rfl⟩ | ⟨hold, hkeys⟩
  · exact absurd htools (by simp)
  · obtain ⟨g, hg, hkey⟩ := hover m (initial_listModels ▸ hold) hid
    exact hkeys g hg hkey

/-- **A listing that breaks the condition loses a request with tools.** -/
theorem lost_of_disturbed (hc : c ∈ defaultModelCatalog) {g : Registration}
    (hg : g ∈ registrations providers runs) (hlast : Last (registrations providers runs) g)
    (hhit : Disturbs g c) :
    ∃ s, (s = c.modelId ∨ s ∈ c.aliases) ∧ ∀ (after : LatencyTracker) (preferred : Option String),
      ((serviceAfter providers runs after).route (toolRequest s) preferred).attemptNumber = 0 ∧
        ((serviceAfter providers runs after).route (toolRequest s) preferred).selectedProvider = "" := by
  have hget : (applyAll providers ModelRegistry.initial runs).models.get g.key = some g.matrix :=
    get_of_last hlast
  have hmem := ModelRegistry.mem_listModels_of_get hget
  -- a string filed as a composite key resolves to an entry no catalog entry shares its model id with
  have hbykey : ∀ a ∈ c.aliases, ∀ m,
      (applyAll providers ModelRegistry.initial runs).models.get a = some m →
      ∀ x ∈ defaultModelCatalog, x.modelId ≠ m.modelId := by
    intro a ha m hm x hx hxid
    refine (CatalogFacts.alias_fresh catalog_facts c hc a ha x hx).2.2 ⟨m.provider.toList, ?_⟩
    rw [ModelRegistry.key_of_get hm, hxid]
    simp [ModelCapabilityMatrix.key, String.toList_append]
  rcases hhit with ⟨hp, hid⟩ | halias | halias
  · refine ⟨c.modelId, Or.inl rfl, fun after preferred => ?_⟩
    obtain ⟨e, hresolve, -, heid⟩ := ModelRegistry.resolveEntry_of_id
      (fun hcolon => absurd hcolon (CatalogFacts.colonFree catalog_facts c hc).2) hmem hid
    refine toolRequest_after hresolve fun x hx hxid => ⟨g, hg, ?_⟩
    rw [catalog_modelId_inj hc hx (hxid.trans heid)]
    unfold Registration.key ModelCapabilityMatrix.key
    rw [hp, hid]
  · refine ⟨g.modelId, Or.inr halias, fun after preferred => ?_⟩
    by_cases hkey : (applyAll providers ModelRegistry.initial runs).NoKey g.modelId
    · obtain ⟨e, hresolve, -, heid⟩ := ModelRegistry.resolveEntry_of_id hkey hmem rfl
      exact toolRequest_after hresolve fun x hx hxid =>
        absurd (hxid.trans heid) (CatalogFacts.alias_fresh catalog_facts c hc _ halias x hx).1
    · unfold ModelRegistry.NoKey at hkey
      rw [Classical.not_imp] at hkey
      obtain ⟨hcolon, hsome⟩ := hkey
      obtain ⟨m, hm⟩ := Option.ne_none_iff_exists'.mp hsome
      exact toolRequest_after (ModelRegistry.resolveEntry_of_key hcolon hm) fun x hx hxid =>
        absurd hxid (hbykey _ halias m hm x hx)
  · refine ⟨g.key, Or.inr halias, fun after preferred => ?_⟩
    have hcolon : ':' ∈ g.key.toList := by simp [Registration.key, String.toList_append]
    exact toolRequest_after (ModelRegistry.resolveEntry_of_key hcolon hget) fun x hx hxid =>
      absurd hxid (hbykey _ halias _ hget x hx)

/-! ## The law -/

/-- **Discovery keeps every route exactly when no listing that stays disturbs a tool-capable entry**, for
    the default strategy and for every strategy. -/
theorem discovery_keepsRoutes_iff (providers : ProviderRegistry) (runs : List DiscoveryRun) :
    (KeepsDefaultRoutes providers runs ↔ Undisturbed providers (registrations providers runs)) ∧
      (KeepsRoutes providers runs ↔ Undisturbed providers (registrations providers runs)) := by
  refine ⟨⟨fun hkeep c hc htools hreg g hg hlast hhit => ?_, fun hu before after request h => ?_⟩,
    ⟨fun hkeep c hc htools hreg g hg hlast hhit => ?_, fun hu before after request preferred h => ?_⟩⟩
  · obtain ⟨s, hs, hlost⟩ := lost_of_disturbed hc hg hlast hhit
    have hbefore := toolRequest_before hc htools hreg hs LatencyTracker.empty
    exact hkeep _ LatencyTracker.empty (toolRequest s) (selectedProvider_ne_empty_iff.mpr hbefore)
      (hlost _ none).2
  · have hone : ((serviceBefore providers before).route request none).attemptNumber = 1 := by
      obtain ⟨resolved, first, rest, hres, hlist, -⟩ := selectedProvider_ne_empty_iff.mp h
      exact attemptNumber_eq_one_iff.mpr ⟨resolved, hres, hlist ▸ List.cons_ne_nil _ _⟩
    exact selectedProvider_ne_empty_iff.mpr (routed_after hu hone after)
  · obtain ⟨s, hs, hlost⟩ := lost_of_disturbed hc hg hlast hhit
    obtain ⟨resolved, first, rest, hres, hlist, -⟩ :=
      toolRequest_before hc htools hreg hs LatencyTracker.empty
    have hbefore : ((serviceBefore providers LatencyTracker.empty).route (toolRequest s)
        none).attemptNumber = 1 :=
      attemptNumber_eq_one_iff.mpr ⟨resolved, hres, hlist ▸ List.cons_ne_nil _ _⟩
    have hafter := hkeep _ LatencyTracker.empty (toolRequest s) none hbefore
    rw [(hlost _ none).1] at hafter
    exact absurd hafter (by decide)
  · obtain ⟨resolved, first, rest, hres, hlist, -⟩ := routed_after hu h after
    exact attemptNumber_eq_one_iff.mpr ⟨resolved, hres, hlist ▸ List.cons_ne_nil _ _⟩

/-- One openai adapter that lists `gpt-4o`, a model of the catalog. -/
def openaiOnly : ProviderRegistry := ProviderRegistry.empty.register ⟨"openai", .openai⟩

/-- After the run a request with tools for `gpt-4o` has no provider. -/
theorem relisting_loses_tools :
    ¬ ∀ (providers : ProviderRegistry) (runs : List DiscoveryRun),
      KeepsDefaultRoutes providers runs := by
  intro h
  have hbefore : ((serviceBefore openaiOnly LatencyTracker.empty).route (toolRequest "gpt-4o")
      none).selectedProvider ≠ "" := by decide
  have hafter := h openaiOnly [.byName "openai" (.returned [⟨"gpt-4o", "openai", none, none⟩])]
    LatencyTracker.empty LatencyTracker.empty (toolRequest "gpt-4o") hbefore
  exact absurd hafter (by decide)

end Sirius
