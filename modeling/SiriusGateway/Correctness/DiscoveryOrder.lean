import SiriusGateway.Correctness.Discovery
import SiriusGateway.Lib.Lists

/-!
# `Correctness.DiscoveryOrder` — the order listings complete in

`backfillAll` asks the providers concurrently and registers each listing as it arrives, while resolution and
the pinned strategy take what was registered first. So the order of completion decides between providers
that contend for a name, and only between those (`boot_orderIndependent_iff`).

## Contents
- **One boot.** The registry after `backfillAll`, for an order of completion, and what it is asked.
- **The condition.** `Uncontended`.
- **Contended by nobody.** Registries with the same registrations answer alike.
- **Contended names.** Two orders that tell the contenders apart.
- **The result**, and two providers that list one model.
-/

namespace Sirius

open RoutingService

/-! ## One boot -/

/-- What each adapter answers: to the first probe, and to the second after an empty first one. -/
structure Upstreams where
  first : AiProvider → Probe
  second : AiProvider → Probe

/-- The `backfillAll` run whose listings complete in the given order. -/
def completing (upstreams : Upstreams) (order : List AiProvider) : DiscoveryRun :=
  .all (order.map fun p => ⟨p, upstreams.first p, upstreams.second p⟩)

/-- The registry of a fresh process after `backfillAll`. -/
def bootRegistry (providers : ProviderRegistry) (upstreams : Upstreams) (order : List AiProvider) :
    ModelRegistry :=
  applyAll providers ModelRegistry.initial [completing upstreams order]

/-- The registrations of one adapter. -/
def Upstreams.registrations (upstreams : Upstreams) (p : AiProvider) : List Registration :=
  Probe.registrations p true (upstreams.first p) (upstreams.second p)

/-- The registries name the same provider for every model string, resolved or routed with the pinned
    strategy. -/
def SameProviders (providers : ProviderRegistry) (r r' : ModelRegistry) : Prop :=
  ∀ s, (r.resolveModel s).map (·.provider) = (r'.resolveModel s).map (·.provider) ∧
    ∀ (latency latency' : LatencyTracker) (request : RouteRequest) (preferred : Option String),
      request.model = s → getStrategy (preferred.getD getDefaultStrategy) = .pinned →
      ((⟨r, providers, latency⟩ : RoutingService).route request preferred).selectedProvider =
        ((⟨r', providers, latency'⟩ : RoutingService).route request preferred).selectedProvider

/-- Every two orders of completion give registries that name the same providers. -/
def OrderIndependent (providers : ProviderRegistry) (upstreams : Upstreams) : Prop :=
  ∀ order order', order.Perm providers.getAll → order'.Perm providers.getAll →
    SameProviders providers (bootRegistry providers upstreams order)
      (bootRegistry providers upstreams order')

/-! ## The condition -/

/-- No two providers register the same composite key. -/
def KeysApart (gs : List Registration) : Prop :=
  ∀ g ∈ gs, ∀ h ∈ gs, g.key = h.key → g.provider = h.provider

/-- No two providers contend for a name: not for a composite key; for a model id only behind a catalog entry
    whose provider is registered; and for a listed id that is stripped only where it is somebody's key. -/
structure Uncontended (providers : ProviderRegistry) (gs : List Registration) : Prop where
  keys : KeysApart gs
  modelIds : ∀ g ∈ gs, ∀ h ∈ gs, g.modelId = h.modelId → g.provider = h.provider ∨
    ∃ c ∈ defaultModelCatalog, c.modelId = g.modelId ∧ (providers.get c.provider).isSome = true
  listedIds : ∀ g ∈ gs, ∀ h ∈ gs, g.info.id = h.info.id →
    (normalizeModelId g.info.id).hadPrefix = true → g.provider = h.provider ∨ ∃ k ∈ gs, k.key = g.info.id

variable {providers : ProviderRegistry} {runs runs' : List DiscoveryRun} {upstreams : Upstreams}
  {c m e : ModelCapabilityMatrix} {g h : Registration} {s : String}

/-- Only the members of the list matter. -/
theorem KeysApart.congr {gs gs' : List Registration} (hkeys : KeysApart gs)
    (hsame : ∀ g, g ∈ gs ↔ g ∈ gs') : KeysApart gs' :=
  fun g hg h hh => hkeys g ((hsame g).mpr hg) h ((hsame h).mpr hh)

theorem Uncontended.congr {gs gs' : List Registration} (hu : Uncontended providers gs)
    (hsame : ∀ g, g ∈ gs ↔ g ∈ gs') : Uncontended providers gs' where
  keys := hu.keys.congr hsame
  modelIds := fun g hg h hh => hu.modelIds g ((hsame g).mpr hg) h ((hsame h).mpr hh)
  listedIds := by
    intro g hg h hh hid hstrip
    rcases hu.listedIds g ((hsame g).mpr hg) h ((hsame h).mpr hh) hid hstrip with hp | ⟨k, hk, hkey⟩
    · exact Or.inl hp
    · exact Or.inr ⟨k, (hsame k).mp hk, hkey⟩

/-! ## The entries of registrations -/

/-- The capabilities discovery guesses depend on the model id alone. -/
theorem matrix_capabilities_congr (hid : g.modelId = h.modelId) :
    g.matrix.capabilities = h.matrix.capabilities := by
  unfold Registration.modelId at hid
  show (toCapabilityMatrix g.info g.provider).capabilities =
    (toCapabilityMatrix h.info h.provider).capabilities
  simp only [toCapabilityMatrix, hid]

/-- Where no two providers share a key, a registered model has an entry of its provider. -/
theorem get_of_registered (hkeys : KeysApart (registrations providers runs))
    (hg : g ∈ registrations providers runs) (r : ModelRegistry) :
    ∃ e, (applyAll providers r runs).models.get g.key = some e ∧
      e.resolved = g.matrix.resolved ∧ e.capabilities = g.matrix.capabilities := by
  obtain ⟨x, hlast, hkey⟩ := exists_last hg
  have hprovider := hkeys x hlast.mem g hg hkey
  have hid := Registration.modelId_eq_of_key hkey hprovider
  refine ⟨x.matrix, hkey ▸ get_of_last hlast, ?_, matrix_capabilities_congr hid⟩
  show (⟨x.modelId, x.provider⟩ : ResolvedModel) = ⟨g.modelId, g.provider⟩
  rw [hprovider, hid]

/-- An entry is the catalog's, or has the provider, the model id and the capabilities of a registration
    under its key. -/
theorem entry_cases (hm : m ∈ (applyAll providers ModelRegistry.initial runs).listModels) :
    (∃ g ∈ registrations providers runs, m = g.matrix) ∨
      (m ∈ defaultModelCatalog ∧ ∀ g ∈ registrations providers runs, g.key ≠ m.key) := by
  rcases mem_listModels_after hm with ⟨g, hg, -, rfl⟩ | ⟨hold, hfresh⟩
  · exact Or.inl ⟨g, hg, rfl⟩
  · exact Or.inr ⟨initial_listModels ▸ hold, hfresh⟩

/-! ## The capabilities of the catalog -/

/-- The catalog gives a model id what discovery would guess for it, and more. -/
theorem catalog_guess : ∀ c ∈ defaultModelCatalog,
    c.capabilities.chat = !looksLikeEmbeddingModel c.modelId ∧
      c.capabilities.streaming = !looksLikeEmbeddingModel c.modelId ∧
      c.capabilities.embeddings = looksLikeEmbeddingModel c.modelId := by
  decide

/-- A catalog entry serves what a registration of its model id serves. -/
theorem meetsCaps_of_registration (hc : c ∈ defaultModelCatalog) (hid : g.modelId = c.modelId)
    {required : List String} (hg : meetsCaps required g.matrix = true) : meetsCaps required c = true := by
  obtain ⟨hchat, hstreaming, hembeddings⟩ := catalog_guess c hc
  have hguess : g.matrix.capabilities =
      { chat := c.capabilities.chat, streaming := c.capabilities.streaming, tools := false
        embeddings := c.capabilities.embeddings, vision := false, jsonMode := false } := by
    rw [hchat, hstreaming, hembeddings, ← hid]
    rfl
  have hhas : ∀ cap, g.matrix.capabilities.has cap = true → c.capabilities.has cap = true := by
    intro cap
    rw [hguess]
    unfold ModelCapabilities.has
    split_ifs <;> simp
  unfold meetsCaps at hg ⊢
  rw [List.all_eq_true] at hg ⊢
  exact fun cap hcap => hhas cap (hg cap hcap)

/-- The entry can serve a request for the model id. -/
def canServe (providers : ProviderRegistry) (id : String) (required : List String)
    (m : ModelCapabilityMatrix) : Bool :=
  decide (m.modelId = id ∧ (providers.get m.provider).isSome = true ∧ meetsCaps required m = true)

theorem canServe_iff {id : String} {required : List String} :
    canServe providers id required m = true ↔
      m.modelId = id ∧ (providers.get m.provider).isSome = true ∧ meetsCaps required m = true :=
  decide_eq_true_iff

theorem head_eligible_eq (r : ModelRegistry) (latency : LatencyTracker) (id : String)
    (required : List String) :
    (RoutingService.eligible ⟨r, providers, latency⟩ id required).head? =
      r.listModels.find? (canServe providers id required) := by
  unfold RoutingService.eligible
  rw [List.head?_filter]
  rfl

/-! ## Contended by nobody -/

section Uncontended
variable (hsame : ∀ g, g ∈ registrations providers runs ↔ g ∈ registrations providers runs')
  (hu : Uncontended providers (registrations providers runs))
include hsame hu

/-- A key holds an entry of the same provider and model id. -/
theorem get_transfers {k : String}
    (hm : (applyAll providers ModelRegistry.initial runs).models.get k = some m) :
    ∃ m', (applyAll providers ModelRegistry.initial runs').models.get k = some m' ∧
      m'.resolved = m.resolved := by
  obtain rfl := ModelRegistry.key_of_get hm
  rcases entry_cases (ModelRegistry.mem_listModels_of_get hm) with ⟨g, hg, rfl⟩ | ⟨hc, -⟩
  · obtain ⟨e, he, hresolved, -⟩ :=
      get_of_registered (hu.congr hsame).keys ((hsame g).mp hg) ModelRegistry.initial
    exact ⟨e, he, hresolved⟩
  -- the other order may have upserted the key, but only for the same provider and model id
  · obtain ⟨e, he, hp, hid⟩ := get_catalog_key providers runs' hc
    refine ⟨e, he, ?_⟩
    unfold ModelCapabilityMatrix.resolved
    rw [hp, hid]

theorem noKey_transfers (hkey : (applyAll providers ModelRegistry.initial runs).NoKey s) :
    (applyAll providers ModelRegistry.initial runs').NoKey s := by
  intro hcolon
  cases hget : (applyAll providers ModelRegistry.initial runs').models.get s with
  | none => rfl
  | some m =>
      obtain ⟨m', hm', -⟩ := get_transfers (fun g => (hsame g).symm) (hu.congr hsame) hget
      rw [hkey hcolon] at hm'
      cases hm'

/-- The first entry that fits has the same provider, when only registrations of one provider fit. -/
theorem find_transfers {fits : ModelCapabilityMatrix → Bool}
    (hcatalog : ∀ c ∈ defaultModelCatalog, fits c = false)
    (hfits : ∀ x y : ModelCapabilityMatrix, x.resolved = y.resolved → x.capabilities = y.capabilities →
      fits y = true → fits x = true)
    (hone : ∀ g ∈ registrations providers runs, ∀ h ∈ registrations providers runs,
      fits g.matrix = true → fits h.matrix = true → h.provider = g.provider)
    (hm : (applyAll providers ModelRegistry.initial runs).listModels.find? fits = some m) :
    ∃ m', (applyAll providers ModelRegistry.initial runs').listModels.find? fits = some m' ∧
      m'.provider = m.provider := by
  have hmfits := List.find?_some hm
  rcases entry_cases (List.mem_of_find?_eq_some hm) with ⟨g, hg, rfl⟩ | ⟨hc, -⟩
  · obtain ⟨e, he, hresolved, hcaps⟩ :=
      get_of_registered (hu.congr hsame).keys ((hsame g).mp hg) ModelRegistry.initial
    -- the registration fits in the other order too, so that order has a first entry that fits
    have hsome := List.find?_isSome.mpr
      ⟨e, ModelRegistry.mem_listModels_of_get he, hfits e g.matrix hresolved hcaps hmfits⟩
    obtain ⟨m', hm'⟩ := Option.isSome_iff_exists.mp hsome
    refine ⟨m', hm', ?_⟩
    have hm'fits := List.find?_some hm'
    rcases entry_cases (List.mem_of_find?_eq_some hm') with ⟨h, hh, rfl⟩ | ⟨hc', -⟩
    · exact hone g hg h ((hsame h).mpr hh) hmfits hm'fits
    · rw [hcatalog m' hc'] at hm'fits
      cases hm'fits
  · rw [hcatalog m hc] at hmfits
    cases hmfits

/-- The first entry of a model id has the same provider. -/
theorem findId_transfers
    (hm : ((applyAll providers ModelRegistry.initial runs).listModels.find? fun m => m.modelId = s) =
      some m) :
    ∃ m', ((applyAll providers ModelRegistry.initial runs').listModels.find? fun m => m.modelId = s) =
        some m' ∧ m'.resolved = m.resolved := by
  have hresolved : ∀ m', ((applyAll providers ModelRegistry.initial runs').listModels.find? fun m =>
      m.modelId = s) = some m' → m'.provider = m.provider → m'.resolved = m.resolved := by
    intro m' hm' hprovider
    have hid : m.modelId = s := by simpa using List.find?_some hm
    have hid' : m'.modelId = s := by simpa using List.find?_some hm'
    unfold ModelCapabilityMatrix.resolved
    rw [hprovider, hid', hid]
  by_cases hcatalog : ∃ c ∈ defaultModelCatalog, c.modelId = s
  -- the catalog's entries stand before all others in every order
  · obtain ⟨c, hc, rfl⟩ := hcatalog
    have honly : ∀ m : ModelCapabilityMatrix,
        decide (m.modelId = c.modelId) = true → m.modelId = c.modelId := fun _ => of_decide_eq_true
    obtain ⟨e, he, -, hid⟩ := get_catalog_key providers runs hc
    obtain ⟨e', he', -, hid'⟩ := get_catalog_key providers runs' hc
    obtain ⟨first, hfirst, hprovider⟩ := find_of_catalog hc he (decide_eq_true hid) honly
    obtain ⟨first', hfirst', hprovider'⟩ := find_of_catalog hc he' (decide_eq_true hid') honly
    obtain rfl : first = m := Option.some.inj (hfirst.symm.trans hm)
    exact ⟨first', hfirst', hresolved first' hfirst' (hprovider'.trans hprovider.symm)⟩
  · obtain ⟨m', hm', hprovider⟩ := find_transfers hsame hu
      (fun c hc => decide_eq_false fun hid => hcatalog ⟨c, hc, hid⟩)
      (fun x y hxy _ hy => decide_eq_true
        ((congrArg ResolvedModel.modelId hxy).trans (of_decide_eq_true hy)))
      (fun g hg h hh hgid hhid => by
        have hgid : g.modelId = s := of_decide_eq_true hgid
        have hhid : h.modelId = s := of_decide_eq_true hhid
        rcases hu.modelIds g hg h hh (hgid.trans hhid.symm) with hp | ⟨c, hc, hid, -⟩
        · exact hp.symm
        · exact absurd ⟨c, hc, hid.trans hgid⟩ hcatalog) hm
    exact ⟨m', hm', hresolved m' hm' hprovider⟩

omit hsame in
/-- An alias that is no model id is a listed id that was stripped. -/
theorem listedId_of_alias
    (hnoid : ((applyAll providers ModelRegistry.initial runs).listModels.find? fun m => m.modelId = s) = none)
    (hg : g ∈ registrations providers runs) (halias : s ∈ g.matrix.aliases) :
    s = g.info.id ∧ (normalizeModelId g.info.id).hadPrefix = true := by
  rcases mem_aliases_toCapabilityMatrix.mp halias with hid | ⟨hstrip, hid⟩
  · obtain ⟨e, he, hresolved, -⟩ := get_of_registered hu.keys hg ModelRegistry.initial
    have hno := List.find?_eq_none.mp hnoid e (ModelRegistry.mem_listModels_of_get he)
    exact absurd (decide_eq_true ((congrArg ResolvedModel.modelId hresolved).trans hid.symm)) hno
  · exact ⟨hid, hstrip⟩

/-- The entry that declared an alias first has the same key. -/
theorem aliasHead_transfers (hkey : (applyAll providers ModelRegistry.initial runs).NoKey s)
    (hnoid : ((applyAll providers ModelRegistry.initial runs).listModels.find? fun m => m.modelId = s) = none)
    {k : String} (hk : aliasHead (applyAll providers ModelRegistry.initial runs).aliasMap s = some k) :
    aliasHead (applyAll providers ModelRegistry.initial runs').aliasMap s = some k := by
  rw [applyAll_eq_addModels, ModelRegistry.aliasHead_addModels] at hk ⊢
  cases hinit : aliasHead ModelRegistry.initial.aliasMap s with
  | some k₀ =>
      rw [hinit, Option.some_or] at hk
      rw [Option.some_or, hk]
  | none =>
      rw [hinit, Option.none_or] at hk
      rw [Option.none_or]
      obtain ⟨x, hx, rfl⟩ := Option.map_eq_some_iff.mp hk
      obtain ⟨g, hg, rfl⟩ := List.mem_map.mp (List.mem_of_find?_eq_some hx)
      have halias : s ∈ g.matrix.aliases := by simpa using List.find?_some hx
      -- the other order has a first declaration too, of the same listed id
      have hsome : (((registrations providers runs').map Registration.matrix).find? fun m =>
          s ∈ m.aliases).isSome = true :=
        List.find?_isSome.mpr ⟨g.matrix, List.mem_map_of_mem ((hsame g).mp hg), decide_eq_true halias⟩
      obtain ⟨x', hx'⟩ := Option.isSome_iff_exists.mp hsome
      obtain ⟨g', hg', rfl⟩ := List.mem_map.mp (List.mem_of_find?_eq_some hx')
      have halias' : s ∈ g'.matrix.aliases := by simpa using List.find?_some hx'
      obtain ⟨hs, hstrip⟩ := listedId_of_alias hu hnoid hg halias
      obtain ⟨hs', -⟩ := listedId_of_alias hu hnoid ((hsame g').mpr hg') halias'
      have hprovider : g.provider = g'.provider := by
        rcases hu.listedIds g hg g' ((hsame g').mpr hg') (hs.symm.trans hs') hstrip with hp | ⟨x, hx, hxkey⟩
        · exact hp
        · obtain ⟨e, he, -⟩ := get_of_registered hu.keys hx ModelRegistry.initial
          rw [hxkey, ← hs, hkey (hs ▸ hxkey ▸ x.colon_mem_key)] at he
          cases he
      have hid : g.modelId = g'.modelId := by
        unfold Registration.modelId
        rw [← hs, ← hs']
      rw [hx', Option.map_some]
      show some g'.key = some g.key
      unfold Registration.key
      rw [hprovider, hid]

/-- **A string resolves to the same provider and model id.** -/
theorem resolveEntry_transfers
    (hm : (applyAll providers ModelRegistry.initial runs).resolveEntry s = some m) :
    ∃ m', (applyAll providers ModelRegistry.initial runs').resolveEntry s = some m' ∧
      m'.resolved = m.resolved := by
  by_cases hkey : (applyAll providers ModelRegistry.initial runs).NoKey s
  · have hkey' := noKey_transfers hsame hu hkey
    rw [ModelRegistry.resolveEntry_of_noKey hkey] at hm
    rw [ModelRegistry.resolveEntry_of_noKey hkey']
    rcases Option.or_eq_some_iff.mp hm with hid | ⟨hnoid, halias⟩
    · obtain ⟨m', hm', hresolved⟩ := findId_transfers hsame hu hid
      exact ⟨m', by rw [hm', Option.some_or], hresolved⟩
    · have hnoid' : ((applyAll providers ModelRegistry.initial runs').listModels.find? fun m =>
          m.modelId = s) = none := by
        refine Option.eq_none_iff_forall_ne_some.mpr fun m' hm' => ?_
        obtain ⟨x, hx, -⟩ := findId_transfers (fun g => (hsame g).symm) (hu.congr hsame) hm'
        rw [hnoid] at hx
        cases hx
      obtain ⟨k, hk, hget⟩ := Option.bind_eq_some_iff.mp halias
      obtain ⟨m', hm', hresolved⟩ := get_transfers hsame hu hget
      refine ⟨m', ?_, hresolved⟩
      rw [hnoid', Option.none_or, aliasHead_transfers hsame hu hkey hnoid hk, Option.bind_some, hm']
  · -- a composite key decides alone
    unfold ModelRegistry.NoKey at hkey
    rw [Classical.not_imp] at hkey
    obtain ⟨hcolon, hsome⟩ := hkey
    obtain ⟨x, hx⟩ := Option.ne_none_iff_exists'.mp hsome
    rw [ModelRegistry.resolveEntry_of_key hcolon hx] at hm
    obtain rfl : x = m := Option.some.inj hm
    obtain ⟨m', hm', hresolved⟩ := get_transfers hsame hu hx
    exact ⟨m', ModelRegistry.resolveEntry_of_key hcolon hm', hresolved⟩

omit hu in
/-- The entry under a catalog key can serve what any entry of its model id can. -/
theorem catalog_canServe (hc : c ∈ defaultModelCatalog) (hreg : (providers.get c.provider).isSome = true)
    {required : List String} (hm : m ∈ (applyAll providers ModelRegistry.initial runs).listModels)
    (hserves : canServe providers c.modelId required m = true) :
    ∃ e, (applyAll providers ModelRegistry.initial runs').models.get c.key = some e ∧
      canServe providers c.modelId required e = true := by
  obtain ⟨hid, -, hmeets⟩ := canServe_iff.mp hserves
  obtain ⟨e, he, hp, heid⟩ := get_catalog_key providers runs' hc
  refine ⟨e, he, canServe_iff.mpr ⟨heid, hp ▸ hreg, ?_⟩⟩
  have hkey := ModelRegistry.key_of_get he
  rcases entry_cases (ModelRegistry.mem_listModels_of_get he) with ⟨h, hh, rfl⟩ | ⟨hold, -⟩
  · rcases entry_cases hm with ⟨g, -, rfl⟩ | ⟨hmc, hfresh⟩
    · have hcaps := matrix_capabilities_congr (hid.trans heid.symm : g.modelId = h.modelId)
      unfold meetsCaps at hmeets ⊢
      rwa [← hcaps]
    · -- a catalog entry nobody registered again is the same in every order
      obtain rfl := catalog_modelId_inj hc hmc hid
      exact absurd hkey.symm (hfresh h ((hsame h).mpr hh))
  · obtain rfl := catalog_modelId_inj hc hold heid
    rcases entry_cases hm with ⟨g, -, rfl⟩ | ⟨hmc, -⟩
    · exact meetsCaps_of_registration hc hid hmeets
    · rwa [← catalog_modelId_inj hc hmc hid]

/-- **The first entry that can serve a request has the same provider.** -/
theorem canServe_transfers {id : String} {required : List String}
    (hm : (applyAll providers ModelRegistry.initial runs).listModels.find? (canServe providers id required) =
      some m) :
    ∃ m', (applyAll providers ModelRegistry.initial runs').listModels.find?
        (canServe providers id required) = some m' ∧ m'.provider = m.provider := by
  by_cases hcatalog : ∃ c ∈ defaultModelCatalog, c.modelId = id ∧ (providers.get c.provider).isSome = true
  · obtain ⟨c, hc, rfl, hreg⟩ := hcatalog
    have honly : ∀ m, canServe providers c.modelId required m = true → m.modelId = c.modelId :=
      fun _ h => (canServe_iff.mp h).1
    have hlisted := List.mem_of_find?_eq_some hm
    have hserves := List.find?_some hm
    obtain ⟨e, he, hfits⟩ := catalog_canServe (fun _ => Iff.rfl) hc hreg hlisted hserves
    obtain ⟨e', he', hfits'⟩ := catalog_canServe hsame hc hreg hlisted hserves
    obtain ⟨first, hfirst, hprovider⟩ := find_of_catalog hc he hfits honly
    obtain ⟨first', hfirst', hprovider'⟩ := find_of_catalog hc he' hfits' honly
    obtain rfl : first = m := Option.some.inj (hfirst.symm.trans hm)
    exact ⟨first', hfirst', hprovider'.trans hprovider.symm⟩
  · refine find_transfers hsame hu (fun c hc => ?_) (fun x y hxy hcaps hy => ?_)
      (fun g hg h hh hgs hhs => ?_) hm
    · refine Bool.eq_false_iff.mpr fun hserves => ?_
      obtain ⟨hid, hreg, -⟩ := canServe_iff.mp hserves
      exact hcatalog ⟨c, hc, hid, hreg⟩
    · obtain ⟨hid, hp⟩ := ResolvedModel.mk.inj hxy
      obtain ⟨hyid, hyreg, hymeets⟩ := canServe_iff.mp hy
      refine canServe_iff.mpr ⟨hid.trans hyid, hp ▸ hyreg, ?_⟩
      unfold meetsCaps at hymeets ⊢
      rwa [hcaps]
    · have hgid : g.modelId = id := (canServe_iff.mp hgs).1
      have hhid : h.modelId = id := (canServe_iff.mp hhs).1
      rcases hu.modelIds g hg h hh (hgid.trans hhid.symm) with hp | ⟨c, hc, hid, hreg⟩
      · exact hp.symm
      · exact absurd ⟨c, hc, hid.trans hgid, hreg⟩ hcatalog

/-- **Registries with the same registrations name the same providers**, when nobody contends. -/
theorem sameProviders_of_uncontended :
    SameProviders providers (applyAll providers ModelRegistry.initial runs)
      (applyAll providers ModelRegistry.initial runs') := by
  have hsame' := fun g => (hsame g).symm
  have hu' := hu.congr hsame
  intro s
  have hresolve : (applyAll providers ModelRegistry.initial runs).resolveModel s =
      (applyAll providers ModelRegistry.initial runs').resolveModel s := by
    rw [ModelRegistry.resolveModel_eq, ModelRegistry.resolveModel_eq]
    exact Option.map_eq_map_of_transfers (fun _ => resolveEntry_transfers hsame hu)
      (fun _ => resolveEntry_transfers hsame' hu')
  refine ⟨congrArg _ hresolve, ?_⟩
  rintro latency latency' request preferred rfl hpinned
  rw [selectedProvider_of_pinned hpinned, selectedProvider_of_pinned hpinned]
  show (((ModelRegistry.resolveModel _ _).bind _).map _).getD "" = _
  rw [hresolve]
  cases hres : (applyAll providers ModelRegistry.initial runs').resolveModel request.model with
  | none => rfl
  | some resolved =>
      simp only [Option.bind_some]
      unfold RoutingService.eligibleFor
      rw [head_eligible_eq, head_eligible_eq]
      exact congrArg (·.getD "") (Option.map_eq_map_of_transfers
        (fun _ => canServe_transfers hsame hu) (fun _ => canServe_transfers hsame' hu'))

end Uncontended

/-! ## Contended names -/

section Contended
variable {p q : AiProvider} {rest : List AiProvider}

theorem registrations_completing (providers : ProviderRegistry) (upstreams : Upstreams)
    (order : List AiProvider) :
    registrations providers [completing upstreams order] = order.flatMap upstreams.registrations := by
  simp only [registrations, List.flatMap_cons, List.flatMap_nil, List.append_nil,
    DiscoveryRun.registrations, completing, List.flatMap_map]
  rfl

/-- Only which providers are asked decides what is registered. -/
theorem mem_registrations_completing {order order' : List AiProvider} (h : order.Perm order') :
    g ∈ registrations providers [completing upstreams order] ↔
      g ∈ registrations providers [completing upstreams order'] := by
  rw [registrations_completing, registrations_completing, List.mem_flatMap, List.mem_flatMap]
  exact exists_congr fun _ => and_congr_left fun _ => h.mem_iff

theorem provider_of_mem (hg : g ∈ upstreams.registrations p) : g.provider = p.name := by
  obtain ⟨info, -, rfl⟩ := List.mem_map.mp hg
  rfl

/-- The provider whose listing completes last has the keys it lists. -/
theorem resolve_last (hg : g ∈ upstreams.registrations p) :
    ((bootRegistry providers upstreams (rest ++ [p])).resolveModel g.key).map (·.provider) =
      some p.name := by
  obtain ⟨x, hlast, hkey⟩ := exists_last hg
  -- the last registration of the last listing is the last of the whole run
  have hwhole : Last (registrations providers [completing upstreams (rest ++ [p])]) x := by
    rw [registrations_completing, List.flatMap_append, List.flatMap_singleton]
    exact hlast.append_left _
  have hentry := ModelRegistry.resolveEntry_of_key (r := bootRegistry providers upstreams (rest ++ [p]))
    x.colon_mem_key (get_of_last hwhole)
  rw [ModelRegistry.resolveModel_eq, ← hkey, hentry, ← provider_of_mem hlast.mem]
  rfl

/-- The keys of the provider whose listing completes first stand right behind the catalog's. -/
theorem find_first {fits : ModelCapabilityMatrix → Bool} (hg : g ∈ upstreams.registrations p)
    (he : (bootRegistry providers upstreams (p :: rest)).models.get g.key = some e)
    (hfits : fits e = true) :
    ∃ first, (bootRegistry providers upstreams (p :: rest)).listModels.find? fits = some first ∧
      ((∃ c ∈ defaultModelCatalog, c.key = first.key) ∨
        ∃ x ∈ upstreams.registrations p, x.key = first.key) := by
  unfold bootRegistry at he ⊢
  rw [applyAll_eq_addModels, registrations_completing, List.flatMap_cons, List.map_append,
    addModels_append] at he ⊢
  have hkey : e.key ∈ (ModelRegistry.initial.addModels
      ((upstreams.registrations p).map Registration.matrix)).models.keys := by
    rw [← ModelRegistry.key_of_get he]
    exact ModelRegistry.mem_keys_addModels.mpr (Or.inr ⟨g.matrix, List.mem_map_of_mem hg, rfl⟩)
  obtain ⟨first, hfirst, hfront⟩ :=
    ModelRegistry.find_front (ModelRegistry.mem_listModels_of_get he) hkey hfits
  refine ⟨first, hfirst, ?_⟩
  rcases ModelRegistry.mem_keys_addModels.mp hfront with hold | ⟨m, hm, hmkey⟩
  · rw [← ModelRegistry.map_key_listModels, initial_listModels] at hold
    exact Or.inl (List.mem_map.mp hold)
  · obtain ⟨x, hx, rfl⟩ := List.mem_map.mp hm
    exact Or.inr ⟨x, hx, hmkey⟩

/-- A chat request, or an embedding request where the id looks like an embedding model's. -/
def requestFor (s id : String) : RouteRequest := ⟨s, false, none, looksLikeEmbeddingModel id⟩

theorem meetsCaps_requestFor (g : Registration) (s : String) :
    meetsCaps (deriveCapabilities (requestFor s g.modelId)) g.matrix = true := by
  have hcaps : g.matrix.capabilities =
      { chat := !looksLikeEmbeddingModel g.modelId, streaming := !looksLikeEmbeddingModel g.modelId
        tools := false, embeddings := looksLikeEmbeddingModel g.modelId, vision := false
        jsonMode := false } := rfl
  unfold meetsCaps deriveCapabilities requestFor
  rw [hcaps]
  cases looksLikeEmbeddingModel g.modelId <;> rfl

/-- A registered model is resolved by its composite key. -/
theorem resolve_key {r : ModelRegistry} (he : r.models.get g.key = some e)
    (hresolved : e.resolved = g.matrix.resolved) : r.resolveModel g.key = some g.matrix.resolved := by
  rw [ModelRegistry.resolveModel_eq, ModelRegistry.resolveEntry_of_key g.colon_mem_key he,
    Option.map_some, hresolved]

theorem mem_registrations_first (hg : g ∈ upstreams.registrations p) :
    g ∈ registrations providers [completing upstreams (p :: rest)] := by
  rw [registrations_completing, List.flatMap_cons]
  exact List.mem_append_left _ hg

/-- **The provider whose listing completes first gets the requests for the model ids it lists**, unless the
    catalog has them under a registered provider. -/
theorem route_first (hkeys : KeysApart (registrations providers [completing upstreams (p :: rest)]))
    (hp : (providers.get p.name).isSome = true) (hg : g ∈ upstreams.registrations p)
    (hcatalog : ∀ c ∈ defaultModelCatalog, c.modelId = g.modelId →
      ¬ (providers.get c.provider).isSome = true)
    (hh : h ∈ registrations providers [completing upstreams (p :: rest)]) (hid : h.modelId = g.modelId)
    (latency : LatencyTracker) :
    ((⟨bootRegistry providers upstreams (p :: rest), providers, latency⟩ : RoutingService).route
      (requestFor h.key h.modelId) none).selectedProvider = p.name := by
  obtain ⟨named, hnamed, hnamedResolved, -⟩ := get_of_registered hkeys hh ModelRegistry.initial
  obtain ⟨e, he, hresolved, hcaps⟩ :=
    get_of_registered hkeys (mem_registrations_first hg) ModelRegistry.initial
  obtain ⟨heid, heprovider⟩ := ResolvedModel.mk.inj hresolved
  have hserves : canServe providers h.modelId (deriveCapabilities (requestFor h.key h.modelId)) e =
      true := by
    have hprovider : e.provider = p.name := heprovider.trans (provider_of_mem hg)
    have hmeets := meetsCaps_requestFor g h.key
    unfold meetsCaps at hmeets
    rw [← hcaps, ← hid] at hmeets
    exact canServe_iff.mpr ⟨heid.trans hid.symm, hprovider ▸ hp, hmeets⟩
  obtain ⟨first, hfirst, hfront⟩ := find_first hg he hserves
  obtain ⟨hfid, hfreg, -⟩ := canServe_iff.mp (List.find?_some hfirst)
  -- the entry found is a catalog entry or one the first provider registered
  have hname : first.provider = p.name := by
    rcases hfront with ⟨c, hc, hckey⟩ | ⟨x, hx, hxkey⟩
    · obtain ⟨hcp, hcid⟩ := CatalogFacts.colonFree catalog_facts c hc
      obtain ⟨hprovider, hmodelId⟩ := key_inj_of_colonFree hcp hcid hckey
      exact absurd (hprovider ▸ hfreg) (hcatalog c hc (hmodelId.trans (hfid.trans hid)))
    · obtain ⟨own, hown, hownResolved, -⟩ :=
        get_of_registered hkeys (mem_registrations_first hx) ModelRegistry.initial
      have hget := ModelRegistry.get_of_mem_listModels (List.mem_of_find?_eq_some hfirst)
      rw [← hxkey] at hget
      obtain rfl : own = first := Option.some.inj (hown.symm.trans hget)
      exact (ResolvedModel.mk.inj hownResolved).2.trans (provider_of_mem hx)
  have hresolve : (bootRegistry providers upstreams (p :: rest)).resolveModel h.key =
      some h.matrix.resolved := resolve_key hnamed hnamedResolved
  have hhead := (@head_eligible_eq providers (bootRegistry providers upstreams (p :: rest))
    latency h.modelId (deriveCapabilities (requestFor h.key h.modelId))).trans hfirst
  obtain ⟨more, hlist⟩ := List.head?_eq_some_iff.mp hhead
  have hroute := @route_pinned ⟨bootRegistry providers upstreams (p :: rest), providers, latency⟩
    (requestFor h.key h.modelId) h.matrix.resolved hresolve first more hlist
  exact hroute.1.trans hname

/-- The catalog's names have no slash. -/
theorem catalog_slashFree : ∀ c ∈ defaultModelCatalog, '/' ∉ c.key.toList ∧ '/' ∉ c.modelId.toList ∧
    ∀ a ∈ c.aliases, '/' ∉ a.toList := by
  decide

/-- **The provider whose listing completes first gets the listed ids that are stripped**, unless they are
    keys. -/
theorem resolve_first (hkeys : KeysApart (registrations providers [completing upstreams (p :: rest)]))
    (hg : g ∈ upstreams.registrations p) (hstrip : (normalizeModelId g.info.id).hadPrefix = true)
    (hfresh : ∀ k ∈ registrations providers [completing upstreams (p :: rest)], k.key ≠ g.info.id) :
    ((bootRegistry providers upstreams (p :: rest)).resolveModel g.info.id).map (·.provider) =
      some p.name := by
  have hslash := (slash_of_hadPrefix hstrip).1
  have hnokey : (bootRegistry providers upstreams (p :: rest)).NoKey g.info.id := by
    intro _
    cases hget : (bootRegistry providers upstreams (p :: rest)).models.get g.info.id with
    | none => rfl
    | some m =>
        have hkey := (ModelRegistry.key_of_get hget).symm
        rcases entry_cases (ModelRegistry.mem_listModels_of_get hget) with ⟨k, hk, rfl⟩ | ⟨hc, -⟩
        · exact absurd hkey (hfresh k hk)
        · exact absurd (hkey ▸ hslash) (catalog_slashFree m hc).1
  have hnoid : ∀ m ∈ (bootRegistry providers upstreams (p :: rest)).listModels, m.modelId ≠ g.info.id := by
    intro m hm hid
    rcases entry_cases hm with ⟨k, -, rfl⟩ | ⟨hc, -⟩
    · exact canonical_ne_of_hadPrefix hstrip hid
    · exact (catalog_slashFree m hc).2.1 (hid ▸ hslash)
  -- the first to declare the listed id as alias is a registration of the first block
  have halias : g.info.id ∈ g.matrix.aliases := mem_aliases_toCapabilityMatrix.mpr (Or.inr ⟨hstrip, rfl⟩)
  have hsome : (((upstreams.registrations p).map Registration.matrix).find? fun m =>
      g.info.id ∈ m.aliases).isSome = true :=
    List.find?_isSome.mpr ⟨g.matrix, List.mem_map_of_mem hg, decide_eq_true halias⟩
  obtain ⟨m, hm⟩ := Option.isSome_iff_exists.mp hsome
  obtain ⟨x, hx, rfl⟩ := List.mem_map.mp (List.mem_of_find?_eq_some hm)
  have hhead : aliasHead (bootRegistry providers upstreams (p :: rest)).aliasMap g.info.id = some x.key := by
    have hinit := initial_aliasHead_eq_none fun c hc hmem => (catalog_slashFree c hc).2.2 _ hmem hslash
    unfold bootRegistry
    rw [applyAll_eq_addModels, ModelRegistry.aliasHead_addModels, hinit, Option.none_or,
      registrations_completing, List.flatMap_cons, List.map_append, List.find?_append, hm, Option.some_or]
    rfl
  obtain ⟨e, he, hresolved, -⟩ :=
    get_of_registered hkeys (mem_registrations_first hx) ModelRegistry.initial
  rw [ModelRegistry.resolveModel_eq, ModelRegistry.resolveEntry_of_alias hnokey hnoid hhead]
  unfold bootRegistry
  rw [he, Option.map_some, hresolved, ← provider_of_mem hx]
  rfl

end Contended

/-! ## The result -/

section OrderIndependent
variable {p : AiProvider} (hind : OrderIndependent providers upstreams)
  (hg : g ∈ registrations providers [completing upstreams providers.getAll])
  (hh : h ∈ registrations providers [completing upstreams providers.getAll])

include hg in
theorem exists_asked : ∃ p ∈ providers.getAll, g ∈ upstreams.registrations p := by
  rw [registrations_completing] at hg
  exact List.mem_flatMap.mp hg

/-- The order in which one provider is first. -/
theorem perm_first (hp : p ∈ providers.getAll) :
    (p :: providers.getAll.erase p).Perm providers.getAll := (List.perm_cons_erase hp).symm

/-- The order in which one provider is last. -/
theorem perm_last (hp : p ∈ providers.getAll) :
    (providers.getAll.erase p ++ [p]).Perm providers.getAll :=
  List.perm_append_comm.trans (perm_first hp)

include hind

/-- Two orders with different last providers tell a shared composite key apart. -/
theorem keys_of_orderIndependent :
    KeysApart (registrations providers [completing upstreams providers.getAll]) := by
  intro g hg h hh hkey
  obtain ⟨p, hp, hgp⟩ := exists_asked hg
  obtain ⟨q, hq, hhq⟩ := exists_asked hh
  have hsame := (hind _ _ (perm_last hp) (perm_last hq) g.key).1
  rw [resolve_last hgp, hkey, resolve_last hhq] at hsame
  rw [provider_of_mem hgp, provider_of_mem hhq]
  exact Option.some.inj hsame

theorem keysApart_first (hp : p ∈ providers.getAll) :
    KeysApart (registrations providers [completing upstreams (p :: providers.getAll.erase p)]) :=
  (keys_of_orderIndependent hind).congr fun _ => mem_registrations_completing (perm_first hp).symm

include hg hh

/-- Two orders with different first providers tell a shared model id apart. -/
theorem modelIds_of_orderIndependent (hid : g.modelId = h.modelId) : g.provider = h.provider ∨
    ∃ c ∈ defaultModelCatalog, c.modelId = g.modelId ∧ (providers.get c.provider).isSome = true := by
  by_cases hcatalog : ∃ c ∈ defaultModelCatalog, c.modelId = g.modelId ∧
      (providers.get c.provider).isSome = true
  · exact Or.inr hcatalog
  · left
    have hnone : ∀ c ∈ defaultModelCatalog, c.modelId = g.modelId →
        ¬ (providers.get c.provider).isSome = true := by
      intro c hc hcid hreg
      exact hcatalog ⟨c, hc, hcid, hreg⟩
    have hget : ∀ {p : AiProvider}, p ∈ providers.getAll → (providers.get p.name).isSome = true := by
      intro p hp
      rw [ProviderRegistry.get_of_mem_getAll hp]
      rfl
    obtain ⟨p, hp, hgp⟩ := exists_asked hg
    obtain ⟨q, hq, hhq⟩ := exists_asked hh
    -- the request for the composite key goes to whoever listed the model id first
    have hsame := (hind _ _ (perm_first hp) (perm_first hq) g.key).2 LatencyTracker.empty
      LatencyTracker.empty (requestFor g.key g.modelId) none rfl (by decide)
    rw [route_first (keysApart_first hind hp) (hget hp) hgp hnone
        ((mem_registrations_completing (perm_first hp)).mpr hg) rfl,
      route_first (keysApart_first hind hq) (hget hq) hhq (hid ▸ hnone)
        ((mem_registrations_completing (perm_first hq)).mpr hg) hid] at hsame
    rw [provider_of_mem hgp, provider_of_mem hhq, hsame]

/-- Two orders with different first providers tell a shared listed id apart. -/
theorem listedIds_of_orderIndependent (hid : g.info.id = h.info.id)
    (hstrip : (normalizeModelId g.info.id).hadPrefix = true) : g.provider = h.provider ∨
    ∃ k ∈ registrations providers [completing upstreams providers.getAll], k.key = g.info.id := by
  by_cases hkey : ∃ k ∈ registrations providers [completing upstreams providers.getAll],
      k.key = g.info.id
  · exact Or.inr hkey
  · left
    have hfresh : ∀ {p : AiProvider}, p ∈ providers.getAll →
        ∀ k ∈ registrations providers [completing upstreams (p :: providers.getAll.erase p)],
          k.key ≠ g.info.id := by
      intro p hp k hk hkid
      exact hkey ⟨k, (mem_registrations_completing (perm_first hp)).mp hk, hkid⟩
    obtain ⟨p, hp, hgp⟩ := exists_asked hg
    obtain ⟨q, hq, hhq⟩ := exists_asked hh
    have hsame := (hind _ _ (perm_first hp) (perm_first hq) g.info.id).1
    rw [resolve_first (keysApart_first hind hp) hgp hstrip (hfresh hp), hid,
      resolve_first (keysApart_first hind hq) hhq (hid ▸ hstrip) (hid ▸ hfresh hq)] at hsame
    rw [provider_of_mem hgp, provider_of_mem hhq, Option.some.inj hsame]

end OrderIndependent

/-- **The order of completion decides nothing exactly when no two providers contend for a name.** -/
theorem boot_orderIndependent_iff (providers : ProviderRegistry) (upstreams : Upstreams) :
    OrderIndependent providers upstreams ↔
      Uncontended providers (registrations providers [completing upstreams providers.getAll]) := by
  constructor
  · intro hind
    constructor
    · exact keys_of_orderIndependent hind
    · intro g hg h hh hid
      exact modelIds_of_orderIndependent hind hg hh hid
    · intro g hg h hh hid hstrip
      exact listedIds_of_orderIndependent hind hg hh hid hstrip
  · intro hu order order' horder horder'
    have hsame : ∀ g, g ∈ registrations providers [completing upstreams order] ↔
        g ∈ registrations providers [completing upstreams order'] := fun g =>
      mem_registrations_completing (horder.trans horder'.symm)
    exact sameProviders_of_uncontended hsame (hu.congr fun g => mem_registrations_completing horder.symm)

/-- Two local servers. -/
def twoServers : ProviderRegistry :=
  (ProviderRegistry.empty.register ⟨"left", .fromFile "openai-compatible"⟩).register
    ⟨"right", .fromFile "openai-compatible"⟩

/-- Both list the same model. -/
def bothServe : Upstreams where
  first := fun p => .returned [⟨"qwen", p.name, none, none⟩]
  second := fun p => .returned [⟨"qwen", p.name, none, none⟩]

/-- Whoever answers first gets the model. -/
theorem first_answer_wins :
    ¬ ∀ (providers : ProviderRegistry) (upstreams : Upstreams), OrderIndependent providers upstreams := by
  intro h
  have hsame := (h twoServers bothServe
    [⟨"left", .fromFile "openai-compatible"⟩, ⟨"right", .fromFile "openai-compatible"⟩]
    [⟨"right", .fromFile "openai-compatible"⟩, ⟨"left", .fromFile "openai-compatible"⟩]
    (by decide) (by decide) "qwen").1
  exact absurd hsame (by decide)

end Sirius
