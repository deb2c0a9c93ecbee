import SiriusGateway.Correctness.Discovery

/-!
# `Correctness.Listing` — the registry and the last listing

Discovery only upserts, so what is registered under a provider is everything it ever listed. That is what it
listed last, with its entries of the catalog, exactly when its listings have lost no model
(`registry_follows_listing_iff`). Composite keys make a second condition: `provider:modelId` is ambiguous
once a provider's name contains a colon, and then another provider's registration replaces an entry.

## Contents
- **Listings.** What a sequence of runs makes of one provider's listings, and the last of them.
- **Keys.** Every registered key has a last registration; when it is another provider's (`TakenOver`).
- **The condition.** `Follows`.
- **The result**, and the provider that swaps its model.
-/

namespace Sirius

/-! ## Listings -/

/-- The listings of a provider in a run, in order; `none` for one that failed. -/
def DiscoveryRun.listings (providers : ProviderRegistry) (p : String) :
    DiscoveryRun → List (Option (List ModelInfo))
  | .all completions =>
      (completions.filter fun c => c.provider.name = p).map fun c => Probe.listed true c.first c.second
  | .byName name probe =>
      if name = p ∧ (providers.get name).isSome = true then [Probe.listed false probe probe] else []

/-- The listings of a provider in a sequence of runs, in order. -/
def listings (providers : ProviderRegistry) (runs : List DiscoveryRun) (p : String) :
    List (Option (List ModelInfo)) :=
  runs.flatMap (DiscoveryRun.listings providers p)

/-- The last listing of a provider, if it was listed at all and the last listing succeeded. -/
def lastListing (providers : ProviderRegistry) (runs : List DiscoveryRun) (p : String) :
    Option (List ModelInfo) :=
  (listings providers runs p).getLast?.join

variable {providers : ProviderRegistry} {runs : List DiscoveryRun} {p : String} {info : ModelInfo}

theorem mem_probe_registrations {provider : AiProvider} {retry : Bool} {first second : Probe} :
    (⟨info, p⟩ : Registration) ∈ Probe.registrations provider retry first second ↔
      provider.name = p ∧ ∃ models, Probe.listed retry first second = some models ∧ info ∈ models := by
  unfold Probe.registrations
  cases Probe.listed retry first second with
  | none => simp
  | some models => simp [eq_comm, and_comm]

theorem DiscoveryRun.mem_registrations_iff {run : DiscoveryRun} :
    (⟨info, p⟩ : Registration) ∈ run.registrations providers ↔
      ∃ models, some models ∈ run.listings providers p ∧ info ∈ models := by
  cases run with
  | all completions =>
      simp only [DiscoveryRun.registrations, DiscoveryRun.listings, List.mem_flatMap,
        mem_probe_registrations, List.mem_map, List.mem_filter, decide_eq_true_eq]
      constructor
      · rintro ⟨c, hc, hname, models, hlisted, hinfo⟩
        exact ⟨models, ⟨c, ⟨hc, hname⟩, hlisted⟩, hinfo⟩
      · rintro ⟨models, ⟨c, ⟨hc, hname⟩, hlisted⟩, hinfo⟩
        exact ⟨c, hc, hname, models, hlisted, hinfo⟩
  | byName name probe =>
      simp only [DiscoveryRun.registrations, DiscoveryRun.listings]
      cases hget : providers.get name with
      | none => simp
      | some provider =>
          -- the adapter found under a name carries it
          rw [mem_probe_registrations, ProviderRegistry.name_of_get hget]
          by_cases hname : name = p
          · simp [hname, eq_comm]
          · simp [hname]

/-- What a provider registers is what its listings contain. -/
theorem mem_registrations_iff :
    (⟨info, p⟩ : Registration) ∈ registrations providers runs ↔
      ∃ models, some models ∈ listings providers runs p ∧ info ∈ models := by
  simp only [registrations, listings, List.mem_flatMap, DiscoveryRun.mem_registrations_iff]
  constructor
  · rintro ⟨run, hrun, models, hlisted, hinfo⟩
    exact ⟨models, ⟨run, hrun, hlisted⟩, hinfo⟩
  · rintro ⟨models, ⟨run, hrun, hlisted⟩, hinfo⟩
    exact ⟨run, hrun, models, hlisted, hinfo⟩

theorem mem_listings_of_lastListing {listed : List ModelInfo}
    (h : lastListing providers runs p = some listed) : some listed ∈ listings providers runs p :=
  List.mem_of_getLast? (Option.join_eq_some_iff.mp h)

/-! ## Keys -/

/-- Another provider made the last registration under the key the provider files the model under. -/
def TakenOver (gs : List Registration) (p : String) (info : ModelInfo) : Prop :=
  ∃ g, Last gs g ∧ g.key = Registration.key ⟨info, p⟩ ∧ g.provider ≠ p

/-- Names without a colon keep the keys of the providers apart. -/
theorem not_takenOver_of_colonFree {gs : List Registration} (hp : ':' ∉ p.toList)
    (hgs : ∀ g ∈ gs, ':' ∉ g.provider.toList) : ¬ TakenOver gs p info := by
  rintro ⟨g, hlast, hkey, hne⟩
  exact hne (key_parts_of_colonFree (hgs g hlast.mem) hp hkey).1

/-- The entries registered under one provider. -/
theorem mem_listModelsForProvider {r : ModelRegistry} {m : ModelCapabilityMatrix} :
    m ∈ r.listModelsForProvider p ↔ m ∈ r.listModels ∧ m.provider = p := by
  simp [ModelRegistry.listModelsForProvider, ModelRegistry.listModels]

/-- **A model the provider registered is its own**, unless another provider took the key over. -/
theorem registered_of_mem (hg : (⟨info, p⟩ : Registration) ∈ registrations providers runs)
    (hown : ¬ TakenOver (registrations providers runs) p info) :
    ∃ m ∈ (applyAll providers ModelRegistry.initial runs).listModelsForProvider p,
      m.modelId = Registration.modelId ⟨info, p⟩ := by
  obtain ⟨g, hlast, hkey⟩ := exists_last hg
  have hprovider : g.provider = p := by
    by_contra hne
    exact hown ⟨g, hlast, hkey, hne⟩
  refine ⟨g.matrix, mem_listModelsForProvider.mpr ⟨?_, hprovider⟩,
    Registration.modelId_eq_of_key hkey hprovider⟩
  exact ModelRegistry.mem_listModels_of_get (get_of_last hlast)

/-- A key taken over has no entry of the provider. -/
theorem unregistered_of_takenOver (htaken : TakenOver (registrations providers runs) p info) :
    ¬ ∃ m ∈ (applyAll providers ModelRegistry.initial runs).listModelsForProvider p,
      m.modelId = Registration.modelId ⟨info, p⟩ := by
  rintro ⟨m, hm, hid⟩
  obtain ⟨g, hlast, hkey, hne⟩ := htaken
  obtain ⟨hlist, hprovider⟩ := mem_listModelsForProvider.mp hm
  have hmkey : m.key = g.key := by
    rw [hkey]
    unfold ModelCapabilityMatrix.key Registration.key
    rw [hprovider, hid]
  have hget := ModelRegistry.get_of_mem_listModels hlist
  rw [hmkey, get_of_last hlast] at hget
  rw [← Option.some.inj hget] at hprovider
  exact hne hprovider

/-! ## The condition -/

/-- The provider listed the model, filed in canonical form, or the catalog has it under the provider. -/
def ListedOrCatalogued (listed : List ModelInfo) (p id : String) : Prop :=
  (∃ i ∈ listed, id = (normalizeModelId i.id).canonical) ∨
    ∃ c ∈ defaultModelCatalog, c.provider = p ∧ c.modelId = id

/-- The provider's listings have lost no model, and no other provider has the key of one it lists. -/
structure Follows (providers : ProviderRegistry) (runs : List DiscoveryRun) (p : String)
    (listed : List ModelInfo) : Prop where
  kept : ∀ earlier, some earlier ∈ listings providers runs p → ∀ i ∈ earlier,
    ListedOrCatalogued listed p (normalizeModelId i.id).canonical ∨
      TakenOver (registrations providers runs) p i
  own : ∀ i ∈ listed, ¬ TakenOver (registrations providers runs) p i

/-- Without colons in the names, it is only that no model was lost. -/
theorem Follows.of_colonFree {listed : List ModelInfo} (hp : ':' ∉ p.toList)
    (hgs : ∀ g ∈ registrations providers runs, ':' ∉ g.provider.toList)
    (hkept : ∀ earlier, some earlier ∈ listings providers runs p → ∀ i ∈ earlier,
      ListedOrCatalogued listed p (normalizeModelId i.id).canonical) : Follows providers runs p listed where
  kept := fun earlier hearlier i hi => Or.inl (hkept earlier hearlier i hi)
  own := fun _ _ => not_takenOver_of_colonFree hp hgs

/-! ## The result -/

/-- A model id is registered under the provider after the runs. -/
def RegisteredUnder (providers : ProviderRegistry) (runs : List DiscoveryRun) (p id : String) : Prop :=
  ∃ m ∈ (applyAll providers ModelRegistry.initial runs).listModelsForProvider p, m.modelId = id

/-- What is registered under a provider was listed by it or is an entry of the catalog, and is its own. -/
theorem registeredUnder_cases {id : String} (h : RegisteredUnder providers runs p id) :
    (∃ earlier, some earlier ∈ listings providers runs p ∧ ∃ i ∈ earlier,
        (normalizeModelId i.id).canonical = id ∧ ¬ TakenOver (registrations providers runs) p i) ∨
      ∃ c ∈ defaultModelCatalog, c.provider = p ∧ c.modelId = id := by
  obtain ⟨m, hm, rfl⟩ := h
  obtain ⟨hlist, hprovider⟩ := mem_listModelsForProvider.mp hm
  rcases mem_listModels_after hlist with ⟨⟨i, q⟩, hg, hlast, rfl⟩ | ⟨hold, -⟩
  · obtain rfl : q = p := hprovider
    obtain ⟨earlier, hearlier, hi⟩ := mem_registrations_iff.mp hg
    refine Or.inl ⟨earlier, hearlier, i, hi, rfl, ?_⟩
    rintro ⟨g', hlast', hkey, hne⟩
    exact hne (congrArg Registration.provider (hlast'.unique hlast hkey))
  · exact Or.inr ⟨m, initial_listModels ▸ hold, hprovider, rfl⟩

/-- **The registry follows the last listing exactly when the listings lost no model**, and no other provider
    took the key of one: the model ids registered under a provider are those of its last listing and its
    entries of the catalog. -/
theorem registry_follows_listing_iff (providers : ProviderRegistry) (runs : List DiscoveryRun) (p : String)
    (listed : List ModelInfo) (hlast : lastListing providers runs p = some listed) :
    (∀ id, RegisteredUnder providers runs p id ↔ ListedOrCatalogued listed p id) ↔
      Follows providers runs p listed := by
  have hlisted := mem_listings_of_lastListing hlast
  constructor
  · intro hexact
    constructor
    · intro earlier hearlier i hi
      by_cases htaken : TakenOver (registrations providers runs) p i
      · exact Or.inr htaken
      · have hg := mem_registrations_iff.mpr ⟨earlier, hearlier, hi⟩
        exact Or.inl ((hexact _).mp (registered_of_mem hg htaken))
    · intro i hi htaken
      have hregistered := (hexact _).mpr (Or.inl ⟨i, hi, rfl⟩)
      exact unregistered_of_takenOver htaken hregistered
  · intro hfollows id
    constructor
    · intro hregistered
      -- everything ever listed is still there, so all of it has to be listed still
      rcases registeredUnder_cases hregistered with ⟨earlier, hearlier, i, hi, rfl, hown⟩ | hcatalog
      · exact (hfollows.kept earlier hearlier i hi).resolve_right hown
      · exact Or.inr hcatalog
    · rintro (⟨i, hi, rfl⟩ | ⟨c, hc, rfl, rfl⟩)
      · have hg := mem_registrations_iff.mpr ⟨listed, hlisted, hi⟩
        exact registered_of_mem hg (hfollows.own i hi)
      · obtain ⟨e, he, hprovider, hid⟩ := get_catalog_key providers runs hc
        exact ⟨e, mem_listModelsForProvider.mpr ⟨ModelRegistry.mem_listModels_of_get he, hprovider⟩, hid⟩

/-- One ollama adapter. -/
def ollamaOnly : ProviderRegistry := ProviderRegistry.empty.register ⟨"ollama", .ollama⟩

/-- A listing of models with nothing but their ids. -/
def listingOf (ids : List String) : List ModelInfo := ids.map fun id => ⟨id, "ollama", none, none⟩

/-- Two runs: the adapter lists `first`, then `second`. -/
def relisted (first second : List String) : List DiscoveryRun :=
  [.byName "ollama" (.returned (listingOf first)), .byName "ollama" (.returned (listingOf second))]

theorem registry_follows_listing_iff_grown :
    Follows ollamaOnly (relisted ["qwen"] ["qwen", "phi"]) "ollama" (listingOf ["qwen", "phi"]) ∧
      ∀ id, RegisteredUnder ollamaOnly (relisted ["qwen"] ["qwen", "phi"]) "ollama" id ↔
        ListedOrCatalogued (listingOf ["qwen", "phi"]) "ollama" id := by
  have hlistings : listings ollamaOnly (relisted ["qwen"] ["qwen", "phi"]) "ollama" =
      [some (listingOf ["qwen"]), some (listingOf ["qwen", "phi"])] := by decide
  have hfollows : Follows ollamaOnly (relisted ["qwen"] ["qwen", "phi"]) "ollama"
      (listingOf ["qwen", "phi"]) := by
    refine Follows.of_colonFree (by decide) (by decide) fun earlier hearlier i hi => ?_
    rw [hlistings] at hearlier
    have hgrown : i ∈ listingOf ["qwen", "phi"] := by
      rcases List.mem_cons.mp hearlier with heq | hrest
      · obtain rfl : earlier = listingOf ["qwen"] := Option.some.inj heq
        exact List.mem_append_left (listingOf ["phi"]) hi
      · obtain rfl : earlier = listingOf ["qwen", "phi"] := Option.some.inj (List.mem_singleton.mp hrest)
        exact hi
    exact Or.inl ⟨i, hgrown, rfl⟩
  exact ⟨hfollows, (registry_follows_listing_iff _ _ _ _ (by decide)).mpr hfollows⟩

/-- The server swaps `qwen` for `phi`, and `qwen` stays registered. -/
theorem swapped_model_stays :
    ¬ ∀ (providers : ProviderRegistry) (runs : List DiscoveryRun) (p : String) (listed : List ModelInfo),
      lastListing providers runs p = some listed →
      ∀ id, RegisteredUnder providers runs p id ↔ ListedOrCatalogued listed p id := by
  intro h
  have hexact := h ollamaOnly (relisted ["qwen"] ["phi"]) "ollama" (listingOf ["phi"]) (by decide)
  have hstays : RegisteredUnder ollamaOnly (relisted ["qwen"] ["phi"]) "ollama" "qwen" :=
    ⟨toCapabilityMatrix ⟨"qwen", "ollama", none, none⟩ "ollama", by decide, by decide⟩
  rcases (hexact "qwen").mp hstays with ⟨i, hi, hid⟩ | ⟨c, hc, -, hid⟩
  · obtain rfl := List.mem_singleton.mp hi
    exact absurd hid (by decide)
  · have hfresh : ∀ c ∈ defaultModelCatalog, c.modelId ≠ "qwen" := by decide
    exact hfresh c hc hid

end Sirius
