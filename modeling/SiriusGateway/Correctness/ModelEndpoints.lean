import SiriusGateway.Correctness.DiscoveryOrder
import SiriusGateway.Correctness.Listing
import SiriusGateway.Gateway.Models

/-!
# `Correctness.ModelEndpoints` — the list of models and the lookup of one

The list shows ids as the providers list them, the lookup knows only what discovery filed them under. After a
`backfillAll` with the same listings the two agree exactly when every id is listed once, under a name discovery
leaves alone, and no other provider took over its key (`endpoints_agree_iff`).

## Contents
- **What was listed.** The live listings are the registrations of the run, up to their order.
- **What is found.** The model ids of the registry after the run.
- **The condition.** `Findable`.
- **The result**, and a provider whose ids have a prefix.
-/

namespace Sirius

open ModelsController

/-! ## What was listed -/

/-- The answers of the providers do not change. -/
def Upstreams.steady (results : AiProvider → Probe) : Upstreams := ⟨results, results⟩

/-- The models the run registers, in the order they arrive in. -/
def arrivals (providers : ProviderRegistry) (results : AiProvider → Probe) (order : List AiProvider) :
    List Registration :=
  registrations providers [completing (.steady results) order]

/-- The id a registration was listed under. -/
def Registration.listedId (g : Registration) : String := g.info.id

variable {providers : ProviderRegistry} {results : AiProvider → Probe} {order : List AiProvider}
  {g h : Registration} {id : String}

/-- Asking again after an empty answer changes nothing when the answer stays. -/
theorem listed_steady (p : AiProvider) : Probe.listed true (results p) (results p) =
    match results p with
    | .threw => none
    | .returned models => some models := by
  cases hresult : results p with
  | threw => rfl
  | returned models =>
      simp only [Probe.listed]
      split <;> rfl

theorem map_listedId_steady (p : AiProvider) :
    ((Upstreams.steady results).registrations p).map Registration.listedId =
      (match results p with
        | .threw => []
        | .returned models => models).map ModelInfo.id := by
  unfold Upstreams.registrations Probe.registrations
  rw [show (Upstreams.steady results).first p = results p from rfl,
    show (Upstreams.steady results).second p = results p from rfl, listed_steady, List.map_map]
  cases results p with
  | threw => rfl
  | returned models => rfl

/-- The ids listed now are those of the run. -/
theorem perm_listedId (horder : order.Perm providers.getAll) :
    ((gatewayModels providers results).map ModelInfo.id).Perm
      ((arrivals providers results order).map Registration.listedId) := by
  unfold gatewayModels arrivals
  rw [registrations_completing, List.map_flatMap, List.map_flatMap]
  simp only [map_listedId_steady]
  exact List.Perm.flatMap_right _ horder.symm

/-! ## What is found -/

/-- The model ids of the registry after the run: the catalog's, and those of the registrations nobody filed
    over. -/
theorem modelId_after_iff :
    (∃ m ∈ (bootRegistry providers (.steady results) order).listModels, m.modelId = id) ↔
      (∃ c ∈ defaultModelCatalog, c.modelId = id) ∨
        ∃ g, Last (arrivals providers results order) g ∧ g.modelId = id := by
  unfold bootRegistry arrivals
  constructor
  · rintro ⟨m, hm, hid⟩
    rcases mem_listModels_after hm with ⟨g, -, hlast, rfl⟩ | ⟨hold, -⟩
    · exact Or.inr ⟨g, hlast, hid⟩
    · exact Or.inl ⟨m, initial_listModels ▸ hold, hid⟩
  · rintro (⟨c, hc, hid⟩ | ⟨g, hlast, hid⟩)
    · obtain ⟨e, he, -, heid⟩ := get_catalog_key providers [completing (.steady results) order] hc
      exact ⟨e, ModelRegistry.mem_listModels_of_get he, heid.trans hid⟩
    · exact ⟨g.matrix, ModelRegistry.mem_listModels_of_get (get_of_last hlast), hid⟩

/-- No id of the catalog would be stripped. -/
theorem catalog_hadPrefix : ∀ c ∈ defaultModelCatalog, (normalizeModelId c.modelId).hadPrefix = false := by
  decide

/-! ## The condition -/

/-- Every id is listed once, is left alone by discovery, and is the catalog's or stays filed under its
    provider. -/
structure Findable (gs : List Registration) : Prop where
  distinct : (gs.map Registration.listedId).Nodup
  plain : ∀ g ∈ gs, (normalizeModelId g.listedId).hadPrefix = false
  own : ∀ g ∈ gs, (∃ c ∈ defaultModelCatalog, c.modelId = g.listedId) ∨ ¬ TakenOver gs g.provider g.info

/-- Without colons in the names of the providers, it is only that the ids are distinct and not stripped. -/
theorem Findable.of_colonFree {gs : List Registration} (hgs : ∀ g ∈ gs, ':' ∉ g.provider.toList)
    (hdistinct : (gs.map Registration.listedId).Nodup)
    (hplain : ∀ g ∈ gs, (normalizeModelId g.listedId).hadPrefix = false) : Findable gs where
  distinct := hdistinct
  plain := hplain
  own := fun g hg => Or.inr (not_takenOver_of_colonFree (hgs g hg) hgs)

/-- A findable id is a model id of the registry. -/
theorem Findable.registered (hfind : Findable (arrivals providers results order))
    (hg : g ∈ arrivals providers results order) :
    ∃ m ∈ (bootRegistry providers (.steady results) order).listModels, m.modelId = g.listedId := by
  apply modelId_after_iff.mpr
  rcases hfind.own g hg with hcatalog | hown
  · exact Or.inl hcatalog
  · right
    obtain ⟨x, hlast, hkey⟩ := exists_last hg
    have hprovider : x.provider = g.provider := by
      by_contra hne
      exact hown ⟨x, hlast, hkey, hne⟩
    refine ⟨x, hlast, ?_⟩
    rw [Registration.modelId_eq_of_key hkey hprovider]
    exact canonical_of_untouched (hfind.plain g hg)

/-- A model id of the registry that was listed was left alone. -/
theorem plain_of_registered
    (hm : ∃ m ∈ (bootRegistry providers (.steady results) order).listModels, m.modelId = id) :
    (normalizeModelId id).hadPrefix = false := by
  rcases modelId_after_iff.mp hm with ⟨c, hc, rfl⟩ | ⟨x, -, hid⟩
  · exact catalog_hadPrefix c hc
  · cases hstrip : (normalizeModelId id).hadPrefix with
    | false => rfl
    | true => exact absurd hid (canonical_ne_of_hadPrefix hstrip)

/-- Where every listed id is a model id of the registry and is listed once, the ids are findable. -/
theorem Findable.of_registered
    (hdistinct : ((arrivals providers results order).map Registration.listedId).Nodup)
    (hall : ∀ g ∈ arrivals providers results order,
      ∃ m ∈ (bootRegistry providers (.steady results) order).listModels, m.modelId = g.listedId) :
    Findable (arrivals providers results order) := by
  have hplain : ∀ g ∈ arrivals providers results order, (normalizeModelId g.listedId).hadPrefix = false :=
    fun g hg => plain_of_registered (hall g hg)
  refine ⟨hdistinct, hplain, fun g hg => ?_⟩
  rcases modelId_after_iff.mp (hall g hg) with hcatalog | ⟨x, hlast, hid⟩
  · exact Or.inl hcatalog
  · right
    -- the registration filed under the id was listed under it, so it is this one
    have hlisted : x.listedId = g.listedId := by
      rw [← hid]
      exact (canonical_of_untouched (hplain x hlast.mem)).symm
    obtain rfl : x = g := List.inj_on_of_nodup_map hdistinct hlast.mem hg hlisted
    rintro ⟨y, hy, hkey, hne⟩
    obtain rfl : y = x := hy.unique hlast hkey
    exact hne rfl

/-! ## The result -/

/-- After a `backfillAll` whose listings complete in the given order, the list has every registered model id and
    every listed id, none twice, and the lookup finds all it shows. -/
structure EndpointsAgree (providers : ProviderRegistry) (results : AiProvider → Probe) (order : List AiProvider)
    (now : Int) : Prop where
  registered : ∀ m ∈ (bootRegistry providers (.steady results) order).listModels,
    m.modelId ∈ (listModels providers results (bootRegistry providers (.steady results) order) now).map
      OpenAiModel.id
  listed : ∀ p ∈ providers.getAll, ∀ models, results p = .returned models → ∀ info ∈ models,
    info.id ∈ (listModels providers results (bootRegistry providers (.steady results) order) now).map
      OpenAiModel.id
  once : ((listModels providers results (bootRegistry providers (.steady results) order) now).map
    OpenAiModel.id).Nodup
  found : ∀ id ∈ (listModels providers results (bootRegistry providers (.steady results) order) now).map
      OpenAiModel.id,
    ∃ model, getModel (bootRegistry providers (.steady results) order) now id = .ok model

/-- **The models endpoints agree exactly when discovery can file every id as it is listed**: each is listed
    once, is not stripped, and is the catalog's or stays filed under the provider that listed it. -/
theorem endpoints_agree_iff (providers : ProviderRegistry) (results : AiProvider → Probe)
    (order : List AiProvider) (now : Int) (horder : order.Perm providers.getAll) :
    EndpointsAgree providers results order now ↔ Findable (arrivals providers results order) := by
  have hperm : ((gatewayModels providers results).map ModelInfo.id).Perm
      ((arrivals providers results order).map Registration.listedId) := perm_listedId horder
  constructor
  · intro hagree
    apply Findable.of_registered
    · exact hperm.nodup_iff.mp (nodup_map_id_listModels.mp hagree.once)
    · intro g hg
      have hlive := hperm.mem_iff.mpr (List.mem_map_of_mem hg)
      exact getModel_eq_ok_iff.mp (hagree.found g.listedId (mem_map_id_listModels.mpr (Or.inl hlive)))
  · intro hfind
    refine ⟨?_, ?_, ?_, ?_⟩
    · intro m hm
      exact mem_map_id_listModels.mpr (Or.inr ⟨m, hm, rfl⟩)
    · intro p hp models hresult info hinfo
      have hlive : info ∈ gatewayModels providers results :=
        List.mem_flatMap.mpr ⟨p, hp, by simpa [hresult] using hinfo⟩
      exact mem_map_id_listModels.mpr (Or.inl (List.mem_map_of_mem hlive))
    · exact nodup_map_id_listModels.mpr (hperm.nodup_iff.mpr hfind.distinct)
    · intro id hid
      apply getModel_eq_ok_iff.mpr
      rcases mem_map_id_listModels.mp hid with hlive | hregistered
      · obtain ⟨g, hg, rfl⟩ := List.mem_map.mp (hperm.mem_iff.mp hlive)
        exact hfind.registered hg
      · exact hregistered

/-- Each of the two servers lists a model of its own. -/
def eachServes (p : AiProvider) : Probe :=
  .returned [⟨if p.name = "left" then "qwen" else "phi", p.name, none, none⟩]

theorem endpoints_agree_iff_two_servers :
    twoServers.getAll.Perm twoServers.getAll ∧
      (EndpointsAgree twoServers eachServes twoServers.getAll 0 ↔
        Findable (arrivals twoServers eachServes twoServers.getAll)) ∧
      Findable (arrivals twoServers eachServes twoServers.getAll) :=
  ⟨.refl _, endpoints_agree_iff twoServers eachServes twoServers.getAll 0 (.refl _),
    Findable.of_colonFree (by decide) (by decide) (by decide)⟩

/-- An adapter whose upstream puts `models/` in front of its ids. -/
def prefixing : ProviderRegistry := ProviderRegistry.empty.register ⟨"gemini", .fromFile "gemini"⟩

/-- What that upstream lists. -/
def listsPrefixed (p : AiProvider) : Probe := .returned [⟨"models/gemini-2.5-flash", p.name, none, none⟩]

/-- The listed id is not found. -/
theorem prefixed_id_not_found :
    ¬ ∀ (providers : ProviderRegistry) (results : AiProvider → Probe) (order : List AiProvider) (now : Int),
      order.Perm providers.getAll → EndpointsAgree providers results order now := by
  intro h
  have hagree := h prefixing listsPrefixed prefixing.getAll 0 (.refl _)
  have hlisted := hagree.listed ⟨"gemini", .fromFile "gemini"⟩ (by decide) _ rfl
    ⟨"models/gemini-2.5-flash", "gemini", none, none⟩ (List.mem_singleton.mpr rfl)
  have hfound := getModel_eq_ok_iff.mp (hagree.found _ hlisted)
  exact absurd (plain_of_registered hfound) (by decide)

end Sirius
