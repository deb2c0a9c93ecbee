import SiriusGateway.ModelRegistry.Service
import SiriusGateway.Lib.Upserts

/-!
# `Correctness.RegistryLog` — the model registry and the log of its registrations

The registry of a running gateway is given by what was registered, in order: the catalog by the constructor, the
rest by `addModel`. Resolution meets its reference over every such log (`resolveModel_eq_reference`). As a map on
pairs of a provider and a model id the registry is faithful exactly where the string `provider:modelId` tells the
pairs apart (`registry_faithful_iff`): a colon may stand in either part.

## Contents
- **Logs.** `registered`, and what the registry holds after it.
- **Pairs.** `Faithful`, `Unambiguous`, the result, and two pairs with one key.
- **Resolution.** `resolveReference` and the result.
-/

namespace Sirius

open ModelRegistry

/-! ## Logs -/

/-- What has been registered after the constructor and the `addModel` calls. -/
def registered (added : List ModelCapabilityMatrix) : List ModelCapabilityMatrix := defaultModelCatalog ++ added

/-- The registry after the `addModel` calls. -/
def registryAfter (added : List ModelCapabilityMatrix) : ModelRegistry := ModelRegistry.initial.addModels added

theorem registryAfter_eq (added : List ModelCapabilityMatrix) :
    registryAfter added = ModelRegistry.empty.addModels (registered added) := List.foldl_append.symm

/-- The models are those of the log. -/
theorem models_addModels (log : List ModelCapabilityMatrix) :
    (ModelRegistry.empty.addModels log).models = JsMap.ofLog ModelCapabilityMatrix.key log := by
  induction log using List.reverseRecOn with
  | nil => rfl
  | append_singleton log m ih =>
      rw [JsMap.ofLog_concat, ← ih]
      unfold addModels
      rw [List.foldl_append]
      rfl

variable {added : List ModelCapabilityMatrix}

theorem get_registryAfter (added : List ModelCapabilityMatrix) (k : String) :
    (registryAfter added).models.get k = (registered added).lastOf ModelCapabilityMatrix.key k := by
  rw [registryAfter_eq, models_addModels, JsMap.get_ofLog]

theorem listModels_registryAfter (added : List ModelCapabilityMatrix) :
    (registryAfter added).listModels = (registered added).current ModelCapabilityMatrix.key := by
  unfold listModels
  rw [registryAfter_eq, models_addModels, JsMap.values_ofLog]

theorem aliasHead_registryAfter (added : List ModelCapabilityMatrix) (s : String) :
    aliasHead (registryAfter added).aliasMap s =
      ((registered added).find? fun m => s ∈ m.aliases).map (·.key) := by
  rw [registryAfter_eq, aliasHead_addModels]
  rfl

/-! ## Pairs -/

/-- The pair an entry is about. -/
def ModelCapabilityMatrix.pair (m : ModelCapabilityMatrix) : String × String := (m.provider, m.modelId)

/-- The composite key of a pair. -/
def compositeKey (pair : String × String) : String := pair.1 ++ ":" ++ pair.2

/-- The registry answers for a provider and a model id as a map on pairs does: with the matrix added last for the
    pair, one entry for each pair ever added in the order of first addition, and the projections of these. -/
structure Faithful (added : List ModelCapabilityMatrix) (provider modelId : String) : Prop where
  capabilities : (registryAfter added).getCapabilities modelId (some provider) =
    (registered added).lastOf ModelCapabilityMatrix.pair (provider, modelId)
  models : (registryAfter added).listModels = (registered added).current ModelCapabilityMatrix.pair
  ofProvider : (registryAfter added).listModelsForProvider provider =
    ((registered added).current ModelCapabilityMatrix.pair).filter fun m => m.provider = provider
  providers : (registryAfter added).getProvidersForModel modelId =
    (((registered added).current ModelCapabilityMatrix.pair).filter fun m => m.modelId = modelId).map (·.provider)

/-- The log has no two pairs with one key, and no other pair with the key asked for. An empty provider name is
    asked for as no name at all; then the first entry of the model id has to have it. -/
structure Unambiguous (log : List ModelCapabilityMatrix) (provider modelId : String) : Prop where
  apart : ∀ a ∈ log, ∀ b ∈ log, a.key = b.key → a.pair = b.pair
  named : provider ≠ "" → ∀ a ∈ log, a.key = compositeKey (provider, modelId) → a.pair = (provider, modelId)
  unnamed : provider = "" → ∀ a, (log.find? fun m => m.modelId = modelId) = some a → a.provider = ""

/-- The entries are one for each pair exactly when no two pairs of the log have one key. -/
theorem listModels_eq_current_iff :
    (registryAfter added).listModels = (registered added).current ModelCapabilityMatrix.pair ↔
      ∀ a ∈ registered added, ∀ b ∈ registered added, a.key = b.key → a.pair = b.pair := by
  rw [listModels_registryAfter]
  exact @List.current_encode_iff _ _ _ _ _ ModelCapabilityMatrix.pair compositeKey (registered added)

/-- Without a provider name, the first entry of the model id is found. -/
theorem getCapabilities_unnamed
    (hmodels : (registryAfter added).listModels = (registered added).current ModelCapabilityMatrix.pair)
    (modelId : String) :
    (registryAfter added).getCapabilities modelId (some "") =
      ((registered added).find? fun m => m.modelId = modelId).bind fun a =>
        (registered added).lastOf ModelCapabilityMatrix.pair a.pair := by
  have hfind := List.find?_current (fun pair : String × String => decide (pair.2 = modelId))
    ModelCapabilityMatrix.pair (registered added)
  rw [← hmodels] at hfind
  exact hfind

theorem getCapabilities_named {provider : String} (hname : provider ≠ "") (modelId : String) :
    (registryAfter added).getCapabilities modelId (some provider) =
      (registered added).lastOf ModelCapabilityMatrix.key (compositeKey (provider, modelId)) := by
  unfold getCapabilities
  simp only [if_pos hname]
  exact get_registryAfter added _

/-- **The registry is a faithful map on pairs exactly where its keys are unambiguous.** -/
theorem registry_faithful_iff (added : List ModelCapabilityMatrix) (provider modelId : String) :
    Faithful added provider modelId ↔ Unambiguous (registered added) provider modelId := by
  constructor
  · intro h
    have hapart := listModels_eq_current_iff.mp h.models
    refine ⟨hapart, ?_, ?_⟩
    · intro hname a ha hkey
      obtain ⟨last, hlast⟩ := @List.exists_lastOf _ _ _ ModelCapabilityMatrix.key _ _ ha
      have hcapabilities := h.capabilities
      rw [getCapabilities_named hname, ← hkey, hlast] at hcapabilities
      -- the entry under the key is of the pair asked for, and there is only one pair of that key
      rw [← List.key_of_lastOf hcapabilities.symm]
      exact hapart a ha last (List.mem_of_lastOf hlast) (List.key_of_lastOf hlast).symm
    · intro hname a hfirst
      obtain ⟨last, hlast⟩ := @List.exists_lastOf _ _ _ ModelCapabilityMatrix.pair _ _
        (List.mem_of_find?_eq_some hfirst)
      have hcapabilities := h.capabilities
      rw [hname, getCapabilities_unnamed h.models, hfirst, Option.bind_some, hlast] at hcapabilities
      have hpair := (List.key_of_lastOf hlast).symm.trans (List.key_of_lastOf hcapabilities.symm)
      exact congrArg Prod.fst hpair
  · intro h
    have hmodels := listModels_eq_current_iff.mpr h.apart
    refine ⟨?_, hmodels, congrArg (List.filter _) hmodels, congrArg (fun l => (List.filter _ l).map _) hmodels⟩
    by_cases hname : provider = ""
    · rw [hname, getCapabilities_unnamed hmodels]
      cases hfirst : (registered added).find? fun m => m.modelId = modelId with
      | some a =>
          have hid : a.modelId = modelId := by simpa using List.find?_some hfirst
          have hpair : a.pair = ("", modelId) := Prod.ext (h.unnamed hname a hfirst) hid
          rw [Option.bind_some, hpair]
      | none =>
          refine (List.lastOf_eq_none_iff.mpr fun a ha hpair => ?_).symm
          exact absurd (decide_eq_true (congrArg Prod.snd hpair)) (List.find?_eq_none.mp hfirst a ha)
    · rw [getCapabilities_named hname]
      exact @List.lastOf_encode _ _ _ _ _ ModelCapabilityMatrix.pair compositeKey (registered added)
        (provider, modelId) fun a ha hsame => h.named hname a ha hsame

/-- Provider names without a colon keep all pairs apart; nobody need ask for an empty one. -/
theorem Unambiguous.of_colonFree {log : List ModelCapabilityMatrix} {provider modelId : String}
    (hlog : ∀ a ∈ log, ':' ∉ a.provider.toList) (hprovider : ':' ∉ provider.toList) (hname : provider ≠ "") :
    Unambiguous log provider modelId where
  apart := by
    intro a ha b hb hkey
    obtain ⟨hp, hid⟩ := key_parts_of_colonFree (hlog a ha) (hlog b hb) hkey
    exact Prod.ext hp hid
  named := by
    intro _ a ha hkey
    obtain ⟨hp, hid⟩ := key_parts_of_colonFree (hlog a ha) hprovider hkey
    exact Prod.ext hp hid
  unnamed := fun hempty => absurd hempty hname

/-- A registered matrix without anything to it but its provider and its model id. -/
def bareMatrix (provider modelId : String) : ModelCapabilityMatrix where
  modelId := modelId
  provider := provider
  aliases := []
  capabilities := chatCapabilities false false
  contextWindow := 8192
  maxOutputTokens := 4096

/-- Two pairs with the key `ollama:qwen3:8b`: asked for the model of the first, the registry has the second's. -/
theorem colon_in_name_confuses :
    ¬ ∀ (added : List ModelCapabilityMatrix) (provider modelId : String), Faithful added provider modelId := by
  intro h
  have hcapabilities := (h [bareMatrix "ollama" "qwen3:8b", bareMatrix "ollama:qwen3" "8b"] "ollama"
    "qwen3:8b").capabilities
  exact absurd hcapabilities (by decide +kernel)

/-! ## Resolution -/

/-- What a string resolves to, read off the log: the current entry of the key it is; else the first entry of the
    model id it is; else the current entry of the key it was first declared an alias under. -/
def resolveReference (log : List ModelCapabilityMatrix) (s : String) : Option ModelCapabilityMatrix :=
  if ':' ∈ s.toList ∧ ∃ m ∈ log, m.key = s then log.lastOf ModelCapabilityMatrix.key s
  else
    match (log.current ModelCapabilityMatrix.key).find? fun m => m.modelId = s with
    | some m => some m
    | none =>
        match log.find? fun m => s ∈ m.aliases with
        | some m => log.lastOf ModelCapabilityMatrix.key m.key
        | none => none

/-- The three steps of the resolution are the three cases of the reference. -/
theorem resolveEntry_eq_reference (added : List ModelCapabilityMatrix) (s : String) :
    (registryAfter added).resolveEntry s = resolveReference (registered added) s := by
  have hid : ((registryAfter added).models.values.find? fun m => m.modelId = s) =
      ((registered added).current ModelCapabilityMatrix.key).find? fun m => m.modelId = s :=
    congrArg (List.find? _) (listModels_registryAfter added)
  unfold resolveEntry resolveReference
  rw [get_registryAfter, hid, aliasHead_registryAfter]
  by_cases hkey : ':' ∈ s.toList ∧ ∃ m ∈ registered added, m.key = s
  · obtain ⟨hcolon, m, hm, hms⟩ := hkey
    obtain ⟨last, hlast⟩ := @List.exists_lastOf _ _ _ ModelCapabilityMatrix.key _ _ hm
    rw [hms] at hlast
    rw [if_pos hcolon, if_pos ⟨hcolon, m, hm, hms⟩, hlast, Option.some_or, Option.some_or]
  · have hnone : (if ':' ∈ s.toList then (registered added).lastOf ModelCapabilityMatrix.key s else none) = none := by
      by_cases hcolon : ':' ∈ s.toList
      · rw [if_pos hcolon]
        apply List.lastOf_eq_none_iff.mpr
        intro m hm hms
        exact hkey ⟨hcolon, m, hm, hms⟩
      · rw [if_neg hcolon]
    rw [hnone, if_neg hkey, Option.none_or]
    cases hfind : ((registered added).current ModelCapabilityMatrix.key).find? fun m => m.modelId = s with
    | some m => rw [Option.some_or]
    | none =>
        rw [Option.none_or]
        cases halias : (registered added).find? fun m => s ∈ m.aliases with
        | none => rfl
        | some m =>
            simp only [Option.map_some, Option.bind_some]
            exact get_registryAfter added m.key

/-- **Resolution meets its reference over every log of registrations.** An alias never dangles, and what a string
    resolves to is the pair of a listed entry. -/
theorem resolveModel_eq_reference (added : List ModelCapabilityMatrix) (s : String) :
    (registryAfter added).resolveModel s = (resolveReference (registered added) s).map (·.resolved) ∧
      (∀ m ∈ registered added, s ∈ m.aliases → (registryAfter added).resolveModel s ≠ none) ∧
      ∀ resolved, (registryAfter added).resolveModel s = some resolved →
        ∃ e ∈ (registryAfter added).listModels, e.modelId = resolved.modelId ∧ e.provider = resolved.provider := by
  refine ⟨?_, ?_, ?_⟩
  · rw [resolveModel_eq, resolveEntry_eq_reference]
  · intro m hm halias hnone
    rw [resolveModel_eq, Option.map_eq_none_iff] at hnone
    unfold resolveEntry at hnone
    rw [Option.or_eq_none_iff, aliasHead_registryAfter] at hnone
    cases hfirst : (registered added).find? fun m => s ∈ m.aliases with
    | none => exact absurd (decide_eq_true halias) (List.find?_eq_none.mp hfirst m hm)
    | some first =>
        -- the key of the first declaration has an entry ever since
        obtain ⟨last, hlast⟩ := @List.exists_lastOf _ _ _ ModelCapabilityMatrix.key _ _
          (List.mem_of_find?_eq_some hfirst)
        have hdangles := hnone.2
        rw [hfirst, Option.map_some, Option.bind_some, get_registryAfter, hlast] at hdangles
        cases hdangles
  · intro resolved hresolved
    rw [resolveModel_eq] at hresolved
    obtain ⟨e, he, rfl⟩ := Option.map_eq_some_iff.mp hresolved
    exact ⟨e, (resolveEntry_cases he).1, rfl, rfl⟩

end Sirius
