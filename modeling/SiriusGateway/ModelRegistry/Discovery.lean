import SiriusGateway.Core.Types
import SiriusGateway.ModelRegistry.Service
import Mathlib.Data.List.Infix

/-!
# `ModelRegistry.Discovery` — registering what providers list

`ModelDiscoveryService` asks providers for their models and upserts a guessed capability matrix for each
listed id. The upstream answers are inputs of the model: a `Probe` is what one `listModels()` call did.

## Contents
- **One listed id.** `normalizeModelId`, `looksLikeEmbeddingModel`, `toCapabilityMatrix`.
- **One provider, one run.** `registerModels`, `backfillProvider`, `DiscoveryRun.apply`.
- **Runs as registrations.** Any sequence of runs is the sequence of `addModel` calls `registrations` lists
  (`applyAll_eq_addModels`), so a key holds the last of them under it (`get_applyAll`).
-/

namespace Sirius

/-! ## One listed id -/

/-- The result of `normalizeModelId`. -/
structure NormalizedModelId where
  canonical : String
  original : String
  hadPrefix : Bool
  deriving DecidableEq

/-- `normalizeModelId(rawId)`: strip the prefix of an id with exactly one slash strictly inside. -/
def normalizeModelId (rawId : String) : NormalizedModelId :=
  let untouched : NormalizedModelId := ⟨rawId, rawId, false⟩
  match rawId.toList.idxOf? '/' with
  | none => untouched
  | some first =>
      let tail := rawId.toList.drop (first + 1)
      -- a second slash: a path that may be meaningful to the upstream
      if '/' ∈ tail then untouched
      else if tail = [] ∨ first = 0 then untouched
      else ⟨String.ofList tail, rawId, true⟩

/-- An id is left alone, or loses what stands before its only slash. -/
theorem normalizeModelId_cases (rawId : String) :
    normalizeModelId rawId = ⟨rawId, rawId, false⟩ ∨
      ∃ tail, normalizeModelId rawId = ⟨String.ofList tail, rawId, true⟩ ∧ '/' ∈ rawId.toList ∧
        '/' ∉ tail := by
  simp only [normalizeModelId]
  split
  · exact Or.inl rfl
  · rename_i first hfirst
    split
    · exact Or.inl rfl
    · split
      · exact Or.inl rfl
      · exact Or.inr ⟨_, rfl, List.isSome_idxOf?.mp (by rw [hfirst]; rfl), ‹_›⟩

theorem canonical_of_untouched {rawId : String} (h : (normalizeModelId rawId).hadPrefix = false) :
    (normalizeModelId rawId).canonical = rawId := by
  rcases normalizeModelId_cases rawId with heq | ⟨tail, heq, -⟩
  · rw [heq]
  · rw [heq] at h
    cases h

/-- A stripped id has lost its only slash. -/
theorem slash_of_hadPrefix {rawId : String} (h : (normalizeModelId rawId).hadPrefix = true) :
    '/' ∈ rawId.toList ∧ '/' ∉ (normalizeModelId rawId).canonical.toList := by
  rcases normalizeModelId_cases rawId with heq | ⟨tail, heq, hslash, htail⟩
  · rw [heq] at h
    cases h
  · rw [heq, String.toList_ofList]
    exact ⟨hslash, htail⟩

/-- An id that is stripped is nobody's canonical id. -/
theorem canonical_ne_of_hadPrefix {i j : String} (h : (normalizeModelId i).hadPrefix = true) :
    (normalizeModelId j).canonical ≠ i := by
  intro heq
  cases hj : (normalizeModelId j).hadPrefix with
  | true => exact (slash_of_hadPrefix hj).2 (heq ▸ (slash_of_hadPrefix h).1)
  | false =>
      rw [canonical_of_untouched hj] at heq
      rw [heq, h] at hj
      cases hj

/-- `looksLikeEmbeddingModel(id)`. Each of the four patterns contains `embed`, and no character outside
    ASCII lower-cases into a letter of it, so the ASCII mapping decides the same ids as `toLowerCase`. -/
def looksLikeEmbeddingModel (id : String) : Bool :=
  let lower := id.toList.map Char.toLower
  decide ("embed".toList <:+: lower) || decide ("text-embedding".toList <+: lower)
    || decide ("-embed".toList <:+ lower) || decide ("-embedding-".toList <:+: lower)

/-- `toCapabilityMatrix(info, providerName)`. -/
def toCapabilityMatrix (info : ModelInfo) (providerName : String) : ModelCapabilityMatrix :=
  let n := normalizeModelId info.id
  let embeddings := looksLikeEmbeddingModel n.canonical
  { modelId := n.canonical
    provider := providerName
    aliases := if n.hadPrefix then [n.canonical, n.original] else [n.canonical]
    capabilities :=
      { chat := !embeddings, streaming := !embeddings, tools := false, embeddings := embeddings
        vision := false, jsonMode := false }
    contextWindow := 8192
    maxOutputTokens := if embeddings then 0 else 4096 }

theorem original_normalizeModelId (rawId : String) : (normalizeModelId rawId).original = rawId := by
  rcases normalizeModelId_cases rawId with heq | ⟨tail, heq, -⟩ <;> rw [heq]

/-- An entry is aliased by its own model id, and by the listed id when that was stripped. -/
theorem mem_aliases_toCapabilityMatrix {info : ModelInfo} {providerName a : String} :
    a ∈ (toCapabilityMatrix info providerName).aliases ↔
      a = (normalizeModelId info.id).canonical ∨
        ((normalizeModelId info.id).hadPrefix = true ∧ a = info.id) := by
  simp only [toCapabilityMatrix]
  split
  · rename_i h
    simp [h, original_normalizeModelId]
  · rename_i h
    simp [h]

/-! ## One provider, one run -/

/-- What a `listModels()` call did (`probeProvider`). -/
inductive Probe where
  | threw
  | returned (models : List ModelInfo)
  deriving DecidableEq

/-- `registerModels(provider, models)`: the registry after it, and the number of models added. -/
def registerModels (registry : ModelRegistry) (provider : AiProvider) (models : List ModelInfo) :
    ModelRegistry × Nat :=
  (registry.addModels (models.map fun info => toCapabilityMatrix info provider.name), models.length)

/-- The list `backfillProvider` registers: the first probe's, or at boot the second's after an empty
    first; nothing when the deciding probe threw. -/
def Probe.listed (retryOnZero : Bool) (first second : Probe) : Option (List ModelInfo) :=
  match first with
  | .threw => none
  | .returned models =>
      if models.length > 0 ∨ retryOnZero = false then some models
      else match second with
        | .threw => none
        | .returned models => some models

/-- `backfillProvider(provider, opts)`; `second` is only asked for when a boot-time first probe came
    back empty. -/
def backfillProvider (registry : ModelRegistry) (provider : AiProvider) (retryOnZero : Bool)
    (first second : Probe) : ModelRegistry × Nat :=
  match Probe.listed retryOnZero first second with
  | none => (registry, 0)
  | some models => registerModels registry provider models

/-- One adapter's part of a `backfillAll` run. -/
structure Completion where
  provider : AiProvider
  first : Probe
  second : Probe

/-- A discovery run. `backfillAll` asks all registered providers concurrently; each registers its models in
    one uninterrupted step when its listing completes, so the run is given by the order of completion. -/
inductive DiscoveryRun where
  | all (completions : List Completion)
  | byName (name : String) (probe : Probe)

/-- `backfillAll()` / `backfillProviderByName(name)`. -/
def DiscoveryRun.apply (providers : ProviderRegistry) (registry : ModelRegistry) :
    DiscoveryRun → ModelRegistry
  | .all completions =>
      completions.foldl (fun r c => (backfillProvider r c.provider true c.first c.second).1) registry
  | .byName name probe =>
      match providers.get name with
      | none => registry
      | some provider => (backfillProvider registry provider false probe probe).1

/-- A finite sequence of discovery runs. -/
def applyAll (providers : ProviderRegistry) (registry : ModelRegistry) (runs : List DiscoveryRun) :
    ModelRegistry :=
  runs.foldl (DiscoveryRun.apply providers) registry

/-! ## Runs as registrations -/

/-- A model a run registers: the listed entry and the provider that listed it. -/
structure Registration where
  info : ModelInfo
  provider : String
  deriving DecidableEq

/-- The matrix a registration adds. -/
def Registration.matrix (g : Registration) : ModelCapabilityMatrix :=
  toCapabilityMatrix g.info g.provider

/-- The model id a registration is filed under. -/
def Registration.modelId (g : Registration) : String := (normalizeModelId g.info.id).canonical

/-- The composite key a registration is filed under. -/
def Registration.key (g : Registration) : String := g.provider ++ ":" ++ g.modelId

@[simp] theorem Registration.matrix_key (g : Registration) : g.matrix.key = g.key := rfl
@[simp] theorem Registration.matrix_modelId (g : Registration) : g.matrix.modelId = g.modelId := rfl
@[simp] theorem Registration.matrix_provider (g : Registration) : g.matrix.provider = g.provider := rfl

/-- Registrations of one provider under one key are of one model id. -/
theorem Registration.modelId_eq_of_key {g h : Registration} (hkey : g.key = h.key)
    (hprovider : g.provider = h.provider) : g.modelId = h.modelId := by
  unfold Registration.key at hkey
  rw [hprovider] at hkey
  exact (String.append_right_inj (h.provider ++ ":")).mp hkey

theorem Registration.colon_mem_key (g : Registration) : ':' ∈ g.key.toList :=
  Sirius.colon_mem_key g.matrix

/-- Discovery never claims tool support. -/
@[simp] theorem Registration.matrix_tools (g : Registration) : g.matrix.capabilities.tools = false := rfl

/-- The registrations of one provider's part of a run. -/
def Probe.registrations (provider : AiProvider) (retryOnZero : Bool) (first second : Probe) :
    List Registration :=
  ((Probe.listed retryOnZero first second).getD []).map fun info => ⟨info, provider.name⟩

/-- The models a run registers, in order. -/
def DiscoveryRun.registrations (providers : ProviderRegistry) : DiscoveryRun → List Registration
  | .all completions =>
      completions.flatMap fun c => Probe.registrations c.provider true c.first c.second
  | .byName name probe =>
      match providers.get name with
      | none => []
      | some provider => Probe.registrations provider false probe probe

/-- The models a sequence of runs registers, in order. -/
def registrations (providers : ProviderRegistry) (runs : List DiscoveryRun) : List Registration :=
  runs.flatMap (DiscoveryRun.registrations providers)

theorem addModels_append (r : ModelRegistry) (xs ys : List ModelCapabilityMatrix) :
    r.addModels (xs ++ ys) = (r.addModels xs).addModels ys := List.foldl_append

theorem backfillProvider_eq (r : ModelRegistry) (p : AiProvider) (retry : Bool) (first second : Probe) :
    (backfillProvider r p retry first second).1 =
      r.addModels ((Probe.registrations p retry first second).map Registration.matrix) := by
  unfold backfillProvider Probe.registrations
  cases Probe.listed retry first second with
  | none => rfl
  | some models =>
      simp only [registerModels, Option.getD_some, List.map_map]
      rfl

theorem foldl_backfill_eq (completions : List Completion) :
    ∀ r : ModelRegistry,
      completions.foldl (fun r c => (backfillProvider r c.provider true c.first c.second).1) r =
        r.addModels ((completions.flatMap fun c =>
          Probe.registrations c.provider true c.first c.second).map Registration.matrix) := by
  induction completions with
  | nil => exact fun _ => rfl
  | cons c rest ih =>
      intro r
      rw [List.foldl_cons, ih, backfillProvider_eq, List.flatMap_cons, List.map_append,
        addModels_append]

/-- A run is the sequence of `addModel` calls it makes. -/
theorem apply_eq_addModels (providers : ProviderRegistry) (r : ModelRegistry) (run : DiscoveryRun) :
    run.apply providers r =
      r.addModels ((run.registrations providers).map Registration.matrix) := by
  cases run with
  | all completions => exact foldl_backfill_eq completions r
  | byName name probe =>
      simp only [DiscoveryRun.apply, DiscoveryRun.registrations]
      cases providers.get name with
      | none => rfl
      | some p => exact backfillProvider_eq r p false probe probe

/-- **Any sequence of runs is a sequence of registrations.** -/
theorem applyAll_eq_addModels (providers : ProviderRegistry) (runs : List DiscoveryRun) :
    ∀ r : ModelRegistry, applyAll providers r runs =
      r.addModels ((registrations providers runs).map Registration.matrix) := by
  induction runs with
  | nil => exact fun _ => rfl
  | cons run rest ih =>
      intro r
      show applyAll providers (run.apply providers r) rest = _
      rw [ih, apply_eq_addModels, ← addModels_append, ← List.map_append]
      rfl

/-- A key holds the last registration under it. -/
theorem get_applyAll (providers : ProviderRegistry) (r : ModelRegistry) (runs : List DiscoveryRun)
    (k : String) : (applyAll providers r runs).models.get k =
      (((registrations providers runs).reverse.find? fun g => g.key = k).map Registration.matrix).or
        (r.models.get k) := by
  rw [applyAll_eq_addModels, ModelRegistry.get_addModels, ← List.map_reverse, List.find?_map]
  rfl

/-- The last registration under its composite key. -/
def Last (gs : List Registration) (g : Registration) : Prop :=
  (gs.reverse.find? fun h => h.key = g.key) = some g

/-- Every registered key has a last registration. -/
theorem exists_last {gs : List Registration} {g : Registration} (hg : g ∈ gs) :
    ∃ g', Last gs g' ∧ g'.key = g.key := by
  have hfind : (gs.reverse.find? fun h => h.key = g.key) ≠ none := fun hnone =>
    absurd (List.find?_eq_none.mp hnone g (List.mem_reverse.mpr hg)) (by simp)
  obtain ⟨g', hg'⟩ := Option.ne_none_iff_exists'.mp hfind
  have hkey : g'.key = g.key := by simpa using List.find?_some hg'
  refine ⟨g', ?_, hkey⟩
  unfold Last
  rwa [hkey]

/-- The last registration of a later part is the last of the whole. -/
theorem Last.append_left {gs : List Registration} {g : Registration} (hg : Last gs g)
    (earlier : List Registration) : Last (earlier ++ gs) g := by
  unfold Last at hg ⊢
  rw [List.reverse_append, List.find?_append, hg, Option.some_or]

/-- A key has one last registration. -/
theorem Last.unique {gs : List Registration} {g h : Registration} (hg : Last gs g) (hh : Last gs h)
    (hkey : g.key = h.key) : g = h := by
  unfold Last at hg hh
  rw [← hkey, hg] at hh
  exact Option.some.inj hh

theorem Last.mem {gs : List Registration} {g : Registration} (hg : Last gs g) : g ∈ gs :=
  List.mem_reverse.mp (List.mem_of_find?_eq_some hg)

section Runs
variable {providers : ProviderRegistry} {runs : List DiscoveryRun} {r : ModelRegistry}
  {m : ModelCapabilityMatrix} {g : Registration}

/-- The last registration under a key is the entry there. -/
theorem get_of_last (hg : Last (registrations providers runs) g) :
    (applyAll providers r runs).models.get g.key = some g.matrix := by
  have hfind : ((registrations providers runs).reverse.find? fun h => h.key = g.key) = some g := hg
  rw [get_applyAll, hfind]
  rfl

/-- The entries after the runs: the last registration under a key, or a catalog entry whose key was not
    registered again. -/
theorem mem_listModels_after
    (h : m ∈ (applyAll providers r runs).listModels) :
    (∃ g ∈ registrations providers runs, Last (registrations providers runs) g ∧ m = g.matrix) ∨
      (m ∈ r.listModels ∧ ∀ g ∈ registrations providers runs, g.key ≠ m.key) := by
  have hget := ModelRegistry.get_of_mem_listModels h
  rw [get_applyAll] at hget
  rcases Option.or_eq_some_iff.mp hget with hlast | ⟨hnone, hold⟩
  · obtain ⟨g, hg, rfl⟩ := Option.map_eq_some_iff.mp hlast
    exact Or.inl ⟨g, List.mem_reverse.mp (List.mem_of_find?_eq_some hg), hg, rfl⟩
  · refine Or.inr ⟨ModelRegistry.mem_listModels_of_get hold, fun g hg => ?_⟩
    simpa using List.find?_eq_none.mp (Option.map_eq_none_iff.mp hnone) g (List.mem_reverse.mpr hg)

end Runs

end Sirius
