import SiriusGateway.Core.Types
import SiriusGateway.Lib.JsMap
import SiriusGateway.Lib.Lists

/-!
# `ModelRegistry.Service` — the model registry

`ModelRegistryService` files a capability matrix under the composite key `provider:modelId` and remembers,
for every declared alias, the keys that declared it. Two facts hold of every registry and are fields of
the structure: a matrix sits under its own key, and an alias never dangles.

## Contents
- **Registration.** `registerModel`/`addModel`, built on `declareAlias`.
- **Resolution.** `resolveModel` with its three precedence steps, `getCapabilities` and the listings.
- **Resolution by precedence.** One lemma for each of the three steps (`resolveEntry_of_key`, `_of_id`,
  `_of_alias`) and their converse (`resolveEntry_cases`).
- **What registrations change.** For one and for a sequence: the entry under a key (`get_addModels`), the
  order of the keys (`keys_prefix_addModels`) and the entry an alias names (`aliasHead_addModels`).
- **The baked-in models.** `DEFAULT_MODEL_CATALOG`, and the registry a fresh service starts from.
-/

namespace Sirius

/-- The composite key `provider:modelId` of an entry. -/
def ModelCapabilityMatrix.key (m : ModelCapabilityMatrix) : String := m.provider ++ ":" ++ m.modelId

theorem colon_mem_key (m : ModelCapabilityMatrix) : ':' ∈ m.key.toList := by
  simp [ModelCapabilityMatrix.key, String.toList_append]

/-- Provider names without a colon end at the first colon of the key. -/
theorem key_parts_of_colonFree {p q m n : String} (hp : ':' ∉ p.toList) (hq : ':' ∉ q.toList)
    (h : p ++ ":" ++ m = q ++ ":" ++ n) : p = q ∧ m = n := by
  have hlist : p.toList ++ ':' :: m.toList = q.toList ++ ':' :: n.toList := by
    have htoList := congrArg String.toList h
    simpa [String.toList_append] using htoList
  obtain ⟨hname, hid⟩ := List.append_cons_inj_of_not_mem hp hq hlist
  exact ⟨String.toList_inj.mp hname, String.toList_inj.mp hid⟩

/-- The result of `resolveModel`. -/
structure ResolvedModel where
  modelId : String
  provider : String
  deriving DecidableEq

/-- The pair an entry resolves to. -/
def ModelCapabilityMatrix.resolved (m : ModelCapabilityMatrix) : ResolvedModel :=
  ⟨m.modelId, m.provider⟩

/-! ## Aliases -/

/-- One turn of the alias loop of `registerModel`: append `key` to the keys of alias `name` once. -/
def declareAlias (key : String) (aliasMap : JsMap String (List String)) (name : String) :
    JsMap String (List String) :=
  let existing := (aliasMap.get name).getD []
  if key ∈ existing then aliasMap else aliasMap.set name (existing ++ [key])

/-- The key an alias resolves to: the first one that declared it. -/
def aliasHead (aliasMap : JsMap String (List String)) (name : String) : Option String :=
  (aliasMap.get name).bind List.head?

theorem mem_declareAlias {key k a name : String} {am : JsMap String (List String)}
    (h : k ∈ ((declareAlias key am name).get a).getD []) :
    k ∈ (am.get a).getD [] ∨ (k = key ∧ a = name) := by
  simp only [declareAlias] at h
  split at h
  · exact Or.inl h
  · rw [JsMap.get_set] at h
    split at h
    · rename_i ha
      subst ha
      rw [Option.getD_some, List.mem_append, List.mem_singleton] at h
      exact h.imp id (fun hk => ⟨hk, rfl⟩)
    · exact Or.inl h

theorem mem_foldl_declareAlias {key k a : String} {aliases : List String} :
    ∀ {am : JsMap String (List String)},
      k ∈ ((aliases.foldl (declareAlias key) am).get a).getD [] →
      k ∈ (am.get a).getD [] ∨ (k = key ∧ a ∈ aliases) := by
  induction aliases with
  | nil => exact fun h => Or.inl h
  | cons name rest ih =>
      intro am h
      rcases ih h with h' | ⟨hk, ha⟩
      · rcases mem_declareAlias h' with h'' | ⟨hk, ha⟩
        · exact Or.inl h''
        · exact Or.inr ⟨hk, ha ▸ List.mem_cons_self⟩
      · exact Or.inr ⟨hk, List.mem_cons_of_mem _ ha⟩

/-- A declaration decides an alias nobody declared before, and no other. -/
theorem aliasHead_declareAlias (key name a : String) (am : JsMap String (List String)) :
    aliasHead (declareAlias key am name) a =
      (aliasHead am a).or (if a = name then some key else none) := by
  simp only [declareAlias, aliasHead]
  by_cases ha : a = name
  · subst ha
    cases hg : am.get a with
    | none => simp
    | some ks =>
        cases ks with
        | nil => simp
        | cons k ks =>
            by_cases hk : key ∈ k :: ks
            · simp [hk, hg]
            · simp [hk]
  · rw [if_neg ha, Option.or_none]
    split
    · rfl
    · rw [JsMap.get_set_ne _ _ ha]

theorem aliasHead_foldl_declareAlias (key a : String) (aliases : List String) :
    ∀ am : JsMap String (List String),
      aliasHead (aliases.foldl (declareAlias key) am) a =
        (aliasHead am a).or (if a ∈ aliases then some key else none) := by
  induction aliases with
  | nil => simp
  | cons name rest ih =>
      intro am
      rw [List.foldl_cons, ih, aliasHead_declareAlias, Option.or_assoc]
      congr 1
      by_cases ha : a = name <;> by_cases hr : a ∈ rest <;> simp [ha, hr]

/-! ## The registry -/

/-- `ModelRegistryService`. -/
structure ModelRegistry where
  models : JsMap String ModelCapabilityMatrix
  aliasMap : JsMap String (List String)
  /-- Every entry sits under its own composite key. -/
  keyed : ∀ e ∈ models.entries, e.1 = e.2.key
  /-- Every key an alias lists is the key of a registered entry. -/
  anchored : ∀ a, ∀ k ∈ (aliasMap.get a).getD [], k ∈ models.keys

namespace ModelRegistry

/-- A registry without entries. -/
def empty : ModelRegistry where
  models := JsMap.empty
  aliasMap := JsMap.empty
  keyed := fun _ he => absurd he List.not_mem_nil
  anchored := fun _ _ hk => absurd hk List.not_mem_nil

/-- `registerModel(model)`. -/
def registerModel (r : ModelRegistry) (model : ModelCapabilityMatrix) : ModelRegistry where
  models := r.models.set model.key model
  aliasMap := model.aliases.foldl (declareAlias model.key) r.aliasMap
  keyed := by
    intro e he
    rcases JsMap.mem_entries_set.mp he with rfl | ⟨he, _⟩
    · rfl
    · exact r.keyed e he
  anchored := by
    intro a k hk
    rcases mem_foldl_declareAlias hk with h | ⟨rfl, _⟩
    · exact (JsMap.keys_prefix_set r.models model.key model).subset (r.anchored a k h)
    · exact JsMap.mem_keys_iff.mpr ⟨model, JsMap.get_set_self _ _ _⟩

/-- `addModel(model)`. -/
def addModel (r : ModelRegistry) (model : ModelCapabilityMatrix) : ModelRegistry :=
  r.registerModel model

/-- The constructor's loop over a catalog, and every later sequence of registrations. -/
def addModels (r : ModelRegistry) (models : List ModelCapabilityMatrix) : ModelRegistry :=
  models.foldl addModel r

/-- `listModels()`. -/
def listModels (r : ModelRegistry) : List ModelCapabilityMatrix := r.models.values

/-- `listModelsForProvider(provider)`. -/
def listModelsForProvider (r : ModelRegistry) (provider : String) : List ModelCapabilityMatrix :=
  r.models.values.filter fun m => m.provider = provider

/-- `getProvidersForModel(modelId)`. -/
def getProvidersForModel (r : ModelRegistry) (modelId : String) : List String :=
  (r.models.values.filter fun m => m.modelId = modelId).map (·.provider)

/-- `getCapabilities(modelId, provider?)`; an empty provider name counts as none. -/
def getCapabilities (r : ModelRegistry) (modelId : String) (provider : Option String) :
    Option ModelCapabilityMatrix :=
  match provider with
  | some p =>
      if p ≠ "" then r.models.get (p ++ ":" ++ modelId)
      else r.models.values.find? fun m => m.modelId = modelId
  | none => r.models.values.find? fun m => m.modelId = modelId

/-- `resolveModel(modelString)`: composite key, then model id in registration order, then alias. -/
def resolveModel (r : ModelRegistry) (modelString : String) : Option ResolvedModel :=
  let byKey := if ':' ∈ modelString.toList then r.models.get modelString else none
  let byId := r.models.values.find? fun m => m.modelId = modelString
  let byAlias := (aliasHead r.aliasMap modelString).bind r.models.get
  ((byKey.or byId).or byAlias).map (·.resolved)

/-! ## Resolution by precedence -/

/-- The entry `resolveModel` finds. -/
def resolveEntry (r : ModelRegistry) (s : String) : Option ModelCapabilityMatrix :=
  ((if ':' ∈ s.toList then r.models.get s else none).or
    (r.models.values.find? fun m => m.modelId = s)).or ((aliasHead r.aliasMap s).bind r.models.get)

theorem resolveModel_eq (r : ModelRegistry) (s : String) :
    r.resolveModel s = (r.resolveEntry s).map (·.resolved) := rfl

/-! ## What a registration changes -/

variable {r : ModelRegistry} {model m : ModelCapabilityMatrix}

theorem get_addModel (r : ModelRegistry) (model : ModelCapabilityMatrix) (k : String) :
    (r.addModel model).models.get k = if k = model.key then some model else r.models.get k :=
  JsMap.get_set ..

theorem aliasHead_addModel (r : ModelRegistry) (model : ModelCapabilityMatrix) (a : String) :
    aliasHead (r.addModel model).aliasMap a =
      (aliasHead r.aliasMap a).or (if a ∈ model.aliases then some model.key else none) :=
  aliasHead_foldl_declareAlias ..

theorem key_of_get {k : String} (h : r.models.get k = some m) : k = m.key :=
  r.keyed (k, m) (JsMap.get_eq_some_iff.mp h)

/-- A listed entry is the one found under its own key. -/
theorem get_of_mem_listModels (h : m ∈ r.listModels) : r.models.get m.key = some m := by
  obtain ⟨k, hk⟩ := JsMap.mem_values_iff.mp h
  rwa [key_of_get hk] at hk

theorem mem_listModels_of_get {k : String} (h : r.models.get k = some m) : m ∈ r.listModels :=
  JsMap.mem_values_iff.mpr ⟨k, h⟩

/-- Two listed entries of one provider and model id are the same entry. -/
theorem listModels_inj {m' : ModelCapabilityMatrix} (h : m ∈ r.listModels) (h' : m' ∈ r.listModels)
    (hp : m.provider = m'.provider) (hid : m.modelId = m'.modelId) : m = m' := by
  have hk : m.key = m'.key := by unfold ModelCapabilityMatrix.key; rw [hp, hid]
  have hg := get_of_mem_listModels h
  rw [hk, get_of_mem_listModels h'] at hg
  exact (Option.some.inj hg).symm

/-- No entry sits under the composite key `s`. -/
def NoKey (r : ModelRegistry) (s : String) : Prop := ':' ∈ s.toList → r.models.get s = none

/-- A composite key wins. -/
theorem resolveEntry_of_key {s : String} (hcolon : ':' ∈ s.toList) (h : r.models.get s = some m) :
    r.resolveEntry s = some m := by
  simp only [resolveEntry, if_pos hcolon, h, Option.some_or]

/-- Without a composite key, the first entry of the model id and then the alias decide. -/
theorem resolveEntry_of_noKey {s : String} (hkey : r.NoKey s) :
    r.resolveEntry s = (r.listModels.find? fun m => m.modelId = s).or
      ((aliasHead r.aliasMap s).bind r.models.get) := by
  have hnone : (if ':' ∈ s.toList then r.models.get s else none) = none := by
    split
    · exact hkey ‹_›
    · rfl
  unfold resolveEntry
  rw [hnone, Option.none_or]
  rfl

/-- Without a composite key, a model id resolves to an entry of that id. -/
theorem resolveEntry_of_id {s : String} (hkey : r.NoKey s) (hm : m ∈ r.listModels)
    (hid : m.modelId = s) : ∃ m', r.resolveEntry s = some m' ∧ m' ∈ r.listModels ∧ m'.modelId = s := by
  rw [resolveEntry_of_noKey hkey]
  cases hfind : r.listModels.find? fun m => m.modelId = s with
  | none => exact absurd (by simpa using hid) (List.find?_eq_none.mp hfind m hm)
  | some m' =>
      exact ⟨m', Option.some_or, List.mem_of_find?_eq_some hfind, by simpa using List.find?_some hfind⟩

/-- Without a composite key and a model id, an alias resolves to the first entry that declared it. -/
theorem resolveEntry_of_alias {s k : String} (hkey : r.NoKey s)
    (hid : ∀ m ∈ r.listModels, m.modelId ≠ s) (h : aliasHead r.aliasMap s = some k) :
    r.resolveEntry s = r.models.get k := by
  have hfind : (r.listModels.find? fun m => m.modelId = s) = none :=
    List.find?_eq_none.mpr fun m hm => by simpa using hid m hm
  rw [resolveEntry_of_noKey hkey, hfind, Option.none_or, h, Option.bind_some]

/-- What a resolved string is to its entry. -/
theorem resolveEntry_cases {s : String} (h : r.resolveEntry s = some m) :
    m ∈ r.listModels ∧ (s = m.key ∨ m.modelId = s ∨ aliasHead r.aliasMap s = some m.key) := by
  unfold resolveEntry at h
  rcases Option.or_eq_some_iff.mp h with h | ⟨-, h⟩
  · rcases Option.or_eq_some_iff.mp h with h | ⟨-, h⟩
    · rw [Option.ite_none_right_eq_some] at h
      exact ⟨mem_listModels_of_get h.2, Or.inl (key_of_get h.2)⟩
    · exact ⟨List.mem_of_find?_eq_some h, Or.inr (Or.inl (by simpa using List.find?_some h))⟩
  · obtain ⟨k, hk, hget⟩ := Option.bind_eq_some_iff.mp h
    exact ⟨mem_listModels_of_get hget, Or.inr (Or.inr (key_of_get hget ▸ hk))⟩

/-! ## What a sequence of registrations changes -/

/-- A key holds the last matrix registered under it. -/
theorem get_addModels (ms : List ModelCapabilityMatrix) (k : String) :
    ∀ r : ModelRegistry, (r.addModels ms).models.get k =
      (ms.reverse.find? fun m => m.key = k).or (r.models.get k) := by
  induction ms with
  | nil => exact fun _ => rfl
  | cons m rest ih =>
      intro r
      show ((r.addModel m).addModels rest).models.get k = _
      rw [ih, get_addModel, List.reverse_cons, List.find?_append, Option.or_assoc]
      congr 1
      by_cases hk : k = m.key
      · simp [hk]
      · have hk' : ¬ m.key = k := fun h => hk h.symm
        simp [hk, hk']

/-- No registration moves an entry: the old keys stay a prefix. -/
theorem keys_prefix_addModels (ms : List ModelCapabilityMatrix) :
    ∀ r : ModelRegistry, r.models.keys <+: (r.addModels ms).models.keys := by
  induction ms with
  | nil => exact fun _ => List.prefix_rfl
  | cons m rest ih =>
      intro r
      exact (JsMap.keys_prefix_set r.models m.key m).trans (ih (r.addModel m))

/-- An alias keeps the entry that declared it first. -/
theorem aliasHead_addModels (ms : List ModelCapabilityMatrix) (a : String) :
    ∀ r : ModelRegistry, aliasHead (r.addModels ms).aliasMap a =
      (aliasHead r.aliasMap a).or ((ms.find? fun m => a ∈ m.aliases).map (·.key)) := by
  induction ms with
  | nil => simp [addModels]
  | cons m rest ih =>
      intro r
      show aliasHead ((r.addModel m).addModels rest).aliasMap a = _
      rw [ih, aliasHead_addModel, Option.or_assoc]
      congr 1
      by_cases ha : a ∈ m.aliases
      · simp [ha]
      · simp [ha]

/-- The listed entries, read as composite keys, are the keys of the map. -/
theorem map_key_listModels (r : ModelRegistry) :
    r.listModels.map ModelCapabilityMatrix.key = r.models.keys := by
  show (r.models.entries.map Prod.snd).map ModelCapabilityMatrix.key = r.models.entries.map Prod.fst
  rw [List.map_map]
  exact List.map_congr_left fun e he => (r.keyed e he).symm

/-- The keys of a registry after a sequence of registrations: the old ones and the registered ones. -/
theorem mem_keys_addModels {r : ModelRegistry} {ms : List ModelCapabilityMatrix} {k : String} :
    k ∈ (r.addModels ms).models.keys ↔ k ∈ r.models.keys ∨ ∃ m ∈ ms, m.key = k := by
  rw [JsMap.mem_keys_iff, JsMap.mem_keys_iff, get_addModels]
  constructor
  · rintro ⟨m, hm⟩
    rcases Option.or_eq_some_iff.mp hm with hnew | ⟨-, hold⟩
    · have hmem := List.mem_reverse.mp (List.mem_of_find?_eq_some hnew)
      exact Or.inr ⟨m, hmem, by simpa using List.find?_some hnew⟩
    · exact Or.inl ⟨m, hold⟩
  · intro h
    cases hfind : ms.reverse.find? fun m => m.key = k with
    | some m => exact ⟨m, Option.some_or⟩
    | none =>
        rcases h with ⟨m, hold⟩ | ⟨m, hm, hkey⟩
        · exact ⟨m, by rw [Option.none_or, hold]⟩
        · exact absurd (decide_eq_true hkey)
            (List.find?_eq_none.mp hfind m (List.mem_reverse.mpr hm))

/-- **The old keys stay in front**: the first entry that fits sits under one of them when any there fits. -/
theorem find_front {r : ModelRegistry} {ms : List ModelCapabilityMatrix} {fits : ModelCapabilityMatrix → Bool}
    {e : ModelCapabilityMatrix} (he : e ∈ (r.addModels ms).listModels) (hkey : e.key ∈ r.models.keys)
    (hfits : fits e = true) :
    ∃ first, (r.addModels ms).listModels.find? fits = some first ∧ first.key ∈ r.models.keys := by
  obtain ⟨more, hmore⟩ := keys_prefix_addModels ms r
  rw [← map_key_listModels (r.addModels ms)] at hmore
  obtain ⟨front, back, hsplit, hfront, -⟩ := List.map_eq_append_iff.mp hmore.symm
  have hfind : (front.find? fits).isSome = true := by
    obtain ⟨x, hx, hxkey⟩ := List.mem_map.mp (hfront ▸ hkey)
    have hget := get_of_mem_listModels (hsplit ▸ List.mem_append_left back hx)
    rw [hxkey, get_of_mem_listModels he] at hget
    obtain rfl : e = x := Option.some.inj hget
    exact List.find?_isSome.mpr ⟨e, hx, hfits⟩
  obtain ⟨first, hfirst⟩ := Option.isSome_iff_exists.mp hfind
  refine ⟨first, ?_, ?_⟩
  · rw [hsplit, List.find?_append, hfirst, Option.some_or]
  · rw [← hfront]
    exact List.mem_map_of_mem (List.mem_of_find?_eq_some hfirst)

/-- The composite keys of the listed entries are distinct. -/
theorem nodup_keys_listModels (r : ModelRegistry) :
    (r.listModels.map ModelCapabilityMatrix.key).Nodup := by
  rw [map_key_listModels]
  exact r.models.nodup

end ModelRegistry

/-! ## The baked-in models -/

/-- The capabilities of the catalog's chat models. -/
def chatCapabilities (vision jsonMode : Bool) : ModelCapabilities where
  chat := true
  streaming := true
  tools := true
  embeddings := false
  vision := vision
  jsonMode := jsonMode

/-- The capabilities of the catalog's embedding models. -/
def embeddingCapabilities : ModelCapabilities where
  chat := false
  streaming := false
  tools := false
  embeddings := true
  vision := false
  jsonMode := false

/-- `DEFAULT_MODEL_CATALOG`. -/
def defaultModelCatalog : List ModelCapabilityMatrix :=
  [ -- OpenAI
    { modelId := "gpt-4o", provider := "openai", aliases := ["gpt-4o-2024-08-06"]
      capabilities := chatCapabilities true true, contextWindow := 128000, maxOutputTokens := 16384
      costPer1kInput := some (mkRat 25 10000), costPer1kOutput := some (mkRat 1 100) },
    { modelId := "gpt-4o-mini", provider := "openai", aliases := ["gpt-4o-mini-2024-07-18"]
      capabilities := chatCapabilities true true, contextWindow := 128000, maxOutputTokens := 16384
      costPer1kInput := some (mkRat 15 100000), costPer1kOutput := some (mkRat 6 10000) },
    { modelId := "gpt-4.1", provider := "openai", aliases := []
      capabilities := chatCapabilities true true, contextWindow := 1047576, maxOutputTokens := 32768 },
    { modelId := "gpt-4.1-mini", provider := "openai", aliases := []
      capabilities := chatCapabilities true true, contextWindow := 1047576, maxOutputTokens := 32768 },
    { modelId := "gpt-4.1-nano", provider := "openai", aliases := []
      capabilities := chatCapabilities true true, contextWindow := 1047576, maxOutputTokens := 32768 },
    { modelId := "o3", provider := "openai", aliases := []
      capabilities := chatCapabilities true true, contextWindow := 200000, maxOutputTokens := 100000 },
    { modelId := "o3-mini", provider := "openai", aliases := []
      capabilities := chatCapabilities false true, contextWindow := 200000, maxOutputTokens := 100000 },
    { modelId := "text-embedding-3-small", provider := "openai", aliases := []
      capabilities := embeddingCapabilities, contextWindow := 8191, maxOutputTokens := 0
      costPer1kInput := some (mkRat 2 100000), costPer1kOutput := some 0 },
    { modelId := "text-embedding-3-large", provider := "openai", aliases := []
      capabilities := embeddingCapabilities, contextWindow := 8191, maxOutputTokens := 0
      costPer1kInput := some (mkRat 13 100000), costPer1kOutput := some 0 },
    -- Anthropic
    { modelId := "claude-sonnet-4-20250514", provider := "anthropic", aliases := ["claude-sonnet-4"]
      capabilities := chatCapabilities true true, contextWindow := 200000, maxOutputTokens := 64000 },
    { modelId := "claude-haiku-3-5", provider := "anthropic", aliases := ["claude-3-5-haiku-20241022"]
      capabilities := chatCapabilities false true, contextWindow := 200000, maxOutputTokens := 8192 },
    -- Ollama
    { modelId := "llama3.2", provider := "ollama", aliases := ["llama3.2:latest"]
      capabilities := chatCapabilities false true, contextWindow := 131072, maxOutputTokens := 8192 },
    { modelId := "mistral", provider := "ollama", aliases := ["mistral:latest"]
      capabilities := chatCapabilities false false, contextWindow := 32768, maxOutputTokens := 8192 },
    { modelId := "nomic-embed-text", provider := "ollama", aliases := []
      capabilities := embeddingCapabilities, contextWindow := 8192, maxOutputTokens := 0 } ]

/-- `new ModelRegistryService()`. -/
def ModelRegistry.initial : ModelRegistry := ModelRegistry.empty.addModels defaultModelCatalog

end Sirius
