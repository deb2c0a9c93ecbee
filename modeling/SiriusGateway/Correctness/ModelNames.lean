import SiriusGateway.Gateway.Service
import SiriusGateway.ModelRegistry.Discovery

/-!
# `Correctness.ModelNames` — the model name an upstream is called by

Discovery files a listed id under its canonical form, without the prefix before a single slash, and keeps
the listed id as an alias. The gateway hands the provider the canonical form (`upstream_name`), which is the
listed id only when there was nothing to strip.

## Contents
- **One provider's listing.** The entries of an otherwise empty registry after a run.
- **Resolution.** Every listed id and every canonical form resolves (`resolve_listed`).
- **The handed name.** Every operation a request invokes is the provider's, on the canonical name.
-/

namespace Sirius

/-! ## One provider's listing -/

/-- The canonical form an id is filed under. -/
def canonical (id : String) : String := (normalizeModelId id).canonical

/-- The registry after one run of provider `name`, from an empty one. -/
def discovered (providers : ProviderRegistry) (name : String) (listed : List ModelInfo) :
    ModelRegistry :=
  applyAll providers ModelRegistry.empty [.byName name (.returned listed)]

variable {providers : ProviderRegistry} {p : AiProvider} {listed : List ModelInfo} {i : ModelInfo}
  {s : String}

theorem registrations_discovered (hp : providers.get p.name = some p) :
    registrations providers [.byName p.name (.returned listed)] =
      listed.map fun info => ⟨info, p.name⟩ := by
  have hlisted : Probe.listed false (.returned listed) (.returned listed) = some listed := by
    simp [Probe.listed]
  simp only [registrations, List.flatMap_cons, List.flatMap_nil, List.append_nil,
    DiscoveryRun.registrations, hp, Probe.registrations, hlisted, Option.getD_some]

/-- Every entry is filed by the provider under the canonical form of a listed id. -/
theorem mem_discovered (hp : providers.get p.name = some p) {m : ModelCapabilityMatrix}
    (hm : m ∈ (discovered providers p.name listed).listModels) :
    m.provider = p.name ∧ ∃ j ∈ listed, m.modelId = canonical j.id := by
  rcases mem_listModels_after hm with ⟨g, hg, -, rfl⟩ | ⟨hold, -⟩
  · rw [registrations_discovered hp] at hg
    obtain ⟨j, hj, rfl⟩ := List.mem_map.mp hg
    exact ⟨rfl, j, hj, rfl⟩
  · exact absurd hold List.not_mem_nil

/-- The canonical form of a listed id has an entry under its composite key. -/
theorem get_discovered (hp : providers.get p.name = some p) (hi : i ∈ listed) :
    ∃ m, (discovered providers p.name listed).models.get (p.name ++ ":" ++ canonical i.id) = some m ∧
      m.modelId = canonical i.id := by
  have hmem : (⟨i, p.name⟩ : Registration) ∈
      (registrations providers [.byName p.name (.returned listed)]).reverse := by
    rw [registrations_discovered hp, List.mem_reverse]
    exact List.mem_map_of_mem hi
  have hfind : ((registrations providers [.byName p.name (.returned listed)]).reverse.find? fun g =>
      g.key = p.name ++ ":" ++ canonical i.id) ≠ none := by
    intro hnone
    exact absurd (List.find?_eq_none.mp hnone _ hmem) (by simp [Registration.key, Registration.modelId,
      canonical])
  obtain ⟨g, hg⟩ := Option.ne_none_iff_exists'.mp hfind
  have hkey : g.key = p.name ++ ":" ++ canonical i.id := by simpa using List.find?_some hg
  have hgmem := List.mem_reverse.mp (List.mem_of_find?_eq_some hg)
  rw [registrations_discovered hp] at hgmem
  obtain ⟨j, -, rfl⟩ := List.mem_map.mp hgmem
  refine ⟨toCapabilityMatrix j p.name, ?_, ?_⟩
  · unfold discovered
    rw [get_applyAll, hg]
    rfl
  · exact (String.append_right_inj (p.name ++ ":")).mp hkey

/-- The first alias of a stripped id leads to its own entry. -/
theorem aliasHead_discovered (hp : providers.get p.name = some p) (hi : i ∈ listed)
    (hstrip : (normalizeModelId i.id).hadPrefix = true) :
    aliasHead (discovered providers p.name listed).aliasMap i.id =
      some (p.name ++ ":" ++ canonical i.id) := by
  unfold discovered
  rw [applyAll_eq_addModels, ModelRegistry.aliasHead_addModels, registrations_discovered hp,
    List.map_map]
  have hempty : aliasHead ModelRegistry.empty.aliasMap i.id = none := rfl
  rw [hempty, Option.none_or]
  cases hfind : (listed.map (Registration.matrix ∘ fun info => ⟨info, p.name⟩)).find? fun m =>
      i.id ∈ m.aliases with
  | none =>
      have halias : i.id ∈ (toCapabilityMatrix i p.name).aliases :=
        mem_aliases_toCapabilityMatrix.mpr (Or.inr ⟨hstrip, rfl⟩)
      exact absurd (decide_eq_true halias) (List.find?_eq_none.mp hfind _ (List.mem_map_of_mem hi))
  | some m =>
      obtain ⟨j, -, rfl⟩ := List.mem_map.mp (List.mem_of_find?_eq_some hfind)
      have hfound := List.find?_some hfind
      have halias : i.id ∈ (toCapabilityMatrix j p.name).aliases := of_decide_eq_true hfound
      rcases mem_aliases_toCapabilityMatrix.mp halias with hcanon | ⟨-, hid⟩
      · exact absurd hcanon.symm (canonical_ne_of_hadPrefix hstrip)
      · rw [hid]
        rfl

/-! ## Resolution -/

/-- The name a string stands for among the listed models: the model id of the composite key it is, or the
    canonical form of the listed id `i` it was made from. -/
def NamedBy (name s : String) (p : AiProvider) (listed : List ModelInfo) (i : ModelInfo) : Prop :=
  (∃ j ∈ listed, name = canonical j.id) ∧
    (∀ j ∈ listed, s = p.name ++ ":" ++ canonical j.id → name = canonical j.id) ∧
    ((∀ j ∈ listed, s ≠ p.name ++ ":" ++ canonical j.id) → name = canonical i.id)

/-- **A listed id and its canonical form resolve**, to the provider and the name they stand for. -/
theorem resolve_listed (hp : providers.get p.name = some p) (hi : i ∈ listed)
    (hs : s = i.id ∨ s = canonical i.id) :
    ∃ name, NamedBy name s p listed i ∧
      (discovered providers p.name listed).resolveModel s = some ⟨name, p.name⟩ := by
  have hresolved : ∀ {m : ModelCapabilityMatrix} {name : String},
      (discovered providers p.name listed).resolveEntry s = some m → m.modelId = name →
      (discovered providers p.name listed).resolveModel s = some ⟨name, p.name⟩ := by
    intro m name hm hname
    rw [ModelRegistry.resolveModel_eq, hm, ← hname,
      ← (mem_discovered hp (ModelRegistry.resolveEntry_cases hm).1).1]
    rfl
  by_cases hkey : ∃ j ∈ listed, s = p.name ++ ":" ++ canonical j.id
  · obtain ⟨j, hj, rfl⟩ := hkey
    obtain ⟨m, hm, hid⟩ := get_discovered hp hj
    refine ⟨canonical j.id, ⟨⟨j, hj, rfl⟩, fun k hk heq => ?_, fun hno => absurd rfl (hno j hj)⟩, ?_⟩
    · exact (String.append_right_inj (p.name ++ ":")).mp heq
    · refine hresolved (ModelRegistry.resolveEntry_of_key ?_ hm) hid
      simp [String.toList_append]
  · have hno : ∀ j ∈ listed, s ≠ p.name ++ ":" ++ canonical j.id :=
      fun j hj heq => hkey ⟨j, hj, heq⟩
    -- a registered key that reads like the string would be one the provider lists
    have hnokey : (discovered providers p.name listed).NoKey s := by
      intro _
      cases hget : (discovered providers p.name listed).models.get s with
      | none => rfl
      | some m =>
          obtain ⟨hprov, j, hj, hid⟩ := mem_discovered hp (ModelRegistry.mem_listModels_of_get hget)
          have hskey := ModelRegistry.key_of_get hget
          unfold ModelCapabilityMatrix.key at hskey
          rw [hprov, hid] at hskey
          exact absurd hskey (hno j hj)
    refine ⟨canonical i.id, ⟨⟨i, hi, rfl⟩, fun j hj heq => absurd heq (hno j hj), fun _ => rfl⟩, ?_⟩
    obtain ⟨m, hm, hid⟩ := get_discovered hp hi
    by_cases hcanon : s = canonical i.id
    · obtain ⟨m', hm', -, hid'⟩ := ModelRegistry.resolveEntry_of_id hnokey
        (ModelRegistry.mem_listModels_of_get hm) (hid.trans hcanon.symm)
      exact hresolved hm' (hid'.trans hcanon)
    · -- the listed id itself, stripped on the way into the registry
      obtain rfl : s = i.id := hs.resolve_right hcanon
      have hstrip : (normalizeModelId i.id).hadPrefix = true := by
        cases h : (normalizeModelId i.id).hadPrefix with
        | true => rfl
        | false => exact absurd (canonical_of_untouched h).symm hcanon
      have hnoid : ∀ m ∈ (discovered providers p.name listed).listModels, m.modelId ≠ i.id := by
        intro m hm
        obtain ⟨-, j, -, hid⟩ := mem_discovered hp hm
        rw [hid]
        exact canonical_ne_of_hadPrefix hstrip
      have hentry := ModelRegistry.resolveEntry_of_alias hnokey hnoid (aliasHead_discovered hp hi hstrip)
      rw [hm] at hentry
      exact hresolved hentry hid

/-! ## The handed name -/

/-- The chain of a request for a resolved string is the provider on the resolved name. -/
theorem chain_discovered (hp : providers.get p.name = some p) {latency : LatencyTracker} {name : String}
    (hres : (discovered providers p.name listed).resolveModel s = some ⟨name, p.name⟩)
    {request : UnifiedAiRequest} {stream : Bool} (hmodel : request.model = .str s)
    {decision : RoutingDecision}
    (hroute : routeRequest ⟨discovered providers p.name listed, providers, latency⟩ request stream =
      .ok decision) {chain : List ChainEntry} (hchain : chainOf providers decision = .ok chain) :
    chain = [⟨p, name⟩] := by
  obtain ⟨resolved, first, rest, hres', hlist, adapter, hget, rfl⟩ :=
    chain_of_route hmodel hroute hchain
  obtain rfl : ⟨name, p.name⟩ = resolved := Option.some.inj (hres.symm.trans hres')
  obtain ⟨hmem, hid, -⟩ := RoutingService.mem_eligible.mp
    (show first ∈ RoutingService.eligibleFor _ _ _ from hlist ▸ List.mem_cons_self)
  have hprov := (mem_discovered hp hmem).1
  have hget' : providers.get first.provider = some adapter := hget
  rw [hprov, hp] at hget'
  rw [Option.some.inj hget', show first.modelId = name from hid]

/-- **The name an upstream is called by.** Every listed id resolves; a request for a listed id or its
    canonical form invokes the provider only, on the name the string stands for. -/
theorem upstream_name (hp : providers.get p.name = some p) (hi : i ∈ listed)
    (hs : s = i.id ∨ s = canonical i.id) :
    (discovered providers p.name listed).resolveModel i.id ≠ none ∧
      ∃ name, NamedBy name s p listed i ∧
        ∀ (env : Env) (latency : LatencyTracker) (request : UnifiedAiRequest) (w : World),
          request.model = .str s →
          InvokesOnly (fun q r => q = p ∧ r = { request with model := .str name })
            (createResponse env ⟨discovered providers p.name listed, providers, latency⟩ request
              w).actions ∧
          InvokesOnly (fun q r => q = p ∧ r = { request with model := .str name })
            (streamResponse env ⟨discovered providers p.name listed, providers, latency⟩ request
              w).actions := by
  obtain ⟨own, -, hown⟩ := resolve_listed (s := i.id) hp hi (Or.inl rfl)
  obtain ⟨name, hname, hres⟩ := resolve_listed hp hi hs
  refine ⟨by rw [hown]; exact Option.some_ne_none _, name, hname, fun env latency request w hmodel => ?_⟩
  have hentry : ∀ entry ∈ [(⟨p, name⟩ : ChainEntry)],
      entry.provider = p ∧ enrichedRequest request entry = { request with model := .str name } := by
    intro entry hmem
    rw [List.mem_singleton.mp hmem]
    exact ⟨rfl, rfl⟩
  constructor
  · unfold createResponse
    split
    · exact InvokesOnly.nil
    · rename_i decision hroute
      split
      · exact InvokesOnly.nil
      · rename_i chain hchain
        rw [chain_discovered hp hres hmodel hroute hchain]
        exact invokesOnly_createOverChain w hentry
  · unfold streamResponse
    split
    · exact InvokesOnly.nil
    · rename_i decision hroute
      split
      · exact InvokesOnly.nil
      · rename_i chain hchain
        rw [chain_discovered hp hres hmodel hroute hchain]
        exact invokesOnly_streamOverChain w hentry

/-! ## A stripped name -/

/-- One openai adapter. -/
def openai : AiProvider := ⟨"openai", .openai⟩

/-- The registry holding it. -/
def openaiRegistry : ProviderRegistry := ProviderRegistry.empty.register openai

/-- A listing of `org/name`. -/
def slashedListing : List ModelInfo := [⟨"org/name", "openai", none, none⟩]

/-- A request for `model` with nothing else in it. -/
def plainRequest (model : String) : UnifiedAiRequest where
  requestId := "r"
  model := .str model
  messages := []
  stream := .bool false

/-- Upstreams that fail every attempt, with no retry. -/
def failingEnv : Env where
  policy := { maxRetries := 0 }
  clock := fun _ => 0
  call := fun _ _ _ _ => .threw "refused"
  stream := fun _ _ _ _ => ⟨[], .threw "refused"⟩

/-- The gateway over that listing. -/
def slashedService : RoutingService :=
  ⟨discovered openaiRegistry "openai" slashedListing, openaiRegistry, LatencyTracker.empty⟩

/-- A request for `org/name` calls the adapter for `name`, and for nothing else. -/
theorem upstream_name_slashed :
    slashedService.modelRegistry.resolveModel "org/name" ≠ none ∧
      .invoke ⟨0, 0⟩ openai (plainRequest "name") true ∈
        (createResponse failingEnv slashedService (plainRequest "org/name")
          ⟨JsMap.empty, LatencyTracker.empty, 0, 0⟩).actions ∧
      InvokesOnly (fun q r => q = openai ∧ r = plainRequest "name")
        (createResponse failingEnv slashedService (plainRequest "org/name")
          ⟨JsMap.empty, LatencyTracker.empty, 0, 0⟩).actions := by
  obtain ⟨hresolves, name, -, hcalls⟩ := @upstream_name openaiRegistry openai slashedListing
    ⟨"org/name", "openai", none, none⟩ "org/name" (by decide) (by decide) (Or.inl rfl)
  have honly := (hcalls failingEnv LatencyTracker.empty (plainRequest "org/name")
    ⟨JsMap.empty, LatencyTracker.empty, 0, 0⟩ rfl).1
  have hinvoked : .invoke ⟨0, 0⟩ openai (plainRequest "name") true ∈
      (createResponse failingEnv slashedService (plainRequest "org/name")
        ⟨JsMap.empty, LatencyTracker.empty, 0, 0⟩).actions := by decide
  -- the one invocation tells the name
  have hname := (honly _ _ _ _ hinvoked).2
  rw [← hname] at honly
  exact ⟨hresolves, hinvoked, honly⟩

/-- `org/name` is listed, and the provider is called for `name`, which it did not list. -/
theorem handed_name_not_listed :
    ¬ ∀ (providers : ProviderRegistry) (p : AiProvider) (listed : List ModelInfo) (i : ModelInfo),
      providers.get p.name = some p → i ∈ listed →
      ∀ (env : Env) (latency : LatencyTracker) (request : UnifiedAiRequest) (w : World),
        request.model = .str i.id →
        InvokesOnly (fun _ r => r.model = .str i.id)
          (createResponse env ⟨discovered providers p.name listed, providers, latency⟩ request
            w).actions := by
  intro h
  have honly := h openaiRegistry openai slashedListing ⟨"org/name", "openai", none, none⟩
    (by decide) (by decide) failingEnv LatencyTracker.empty (plainRequest "org/name")
    ⟨JsMap.empty, LatencyTracker.empty, 0, 0⟩ rfl
  have hmodel := honly ⟨0, 0⟩ openai (plainRequest "name") true (by decide)
  exact absurd hmodel (by decide)

end Sirius
