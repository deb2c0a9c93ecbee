import SiriusGateway.Gateway.Chain
import SiriusGateway.ModelRegistry.Service

/-!
# `Correctness.Routing` — which provider is selected, and what the fallback strings keep

Facts about the path from a model string to the adapters that are tried.

## Contents
- **What is routed.** `route` makes a decision exactly when some registered entry can serve the request, and
  under every strategy the decision names such entries only, none twice (`route_sound_complete`).
- **The resolved provider.** `route` rebuilds its candidates from the model id alone, so the provider the
  string resolved to is selected exactly when no earlier entry of that model id can serve the request
  (`route_selects_resolved_iff`).
- **The fallback strings.** The decoded chain is the selected candidate followed by the strategy's fallbacks
  exactly when every fallback's provider and model id are single path segments
  (`buildProviderChain_route_iff`).
-/

namespace Sirius

open RoutingService

/-! ## What is routed -/

/-- The capabilities cover what the request needs: chat or embeddings, streaming for a stream, tools when some
    are given. -/
structure Covers (request : RouteRequest) (capabilities : ModelCapabilities) : Prop where
  kind : (if request.embeddings then capabilities.embeddings else capabilities.chat) = true
  streaming : request.stream = true → capabilities.streaming = true
  tools : ∀ tools, request.tools = some tools → tools ≠ [] → capabilities.tools = true

/-- **The derived capabilities** are those the request needs. -/
theorem meetsCaps_deriveCapabilities_iff {request : RouteRequest} {m : ModelCapabilityMatrix} :
    meetsCaps (deriveCapabilities request) m = true ↔ Covers request m.capabilities := by
  obtain ⟨model, stream, tools, embeddings⟩ := request
  have hkind : ((if embeddings then ["embeddings"] else ["chat"]).all fun cap => m.capabilities.has cap) = true ↔
      (if embeddings then m.capabilities.embeddings else m.capabilities.chat) = true := by
    cases embeddings <;> simp [ModelCapabilities.has]
  have hstream : ((if stream then ["streaming"] else []).all fun cap => m.capabilities.has cap) = true ↔
      (stream = true → m.capabilities.streaming = true) := by
    cases stream <;> simp [ModelCapabilities.has]
  unfold meetsCaps deriveCapabilities
  rw [List.all_append, List.all_append, Bool.and_eq_true, Bool.and_eq_true, hkind, hstream]
  constructor
  · rintro ⟨⟨hk, hs⟩, ht⟩
    refine ⟨hk, hs, ?_⟩
    rintro given rfl hne
    obtain ⟨tool, more, rfl⟩ := List.exists_cons_of_ne_nil hne
    simpa [ModelCapabilities.has] using ht
  · intro h
    refine ⟨⟨h.kind, h.streaming⟩, ?_⟩
    -- an empty array of tools asks for nothing
    rcases tools with _ | _ | ⟨tool, more⟩
    · simp
    · simp
    · simpa [ModelCapabilities.has] using h.tools (tool :: more) rfl (List.cons_ne_nil _ _)

/-- The registered entry `m` can serve the request once its model string has resolved: it is of that model
    id, its provider is registered, and it declares the capabilities the request needs. -/
structure Serves (svc : RoutingService) (request : RouteRequest) (resolved : ResolvedModel)
    (m : ModelCapabilityMatrix) : Prop where
  listed : m ∈ svc.modelRegistry.listModels
  modelId : m.modelId = resolved.modelId
  registered : (svc.providerRegistry.get m.provider).isSome = true
  covers : Covers request m.capabilities

theorem mem_eligibleFor {svc : RoutingService} {request : RouteRequest} {resolved : ResolvedModel}
    {m : ModelCapabilityMatrix} : m ∈ svc.eligibleFor request resolved ↔ Serves svc request resolved m := by
  unfold RoutingService.eligibleFor
  rw [mem_eligible]
  constructor
  · rintro ⟨hlisted, hid, hregistered, hcaps⟩
    exact ⟨hlisted, hid, hregistered, meetsCaps_deriveCapabilities_iff.mp hcaps⟩
  · intro h
    exact ⟨h.listed, h.modelId, h.registered, meetsCaps_deriveCapabilities_iff.mpr h.covers⟩

/-- The string the gateway reads a provider and a model id from. -/
def ModelCapabilityMatrix.path (m : ModelCapabilityMatrix) : String := m.provider ++ "/" ++ m.modelId

/-- Entries of one model id have distinct paths when their providers are distinct. -/
theorem nodup_path {ms : List ModelCapabilityMatrix} {modelId : String}
    (hid : ∀ m ∈ ms, m.modelId = modelId) (hnodup : (ms.map (·.provider)).Nodup) :
    (ms.map ModelCapabilityMatrix.path).Nodup := by
  have hinj := List.inj_on_of_nodup_map hnodup
  refine List.Nodup.map_on ?_ (List.Nodup.of_map _ hnodup)
  intro m hm m' hm' hpath
  unfold ModelCapabilityMatrix.path at hpath
  rw [hid m hm, hid m' hm', String.append_assoc, String.append_assoc] at hpath
  exact hinj hm hm' ((String.append_left_inj _).mp hpath)

/-- What a strategy selects and falls back to are entries that can serve, no provider twice. -/
theorem models_of_select {svc : RoutingService} {request : RouteRequest} {resolved : ResolvedModel}
    {strategy : RoutingStrategy} {selected : RoutingCandidate}
    (hsel : strategy.select (svc.contextOf request resolved) = some selected) :
    let ms := (selected :: strategy.buildFallbackChain (svc.contextOf request resolved)).map (·.model)
    (∀ m ∈ ms, Serves svc request resolved m) ∧ (ms.map (·.provider)).Nodup := by
  intro ms
  have hsub := RoutingStrategy.select_cons_fallback_subperm hsel
  have hcand : notDown (svc.contextOf request resolved).candidates =
      (svc.eligibleFor request resolved).map svc.candidateOf :=
    (svc.notDown_buildCandidates _ _).trans (svc.buildCandidates_eq _ _)
  rw [hcand] at hsub
  obtain ⟨l, hperm, hl⟩ := hsub
  have hms : (l.map (·.model)).Perm ms := hperm.map _
  have hmodels : (l.map (·.model)).Sublist (svc.eligibleFor request resolved) := by
    have h := hl.map (·.model)
    rwa [List.map_map, show ((·.model) ∘ svc.candidateOf) = id from rfl, List.map_id] at h
  constructor
  · intro m hm
    exact mem_eligibleFor.mp (hmodels.subset (hms.mem_iff.mpr hm))
  · have hnodup := (svc.nodup_provider_eligible _ _).sublist (hmodels.map (·.provider))
    exact (hms.map _).nodup hnodup

/-- **Routing is sound and complete**, whatever strategy is asked for. -/
theorem route_sound_complete (svc : RoutingService) (request : RouteRequest)
    (preferred : Option String) :
    ((svc.route request preferred).attemptNumber = 1 ↔
      ∃ resolved, svc.modelRegistry.resolveModel request.model = some resolved ∧
        ∃ m, Serves svc request resolved m) ∧
    ((svc.route request preferred).attemptNumber = 1 →
      ∃ resolved selected fallbacks,
        svc.modelRegistry.resolveModel request.model = some resolved ∧
        (∀ m ∈ selected :: fallbacks, Serves svc request resolved m) ∧
        ((selected :: fallbacks).map (·.resolved)).Nodup ∧
        (svc.route request preferred).selectedProvider = selected.provider ∧
        (svc.route request preferred).selectedModel = selected.modelId ∧
        (svc.route request preferred).fallbackChain = fallbacks.map ModelCapabilityMatrix.path ∧
        (selected.path :: (svc.route request preferred).fallbackChain).Nodup) ∧
    ((svc.route request preferred).attemptNumber ≠ 1 →
      (svc.route request preferred).selectedProvider = "" ∧
        (svc.route request preferred).fallbackChain = []) := by
  have hsome : ∀ resolved, svc.eligibleFor request resolved ≠ [] ↔ ∃ m, Serves svc request resolved m := by
    intro resolved
    constructor
    · intro hne
      obtain ⟨m, hm⟩ := List.exists_mem_of_ne_nil _ hne
      exact ⟨m, mem_eligibleFor.mp hm⟩
    · rintro ⟨m, hm⟩
      exact List.ne_nil_of_mem (mem_eligibleFor.mpr hm)
  refine ⟨?_, ?_, route_of_no_decision⟩
  · rw [attemptNumber_eq_one_iff]
    simp only [hsome]
  · intro hone
    obtain ⟨resolved, hres, hne⟩ := attemptNumber_eq_one_iff.mp hone
    obtain ⟨selected, hsel, hp, hm, hchain, -⟩ := route_eq hres hne preferred
    obtain ⟨hserve, hnodup⟩ := models_of_select hsel
    refine ⟨resolved, selected.model, _, hres, hserve, ?_, hp, hm, ?_, ?_⟩
    · exact List.Nodup.of_map (·.provider) (by rwa [List.map_map])
    · rw [hchain, List.map_map]
      rfl
    · have hpaths := nodup_path (fun m hm => (hserve m hm).modelId) hnodup
      rw [hchain]
      rwa [List.map_cons, List.map_cons, List.map_map] at hpaths

/-! ## The resolved provider -/

/-- The entries registered before `entry`. -/
def registeredBefore (r : ModelRegistry) (entry : ModelCapabilityMatrix) :
    List ModelCapabilityMatrix :=
  r.listModels.takeWhile fun m => m ≠ entry

/-- No entry of the same model id that can serve the request was registered before `entry`. -/
def ServesFirst (svc : RoutingService) (required : List String) (entry : ModelCapabilityMatrix) :
    Prop :=
  ∀ e ∈ registeredBefore svc.modelRegistry entry,
    e.modelId = entry.modelId → ¬ svc.Eligible required e

instance (svc : RoutingService) (required : List String) (entry : ModelCapabilityMatrix) :
    Decidable (ServesFirst svc required entry) :=
  inferInstanceAs (Decidable (∀ e ∈ _, _))

/-- The first eligible entry is `entry` exactly when none was registered before it. -/
theorem head_eligible_iff {svc : RoutingService} {required : List String}
    {entry : ModelCapabilityMatrix} (hentry : entry ∈ svc.modelRegistry.listModels)
    (hel : svc.Eligible required entry) :
    (svc.eligible entry.modelId required).head? = some entry ↔ ServesFirst svc required entry := by
  unfold RoutingService.eligible ServesFirst registeredBefore
  rw [List.head?_filter, List.find?_eq_some_iff_takeWhile hentry (by simpa using hel)]
  simp only [decide_eq_true_eq, not_and]

/-- **The resolved provider is selected exactly when its entry is the first that can serve.** -/
theorem route_selects_resolved_iff {svc : RoutingService} {request : RouteRequest}
    {resolved : ResolvedModel} {entry : ModelCapabilityMatrix}
    (hres : svc.modelRegistry.resolveModel request.model = some resolved)
    (hentry : entry ∈ svc.modelRegistry.listModels) (hkey : entry.resolved = resolved)
    (hreg : (svc.providerRegistry.get resolved.provider).isSome = true)
    (hcaps : meetsCaps (deriveCapabilities request) entry = true) :
    (svc.route request none).selectedProvider = resolved.provider ↔
      ServesFirst svc (deriveCapabilities request) entry := by
  subst hkey
  have hel : svc.Eligible (deriveCapabilities request) entry := ⟨hreg, hcaps⟩
  rw [← head_eligible_iff hentry hel]
  have hmem : entry ∈ svc.eligible entry.modelId (deriveCapabilities request) :=
    mem_eligible.mpr ⟨hentry, rfl, hel⟩
  cases hlist : svc.eligible entry.modelId (deriveCapabilities request) with
  | nil => exact absurd hmem (hlist ▸ List.not_mem_nil)
  | cons first rest =>
      obtain ⟨hroute, -⟩ := route_pinned hres hlist
      obtain ⟨hfirst, hid, -⟩ := mem_eligible.mp (hlist ▸ List.mem_cons_self)
      rw [hroute, List.head?_cons, Option.some.injEq]
      constructor
      · exact fun hp => ModelRegistry.listModels_inj hfirst hentry hp hid
      · exact fun h => h ▸ rfl

/-- An entry for `modelId` offered by `provider`. -/
def sharedModel (provider modelId : String) : ModelCapabilityMatrix where
  modelId := modelId
  provider := provider
  aliases := []
  capabilities := chatCapabilities false false
  contextWindow := 8192
  maxOutputTokens := 4096

/-- Providers `first` and `second`, registered in this order, both offering `modelId`. -/
def twoProviders (modelId : String) : RoutingService where
  modelRegistry :=
    ModelRegistry.empty.addModels [sharedModel "first" modelId, sharedModel "second" modelId]
  providerRegistry :=
    (ProviderRegistry.empty.register ⟨"first", .fromFile "openai-compatible"⟩).register
      ⟨"second", .fromFile "openai-compatible"⟩
  latencyTracker := LatencyTracker.empty

theorem route_selects_resolved_iff_first :
    (((twoProviders "m").route ⟨"m", false, none, false⟩ none).selectedProvider = "first" ↔
      ServesFirst (twoProviders "m") ["chat"] (sharedModel "first" "m")) ∧
    ServesFirst (twoProviders "m") ["chat"] (sharedModel "first" "m") :=
  ⟨@route_selects_resolved_iff (twoProviders "m") ⟨"m", false, none, false⟩ ⟨"m", "first"⟩
    (sharedModel "first" "m") (by decide) (by decide) (by decide)
    (by decide) (by decide), by decide⟩

/-- The composite key `second:m` resolves to `second`, and `first` is selected. -/
theorem route_ignores_composite_provider :
    ¬ ∀ (svc : RoutingService) (request : RouteRequest) (resolved : ResolvedModel)
        (entry : ModelCapabilityMatrix),
      svc.modelRegistry.resolveModel request.model = some resolved →
      entry ∈ svc.modelRegistry.listModels → entry.resolved = resolved →
      (svc.providerRegistry.get resolved.provider).isSome = true →
      meetsCaps (deriveCapabilities request) entry = true →
      (svc.route request none).selectedProvider = resolved.provider := by
  intro h
  have hfirst : ((twoProviders "m").route ⟨"second:m", false, none, false⟩ none).selectedProvider
      = "first" := by decide
  have hsecond := h (twoProviders "m") ⟨"second:m", false, none, false⟩ ⟨"m", "second"⟩
    (sharedModel "second" "m") (by decide) (by decide) (by decide)
    (by decide) (by decide)
  rw [hfirst] at hsecond
  exact absurd hsecond (by decide)

/-! ## The fallback strings -/

/-- The chain entry a candidate stands for: its registered adapter and its model id. -/
def candidateEntry (registry : ProviderRegistry) (c : RoutingCandidate) :
    Option AiProvider × String :=
  (registry.get c.model.provider, c.model.modelId)

/-- The adapter and model id of a chain entry, in the shape of `candidateEntry`. -/
def ChainEntry.pair (e : ChainEntry) : Option AiProvider × String := (some e.provider, e.modelId)

/-- A fallback of another provider is decoded to itself exactly when both of its names are segments. -/
theorem fallbackEntry_encodeFallback_iff {registry : ProviderRegistry} {selectedProvider : String}
    {c : RoutingCandidate} {p : AiProvider} (hp : registry.get c.model.provider = some p)
    (hne : c.model.provider ≠ selectedProvider) :
    (∃ e, fallbackEntry registry selectedProvider (encodeFallback c) = some e ∧
        e.pair = candidateEntry registry c) ↔
      Segment c.model.provider ∧ Segment c.model.modelId := by
  rw [← decodeFallback_encodeFallback_iff]
  have hname : p.name = c.model.provider := ProviderRegistry.name_of_get hp
  constructor
  · rintro ⟨e, he, hpair⟩
    obtain ⟨hprov, hid⟩ := Prod.mk.inj hpair
    rw [hp, Option.some.injEq] at hprov
    cases hdec : decodeFallback (encodeFallback c) with
    | none => simp [fallbackEntry, hdec] at he
    | some pair =>
        obtain ⟨q, m⟩ := pair
        simp only [fallbackEntry, hdec] at he
        cases hq : registry.get q with
        | none => simp [hq] at he
        | some p' =>
            simp only [hq, Option.ite_none_right_eq_some, Option.some.injEq] at he
            obtain ⟨-, rfl⟩ := he
            have hqname : p'.name = q := ProviderRegistry.name_of_get hq
            have hpp : p' = p := hprov
            have hmm : m = c.model.modelId := hid
            rw [← hqname, hpp, hname, hmm]
  · intro hdec
    refine ⟨⟨p, c.model.modelId⟩, ?_, ?_⟩
    · simp only [fallbackEntry, hdec, hp, hname, ne_eq, hne, not_false_eq_true, if_true]
    · simp only [ChainEntry.pair, candidateEntry, hp]

/-- **The chain is the strategy's candidates exactly when every fallback's names are segments.** -/
theorem buildProviderChain_route_iff {svc : RoutingService} {request : RouteRequest}
    {preferred : Option String} {selected : RoutingCandidate} {fallbacks : List RoutingCandidate}
    (h : svc.picks request preferred = some (selected, fallbacks)) :
    (buildProviderChain svc.providerRegistry (svc.route request preferred)).map ChainEntry.pair =
        (selected :: fallbacks).map (candidateEntry svc.providerRegistry) ↔
      ∀ c ∈ fallbacks, Segment c.model.provider ∧ Segment c.model.modelId := by
  obtain ⟨hsel, hmodel, hchain, -⟩ := route_of_picks h
  obtain ⟨hregistered, hnodup⟩ := picks_spec h
  rw [List.map_cons, List.nodup_cons] at hnodup
  obtain ⟨p, hp⟩ := hregistered selected List.mem_cons_self
  have hprimary : ChainEntry.pair ⟨p, selected.model.modelId⟩ =
      candidateEntry svc.providerRegistry selected := by
    simp only [ChainEntry.pair, candidateEntry, hp]
  unfold buildProviderChain
  rw [hsel, hmodel, hchain, hp, List.singleton_append, List.map_cons, List.map_cons, hprimary,
    List.cons.injEq, List.filterMap_map, List.map_filterMap_eq_map_iff]
  simp only [true_and, Function.comp_apply]
  refine forall₂_congr fun c hc => ?_
  obtain ⟨q, hq⟩ := hregistered c (List.mem_cons_of_mem _ hc)
  exact fallbackEntry_encodeFallback_iff hq
    (fun heq => hnodup.1 (heq ▸ List.mem_map_of_mem (f := (·.model.provider)) hc))

theorem buildProviderChain_route_iff_plain :
    (buildProviderChain (twoProviders "m").providerRegistry
        ((twoProviders "m").route ⟨"m", false, none, false⟩ (some "fastest"))).map ChainEntry.pair =
      [(some ⟨"first", .fromFile "openai-compatible"⟩, "m"),
        (some ⟨"second", .fromFile "openai-compatible"⟩, "m")] := by
  have hpicks : (twoProviders "m").picks ⟨"m", false, none, false⟩ (some "fastest") =
      some ((twoProviders "m").candidateOf (sharedModel "first" "m"),
        [(twoProviders "m").candidateOf (sharedModel "second" "m")]) := by decide +kernel
  have hchain := (buildProviderChain_route_iff hpicks).mpr (by decide +kernel)
  rw [hchain]
  decide +kernel

/-- Discovery registers `org/team/m` under that id; the chain tries `team` at the second provider. -/
theorem buildProviderChain_alters_path_ids :
    ¬ ∀ (svc : RoutingService) (request : RouteRequest) (preferred : Option String)
        (selected : RoutingCandidate) (fallbacks : List RoutingCandidate),
      svc.picks request preferred = some (selected, fallbacks) →
      (buildProviderChain svc.providerRegistry (svc.route request preferred)).map ChainEntry.pair =
        (selected :: fallbacks).map (candidateEntry svc.providerRegistry) := by
  intro h
  have hpicks : (twoProviders "org/team/m").picks ⟨"org/team/m", false, none, false⟩
      (some "fastest") =
      some ((twoProviders "org/team/m").candidateOf (sharedModel "first" "org/team/m"),
        [(twoProviders "org/team/m").candidateOf (sharedModel "second" "org/team/m")]) := by
    decide +kernel
  have hchain := h _ _ _ _ _ hpicks
  exact absurd hchain (by decide +kernel)

end Sirius
