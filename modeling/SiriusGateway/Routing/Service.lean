import SiriusGateway.Core.Types
import SiriusGateway.ModelRegistry.Service
import SiriusGateway.Observability.Recorders
import SiriusGateway.Routing.Strategies

/-!
# `Routing.Service` — from a model string to a routing decision

`RoutingService.route`: resolve the model, derive the required capabilities, collect the candidates that
can serve the request, let the strategy pick one and encode the fallbacks as `provider/modelId` strings.

## Contents
- **The service.** `deriveCapabilities`, `buildCandidates`, `getStrategy`, `route`.
- **Candidates.** `eligible`: the registry entries a request can be served by; the candidates are exactly
  those, in registry order, all healthy (`buildCandidates_eq`).
- **Decisions.** `route_eq`: the decision as a function of the resolved model and the eligible entries;
  with the pinned strategy it selects the *first* eligible entry (`route_pinned`).
-/

namespace Sirius

/-- `RouteRequest`. -/
structure RouteRequest where
  model : String
  stream : Bool
  tools : Option (List UnifiedTool) := none
  embeddings : Bool := false

/-- The state `RoutingService` reads. -/
structure RoutingService where
  modelRegistry : ModelRegistry
  providerRegistry : ProviderRegistry
  latencyTracker : LatencyTracker

namespace RoutingService

/-- `getDefaultStrategy()`. -/
def getDefaultStrategy : String := "pinned"

/-- `getStrategy(name)`; an unknown name falls back to `pinned`. -/
def getStrategy (name : String) : RoutingStrategy :=
  ([.pinned, .fastest, .cheapest, .balanced, .localFirst, .privacyFirst].find? fun s =>
    s.name = name).getD .pinned

/-- `deriveCapabilities(request)`. -/
def deriveCapabilities (request : RouteRequest) : List String :=
  -- the order is that of the source's pushes
  (if request.embeddings then ["embeddings"] else ["chat"])
    ++ (if request.stream then ["streaming"] else [])
    ++ (match request.tools with
        | some tools => if tools.length > 0 then ["tools"] else []
        | none => [])

/-- `requiredCapabilities.every((cap) => model.capabilities[cap] === true)`. -/
def meetsCaps (required : List String) (model : ModelCapabilityMatrix) : Bool :=
  required.all fun cap => model.capabilities.has cap

/-- The candidate of an entry: assumed healthy, with the provider's average latency. -/
def candidateOf (svc : RoutingService) (model : ModelCapabilityMatrix) : RoutingCandidate where
  model := model
  health :=
    { provider := model.provider
      status := .healthy
      latencyMs := some ((svc.latencyTracker.getAverageLatency model.provider).getD 0) }

/-- `buildCandidates(modelId, requiredCapabilities)`. -/
def buildCandidates (svc : RoutingService) (modelId : String) (required : List String) :
    List RoutingCandidate :=
  (svc.modelRegistry.listModels.filter fun m => m.modelId = modelId).filterMap fun model =>
    match svc.providerRegistry.get model.provider with
    | none => none
    | some _ => if meetsCaps required model then some (svc.candidateOf model) else none

/-- `noRoute(model, strategy, reason?)`. -/
def noRoute (model strategy : String) (reason : Option String) : RoutingDecision where
  selectedProvider := ""
  selectedModel := model
  strategy := strategy
  reason := reason.getD "No eligible provider found"
  fallbackChain := []
  attemptNumber := 0

/-- The reason given when no candidate is eligible. -/
def noCandidatesReason (svc : RoutingService) (modelId : String) : String :=
  let allProviders := svc.modelRegistry.getProvidersForModel modelId
  if allProviders.length > 0 then
    let names := ", ".intercalate allProviders
    s!"The model '{modelId}' requires provider(s) '{names}' which are not configured or are unhealthy."
  else s!"No eligible candidates for model={modelId}"

/-- The string a fallback candidate is encoded as. -/
def encodeFallback (c : RoutingCandidate) : String := c.model.provider ++ "/" ++ c.model.modelId

/-- `route(request, preferredStrategy?)`. -/
def route (svc : RoutingService) (request : RouteRequest) (preferredStrategy : Option String) :
    RoutingDecision :=
  let strategyName := preferredStrategy.getD getDefaultStrategy
  match svc.modelRegistry.resolveModel request.model with
  | none =>
      noRoute request.model strategyName
        (some s!"The model '{request.model}' does not exist or you do not have access to it.")
  | some resolved =>
      let required := deriveCapabilities request
      -- the resolved provider is not used: every provider of the model id is a candidate
      let candidates := svc.buildCandidates resolved.modelId required
      if candidates.length = 0 then
        noRoute resolved.modelId strategyName (some (svc.noCandidatesReason resolved.modelId))
      else
        let strategy := getStrategy strategyName
        let context : RoutingContext := ⟨resolved.modelId, required, candidates⟩
        match strategy.select context with
        | none => noRoute resolved.modelId strategyName none
        | some selected =>
            { selectedProvider := selected.model.provider
              selectedModel := selected.model.modelId
              strategy := strategy.name
              reason := s!"Selected by {strategy.name} strategy"
              -- the decision carries the name of the strategy found, not the one asked for
              fallbackChain := (strategy.buildFallbackChain context).map encodeFallback
              attemptNumber := 1 }

/-! ## Candidates -/

/-- The entry can serve a request with the required capabilities: its provider is registered and it
    declares all of them. -/
def Eligible (svc : RoutingService) (required : List String) (model : ModelCapabilityMatrix) : Prop :=
  (svc.providerRegistry.get model.provider).isSome = true ∧ meetsCaps required model = true

instance (svc : RoutingService) (required : List String) :
    DecidablePred (svc.Eligible required) :=
  fun _ => inferInstanceAs (Decidable (_ ∧ _))

/-- The entries of a model id that can serve a request, in registry order. -/
def eligible (svc : RoutingService) (modelId : String) (required : List String) :
    List ModelCapabilityMatrix :=
  svc.modelRegistry.listModels.filter fun m => m.modelId = modelId ∧ svc.Eligible required m

theorem buildCandidates_eq (svc : RoutingService) (modelId : String) (required : List String) :
    svc.buildCandidates modelId required = (svc.eligible modelId required).map svc.candidateOf := by
  unfold buildCandidates eligible
  induction svc.modelRegistry.listModels with
  | nil => rfl
  | cons m rest ih =>
      by_cases hid : m.modelId = modelId
      · rw [List.filter_cons_of_pos (by simpa using hid), List.filterMap_cons]
        cases hp : svc.providerRegistry.get m.provider with
        | none =>
            rw [List.filter_cons_of_neg (by simp [Eligible, hp])]
            simpa [hp] using ih
        | some p =>
            by_cases hc : meetsCaps required m = true
            · rw [List.filter_cons_of_pos (by simp [Eligible, hp, hc, hid])]
              simpa [hp, hc] using ih
            · rw [List.filter_cons_of_neg (by simp [Eligible, hc])]
              simpa [hp, hc] using ih
      · rw [List.filter_cons_of_neg (by simpa using hid),
          List.filter_cons_of_neg (by simp [hid])]
        exact ih

theorem mem_eligible {svc : RoutingService} {modelId : String} {required : List String}
    {m : ModelCapabilityMatrix} :
    m ∈ svc.eligible modelId required ↔
      m ∈ svc.modelRegistry.listModels ∧ m.modelId = modelId ∧ svc.Eligible required m := by
  simp [eligible]

/-- No candidate is down. -/
theorem notDown_buildCandidates (svc : RoutingService) (modelId : String) (required : List String) :
    notDown (svc.buildCandidates modelId required) = svc.buildCandidates modelId required := by
  rw [buildCandidates_eq, notDown, List.filter_eq_self]
  intro c hc
  obtain ⟨m, _, rfl⟩ := List.mem_map.mp hc
  simp [candidateOf]

/-- Every strategy selects something among candidates that are not down. -/
theorem select_ne_none (strategy : RoutingStrategy) {context : RoutingContext}
    (h : notDown context.candidates ≠ []) : strategy.select context ≠ none := by
  have hrank : ∀ s : RoutingStrategy, (s.rank .double context.candidates).head? ≠ none := by
    intro s
    rw [Ne, List.head?_eq_none_iff]
    exact RoutingStrategy.rank_ne_nil h
  cases strategy with
  | pinned =>
      rw [RoutingStrategy.select_pinned_eq]
      unfold RoutingStrategy.selectPinned
      split
      · simp
      · intro hnone
        rw [Option.or_eq_none_iff, List.head?_eq_none_iff] at hnone
        exact h hnone.2
  | fastest => exact hrank .fastest
  | cheapest => exact hrank .cheapest
  | balanced => exact hrank .balanced
  | localFirst => exact hrank .localFirst
  | privacyFirst => exact hrank .privacyFirst

/-- The pinned strategy selects the first candidate when all of them are of the requested model. -/
theorem selectPinned_eq_head {context : RoutingContext}
    (hdown : notDown context.candidates = context.candidates)
    (hid : ∀ c ∈ context.candidates, c.model.modelId = context.requestedModel) :
    RoutingStrategy.selectPinned context = context.candidates.head? := by
  unfold RoutingStrategy.selectPinned
  rw [hdown]
  split
  · rename_i only heq
    rw [heq]; rfl
  · cases hc : context.candidates with
    | nil => rfl
    | cons c rest =>
        have hfirst := hid c (hc ▸ List.mem_cons_self)
        simp [hfirst]

/-! ## Decisions -/

/-- The context `route` hands to the strategy. -/
def contextOf (svc : RoutingService) (request : RouteRequest) (resolved : ResolvedModel) :
    RoutingContext :=
  ⟨resolved.modelId, deriveCapabilities request,
    svc.buildCandidates resolved.modelId (deriveCapabilities request)⟩

/-- The entries that can serve a resolved request. -/
def eligibleFor (svc : RoutingService) (request : RouteRequest) (resolved : ResolvedModel) :
    List ModelCapabilityMatrix :=
  svc.eligible resolved.modelId (deriveCapabilities request)

/-- The selected candidate and the fallback candidates of a request, before they are encoded. -/
def picks (svc : RoutingService) (request : RouteRequest) (preferred : Option String) :
    Option (RoutingCandidate × List RoutingCandidate) :=
  (svc.modelRegistry.resolveModel request.model).bind fun resolved =>
    let strategy := getStrategy (preferred.getD getDefaultStrategy)
    (strategy.select (svc.contextOf request resolved)).map fun selected =>
      (selected, strategy.buildFallbackChain (svc.contextOf request resolved))

/-- The providers of the eligible entries are distinct. -/
theorem nodup_provider_eligible (svc : RoutingService) (modelId : String) (required : List String) :
    ((svc.eligible modelId required).map (·.provider)).Nodup := by
  have hkeys := svc.modelRegistry.nodup_keys_listModels
  have hsub : (svc.eligible modelId required).Sublist svc.modelRegistry.listModels :=
    List.filter_sublist
  refine List.Nodup.map_on ?_ ((List.Nodup.of_map _ hkeys).sublist hsub)
  intro m hm m' hm' hp
  obtain ⟨hl, hid, -⟩ := mem_eligible.mp hm
  obtain ⟨hl', hid', -⟩ := mem_eligible.mp hm'
  exact ModelRegistry.listModels_inj hl hl' hp (hid.trans hid'.symm)

variable {svc : RoutingService} {request : RouteRequest} {resolved : ResolvedModel}

theorem route_of_unresolved (h : svc.modelRegistry.resolveModel request.model = none)
    (preferred : Option String) : (svc.route request preferred).attemptNumber = 0 ∧
      (svc.route request preferred).selectedProvider = "" := by
  simp [route, h, noRoute]

theorem route_of_no_candidate (h : svc.modelRegistry.resolveModel request.model = some resolved)
    (hnone : svc.eligibleFor request resolved = []) (preferred : Option String) :
    (svc.route request preferred).attemptNumber = 0 ∧
      (svc.route request preferred).selectedProvider = "" := by
  have hc : svc.buildCandidates resolved.modelId (deriveCapabilities request) = [] := by
    rw [buildCandidates_eq]
    exact List.map_eq_nil_iff.mpr hnone
  simp [route, h, hc, noRoute]

/-- **The decision when some entry is eligible**: the strategy selects a candidate, and the fallbacks are
    encoded in the strategy's order. -/
theorem route_eq (h : svc.modelRegistry.resolveModel request.model = some resolved)
    (hsome : svc.eligibleFor request resolved ≠ []) (preferred : Option String) :
    ∃ selected,
      (getStrategy (preferred.getD getDefaultStrategy)).select (svc.contextOf request resolved)
        = some selected ∧
      (svc.route request preferred).selectedProvider = selected.model.provider ∧
      (svc.route request preferred).selectedModel = selected.model.modelId ∧
      (svc.route request preferred).fallbackChain =
        ((getStrategy (preferred.getD getDefaultStrategy)).buildFallbackChain
          (svc.contextOf request resolved)).map encodeFallback ∧
      (svc.route request preferred).attemptNumber = 1 := by
  have hne : svc.buildCandidates resolved.modelId (deriveCapabilities request) ≠ [] := by
    rw [buildCandidates_eq]
    exact fun hnil => hsome (List.map_eq_nil_iff.mp hnil)
  have hlen : ¬ (svc.buildCandidates resolved.modelId (deriveCapabilities request)).length = 0 :=
    fun hl => hne (List.length_eq_zero_iff.mp hl)
  have hup : notDown (svc.contextOf request resolved).candidates ≠ [] := by
    show notDown (svc.buildCandidates _ _) ≠ []
    rwa [notDown_buildCandidates]
  have hsel := select_ne_none (getStrategy (preferred.getD getDefaultStrategy)) hup
  obtain ⟨selected, hs⟩ := Option.ne_none_iff_exists'.mp hsel
  have hs' := hs
  unfold contextOf at hs'
  refine ⟨selected, hs, ?_⟩
  simp only [route, h, if_neg hlen, hs', contextOf, and_self]

/-- A candidate is selected exactly when the string resolves and some entry is eligible. -/
theorem attemptNumber_eq_one_iff {preferred : Option String} :
    (svc.route request preferred).attemptNumber = 1 ↔
      ∃ resolved, svc.modelRegistry.resolveModel request.model = some resolved ∧
        svc.eligibleFor request resolved ≠ [] := by
  constructor
  · intro h
    cases hres : svc.modelRegistry.resolveModel request.model with
    | none =>
        rw [(route_of_unresolved hres preferred).1] at h
        exact absurd h (by decide)
    | some resolved =>
        refine ⟨resolved, rfl, fun hnil => ?_⟩
        rw [(route_of_no_candidate hres hnil preferred).1] at h
        exact absurd h (by decide)
  · rintro ⟨resolved, hres, hne⟩
    obtain ⟨-, -, -, -, -, h⟩ := route_eq hres hne preferred
    exact h

/-- Without a decision, no provider is named. -/
theorem route_of_no_decision {preferred : Option String}
    (h : (svc.route request preferred).attemptNumber ≠ 1) :
    (svc.route request preferred).selectedProvider = "" ∧
      (svc.route request preferred).fallbackChain = [] := by
  unfold route at h ⊢
  split at h
  · exact ⟨rfl, rfl⟩
  · dsimp only at h ⊢
    split at h
    · rw [if_pos ‹_›]
      exact ⟨rfl, rfl⟩
    · rw [if_neg ‹_›]
      split at h
      · exact ⟨rfl, rfl⟩
      · exact absurd rfl h

/-- The decision is the encoding of the picks. -/
theorem route_of_picks {preferred : Option String} {selected : RoutingCandidate}
    {fallbacks : List RoutingCandidate} (h : svc.picks request preferred = some (selected, fallbacks)) :
    (svc.route request preferred).selectedProvider = selected.model.provider ∧
      (svc.route request preferred).selectedModel = selected.model.modelId ∧
      (svc.route request preferred).fallbackChain = fallbacks.map encodeFallback ∧
      (svc.route request preferred).attemptNumber = 1 := by
  obtain ⟨resolved, hres, hpick⟩ := Option.bind_eq_some_iff.mp h
  obtain ⟨selected', hsel, heq⟩ := Option.map_eq_some_iff.mp hpick
  obtain ⟨rfl, rfl⟩ := Prod.mk.inj heq
  have hsub := RoutingStrategy.select_cons_fallback_subperm hsel
  have hne : svc.eligibleFor request resolved ≠ [] := by
    intro hnil
    have hmem := (List.mem_filter.mp (hsub.subset List.mem_cons_self)).1
    have hmem' : selected' ∈ svc.buildCandidates resolved.modelId (deriveCapabilities request) := hmem
    rw [buildCandidates_eq] at hmem'
    obtain ⟨m, hm, -⟩ := List.mem_map.mp hmem'
    exact absurd (show m ∈ svc.eligibleFor request resolved from hm) (hnil ▸ List.not_mem_nil)
  obtain ⟨selected'', hsel', hroute⟩ := route_eq hres hne preferred
  obtain rfl : selected' = selected'' := Option.some.inj (hsel.symm.trans hsel')
  exact hroute

/-- Picks are candidates of registered providers, no provider twice. -/
theorem picks_spec {preferred : Option String} {selected : RoutingCandidate}
    {fallbacks : List RoutingCandidate} (h : svc.picks request preferred = some (selected, fallbacks)) :
    (∀ c ∈ selected :: fallbacks, ∃ p, svc.providerRegistry.get c.model.provider = some p) ∧
      ((selected :: fallbacks).map (·.model.provider)).Nodup := by
  obtain ⟨resolved, -, hpick⟩ := Option.bind_eq_some_iff.mp h
  obtain ⟨selected', hsel, heq⟩ := Option.map_eq_some_iff.mp hpick
  obtain ⟨rfl, rfl⟩ := Prod.mk.inj heq
  have hsub := RoutingStrategy.select_cons_fallback_subperm hsel
  have hcand : notDown (svc.contextOf request resolved).candidates =
      (svc.eligibleFor request resolved).map svc.candidateOf :=
    (svc.notDown_buildCandidates _ _).trans (svc.buildCandidates_eq _ _)
  rw [hcand] at hsub
  constructor
  · intro c hc
    obtain ⟨m, hm, rfl⟩ := List.mem_map.mp (hsub.subset hc)
    exact Option.isSome_iff_exists.mp (mem_eligible.mp hm).2.2.1
  · obtain ⟨l, hperm, hl⟩ := hsub
    refine (hperm.map _).nodup (List.Nodup.sublist (hl.map _) ?_)
    rw [List.map_map]
    exact svc.nodup_provider_eligible _ _

theorem select_pinned_eq_head :
    RoutingStrategy.pinned.select (svc.contextOf request resolved) =
      (svc.eligibleFor request resolved).head?.map svc.candidateOf := by
  rw [RoutingStrategy.select_pinned_eq, selectPinned_eq_head]
  · show (svc.buildCandidates _ _).head? = _
    rw [buildCandidates_eq, List.head?_map]
    rfl
  · exact notDown_buildCandidates ..
  · intro c hc
    have hc' : c ∈ svc.buildCandidates resolved.modelId (deriveCapabilities request) := hc
    rw [buildCandidates_eq] at hc'
    obtain ⟨m, hm, rfl⟩ := List.mem_map.mp hc'
    exact (mem_eligible.mp hm).2.1

/-- **The default strategy selects the first eligible entry.** -/
theorem route_pinned (h : svc.modelRegistry.resolveModel request.model = some resolved)
    {m : ModelCapabilityMatrix} {rest : List ModelCapabilityMatrix}
    (hel : svc.eligibleFor request resolved = m :: rest) :
    (svc.route request none).selectedProvider = m.provider ∧
      (svc.route request none).selectedModel = m.modelId ∧
      (svc.route request none).fallbackChain = [] ∧
      (svc.route request none).attemptNumber = 1 := by
  obtain ⟨selected, hsel, hp, hm, hf, ha⟩ := route_eq h (hel ▸ List.cons_ne_nil m rest) none
  have hstrat : getStrategy ((none : Option String).getD getDefaultStrategy) = .pinned := by decide
  rw [hstrat, select_pinned_eq_head, hel] at hsel
  obtain rfl : svc.candidateOf m = selected := Option.some.inj hsel
  rw [hstrat] at hf
  exact ⟨hp, hm, hf, ha⟩

/-- **The pinned strategy names the provider of the first eligible entry**, or nobody. -/
theorem selectedProvider_of_pinned {preferred : Option String}
    (hpinned : getStrategy (preferred.getD getDefaultStrategy) = .pinned) :
    (svc.route request preferred).selectedProvider =
      (((svc.modelRegistry.resolveModel request.model).bind fun resolved =>
        (svc.eligibleFor request resolved).head?).map (·.provider)).getD "" := by
  cases hres : svc.modelRegistry.resolveModel request.model with
  | none => exact (route_of_unresolved hres preferred).2
  | some resolved =>
      cases hlist : svc.eligibleFor request resolved with
      | nil =>
          rw [(route_of_no_candidate hres hlist preferred).2, Option.bind_some, hlist]
          rfl
      | cons first rest =>
          obtain ⟨selected, hsel, hp, -⟩ := route_eq hres (hlist ▸ List.cons_ne_nil first rest) preferred
          rw [hpinned, select_pinned_eq_head, hlist] at hsel
          obtain rfl : svc.candidateOf first = selected := Option.some.inj hsel
          rw [hp, Option.bind_some, hlist]
          rfl

/-- The default strategy names a provider exactly when the first eligible entry has a named one. -/
theorem selectedProvider_ne_empty_iff :
    (svc.route request none).selectedProvider ≠ "" ↔
      ∃ resolved first rest, svc.modelRegistry.resolveModel request.model = some resolved ∧
        svc.eligibleFor request resolved = first :: rest ∧ first.provider ≠ "" := by
  constructor
  · intro h
    cases hres : svc.modelRegistry.resolveModel request.model with
    | none => exact absurd (route_of_unresolved hres none).2 h
    | some resolved =>
        cases hlist : svc.eligibleFor request resolved with
        | nil => exact absurd (route_of_no_candidate hres hlist none).2 h
        | cons first rest =>
            rw [(route_pinned hres hlist).1] at h
            exact ⟨resolved, first, rest, rfl, hlist, h⟩
  · rintro ⟨resolved, first, rest, hres, hlist, hne⟩
    rw [(route_pinned hres hlist).1]
    exact hne

end RoutingService

end Sirius
