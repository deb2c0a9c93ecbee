import SiriusGateway.Correctness.ModelNames
import SiriusGateway.Gateway.Embeddings

/-!
# `Correctness.UpstreamAlike` — the model name chat and embeddings hand on

A chat request is handed to the selected adapter under the model id the router selected. An embeddings request
keeps the string the client sent. The two agree exactly on strings that are model ids already
(`names_alike_iff`): an alias and a composite key reach the upstream of an embeddings request as they are. A
string whose embeddings nobody serves reaches none.

## Contents
- **Model ids.** `IsModelId`, and which strings the router leaves as they are.
- **Chat.** What `createResponse` and `streamResponse` hand on.
- **Embeddings.** What `createEmbeddings` hands on.
- **Result.** `NamesAlike` and the result.
-/

namespace Sirius

open Js RoutingService

/-! ## Model ids -/

/-- The string is the model id of an entry, and no entry's composite key. -/
def IsModelId (r : ModelRegistry) (s : String) : Prop := r.NoKey s ∧ ∃ e ∈ r.listModels, e.modelId = s

/-- A composite key is longer than its model id. -/
theorem key_ne_modelId (m : ModelCapabilityMatrix) : m.key ≠ m.modelId := by
  intro h
  have hlength := congrArg String.length h
  simp only [ModelCapabilityMatrix.key, String.length_append] at hlength
  have hcolon : ":".length = 1 := rfl
  omega

/-- **A string resolves to itself exactly when it is a model id.** -/
theorem resolved_eq_iff {r : ModelRegistry} {s : String} {resolved : ResolvedModel}
    (h : r.resolveModel s = some resolved) : resolved.modelId = s ↔ IsModelId r s := by
  rw [ModelRegistry.resolveModel_eq] at h
  obtain ⟨e, he, rfl⟩ := Option.map_eq_some_iff.mp h
  constructor
  · intro hid
    refine ⟨?_, e, (ModelRegistry.resolveEntry_cases he).1, hid⟩
    intro hcolon
    cases hkey : r.models.get s with
    | none => rfl
    | some m =>
        -- the entry under the key `s` would have the model id `s`
        rw [ModelRegistry.resolveEntry_of_key hcolon hkey] at he
        obtain rfl : m = e := Option.some.inj he
        exact absurd ((ModelRegistry.key_of_get hkey).symm.trans hid.symm) (key_ne_modelId m)
  · rintro ⟨hnoKey, m, hm, hid⟩
    obtain ⟨m', hm', -, hid'⟩ := ModelRegistry.resolveEntry_of_id hnoKey hm hid
    obtain rfl : m' = e := Option.some.inj (hm'.symm.trans he)
    exact hid'

/-- What the router selects is registered, under the resolved model id. -/
theorem selected_spec {svc : RoutingService} {request : RouteRequest}
    (h : (svc.route request none).selectedProvider ≠ "") :
    ∃ resolved provider, svc.modelRegistry.resolveModel request.model = some resolved ∧
      (svc.route request none).selectedModel = resolved.modelId ∧
      svc.providerRegistry.get (svc.route request none).selectedProvider = some provider := by
  obtain ⟨resolved, first, rest, hres, hlist, -⟩ := selectedProvider_ne_empty_iff.mp h
  obtain ⟨hprovider, hmodel, -, -⟩ := route_pinned hres hlist
  obtain ⟨-, hid, hregistered, -⟩ := mem_eligible.mp
    (show first ∈ svc.eligible _ _ from hlist ▸ List.mem_cons_self)
  obtain ⟨provider, hget⟩ := Option.isSome_iff_exists.mp hregistered
  refine ⟨resolved, provider, hres, hmodel.trans hid, ?_⟩
  rw [hprovider]
  exact hget

/-! ## Chat -/

/-- The requests go to the adapter the decision selects, under the model id it selects. -/
def HandsOn (decision : RoutingDecision) (actions : List Action) : Prop :=
  InvokesOnly (fun p r => p.name = decision.selectedProvider ∧ r.model = .str decision.selectedModel) actions

variable {svc : RoutingService} {s : String}

/-- The chain of a request is the selected adapter on the selected model id. -/
theorem chain_handsOn {request : UnifiedAiRequest} {stream : Bool} (hmodel : request.model = .str s)
    {decision : RoutingDecision} (hroute : routeRequest svc request stream = .ok decision)
    {chain : List ChainEntry} (hchain : chainOf svc.providerRegistry decision = .ok chain) :
    decision = svc.route ⟨s, stream, request.tools, false⟩ none ∧
      ∀ entry ∈ chain, entry.provider.name = decision.selectedProvider ∧
        (enrichedRequest request entry).model = .str decision.selectedModel := by
  obtain ⟨resolved, first, rest, hres, hlist, adapter, hget, rfl⟩ := chain_of_route hmodel hroute hchain
  unfold routeRequest at hroute
  rw [hmodel] at hroute
  obtain rfl := Except.ok.inj hroute
  obtain ⟨hprovider, hselected, -, -⟩ :=
    @route_pinned svc ⟨s, stream, request.tools, false⟩ resolved hres first rest hlist
  refine ⟨rfl, ?_⟩
  intro entry hentry
  obtain rfl := List.mem_singleton.mp hentry
  have hname : adapter.name = first.provider := ProviderRegistry.name_of_get hget
  rw [hprovider, hselected]
  exact ⟨hname, rfl⟩

theorem createResponse_handsOn (env : Env) {request : UnifiedAiRequest} (hmodel : request.model = .str s)
    (w : World) :
    HandsOn (svc.route ⟨s, false, request.tools, false⟩ none) (createResponse env svc request w).actions := by
  unfold createResponse
  split
  · exact InvokesOnly.nil
  · rename_i decision hroute
    split
    · exact InvokesOnly.nil
    · rename_i chain hchain
      obtain ⟨rfl, hentries⟩ := chain_handsOn hmodel hroute hchain
      exact invokesOnly_createOverChain w hentries

theorem streamResponse_handsOn (env : Env) {request : UnifiedAiRequest} (hmodel : request.model = .str s)
    (w : World) :
    HandsOn (svc.route ⟨s, true, request.tools, false⟩ none) (streamResponse env svc request w).actions := by
  unfold streamResponse
  split
  · exact InvokesOnly.nil
  · rename_i decision hroute
    split
    · exact InvokesOnly.nil
    · rename_i chain hchain
      obtain ⟨rfl, hentries⟩ := chain_handsOn hmodel hroute hchain
      exact invokesOnly_streamOverChain w hentries

/-! ## Embeddings -/

/-- The decision on an embeddings request for the string. -/
def embeddingDecision (svc : RoutingService) (s : String) : RoutingDecision :=
  svc.route ⟨s, false, none, true⟩ none

theorem routeEmbedding_eq {request : UnifiedEmbeddingRequest} (hmodel : request.model = .str s) :
    routeEmbedding svc request = .ok (embeddingDecision svc s) := by
  unfold routeEmbedding
  rw [hmodel]
  rfl

/-- Every request handed on is the client's own, to the selected adapter. -/
theorem mem_handed {env : Env} {upstream : EmbeddingUpstream} {request : UnifiedEmbeddingRequest} {w : World}
    (hmodel : request.model = .str s) (hselects : (embeddingDecision svc s).selectedProvider ≠ "")
    {e : AiProvider × UnifiedEmbeddingRequest} (he : e ∈ (createEmbeddings env upstream svc request w).handed) :
    e.1.name = (embeddingDecision svc s).selectedProvider ∧ e.2 = request := by
  obtain ⟨-, provider, -, -, hget⟩ := selected_spec hselects
  rw [handed_createEmbeddings (routeEmbedding_eq hmodel) hselects hget] at he
  obtain ⟨invoked, -, rfl⟩ := List.mem_map.mp he
  exact ⟨ProviderRegistry.name_of_get hget, rfl⟩

/-- Nothing is handed on when the router selects nobody. -/
theorem handed_of_unselected {env : Env} {upstream : EmbeddingUpstream} {request : UnifiedEmbeddingRequest}
    {w : World} (hmodel : request.model = .str s) (hnone : (embeddingDecision svc s).selectedProvider = "") :
    (createEmbeddings env upstream svc request w).handed = [] := by
  unfold createEmbeddings
  simp only [routeEmbedding_eq hmodel, if_pos hnone]

/-- Services nobody has used yet. -/
def untouchedWorld : World := ⟨JsMap.empty, LatencyTracker.empty, 0, 0⟩

/-- An embeddings request for `model` with one input. -/
def plainEmbedding (model : String) : UnifiedEmbeddingRequest where
  requestId := "r"
  model := .str model
  input := .str "hello"

/-- A fresh gateway hands an embeddings request on when the router selects a provider. -/
theorem exists_handed (upstream : EmbeddingUpstream)
    (hselects : (embeddingDecision svc s).selectedProvider ≠ "") :
    ∃ p, (p, plainEmbedding s) ∈
      (createEmbeddings failingEnv upstream svc (plainEmbedding s) untouchedWorld).handed := by
  obtain ⟨-, provider, -, -, hget⟩ := selected_spec hselects
  rw [handed_createEmbeddings (routeEmbedding_eq rfl) hselects hget]
  -- the breaker of a provider nobody has called is closed
  have hexecute : executeOperation failingEnv 0 provider
      (fun id live => upstream id provider (plainEmbedding s) live) untouchedWorld =
      operationAttempts failingEnv 0 provider (fun id live => upstream id provider (plainEmbedding s) live) 0 0
        untouchedWorld := rfl
  obtain ⟨later, hinvoked⟩ := invoked_operationAttempts failingEnv 0 provider
    (fun id live => upstream id provider (plainEmbedding s) live) 0 0 untouchedWorld
  rw [hexecute, hinvoked, List.map_cons]
  exact ⟨provider, List.mem_cons_self⟩

/-! ## Result -/

/-- Whatever the request and the run, the selected adapter is called for the selected model id. -/
structure NamesAlike (svc : RoutingService) (s : String) : Prop where
  create : ∀ (env : Env) (request : UnifiedAiRequest) (w : World), request.model = .str s →
    HandsOn (svc.route ⟨s, false, request.tools, false⟩ none) (createResponse env svc request w).actions
  stream : ∀ (env : Env) (request : UnifiedAiRequest) (w : World), request.model = .str s →
    HandsOn (svc.route ⟨s, true, request.tools, false⟩ none) (streamResponse env svc request w).actions
  embeddings : ∀ (env : Env) (upstream : EmbeddingUpstream) (request : UnifiedEmbeddingRequest) (w : World),
    request.model = .str s → ∀ e ∈ (createEmbeddings env upstream svc request w).handed,
      e.1.name = (svc.route ⟨s, false, none, true⟩ none).selectedProvider ∧
        e.2.model = .str (svc.route ⟨s, false, none, true⟩ none).selectedModel

/-- Chat always names the selected model id, so the embeddings decide. -/
theorem namesAlike_iff_embeddings : NamesAlike svc s ↔
    ∀ (env : Env) (upstream : EmbeddingUpstream) (request : UnifiedEmbeddingRequest) (w : World),
      request.model = .str s → ∀ e ∈ (createEmbeddings env upstream svc request w).handed,
        e.1.name = (svc.route ⟨s, false, none, true⟩ none).selectedProvider ∧
          e.2.model = .str (svc.route ⟨s, false, none, true⟩ none).selectedModel := by
  constructor
  · exact NamesAlike.embeddings
  · intro h
    exact ⟨fun env request w hmodel => createResponse_handsOn env hmodel w,
      fun env request w hmodel => streamResponse_handsOn env hmodel w, h⟩

/-- **Chat and embeddings name the model alike exactly when the client's string is a model id**, or the router
    selects no provider for its embeddings, so that none are asked for. -/
theorem names_alike_iff (svc : RoutingService) (s : String) :
    NamesAlike svc s ↔
      (svc.route ⟨s, false, none, true⟩ none).selectedProvider = "" ∨ IsModelId svc.modelRegistry s := by
  rw [namesAlike_iff_embeddings]
  by_cases hselects : (embeddingDecision svc s).selectedProvider = ""
  · refine iff_of_true ?_ (Or.inl hselects)
    intro env upstream request w hmodel e he
    rw [handed_of_unselected hmodel hselects] at he
    cases he
  · obtain ⟨resolved, -, hres, hselected, -⟩ := selected_spec hselects
    rw [← resolved_eq_iff hres]
    constructor
    · intro h
      right
      obtain ⟨p, hp⟩ := @exists_handed svc s (fun _ _ _ _ => .timedOut) hselects
      have hmodel := (h _ _ _ _ rfl _ hp).2
      rw [hselected] at hmodel
      exact (Json.str.inj hmodel).symm
    · intro h env upstream request w hmodel e he
      have hid := h.resolve_left hselects
      obtain ⟨hprovider, hrequest⟩ := mem_handed hmodel hselects he
      refine ⟨hprovider, ?_⟩
      rw [hrequest, hmodel, hselected, hid]

/-- The catalog's models over one openai adapter. -/
def catalogService : RoutingService := ⟨ModelRegistry.initial, openaiRegistry, LatencyTracker.empty⟩

/-- Asked for `openai:text-embedding-3-small`, the adapter gets the composite key. -/
theorem embeddings_keep_the_key :
    ¬ ∀ (svc : RoutingService) (s : String), (svc.route ⟨s, false, none, true⟩ none).selectedProvider ≠ "" →
      NamesAlike svc s := by
  intro h
  have halike := h catalogService "openai:text-embedding-3-small" (by decide +kernel)
  have hmodel := (halike.embeddings failingEnv (fun _ _ _ _ => .timedOut)
    (plainEmbedding "openai:text-embedding-3-small") untouchedWorld rfl
    (openai, plainEmbedding "openai:text-embedding-3-small") (by decide +kernel)).2
  exact absurd hmodel (by decide +kernel)

end Sirius
