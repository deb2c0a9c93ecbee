import SiriusGateway.Gateway.Chain
import SiriusGateway.Policy.Execute

/-!
# `Gateway.Service` — failover over the provider chain

`GatewayService.createResponse` and `GatewayService.streamResponse`: route, build the chain, and try its
adapters in order under the policy.

## Contents
- **Routing a request.** `routeRequest`, with the dynamic `model` field of a client body.
- **`createResponse`.** `createChain` is its loop.
- **`streamResponse`.** `streamChain` is its loop: an adapter that has delivered nothing may be replaced, one
  that has is not.
- **Turns.** The ways one turn of each loop can go (`ChainTurn`, `CreateTurn`) and the induction rules.
-/

namespace Sirius

open Js

/-! ## Routing a request -/

/-- `routingService.route(...)` on a request: the registry calls `modelString.includes(':')` first. An
    array has that method too, and then equals no key, id or alias. -/
def routeRequest (svc : RoutingService) (request : UnifiedAiRequest) (stream : Bool) :
    Throws RoutingDecision :=
  match request.model with
  | .str model => .ok (svc.route ⟨model, stream, request.tools, false⟩ none)
  | .arr items =>
      (toStr (.arr items)).bind fun model =>
        .error (.error s!"The model '{model}' does not exist or you do not have access to it.")
  | .null => .error (.typeError "Cannot read properties of null (reading 'includes')")
  | _ => .error (.typeError "modelString.includes is not a function")

/-- `buildProviderChain(decision)`, after the check that a provider was selected. -/
def chainOf (registry : ProviderRegistry) (decision : RoutingDecision) : Throws (List ChainEntry) :=
  if decision.selectedProvider = "" then .error (.error decision.reason)
  else .ok (buildProviderChain registry decision)

/-- `{ ...request, model: modelId }`. -/
def enrichedRequest (request : UnifiedAiRequest) (entry : ChainEntry) : UnifiedAiRequest :=
  { request with model := .str entry.modelId }

/-- The message when the chain is exhausted. -/
def allFailedMessage (request : UnifiedAiRequest) : Option String → String
  | some message => s!"All providers failed. Last error: {message}"
  | none =>
      let model := (toStr request.model).toOption.getD ""
      s!"All providers failed for model \"{model}\""

/-! ## `createResponse` -/

/-- `GatewayMeta`. -/
structure GatewayMeta where
  provider : String
  model : String
  strategy : String
  tokensUsed : JsValue
  providerLatencyMs : Rat
  fallbackUsed : Bool
  deriving DecidableEq

/-- The response with its `_gatewayMeta`. -/
structure GatewayResponse where
  response : UnifiedAiResponse
  gatewayMeta : GatewayMeta
  deriving DecidableEq

/-- The loop of `createResponse` over the rest of the chain, from position `position`. -/
def createChain (env : Env) (request : UnifiedAiRequest) (strategy : String) :
    Nat → List ChainEntry → Option String → World → Outcome (Except String GatewayResponse)
  | _, [], lastError, w => ⟨w, [], .error (allFailedMessage request lastError)⟩
  | position, entry :: rest, _, w =>
      let tried := executeWithPolicy env position entry.provider (enrichedRequest request entry) w
      let w := tried.world
      match tried.result with
      | .ok response =>
          let w := { w with
            latencyTracker := w.latencyTracker.record entry.provider.name response.latencyMs }
          ⟨w, tried.actions ++ [.recordLatency position entry.provider.name],
            .ok ⟨response,
              { provider := entry.provider.name
                model := entry.modelId
                strategy := strategy
                tokensUsed := response.usage.totalTokens
                providerLatencyMs := response.latencyMs
                fallbackUsed := position > 0 }⟩⟩
      | .error message =>
          if w.aborted env then ⟨w, tried.actions, .error message⟩
          else (createChain env request strategy (position + 1) rest (some message) w).after tried.actions

/-- `createResponse` from its provider chain on. -/
def createOverChain (env : Env) (request : UnifiedAiRequest) (strategy : String)
    (chain : List ChainEntry) (w : World) : Outcome (Except String GatewayResponse) :=
  createChain env request strategy 0 chain none w

/-- `createResponse(request, options)`. -/
def createResponse (env : Env) (svc : RoutingService) (request : UnifiedAiRequest) (w : World) :
    Outcome (Except String GatewayResponse) :=
  match routeRequest svc request false with
  | .error e => ⟨w, [], .error e.message⟩
  | .ok decision =>
      match chainOf svc.providerRegistry decision with
      | .error e => ⟨w, [], .error e.message⟩
      | .ok chain => createOverChain env request decision.strategy chain w

/-! ## `streamResponse` -/

/-- The message of the idle timer. -/
def idleMessage : String := "Stream idle timeout"

/-- The loop of `streamResponse` over the rest of the chain, from position `position`. -/
def streamChain (env : Env) (request : UnifiedAiRequest) :
    Nat → List ChainEntry → Option String → World → Outcome Unit
  | _, [], lastError, w => ⟨w, [.deliverError (allFailedMessage request lastError)], ()⟩
  | position, entry :: rest, _, w =>
      let start := w.now env
      let tried := executeStreamWithPolicy env position entry.provider (enrichedRequest request entry) w
      let w := tried.world
      let failed (message : String) : Outcome Unit :=
        -- the client is gone
        if w.aborted env then ⟨w, tried.actions, ()⟩
        else if tried.result.yieldedAny then ⟨w, tried.actions ++ [.deliverError message], ()⟩
        else (streamChain env request (position + 1) rest (some message) w).after tried.actions
      match tried.result.ending with
      | .completed =>
          let w := { w with
            latencyTracker := w.latencyTracker.record entry.provider.name ((w.now env - start : Int) : Rat) }
          ⟨w, tried.actions ++ [.recordLatency position entry.provider.name], ()⟩
      | .stopped => ⟨w, tried.actions, ()⟩
      | .threw message => failed message
      | .observerThrew message => failed message
      | .idle => failed idleMessage

/-- `streamResponse` from its provider chain on. -/
def streamOverChain (env : Env) (request : UnifiedAiRequest) (chain : List ChainEntry) (w : World) :
    Outcome Unit :=
  streamChain env request 0 chain none w

/-- `streamResponse(request, options)`; an error is thrown before the first event. -/
def streamResponse (env : Env) (svc : RoutingService) (request : UnifiedAiRequest) (w : World) :
    Outcome (Except String Unit) :=
  match routeRequest svc request true with
  | .error e => ⟨w, [], .error e.message⟩
  | .ok decision =>
      match chainOf svc.providerRegistry decision with
      | .error e => ⟨w, [], .error e.message⟩
      | .ok chain =>
          let o := streamOverChain env request chain w
          ⟨o.world, o.actions, .ok ()⟩

/-! ## The turns of the failover loop -/

/-- The failure a stream's end is to the gateway. -/
def StreamEnd.failure : StreamEnd → Option String
  | .completed => none
  | .stopped => none
  | .threw message => some message
  | .observerThrew message => some message
  | .idle => some idleMessage

/-- The ways one turn of the loop can go; `tried` is the policy run of its adapter. -/
inductive ChainTurn (env : Env) (request : UnifiedAiRequest) (position : Nat) (entry : ChainEntry)
    (rest : List ChainEntry) (tried : Outcome StreamResult) : Outcome Unit → Prop
  | served {w : World} (hend : tried.result.ending = .completed)
      (hcircuit : w.circuitState = tried.world.circuitState) :
      ChainTurn env request position entry rest tried
        ⟨w, tried.actions ++ [.recordLatency position entry.provider.name], ()⟩
  | stopped (hend : tried.result.ending = .stopped) :
      ChainTurn env request position entry rest tried ⟨tried.world, tried.actions, ()⟩
  /-- It fails after the client has gone. -/
  | gone {message : String} (hend : tried.result.ending.failure = some message)
      (hgone : tried.world.aborted env = true) :
      ChainTurn env request position entry rest tried ⟨tried.world, tried.actions, ()⟩
  /-- It fails after it has delivered output. -/
  | broken {message : String} (hend : tried.result.ending.failure = some message)
      (hhere : tried.world.aborted env = false) (hyield : tried.result.yieldedAny = true) :
      ChainTurn env request position entry rest tried
        ⟨tried.world, tried.actions ++ [.deliverError message], ()⟩
  /-- It fails before any output, and the next adapter is tried. -/
  | replaced {message : String} (hend : tried.result.ending.failure = some message)
      (hhere : tried.world.aborted env = false) (hyield : tried.result.yieldedAny = false) :
      ChainTurn env request position entry rest tried
        ((streamChain env request (position + 1) rest (some message) tried.world).after tried.actions)

/-- **Every turn of the loop goes one of these ways.** -/
theorem streamChain_turn (env : Env) (request : UnifiedAiRequest) (position : Nat) (entry : ChainEntry)
    (rest : List ChainEntry) (lastError : Option String) (w : World) :
    ChainTurn env request position entry rest
      (executeStreamWithPolicy env position entry.provider (enrichedRequest request entry) w)
      (streamChain env request position (entry :: rest) lastError w) := by
  simp only [streamChain]
  generalize executeStreamWithPolicy env position entry.provider (enrichedRequest request entry) w =
    tried
  have hfailed : ∀ message, tried.result.ending.failure = some message →
      ChainTurn env request position entry rest tried
        (if tried.world.aborted env = true then ⟨tried.world, tried.actions, ()⟩
        else if tried.result.yieldedAny = true then
          ⟨tried.world, tried.actions ++ [.deliverError message], ()⟩
        else (streamChain env request (position + 1) rest (some message) tried.world).after
          tried.actions) := by
    intro message hend
    split
    · exact ChainTurn.gone hend ‹_›
    · split
      · exact ChainTurn.broken hend (Bool.eq_false_iff.mpr ‹_›) ‹_›
      · exact ChainTurn.replaced hend (Bool.eq_false_iff.mpr ‹_›) (Bool.eq_false_iff.mpr ‹_›)
  cases hend : tried.result.ending with
  | completed => exact ChainTurn.served hend rfl
  | stopped => exact ChainTurn.stopped hend
  | threw message => exact hfailed message (by rw [hend]; rfl)
  | observerThrew message => exact hfailed message (by rw [hend]; rfl)
  | idle => exact hfailed idleMessage (by rw [hend]; rfl)

/-- **The rule of the loop**: what the exhausted chain establishes, and every turn given that the rest of
    the chain does, holds of the whole loop. -/
theorem streamChain_rule {env : Env} {request : UnifiedAiRequest}
    {P : Nat → List ChainEntry → World → Outcome Unit → Prop}
    (hnil : ∀ position lastError w,
      P position [] w ⟨w, [.deliverError (allFailedMessage request lastError)], ()⟩)
    (hturn : ∀ position entry rest w o, ChainTurn env request position entry rest
        (executeStreamWithPolicy env position entry.provider (enrichedRequest request entry) w) o →
      (∀ lastError w', P (position + 1) rest w'
        (streamChain env request (position + 1) rest lastError w')) →
      P position (entry :: rest) w o) :
    ∀ chain position lastError w,
      P position chain w (streamChain env request position chain lastError w) := by
  intro chain
  induction chain with
  | nil => exact fun position lastError w => hnil position lastError w
  | cons entry rest ih =>
      intro position lastError w
      exact hturn position entry rest w _ (streamChain_turn ..) (ih (position + 1))

/-- The ways one turn of the loop of `createResponse` can go. -/
inductive CreateTurn (env : Env) (request : UnifiedAiRequest) (strategy : String) (position : Nat)
    (entry : ChainEntry) (rest : List ChainEntry)
    (tried : Outcome (Except String UnifiedAiResponse)) :
    Outcome (Except String GatewayResponse) → Prop
  | served {w : World} {response : UnifiedAiResponse} {served : GatewayResponse}
      (hok : tried.result = .ok response) (hresponse : served.response = response)
      (hprovider : served.gatewayMeta.provider = entry.provider.name) :
      CreateTurn env request strategy position entry rest tried
        ⟨w, tried.actions ++ [.recordLatency position entry.provider.name], .ok served⟩
  /-- It fails after the client has gone. -/
  | gone {message : String} (herror : tried.result = .error message)
      (hgone : tried.world.aborted env = true) :
      CreateTurn env request strategy position entry rest tried
        ⟨tried.world, tried.actions, .error message⟩
  | replaced {message : String} (herror : tried.result = .error message)
      (hhere : tried.world.aborted env = false) :
      CreateTurn env request strategy position entry rest tried
        ((createChain env request strategy (position + 1) rest (some message) tried.world).after
          tried.actions)

theorem createChain_turn (env : Env) (request : UnifiedAiRequest) (strategy : String) (position : Nat)
    (entry : ChainEntry) (rest : List ChainEntry) (lastError : Option String) (w : World) :
    CreateTurn env request strategy position entry rest
      (executeWithPolicy env position entry.provider (enrichedRequest request entry) w)
      (createChain env request strategy position (entry :: rest) lastError w) := by
  simp only [createChain]
  generalize executeWithPolicy env position entry.provider (enrichedRequest request entry) w = tried
  cases hresult : tried.result with
  | ok response => exact CreateTurn.served hresult rfl rfl
  | error message =>
      simp only
      split
      · exact CreateTurn.gone hresult ‹_›
      · exact CreateTurn.replaced hresult (Bool.eq_false_iff.mpr ‹_›)

/-- **The rule of the loop of `createResponse`.** -/
theorem createChain_rule {env : Env} {request : UnifiedAiRequest} {strategy : String}
    {P : Nat → List ChainEntry → World → Outcome (Except String GatewayResponse) → Prop}
    (hnil : ∀ position lastError w,
      P position [] w ⟨w, [], .error (allFailedMessage request lastError)⟩)
    (hturn : ∀ position entry rest w o, CreateTurn env request strategy position entry rest
        (executeWithPolicy env position entry.provider (enrichedRequest request entry) w) o →
      (∀ lastError w', P (position + 1) rest w'
        (createChain env request strategy (position + 1) rest lastError w')) →
      P position (entry :: rest) w o) :
    ∀ chain position lastError w,
      P position chain w (createChain env request strategy position chain lastError w) := by
  intro chain
  induction chain with
  | nil => exact fun position lastError w => hnil position lastError w
  | cons entry rest ih =>
      intro position lastError w
      exact hturn position entry rest w _ (createChain_turn ..) (ih (position + 1))

/-! ## What is invoked -/

/-- Every operation the actions invoke is of a provider and on a request that satisfy `Q`. -/
def InvokesOnly (Q : AiProvider → UnifiedAiRequest → Prop) (actions : List Action) : Prop :=
  ∀ id provider request live, .invoke id provider request live ∈ actions → Q provider request

section Invocations

variable {Q : AiProvider → UnifiedAiRequest → Prop} {env : Env} {position : Nat} {provider : AiProvider}
  {request : UnifiedAiRequest}

theorem InvokesOnly.nil : InvokesOnly Q [] := fun _ _ _ _ h => absurd h List.not_mem_nil

theorem InvokesOnly.append {l r : List Action} (hl : InvokesOnly Q l) (hr : InvokesOnly Q r) :
    InvokesOnly Q (l ++ r) := by
  intro id p req live h
  rcases List.mem_append.mp h with h | h
  · exact hl id p req live h
  · exact hr id p req live h

/-- The attempts of one adapter's turn invoke that adapter on that request. -/
theorem invokesOnly_executeWithPolicy (hQ : Q provider request) (w : World) :
    InvokesOnly Q (executeWithPolicy env position provider request w).actions := by
  rcases executeWithPolicy_cases env position provider request w with
    ⟨w', message, heq, -⟩ | ⟨circuitState, -, heq⟩
  · rw [heq]
    exact InvokesOnly.nil
  · rw [heq]
    refine callAttempts_rule (P := fun _ _ _ o => InvokesOnly Q o.actions) env position provider request
      ?_ _ _ _
    intro remaining attempt w o hturn hretry id p req live hmem
    cases hturn with
    | returned => simp_all
    | gone => simp_all
    | failed => simp_all
    | retried hcall hhere hmore =>
        rcases List.mem_append.mp hmem with hmem | hmem
        · simp_all
        · exact hretry _ _ hmore id p req live hmem

theorem invokesOnly_forwardEvents (id : AttemptId) (events : List UnifiedStreamEvent) :
    ∀ (yielded : Bool) (w : World), InvokesOnly Q (forwardEvents env id events yielded w).actions := by
  induction events with
  | nil => exact fun _ _ => InvokesOnly.nil
  | cons event rest ih =>
      intro yielded w id' p req live hmem
      simp only [forwardEvents] at hmem
      split at hmem
      · simp at hmem
      · split at hmem
        · simp at hmem
        · rcases List.mem_append.mp hmem with hmem | hmem
          · simp at hmem
          · exact ih _ _ id' p req live hmem

theorem invokesOnly_executeStreamWithPolicy (hQ : Q provider request) (w : World) :
    InvokesOnly Q (executeStreamWithPolicy env position provider request w).actions := by
  have hstarted : ∀ attempt w, InvokesOnly Q (startedOf env position provider request attempt w) := by
    intro attempt w id p req live hmem
    rcases List.mem_cons.mp hmem with heq | hmem
    · cases heq
      exact hQ
    · exact invokesOnly_forwardEvents _ _ _ _ id p req live hmem
  rcases executeStreamWithPolicy_cases env position provider request w with
    ⟨w', message, heq, -⟩ | ⟨circuitState, -, heq⟩
  · rw [heq]
    exact InvokesOnly.nil
  · rw [heq]
    refine streamAttempts_rule (P := fun _ _ _ o => InvokesOnly Q o.actions) env position provider
      request ?_ _ _ _
    intro remaining attempt w o hturn hretry
    have hfailed : InvokesOnly Q (failedActions env position provider request attempt w) :=
      (hstarted attempt w).append fun id p req live h => by simp at h
    cases hturn with
    | cut => exact (hstarted attempt w).append fun id p req live h => by simp at h
    | finished => exact (hstarted attempt w).append fun id p req live h => by simp at h
    | stalled => exact (hstarted attempt w).append fun id p req live h => by simp at h
    | aborted => exact (hstarted attempt w).append fun id p req live h => by simp at h
    | failed => exact hfailed
    | abandoned hall hend hhere hsilent hmore hidle =>
        refine hfailed.append fun id p req live h => ?_
        unfold abandonedAttempt at h
        split at h <;> simp_all
    | retried hall hend hhere hsilent hmore hidle => exact hfailed.append (hretry _ _ hmore)

/-- The chain's adapters are invoked on the request with their own model id. -/
theorem invokesOnly_streamOverChain {chain : List ChainEntry} (w : World)
    (hQ : ∀ entry ∈ chain, Q entry.provider (enrichedRequest request entry)) :
    InvokesOnly Q (streamOverChain env request chain w).actions := by
  refine streamChain_rule (P := fun _ chain _ o =>
    (∀ entry ∈ chain, Q entry.provider (enrichedRequest request entry)) → InvokesOnly Q o.actions)
    ?_ ?_ chain 0 none w hQ
  · intro position lastError w _ id p req live h
    simp at h
  · intro position entry rest w o hturn hrest hQ
    have htried : InvokesOnly Q (executeStreamWithPolicy env position entry.provider
        (enrichedRequest request entry) w).actions :=
      invokesOnly_executeStreamWithPolicy (hQ entry List.mem_cons_self) w
    cases hturn with
    | served => exact htried.append fun id p req live h => by simp at h
    | stopped => exact htried
    | gone => exact htried
    | broken => exact htried.append fun id p req live h => by simp at h
    | replaced =>
        exact htried.append (hrest _ _ fun e he => hQ e (List.mem_cons_of_mem _ he))

theorem invokesOnly_createOverChain {chain : List ChainEntry} {strategy : String} (w : World)
    (hQ : ∀ entry ∈ chain, Q entry.provider (enrichedRequest request entry)) :
    InvokesOnly Q (createOverChain env request strategy chain w).actions := by
  refine createChain_rule (P := fun _ chain _ o =>
    (∀ entry ∈ chain, Q entry.provider (enrichedRequest request entry)) → InvokesOnly Q o.actions)
    ?_ ?_ chain 0 none w hQ
  · intro position lastError w _
    exact InvokesOnly.nil
  · intro position entry rest w o hturn hrest hQ
    have htried : InvokesOnly Q (executeWithPolicy env position entry.provider
        (enrichedRequest request entry) w).actions :=
      invokesOnly_executeWithPolicy (hQ entry List.mem_cons_self) w
    cases hturn with
    | served => exact htried.append fun id p req live h => by simp at h
    | gone => exact htried
    | replaced =>
        exact htried.append (hrest _ _ fun e he => hQ e (List.mem_cons_of_mem _ he))

end Invocations

/-- The chain of a string request under the default strategy: the first eligible entry's adapter. -/
theorem chain_of_route {svc : RoutingService} {request : UnifiedAiRequest} {stream : Bool}
    {model : String} (hmodel : request.model = .str model) {decision : RoutingDecision}
    (hroute : routeRequest svc request stream = .ok decision) {chain : List ChainEntry}
    (hchain : chainOf svc.providerRegistry decision = .ok chain) :
    ∃ resolved first rest,
      svc.modelRegistry.resolveModel model = some resolved ∧
      svc.eligibleFor ⟨model, stream, request.tools, false⟩ resolved = first :: rest ∧
      ∃ adapter, svc.providerRegistry.get first.provider = some adapter ∧
        chain = [⟨adapter, first.modelId⟩] := by
  unfold routeRequest at hroute
  rw [hmodel] at hroute
  obtain rfl := Except.ok.inj hroute
  unfold chainOf at hchain
  split at hchain
  · cases hchain
  · rename_i hne
    obtain ⟨resolved, first, rest, hres, hlist, -⟩ :=
      RoutingService.selectedProvider_ne_empty_iff.mp hne
    obtain ⟨hp, hm, hf, -⟩ := RoutingService.route_pinned hres hlist
    obtain ⟨adapter, hget⟩ := Option.isSome_iff_exists.mp
      (RoutingService.mem_eligible.mp (hlist ▸ List.mem_cons_self)).2.2.1
    refine ⟨resolved, first, rest, hres, hlist, adapter, hget, ?_⟩
    rw [← Except.ok.inj hchain]
    unfold buildProviderChain
    rw [hp, hm, hf, hget]
    rfl

/-! ## What the consumer receives -/

/-- What the consumer receives, each event with the attempt it comes from; the gateway's own error events
    come from none. -/
def received : List Action → List (Option AttemptId × UnifiedStreamEvent)
  | [] => []
  | .deliver id event :: rest => (some id, event) :: received rest
  | .deliverError message :: rest => (none, .error message none) :: received rest
  | _ :: rest => received rest

end Sirius
