import SiriusGateway.Adapters.Llamactl
import SiriusGateway.Gateway.Service

/-!
# `Gateway.Embeddings` — embeddings under the retry policy

`GatewayService.createEmbeddings`: route, look the selected adapter up, and run its operation under the policy.
There is no chain here, and the request goes to the adapter as the client sent it.

`executeWithPolicy` takes any operation. `executeOperation` is it over an operation of any result; the runs of
`Policy.Execute` are its runs on `provider.createResponse` (`executeWithPolicy_eq`).

## Contents
- **Any operation.** `operationAttempts` is the retry loop, `executeOperation` the method.
- **`createEmbeddings`.** `routeEmbedding` and `createEmbeddings`, with the requests handed to an adapter.
-/

namespace Sirius

open Js

/-! ## Any operation -/

/-- What one attempt of an operation does. -/
inductive OperationAttempt (T : Type) where
  | returned (value : T)
  | threw (message : String)
  | timedOut

/-- The outcome of an operation: `invoked` lists its attempts, each with whether its signal was unfired. -/
structure OperationOutcome (T : Type) where
  world : World
  invoked : List (AttemptId × Bool)
  result : Except String T

section Operation

variable {T : Type} (env : Env) (position : Nat) (provider : AiProvider)
  (operation : AttemptId → Bool → OperationAttempt T)

/-- The retry loop of `executeWithPolicy`, from attempt `attempt` with `remaining` retries left. -/
def operationAttempts : Nat → Nat → World → OperationOutcome T
  | remaining, attempt, w =>
      let id : AttemptId := ⟨position, attempt⟩
      let live := !w.aborted env
      let failed (message : String) : OperationOutcome T :=
        let w := w.next
        -- a caller abort is not a provider failure
        if w.aborted env then ⟨w, [(id, live)], .error message⟩
        else
          let w := w.recordFailure env provider.name
          match remaining with
          | 0 => ⟨w, [(id, live)], .error message⟩
          | remaining + 1 =>
              let later := operationAttempts remaining (attempt + 1) w.next
              { later with invoked := (id, live) :: later.invoked }
      match operation id live with
      | .returned value => ⟨w.next.recordSuccess provider.name, [(id, live)], .ok value⟩
      | .threw message => failed message
      | .timedOut => failed (timeoutMessage env.policy)

/-- `executeWithPolicy(providerName, operation, callerSignal)`. -/
def executeOperation (w : World) : OperationOutcome T :=
  match CircuitMap.checkCircuitBreaker env.policy (w.now env) w.circuitState provider.name with
  | .error e => ⟨w, [], .error e.message⟩
  | .ok circuitState =>
      let w := { w with circuitState := circuitState }
      if w.aborted env then ⟨w, [], .error env.abortReason⟩
      else operationAttempts env position provider operation env.policy.maxRetries 0 w

/-- The loop invokes the attempt it is at. -/
theorem invoked_operationAttempts (remaining attempt : Nat) (w : World) :
    ∃ later, (operationAttempts env position provider operation remaining attempt w).invoked =
      (⟨position, attempt⟩, !w.aborted env) :: later := by
  rw [operationAttempts.eq_def]
  cases hoperation : operation ⟨position, attempt⟩ (!w.aborted env) with
  | returned value =>
      simp only [hoperation]
      exact ⟨[], rfl⟩
  | threw | timedOut =>
      simp only [hoperation]
      split
      · exact ⟨[], rfl⟩
      · cases remaining with
        | zero => exact ⟨[], rfl⟩
        | succ remaining => exact ⟨_, rfl⟩

end Operation

/-- An attempt of a call as an attempt of an operation. -/
def CallAttempt.operation : CallAttempt → OperationAttempt UnifiedAiResponse
  | .returned response => .returned response
  | .threw message => .threw message
  | .timedOut => .timedOut

/-- The operation `provider.createResponse(request, context)`. -/
def callOperation (env : Env) (provider : AiProvider) (request : UnifiedAiRequest) (id : AttemptId)
    (live : Bool) : OperationAttempt UnifiedAiResponse :=
  (env.call id provider request live).operation

theorem callAttempts_eq (env : Env) (position : Nat) (provider : AiProvider) (request : UnifiedAiRequest) :
    ∀ (remaining attempt : Nat) (w : World),
      (callAttempts env position provider request remaining attempt w).world =
        (operationAttempts env position provider (callOperation env provider request) remaining attempt w).world ∧
      (callAttempts env position provider request remaining attempt w).result =
        (operationAttempts env position provider (callOperation env provider request) remaining attempt
          w).result := by
  intro remaining
  induction remaining using Nat.strongRecOn with
  | ind remaining ih =>
      intro attempt w
      rw [callAttempts.eq_def, operationAttempts.eq_def]
      simp only [callOperation]
      cases env.call ⟨position, attempt⟩ provider request (!w.aborted env) with
      | returned response => exact ⟨rfl, rfl⟩
      | threw | timedOut =>
          simp only [CallAttempt.operation]
          split
          · exact ⟨rfl, rfl⟩
          -- a failure the caller stays for: it is tried again while retries are left
          · cases remaining with
            | zero => exact ⟨rfl, rfl⟩
            | succ remaining => exact ih remaining (Nat.lt_succ_self remaining) (attempt + 1) _

/-- **The policy over `createResponse`** is the policy over any operation, at that operation. -/
theorem executeWithPolicy_eq (env : Env) (position : Nat) (provider : AiProvider) (request : UnifiedAiRequest)
    (w : World) :
    (executeWithPolicy env position provider request w).world =
        (executeOperation env position provider (callOperation env provider request) w).world ∧
      (executeWithPolicy env position provider request w).result =
        (executeOperation env position provider (callOperation env provider request) w).result := by
  unfold executeWithPolicy executeOperation
  cases CircuitMap.checkCircuitBreaker env.policy (w.now env) w.circuitState provider.name with
  | error e => exact ⟨rfl, rfl⟩
  | ok circuitState =>
      simp only
      split
      · exact ⟨rfl, rfl⟩
      · exact callAttempts_eq env position provider request env.policy.maxRetries 0 _

/-! ## `createEmbeddings` -/

/-- What the adapters do with an embeddings call. -/
abbrev EmbeddingUpstream :=
  AttemptId → AiProvider → UnifiedEmbeddingRequest → Bool → OperationAttempt UnifiedEmbeddingResponse

/-- The outcome of `createEmbeddings`, with the requests it hands to an adapter. -/
structure EmbeddingOutcome where
  world : World
  handed : List (AiProvider × UnifiedEmbeddingRequest)
  result : Except String UnifiedEmbeddingResponse

/-- `routingService.route(...)` on an embeddings request; the `model` field is as dynamic as in
    `routeRequest`. -/
def routeEmbedding (svc : RoutingService) (request : UnifiedEmbeddingRequest) : Throws RoutingDecision :=
  match request.model with
  | .str model => .ok (svc.route ⟨model, false, none, true⟩ none)
  | .arr items =>
      (toStr (.arr items)).bind fun model =>
        .error (.error s!"The model '{model}' does not exist or you do not have access to it.")
  | .null => .error (.typeError "Cannot read properties of null (reading 'includes')")
  | _ => .error (.typeError "modelString.includes is not a function")

/-- `createEmbeddings(request, options)`. -/
def createEmbeddings (env : Env) (upstream : EmbeddingUpstream) (svc : RoutingService)
    (request : UnifiedEmbeddingRequest) (w : World) : EmbeddingOutcome :=
  match routeEmbedding svc request with
  | .error e => ⟨w, [], .error e.message⟩
  | .ok decision =>
      if decision.selectedProvider = "" then ⟨w, [], .error decision.reason⟩
      else
        match svc.providerRegistry.get decision.selectedProvider with
        | none => ⟨w, [], .error s!"Provider \"{decision.selectedProvider}\" not registered"⟩
        | some provider =>
            let tried := executeOperation env 0 provider (fun id live => upstream id provider request live) w
            -- the request goes on as it came in
            let handed := tried.invoked.map fun _ => (provider, request)
            match tried.result with
            | .error message => ⟨tried.world, handed, .error message⟩
            | .ok response =>
                let w := { tried.world with
                  latencyTracker := tried.world.latencyTracker.record provider.name response.latencyMs }
                ⟨w, handed, .ok response⟩

/-- What `createEmbeddings` hands over when the router selects a registered provider: the request, on every
    attempt. -/
theorem handed_createEmbeddings {env : Env} {upstream : EmbeddingUpstream} {svc : RoutingService}
    {request : UnifiedEmbeddingRequest} {w : World} {decision : RoutingDecision} {provider : AiProvider}
    (hroute : routeEmbedding svc request = .ok decision) (hselected : decision.selectedProvider ≠ "")
    (hprovider : svc.providerRegistry.get decision.selectedProvider = some provider) :
    (createEmbeddings env upstream svc request w).handed =
      (executeOperation env 0 provider (fun id live => upstream id provider request live) w).invoked.map
        fun _ => (provider, request) := by
  unfold createEmbeddings
  simp only [hroute, if_neg hselected, hprovider]
  split <;> rfl

end Sirius
