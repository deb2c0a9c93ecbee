import SiriusGateway.Core.Types
import SiriusGateway.Correctness.BreakerLog
import SiriusGateway.Observability.Recorders

/-!
# `Gateway.Health` — the health of the providers

`GET /providers/health` asks every registered adapter how it is, waits for all of them, and reports each with its
average latency and its circuit breaker. Requests record latencies and change the breakers meanwhile, and a reload may
change who is registered.

## Contents
- **One adapter.** `healthCheck` of each kind of adapter.
- **The report.** `getProviderHealth`, `providersHealth`.
- **The system.** Its labels and its step.
-/

namespace Sirius

/-! ## One adapter -/

/-- `ProviderHealth`, without the time of the check. -/
structure HealthAnswer where
  provider : String
  status : ProviderStatus
  latencyMs : Option Rat := none
  error : Option String := none
  deriving DecidableEq

/-- A settled `healthCheck()`: its answer, or the message it rejected with. -/
abbrev HealthCheck := Except String HealthAnswer

/-- What became of a GET without a body. -/
inductive Ping where
  | responded (status : Nat) (statusText : String)
  | failed (message : String)
  deriving DecidableEq

/-- `res.ok`. -/
def isOkStatus (status : Nat) : Bool := 200 ≤ status ∧ status ≤ 299

/-- `OpenAiAdapter.healthCheck()`: it lists the models. -/
def OpenAi.healthCheck (name : String) (failure : Option String) (elapsed : Rat) : HealthAnswer :=
  match failure with
  | none => { provider := name, status := .healthy, latencyMs := some elapsed }
  | some message => { provider := name, status := .down, latencyMs := some elapsed, error := some message }

/-- `AnthropicAdapter.healthCheck()`: it asks nobody. -/
def Anthropic.healthCheck (name apiKey : String) : HealthAnswer :=
  if apiKey.length > 0 then { provider := name, status := .healthy }
  else { provider := name, status := .down, error := some "API key not configured" }

/-- `OllamaAdapter.healthCheck()`. -/
def Ollama.healthCheck (name : String) (ping : Ping) (elapsed : Rat) : HealthAnswer :=
  match ping with
  | .responded status statusText =>
      if isOkStatus status then { provider := name, status := .healthy, latencyMs := some elapsed }
      else
        { provider := name, status := .down, latencyMs := some elapsed
          error := some s!"HTTP {status}: {statusText}" }
  | .failed message => { provider := name, status := .down, latencyMs := some elapsed, error := some message }

/-- `probeAnthropicHealth(opts)`. -/
def FromFile.probeAnthropicHealth (name : String) (ping : Ping) (elapsed : Rat) : HealthAnswer :=
  match ping with
  | .responded status _ =>
      if isOkStatus status then { provider := name, status := .healthy, latencyMs := some elapsed }
      else
        { provider := name, status := if status ≥ 500 then .down else .degraded, latencyMs := some elapsed
          error := some s!"HTTP {status}" }
  | .failed message => { provider := name, status := .down, error := some message }

/-- `ProviderHealth` of nova. -/
structure Nova.Health where
  state : String
  latencyMs : Option Rat
  error : String
  deriving DecidableEq

/-- `healthCheck()` around a nova provider; it may lack the method, and the method may reject. -/
def Nova.healthCheck (name : String) (core : Option (Except String Nova.Health)) : HealthCheck :=
  match core with
  | none => .ok { provider := name, status := .healthy }
  | some (.error message) => .error message
  | some (.ok h) =>
      .ok
        { provider := name
          status :=
            if h.state = "healthy" then .healthy
            else if h.state = "degraded" then .degraded
            else if h.state = "unhealthy" then .down
            else .degraded
          latencyMs := h.latencyMs
          error := if h.error = "" then none else some h.error }

/-- What an adapter meets when it is asked. -/
inductive HealthProbe where
  | listing (failure : Option String) (elapsed : Rat)
  | key (apiKey : String)
  | ping (ping : Ping) (elapsed : Rat)
  | nova (core : Option (Except String Nova.Health))

/-- `provider.healthCheck()`, when the probe is of its kind. -/
def healthCheck (p : AiProvider) (probe : HealthProbe) : Option HealthCheck :=
  match p.kind, probe with
  | .openai, .listing failure elapsed => some (.ok (OpenAi.healthCheck p.name failure elapsed))
  | .anthropic, .key apiKey => some (.ok (Anthropic.healthCheck p.name apiKey))
  | .ollama, .ping ping elapsed => some (.ok (Ollama.healthCheck p.name ping elapsed))
  | .llamactl, .nova core => some (Nova.healthCheck p.name core)
  | .fromFile kind, probe =>
      -- the native Anthropic API is asked with its own key header
      if kind = "anthropic" then
        match probe with
        | .ping ping elapsed => some (.ok (FromFile.probeAnthropicHealth p.name ping elapsed))
        | _ => none
      else
        match probe with
        | .nova core => some (Nova.healthCheck p.name core)
        | _ => none
  | _, _ => none

theorem provider_novaHealthCheck {name : String} {core : Option (Except String Nova.Health)} {answer : HealthAnswer}
    (h : Nova.healthCheck name core = .ok answer) : answer.provider = name := by
  unfold Nova.healthCheck at h
  split at h
  · obtain rfl := Except.ok.inj h
    rfl
  · cases h
  · obtain rfl := Except.ok.inj h
    rfl

/-- **An adapter answers under its own name.** -/
theorem provider_healthCheck {p : AiProvider} {probe : HealthProbe} {answer : HealthAnswer}
    (h : healthCheck p probe = some (.ok answer)) : answer.provider = p.name := by
  unfold healthCheck at h
  split at h
  · obtain rfl := Except.ok.inj (Option.some.inj h)
    unfold OpenAi.healthCheck
    split <;> rfl
  · obtain rfl := Except.ok.inj (Option.some.inj h)
    unfold Anthropic.healthCheck
    split <;> rfl
  · obtain rfl := Except.ok.inj (Option.some.inj h)
    unfold Ollama.healthCheck
    split
    · split <;> rfl
    · rfl
  · exact provider_novaHealthCheck (Option.some.inj h)
  · split at h
    · split at h
      · obtain rfl := Except.ok.inj (Option.some.inj h)
        unfold FromFile.probeAnthropicHealth
        split
        · split <;> rfl
        · rfl
      · cases h
    · split at h
      · exact provider_novaHealthCheck (Option.some.inj h)
      · cases h
  · cases h

/-! ## The report -/

/-- `results.map(...)` in `getProviderHealth()`. -/
def healthOf (tracker : LatencyTracker) (p : AiProvider) : HealthCheck → HealthAnswer
  | .ok answer => { answer with latencyMs := (tracker.getAverageLatency answer.provider).or answer.latencyMs }
  | .error reason => { provider := p.name, status := .down, error := some reason }

/-- An entry of the report. -/
structure ReportedHealth where
  provider : String
  status : ProviderStatus
  latencyMs : Option Rat
  isOpen : Bool
  failures : Nat
  error : Option String
  deriving DecidableEq

/-- The body of `GET /providers/health`, without its time. -/
structure HealthReport where
  status : String
  providers : List ReportedHealth
  deriving DecidableEq

/-- `health.map(...)` in `providersHealth()`. -/
def reportedHealth (m : CircuitMap) (h : HealthAnswer) : ReportedHealth :=
  let circuit := m.getCircuitBreakerState h.provider
  ⟨h.provider, h.status, h.latencyMs, circuit.isOpen, circuit.failures, h.error⟩

/-- What `providersHealth()` answers. -/
def providersHealth (m : CircuitMap) (health : List HealthAnswer) : HealthReport where
  status := if health.all (fun h => h.status = .healthy) then "ok" else "degraded"
  providers := health.map (reportedHealth m)

/-! ## The system -/

/-- A request for the health: whom it asks, what they have answered so far, what `getProviderHealth()` has made of
    the answers, and the report. -/
structure HealthRequest where
  asked : List AiProvider
  checks : List (Option HealthCheck)
  health : Option (List HealthAnswer) := none
  report : Option HealthReport := none

/-- The state the requests read. -/
structure HealthSystem where
  providers : ProviderRegistry
  circuitState : CircuitMap
  latencyTracker : LatencyTracker
  requests : List HealthRequest := []

/-- What can happen. -/
inductive HealthLabel where
  /-- Somebody is registered or unregistered. -/
  | registry (providers : ProviderRegistry)
  /-- A request touches a breaker. -/
  | breaker (step : BreakerStep)
  /-- A request records a latency. -/
  | latency (provider : String) (latencyMs : Rat)
  /-- A request for the health comes in. -/
  | asked
  /-- A `healthCheck()` of it settles. -/
  | settled (request adapter : Nat) (probe : HealthProbe)
  /-- All have settled, and `getProviderHealth()` returns. -/
  | collected (request : Nat)
  /-- It is answered. -/
  | answered (request : Nat)

namespace HealthSystem

/-- A process in which nothing has happened. -/
def start (providers : ProviderRegistry) : HealthSystem := ⟨providers, JsMap.empty, LatencyTracker.empty, []⟩

/-- A request, when it may make the step. -/
def onRequest (s : HealthSystem) (request : Nat) (f : HealthRequest → Option HealthRequest) : Option HealthSystem :=
  (s.requests[request]?.bind f).map fun r => { s with requests := s.requests.set request r }

/-- One step. -/
def step (cfg : PolicyConfig) (s : HealthSystem) : HealthLabel → Option HealthSystem
  | .registry providers => some { s with providers := providers }
  | .breaker step => some { s with circuitState := step.apply cfg s.circuitState }
  | .latency provider latencyMs => some { s with latencyTracker := s.latencyTracker.record provider latencyMs }
  | .asked =>
      some { s with
        requests := s.requests ++ [⟨s.providers.getAll, s.providers.getAll.map fun _ => none, none, none⟩] }
  | .settled request adapter probe =>
      s.onRequest request fun r =>
        match r.asked[adapter]?, r.checks[adapter]? with
        | some p, some none =>
            (healthCheck p probe).map fun check => { r with checks := r.checks.set adapter (some check) }
        | _, _ => none
  | .collected request =>
      s.onRequest request fun r =>
        match r.health, r.checks.mapM id with
        | none, some checks =>
            some { r with health := some (List.zipWith (healthOf s.latencyTracker) r.asked checks) }
        | _, _ => none
  | .answered request =>
      s.onRequest request fun r =>
        match r.health, r.report with
        | some health, none => some { r with report := some (providersHealth s.circuitState health) }
        | _, _ => none

end HealthSystem

end Sirius
