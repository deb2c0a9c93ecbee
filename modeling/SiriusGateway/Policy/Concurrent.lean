import SiriusGateway.Lib.Runs
import SiriusGateway.Policy.Breaker

/-!
# `Policy.Concurrent` — concurrent calls over one breaker

`PolicyService` as a transition system: any number of `executeWithPolicy` and `executeStreamWithPolicy`
calls share the circuit state, and what happens between two of their awaits is one step. A step carries the
clock reading it sees. The check of the breaker, the check of the caller's signal and the first call of the
operation lie before the first await, so they are one step; the later attempts follow a timer.

## Contents
- **Calls.** `PolicyCall`, its phases, and the actions of the system.
- **The step.** `PolicySystem.stepOut` gives the next state and the operation the step invokes, if any.
- **Step lemmas.** What each action does to the circuit state and to the calls.
-/

namespace Sirius

open Js

/-! ## Calls -/

/-- Which of the two functions a call runs. -/
inductive CallKind where
  | plain
  | stream
  deriving DecidableEq

/-- Where a call stands between two of its steps. -/
inductive CallPhase where
  /-- The operation of attempt `attempt` is running; `yielded` when it has handed over an event. -/
  | attempting (attempt : Nat) (yielded : Bool)
  /-- Waiting for the back-off timer after attempt `attempt`. -/
  | backoff (attempt : Nat)
  | finished
  deriving DecidableEq

/-- One call of `executeWithPolicy` or `executeStreamWithPolicy`. -/
structure PolicyCall where
  provider : String
  kind : CallKind
  phase : CallPhase
  deriving DecidableEq

/-- What can happen next; `id` names the call it happens to. -/
inductive PolicyAction where
  /-- The call is made (a stream: its first `next()`), with the caller's signal aborted or not. -/
  | enter (id : Nat) (kind : CallKind) (provider : String) (callerAborted : Bool)
  /-- The stream of the attempt yields an event. -/
  | event (id : Nat)
  /-- The attempt completes. -/
  | succeed (id : Nat)
  /-- The attempt throws or times out, with the caller's signal aborted or not. -/
  | fail (id : Nat) (callerAborted : Bool)
  /-- The consumer of a stream stops pulling it. -/
  | leave (id : Nat)
  /-- The back-off timer fires. -/
  | wake (id : Nat)
  deriving DecidableEq

/-- An action and the clock reading it sees. -/
structure PolicyLabel where
  now : Int
  action : PolicyAction
  deriving DecidableEq

/-- A call of `operation`. -/
structure Invocation where
  call : Nat
  provider : String
  attempt : Nat
  deriving DecidableEq

/-- The state of the service: its circuit state and the calls made so far. -/
structure PolicySystem where
  circuitState : CircuitMap
  calls : JsMap Nat PolicyCall

namespace PolicySystem

/-- A fresh service. -/
def initial : PolicySystem := ⟨JsMap.empty, JsMap.empty⟩

/-- The call `id` is now `call`. -/
def setCall (s : PolicySystem) (id : Nat) (call : PolicyCall) : PolicySystem :=
  { s with calls := s.calls.set id call }

/-! ## The step -/

/-- The phase after a failed attempt the caller did not abort: a stream that has yielded is not replayed. -/
def phaseAfterFailure (cfg : PolicyConfig) (attempt : Nat) (yielded : Bool) : CallPhase :=
  if yielded then .finished
  else if attempt < cfg.maxRetries then .backoff attempt
  else .finished

/-- One step: the next state, and the operation it invokes. -/
def stepOut (cfg : PolicyConfig) (s : PolicySystem) (l : PolicyLabel) :
    Option (PolicySystem × Option Invocation) :=
  match l.action with
  | .enter id kind provider callerAborted =>
      match s.calls.get id with
      | some _ => none
      | none =>
          match CircuitMap.checkCircuitBreaker cfg l.now s.circuitState provider with
          -- the breaker throws before the first attempt
          | .error _ => some (s.setCall id ⟨provider, kind, .finished⟩, none)
          | .ok circuitState =>
              let s := { s with circuitState := circuitState }
              -- `callerSignal.aborted` is read once, after the breaker
              if callerAborted then some (s.setCall id ⟨provider, kind, .finished⟩, none)
              else some (s.setCall id ⟨provider, kind, .attempting 0 false⟩, some ⟨id, provider, 0⟩)
  | .event id =>
      match s.calls.get id with
      | some ⟨provider, .stream, .attempting attempt _⟩ =>
          some (s.setCall id ⟨provider, .stream, .attempting attempt true⟩, none)
      | _ => none
  | .succeed id =>
      match s.calls.get id with
      | some ⟨provider, kind, .attempting _ _⟩ =>
          let s := { s with circuitState := s.circuitState.recordSuccess provider }
          some (s.setCall id ⟨provider, kind, .finished⟩, none)
      | _ => none
  | .fail id callerAborted =>
      match s.calls.get id with
      | some ⟨provider, kind, .attempting attempt yielded⟩ =>
          -- the client is gone: no retry, and no failure of the provider
          if callerAborted then some (s.setCall id ⟨provider, kind, .finished⟩, none)
          else
            let s := { s with
              circuitState := CircuitMap.recordFailure cfg l.now s.circuitState provider }
            some (s.setCall id ⟨provider, kind, phaseAfterFailure cfg attempt yielded⟩, none)
      | _ => none
  | .leave id =>
      match s.calls.get id with
      | some ⟨provider, .stream, .attempting _ true⟩ =>
          some (s.setCall id ⟨provider, .stream, .finished⟩, none)
      | _ => none
  | .wake id =>
      match s.calls.get id with
      | some ⟨provider, kind, .backoff attempt⟩ =>
          -- the back-off timer knows nothing of the caller's signal, and it is not read here
          some (s.setCall id ⟨provider, kind, .attempting (attempt + 1) false⟩,
            some ⟨id, provider, attempt + 1⟩)
      | _ => none

/-- One step, without what it invokes. -/
def step (cfg : PolicyConfig) (s : PolicySystem) (l : PolicyLabel) : Option PolicySystem :=
  (stepOut cfg s l).map Prod.fst

/-! ## Step lemmas -/

variable {cfg : PolicyConfig} {s t : PolicySystem} {l : PolicyLabel} {out : Option Invocation}

theorem stepOut_of_step (h : step cfg s l = some t) : ∃ out, stepOut cfg s l = some (t, out) := by
  obtain ⟨⟨t', out⟩, hout, rfl⟩ := Option.map_eq_some_iff.mp h
  exact ⟨out, hout⟩

/-- The effect of a step: the call it concerns, before and after, what it does to the circuit state and
    what it invokes. One case for each way a step can go. -/
inductive Effect (cfg : PolicyConfig) (s : PolicySystem) (now : Int) :
    PolicyAction → PolicySystem → Option Invocation → Prop
  | rejected {id kind provider aborted e} (hfresh : s.calls.get id = none)
      (hcheck : CircuitMap.checkCircuitBreaker cfg now s.circuitState provider = .error e) :
      Effect cfg s now (.enter id kind provider aborted) (s.setCall id ⟨provider, kind, .finished⟩) none
  | turnedAway {id kind provider m} (hfresh : s.calls.get id = none)
      (hcheck : CircuitMap.checkCircuitBreaker cfg now s.circuitState provider = .ok m) :
      Effect cfg s now (.enter id kind provider true)
        ((⟨m, s.calls⟩ : PolicySystem).setCall id ⟨provider, kind, .finished⟩) none
  | admitted {id kind provider m} (hfresh : s.calls.get id = none)
      (hcheck : CircuitMap.checkCircuitBreaker cfg now s.circuitState provider = .ok m) :
      Effect cfg s now (.enter id kind provider false)
        ((⟨m, s.calls⟩ : PolicySystem).setCall id ⟨provider, kind, .attempting 0 false⟩)
        (some ⟨id, provider, 0⟩)
  | yielded {id provider attempt y} (hcall : s.calls.get id = some ⟨provider, .stream, .attempting attempt y⟩) :
      Effect cfg s now (.event id) (s.setCall id ⟨provider, .stream, .attempting attempt true⟩) none
  | succeeded {id provider kind attempt y}
      (hcall : s.calls.get id = some ⟨provider, kind, .attempting attempt y⟩) :
      Effect cfg s now (.succeed id)
        ((⟨s.circuitState.recordSuccess provider, s.calls⟩ : PolicySystem).setCall id
          ⟨provider, kind, .finished⟩) none
  | failed {id provider kind attempt y}
      (hcall : s.calls.get id = some ⟨provider, kind, .attempting attempt y⟩) :
      Effect cfg s now (.fail id false)
        ((⟨CircuitMap.recordFailure cfg now s.circuitState provider, s.calls⟩ : PolicySystem).setCall id
          ⟨provider, kind, phaseAfterFailure cfg attempt y⟩) none
  | cancelled {id provider kind attempt y}
      (hcall : s.calls.get id = some ⟨provider, kind, .attempting attempt y⟩) :
      Effect cfg s now (.fail id true) (s.setCall id ⟨provider, kind, .finished⟩) none
  | left {id provider attempt}
      (hcall : s.calls.get id = some ⟨provider, .stream, .attempting attempt true⟩) :
      Effect cfg s now (.leave id) (s.setCall id ⟨provider, .stream, .finished⟩) none
  | retried {id provider kind attempt} (hcall : s.calls.get id = some ⟨provider, kind, .backoff attempt⟩) :
      Effect cfg s now (.wake id) (s.setCall id ⟨provider, kind, .attempting (attempt + 1) false⟩)
        (some ⟨id, provider, attempt + 1⟩)

/-- **Inversion of a step.** -/
theorem effect_of_stepOut (h : stepOut cfg s l = some (t, out)) : Effect cfg s l.now l.action t out := by
  obtain ⟨now, action⟩ := l
  cases action with
  | enter id kind provider aborted =>
      simp only [stepOut] at h
      cases hget : s.calls.get id with
      | some call => simp [hget] at h
      | none =>
          cases hcheck : CircuitMap.checkCircuitBreaker cfg now s.circuitState provider with
          | error e =>
              simp only [hget, hcheck, Option.some.injEq, Prod.mk.injEq] at h
              obtain ⟨rfl, rfl⟩ := h
              exact Effect.rejected hget hcheck
          | ok m =>
              cases aborted with
              | true =>
                  simp only [hget, hcheck, if_true, Option.some.injEq, Prod.mk.injEq] at h
                  obtain ⟨rfl, rfl⟩ := h
                  exact Effect.turnedAway hget hcheck
              | false =>
                  simp only [hget, hcheck, Bool.false_eq_true, if_false, Option.some.injEq,
                    Prod.mk.injEq] at h
                  obtain ⟨rfl, rfl⟩ := h
                  exact Effect.admitted hget hcheck
  | event id =>
      simp only [stepOut] at h
      split at h
      · rename_i hcall
        obtain ⟨rfl, rfl⟩ := Prod.mk.inj (Option.some.inj h)
        exact Effect.yielded hcall
      · cases h
  | succeed id =>
      simp only [stepOut] at h
      split at h
      · rename_i hcall
        obtain ⟨rfl, rfl⟩ := Prod.mk.inj (Option.some.inj h)
        exact Effect.succeeded hcall
      · cases h
  | fail id aborted =>
      simp only [stepOut] at h
      split at h
      · rename_i hcall
        cases aborted with
        | true =>
            obtain ⟨rfl, rfl⟩ := Prod.mk.inj (Option.some.inj h)
            exact Effect.cancelled hcall
        | false =>
            obtain ⟨rfl, rfl⟩ := Prod.mk.inj (Option.some.inj h)
            exact Effect.failed hcall
      · cases h
  | leave id =>
      simp only [stepOut] at h
      split at h
      · rename_i hcall
        obtain ⟨rfl, rfl⟩ := Prod.mk.inj (Option.some.inj h)
        exact Effect.left hcall
      · cases h
  | wake id =>
      simp only [stepOut] at h
      split at h
      · rename_i hcall
        obtain ⟨rfl, rfl⟩ := Prod.mk.inj (Option.some.inj h)
        exact Effect.retried hcall
      · cases h

end PolicySystem

end Sirius
