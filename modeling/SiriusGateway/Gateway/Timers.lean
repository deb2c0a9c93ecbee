import SiriusGateway.Gateway.Signals
import SiriusGateway.Lib.Timers

/-!
# `Gateway.Timers` — a request and its timers

The request of `Gateway.Signals` in time. Three timers hold it up: `withTimeout`'s on an attempt of a plain call,
the back-off timer of a call, and the gateway's idle timer on the pull of a stream. A timer fires on time, and the
code between two awaits takes none.

## Contents
- **The state.** `TimedRequest`: the clock, the timers, and how long the consumer has waited.
- **The step.** Time passes, or the request takes a step whose timer is due.
-/

namespace Sirius

open Lts

/-! ## The state -/

/-- The timers of a request. -/
inductive Timer where
  /-- The timer a policy call waits for. -/
  | call (id : Nat)
  | idle
  deriving DecidableEq

/-- A request with its timers. -/
structure TimedRequest where
  request : RequestSystem
  timers : Timers Timer
  /-- `Date.now()`. -/
  clock : Int
  /-- How long the consumer has waited: for the answer of a plain request, for the event it has pulled of a
      stream. -/
  waited : Nat

/-- What can happen next. -/
inductive TimedLabel where
  | elapse (ms : Nat)
  | act (label : RequestLabel)

namespace TimedRequest

section

variable (cfg : PolicyConfig) (idleTimeout : Nat) (kind : CallKind) (chain : List String)

/-- A request at its start. -/
def initial (start : Int) : TimedRequest := ⟨RequestSystem.initial chain, JsMap.empty, start, 0⟩

/-! ## The step -/

/-- The timer of a policy call. -/
def callTimer (call : PolicyCall) : Option Nat :=
  match call.kind, call.phase with
  | .plain, .attempting _ _ => some cfg.timeoutMs
  -- a stream's attempt runs without `withTimeout`
  | .stream, .attempting _ _ => none
  | _, .backoff attempt => some (cfg.baseDelay * 2 ^ attempt)
  | _, .finished => none

/-- The gateway runs no code: it awaits something, or its consumer has not come for the next event. -/
def atRest : GatewayPhase → Bool
  | .waiting _ | .yielding _ | .ended => true
  | .opening position => kind == .stream && position == 0
  | .settled _ _ => false

/-- The consumer waits for the gateway. -/
def awaited : GatewayPhase → Bool
  | .waiting _ => true
  | _ => false

/-- A step that a timer sets off finds it due. -/
def onTime (timers : Timers Timer) : RequestLabel → Bool
  | .policy ⟨_, .wake id⟩ => chain.length ≤ id || timers.isDue (.call id)
  | .idle => timers.isDue .idle
  | _ => true

/-- A policy step reads the clock as it is. -/
def readsClock (clock : Int) : RequestLabel → Bool
  | .policy l => l.now == clock
  | _ => true

/-- How long the consumer has waited after the step: a pull begins a new wait. -/
def waitedAfter (waited : Nat) : RequestLabel → Nat
  | .pull => 0
  | _ => waited

/-- The timers of the calls after a step that leads to `next`: a step of a call sets its timer or clears it. -/
def armCalls (timers : Timers Timer) (next : RequestSystem) : RequestLabel → Timers Timer
  | .policy l =>
      if l.action.call < chain.length then
        timers.arm (.call l.action.call) ((next.signals.policy.calls.get l.action.call).bind (callTimer cfg))
      else timers
  | _ => timers

/-- The idle timer after a step that leads from one phase to another: each pull of a stream sets it anew. -/
def armIdle (timers : Timers Timer) (before next : GatewayPhase) : Timers Timer :=
  match kind with
  | .plain => timers
  | .stream =>
      if awaited next then
        if awaited before then timers else timers.set .idle idleTimeout
      else timers.delete .idle

/-- The timers after a step that leads to `next`. -/
def rearm (timers : Timers Timer) (before : GatewayPhase) (next : RequestSystem) (label : RequestLabel) :
    Timers Timer :=
  armIdle idleTimeout kind (armCalls cfg chain timers next label) before next.phase

/-- One step. -/
def step (s : TimedRequest) : TimedLabel → Option TimedRequest
  | .elapse ms =>
      if atRest kind s.request.phase && s.timers.permits ms then
        some { s with
          timers := s.timers.elapse ms
          clock := s.clock + ms
          waited := if awaited s.request.phase then s.waited + ms else s.waited }
      else none
  | .act label =>
      if readsClock s.clock label && onTime chain s.timers label then
        (RequestSystem.step cfg kind chain s.request label).map fun next =>
          { s with
            request := next
            timers := rearm cfg idleTimeout kind chain s.timers s.request.phase next label
            waited := waitedAfter s.waited label }
      else none

end

/-! ## Step lemmas -/

variable {cfg : PolicyConfig} {idleTimeout : Nat} {kind : CallKind} {chain : List String} {s t : TimedRequest}

theorem elapse_of_step {ms : Nat} (h : step cfg idleTimeout kind chain s (.elapse ms) = some t) :
    atRest kind s.request.phase = true ∧ s.timers.permits ms = true ∧
      t = { s with
        timers := s.timers.elapse ms
        clock := s.clock + ms
        waited := if awaited s.request.phase then s.waited + ms else s.waited } := by
  simp only [step] at h
  split at h
  · rename_i hboth
    obtain ⟨hrest, hpermits⟩ := Bool.and_eq_true_iff.mp hboth
    exact ⟨hrest, hpermits, (Option.some.inj h).symm⟩
  · cases h

theorem act_of_step {label : RequestLabel} (h : step cfg idleTimeout kind chain s (.act label) = some t) :
    onTime chain s.timers label = true ∧ ∃ next, RequestSystem.step cfg kind chain s.request label = some next ∧
      t = { s with
        request := next
        timers := rearm cfg idleTimeout kind chain s.timers s.request.phase next label
        waited := waitedAfter s.waited label } := by
  simp only [step] at h
  split at h
  · rename_i hboth
    obtain ⟨-, htime⟩ := Bool.and_eq_true_iff.mp hboth
    obtain ⟨next, hnext, rfl⟩ := Option.map_eq_some_iff.mp h
    exact ⟨htime, next, hnext, rfl⟩
  · cases h

end TimedRequest

end Sirius
