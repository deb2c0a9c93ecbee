import SiriusGateway.Gateway.Service
import SiriusGateway.Gateway.Signals

/-!
# `Gateway.Streams` — what the consumer of a stream receives

`GatewayService.streamResponse` as a transition system with the events in it. Under it lies the request of
`Gateway.Signals`: its labels are the labels here, and each step takes the same step there. Here every
attempt has a script (`Env.stream`), and the state follows what the gateway pulls: the attempt it listens
to, the event on its way to the consumer, the last error and what the consumer has received.

`streamOverChain` runs a request to its end in one order. Here a policy call that the gateway has given up
goes on beside the next position, so the operation it invokes late may start at any later moment.

## Contents
- **The state.** `PulledAttempt`, `StreamSystem`.
- **The awaited attempt.** What its script and the observer allow (`allows`).
- **The step.** What the gateway does with it (`follow`).
-/

namespace Sirius

open Js

/-! ## The state -/

/-- An attempt whose stream the gateway pulls. -/
structure PulledAttempt where
  id : AttemptId
  /-- Its signal had not fired when the operation was invoked. -/
  live : Bool
  /-- What it has yet to do. -/
  rest : StreamAttempt

/-- A stream request on its way through the gateway, with its events. -/
structure StreamSystem where
  request : RequestSystem
  /-- The latest attempt of the position the gateway stands at. -/
  pulled : Option PulledAttempt
  /-- The event the attempt has given that the consumer has not received. -/
  pending : Option UnifiedStreamEvent
  lastError : Option String
  /-- What the consumer has received, each event with the attempt it comes from. -/
  received : List (Option AttemptId × UnifiedStreamEvent)

namespace StreamSystem

section

-- the policy and the scripts, the request, and the chain it is routed over
variable (env : Env) (request : UnifiedAiRequest) (chain : List ChainEntry)

/-- The names of the chain's adapters, which the breakers are kept by. -/
def names : List String := chain.map (·.provider.name)

/-- The error event of the gateway. -/
def errorEvent (message : String) : Option AttemptId × UnifiedStreamEvent := (none, .error message none)

/-- A request at its start. Over an empty chain nothing is tried, and only the error is left. -/
def initial : StreamSystem where
  request := RequestSystem.initial (names chain)
  pulled := none
  pending := none
  lastError := none
  received := if chain = [] then [errorEvent (allFailedMessage request none)] else []

/-! ## The awaited attempt -/

/-- What an attempt with the rest `rest` of its script can do, when `pending` is on its way from it to the
    consumer. -/
def attemptAllows (rest : StreamAttempt) (pending : Option UnifiedStreamEvent) : PolicyAction → Bool
  | .event _ => pending.isNone && !rest.events.isEmpty
  | .succeed _ => pending.isNone && decide (rest = ⟨[], .finished⟩)
  | .fail _ aborted =>
      -- an attempt may heed its signal at any moment
      pending.isNone && (aborted || (rest.events.isEmpty && rest.ending matches .threw _))
  -- the observer throws on the event, and closes the stream
  | .leave _ => pending.any fun event => !event.wellTyped
  | _ => true

/-- The awaited attempt and the observer allow the label. A policy call nobody awaits is free. -/
def allows (s : StreamSystem) : RequestLabel → Bool
  | .policy l =>
      if s.request.phase = .waiting l.action.call then
        s.pulled.any fun pulled => attemptAllows pulled.rest s.pending l.action
      else true
  | .deliver => s.pending.any (·.wellTyped)
  -- an event that is there wins the race against the timer
  | .idle => s.pending.isNone
  | _ => true

/-! ## The step -/

/-- What the attempt does when its operation is invoked, its signal unfired or not. -/
def script (id : AttemptId) (live : Bool) : Option StreamAttempt :=
  (chain[id.position]?).map fun entry =>
    env.stream id entry.provider (enrichedRequest request entry) live

/-- The operation of an attempt is invoked. -/
def invoke (s : StreamSystem) (id : AttemptId) : StreamSystem :=
  let live := decide (id.position ∉ s.request.signals.fired)
  { s with pulled := (script env request chain id live).map fun attempt => ⟨id, live, attempt⟩ }

/-- The message a policy call is turned away with at its entry. -/
def refusal (p : PolicySystem) (now : Int) (provider : String) : String :=
  match CircuitMap.checkCircuitBreaker env.policy now p.circuitState provider with
  | .error e => e.message
  | .ok _ => env.abortReason

/-- The message an attempt with the rest `rest` of its script fails with. -/
def thrown (rest : StreamAttempt) : String :=
  match rest with
  | ⟨[], .threw message⟩ => message
  -- it has heeded its signal
  | _ => env.abortReason

/-- What a policy action does to the attempt the gateway listens to; `r` is the request after it. -/
def followPolicy (s : StreamSystem) (l : PolicyLabel) (r : RequestSystem) : StreamSystem :=
  let p := s.request.signals.policy
  let s := { s with request := r }
  match l.action with
  | .enter id _ provider _ =>
      if RequestSystem.isFinished r.signals.policy id then
        { s with lastError := some (refusal env p l.now provider) }
      else s.invoke env request chain ⟨id, 0⟩
  | .wake id =>
      match p.calls.get id with
      | some ⟨_, _, .backoff attempt⟩ => s.invoke env request chain ⟨id, attempt + 1⟩
      | _ => s
  | .event _ =>
      match s.pulled with
      | some ⟨id, live, ⟨event :: events, ending⟩⟩ =>
          { s with pulled := some ⟨id, live, ⟨events, ending⟩⟩, pending := some event }
      | _ => s
  | .fail _ _ => { s with lastError := s.pulled.map fun pulled => thrown env pulled.rest }
  | .leave _ => { s with pending := none, lastError := some byteLengthMessage }
  | .succeed _ => s

/-- What the gateway yields after the position has failed with `lastError`. -/
def afterFailure (s : StreamSystem) (position : Nat) : StreamSystem :=
  -- the client is gone
  if s.request.clientAborted then s
  else if s.request.yieldedAny then
    { s with received := s.received ++ s.lastError.toList.map errorEvent }
  else if position + 1 < chain.length then s
  else { s with received := s.received ++ [errorEvent (allFailedMessage request s.lastError)] }

/-- What the label does, `r` being the request after it. -/
def follow (s : StreamSystem) (l : RequestLabel) (r : RequestSystem) : StreamSystem :=
  match l, s.request.phase with
  | .policy l, phase =>
      if phase = .opening l.action.call ∨ phase = .waiting l.action.call then
        s.followPolicy env request chain l r
      else { s with request := r }
  | .deliver, _ =>
      { s with
        request := r
        pending := none
        received := s.received ++ s.pending.toList.map fun event => (s.pulled.map (·.id), event) }
  | .idle, .waiting position =>
      ({ s with request := r, lastError := some idleMessage } : StreamSystem).afterFailure request chain
        position
  | .resume, .settled position false =>
      ({ s with request := r } : StreamSystem).afterFailure request chain position
  | _, _ => { s with request := r }

/-- One step. -/
def step (s : StreamSystem) (l : RequestLabel) : Option StreamSystem :=
  if s.allows l then
    (RequestSystem.step env.policy .stream (names chain) s.request l).map
      (s.follow env request chain l)
  else none

end

end StreamSystem

end Sirius
