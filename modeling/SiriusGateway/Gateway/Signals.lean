import SiriusGateway.Policy.Signals

/-!
# `Gateway.Signals` — a request and the signals of its attempts

`createResponse` and `streamResponse` of the gateway as a transition system over the policy service. The
calls `0, 1, …` below the length of the chain are the policy calls of the request, one for each position; all
other numbers are calls of other requests, which share the breakers and run in between. The caller's signal
of a position is the client's signal (`createResponse`) or the gateway's controller for the position merged
with it (`streamResponse`): it fires with the client's abort, or when the gateway tears the position down.

A policy call whose stream the gateway has given up goes on by itself: its pending `next()` may still wake
from a back-off and invoke the operation.

## Contents
- **The state.** `RequestSystem` and its phases.
- **The step.** What can happen next, and what it leads to.
-/

namespace Sirius

open Lts

/-! ## The state -/

/-- Where the gateway stands in its loop over the chain. -/
inductive GatewayPhase where
  /-- It is about to make the policy call of the position. -/
  | opening (position : Nat)
  /-- It awaits the policy call, or the next event of its stream. -/
  | waiting (position : Nat)
  /-- It has handed an event to its consumer and is suspended at the `yield`. -/
  | yielding (position : Nat)
  /-- The policy call has ended, by completing or by throwing. -/
  | settled (position : Nat) (completed : Bool)
  /-- The run has ended. -/
  | ended
  deriving DecidableEq

/-- A request on its way through the gateway. -/
structure RequestSystem where
  signals : SignalSystem
  /-- The client's signal has fired. -/
  clientAborted : Bool
  /-- An event of the current position has reached the client. -/
  yieldedAny : Bool
  phase : GatewayPhase

/-- What can happen next. -/
inductive RequestLabel where
  /-- The client aborts. -/
  | clientAbort
  /-- The callers of other requests abort. -/
  | otherAbort (calls : List Nat)
  /-- A policy call goes on. -/
  | policy (label : PolicyLabel)
  /-- The event the gateway was waiting for arrives, and is yielded. -/
  | deliver
  /-- The consumer pulls the next event. -/
  | pull
  /-- The idle timer fires before the next event. -/
  | idle
  /-- The consumer stops pulling. -/
  | stop
  /-- The gateway goes on after its policy call has ended. -/
  | resume

namespace RequestSystem

section

-- the policy configuration, whether the request is a stream, and its chain of provider names
variable (cfg : PolicyConfig) (kind : CallKind) (chain : List String)

/-- The phase in which the position is opened, if the chain has it. -/
def openAt (position : Nat) : GatewayPhase :=
  if position < chain.length then .opening position else .ended

/-- A request at its start, over a fresh service. -/
def initial : RequestSystem := ⟨SignalSystem.initial, false, false, openAt chain 0⟩

/-! ## The step -/

/-- The phase after the position has failed: nothing follows once the client is gone or has output. -/
def afterFailure (s : RequestSystem) (position : Nat) : GatewayPhase :=
  if s.clientAborted || s.yieldedAny then .ended else openAt chain (position + 1)

/-- The gateway leaves the position for `phase`: a stream's controller is aborted in the `finally` block. -/
def tearDown (s : RequestSystem) (position : Nat) (phase : GatewayPhase) : RequestSystem :=
  match kind with
  | .plain => { s with phase := phase }
  | .stream => { s with signals := s.signals.fire [position], phase := phase }

/-- The action can happen where the gateway stands. It makes the policy calls of its positions itself, in
    order, and a stream it does not pull stands still. -/
def permits (s : RequestSystem) (action : PolicyAction) : Bool :=
  if action.call < chain.length then
    match action with
    -- the loop opens a position once, and only after the one before has settled
    | .enter id k provider _ => s.phase == .opening id && k == kind && chain[id]? == some provider
    -- at a `yield` nobody pulls, so the policy call is suspended with the gateway
    | _ => s.phase != .yielding action.call
  else true

/-- The call is finished. -/
def isFinished (p : PolicySystem) (id : Nat) : Bool :=
  match p.calls.get id with
  | some call => call.phase == .finished
  | none => false

/-- The phase after a policy action, which `next` follows. -/
def afterPolicy (phase : GatewayPhase) (action : PolicyAction) (next : PolicySystem) : GatewayPhase :=
  if phase = .opening action.call ∨ phase = .waiting action.call then
    if isFinished next action.call then .settled action.call (action == .succeed action.call)
    else .waiting action.call
  else phase

/-- The stream of the call has yielded an event. -/
def hasYielded (p : PolicySystem) (id : Nat) : Bool :=
  match p.calls.get id with
  | some ⟨_, .stream, .attempting _ yielded⟩ => yielded
  | _ => false

/-- One step. -/
def step (s : RequestSystem) : RequestLabel → Option RequestSystem
  | .clientAbort =>
      -- the signals of all positions are merged with the client's, also those not reached yet
      some { s with signals := s.signals.fire (List.range chain.length), clientAborted := true }
  | .otherAbort calls =>
      if calls.all (chain.length ≤ ·) then some { s with signals := s.signals.fire calls } else none
  | .policy l =>
      if permits kind chain s l.action then
        (SignalSystem.step cfg s.signals (.policy l)).map fun signals =>
          { s with signals := signals, phase := afterPolicy s.phase l.action signals.policy }
      else none
  | .deliver =>
      match s.phase with
      | .waiting position =>
          if hasYielded s.signals.policy position then
            some { s with yieldedAny := true, phase := .yielding position }
          else none
      | _ => none
  | .pull =>
      match s.phase with
      | .yielding position => some { s with phase := .waiting position }
      | _ => none
  | .idle =>
      match kind, s.phase with
      -- only `streamResponse` has a watchdog, and it guards the pull, not the `yield`
      | .stream, .waiting position => some (s.tearDown kind position (s.afterFailure chain position))
      | _, _ => none
  | .stop =>
      match kind, s.phase with
      -- the generator has not been pulled yet
      | .stream, .opening 0 => some { s with phase := .ended }
      | .stream, .yielding position => some (s.tearDown kind position .ended)
      | _, _ => none
  | .resume =>
      match s.phase with
      | .settled position completed =>
          -- the `finally` of the position runs before the loop goes on or returns
          some (s.tearDown kind position
            (if completed then .ended else s.afterFailure chain position))
      | _ => none

end

end RequestSystem

end Sirius
