import SiriusGateway.Core.Types
import SiriusGateway.Observability.Recorders
import SiriusGateway.Policy.Breaker

/-!
# `Policy.Execute` — one request under the retry policy

`executeWithPolicy` and `executeStreamWithPolicy` for one request, run to the end. Everything the run
depends on from outside is in `Env`: what each attempt of a provider does, the clock, the moment the
caller's signal fires, the pulls on which the gateway's idle timer fires, and where the consumer of the
stream stops. A run returns the next state, the actions it took in order, and its result.

## Contents
- **The environment.** `StreamAttempt`, `CallAttempt`, `Env`, `World`, `Action`.
- **`executeWithPolicy`.** `callAttempts` is its retry loop.
- **`executeStreamWithPolicy`.** `streamAttempts` is its retry loop; `forwardEvents` is what happens to the
  events of one attempt on their way through the stream observer to the consumer.
- **Turns.** For each loop the ways one turn can go (`CallTurn`, `Turn`) and the induction rule over them
  (`callAttempts_rule`, `streamAttempts_rule`).

Time passes at the awaits: `World.tick` counts them, and the clock and the caller's signal are read at a
tick. An attempt's own behaviour, and whether it heeds its signal, is part of what it does.
-/

namespace Sirius

open Js

/-! ## The environment -/

/-- An attempt: its provider's position in the chain, and its number among the retries. -/
structure AttemptId where
  position : Nat
  attempt : Nat
  deriving DecidableEq

/-- How an attempt's stream ends after its events. A stalled one leaves the next pull pending. -/
inductive StreamEnding where
  | finished
  | threw (message : String)
  | stalled
  deriving DecidableEq

/-- What one stream attempt does. -/
structure StreamAttempt where
  events : List UnifiedStreamEvent
  ending : StreamEnding
  deriving DecidableEq

/-- What one attempt of a call does. -/
inductive CallAttempt where
  | returned (response : UnifiedAiResponse)
  | threw (message : String)
  | timedOut
  deriving DecidableEq

/-- What the run meets outside the gateway. The last argument of `call` and `stream` says whether the
    attempt's signal is still unfired when the operation is invoked. -/
structure Env where
  policy : PolicyConfig
  clock : Nat → Int
  /-- The tick from which on the caller's signal is aborted, and the message of its reason. -/
  abortedAt : Option Nat := none
  abortReason : String := "This operation was aborted"
  call : AttemptId → AiProvider → UnifiedAiRequest → Bool → CallAttempt
  stream : AttemptId → AiProvider → UnifiedAiRequest → Bool → StreamAttempt
  /-- The gateway's idle timer fires while the policy waits after this attempt. -/
  idleInBackoff : AttemptId → Bool := fun _ => false
  /-- The consumer stops after this many events. -/
  stopAfter : Option Nat := none

/-- The state of the services a request passes through. -/
structure World where
  circuitState : CircuitMap
  latencyTracker : LatencyTracker
  tick : Nat := 0
  /-- The events the consumer has received. -/
  sent : Nat := 0

/-- What a run does, in order. -/
inductive Action where
  /-- An operation of a provider is invoked; `live` when its signal has not fired. -/
  | invoke (id : AttemptId) (provider : AiProvider) (request : UnifiedAiRequest) (live : Bool)
  /-- The attempt's own controller is aborted. -/
  | cancel (id : AttemptId)
  /-- An event of an attempt reaches the consumer. -/
  | deliver (id : AttemptId) (event : UnifiedStreamEvent)
  /-- The gateway adds an error event. -/
  | deliverError (message : String)
  | recordSuccess (id : AttemptId) (provider : String)
  | recordFailure (id : AttemptId) (provider : String)
  /-- The latency of the provider at this position of the chain, which has served the request. -/
  | recordLatency (position : Nat) (provider : String)
  deriving DecidableEq

/-- The outcome of running a piece of code. -/
structure Outcome (α : Type) where
  world : World
  actions : List Action
  result : α

/-- Prepend what was done before. -/
def Outcome.after {α : Type} (before : List Action) (o : Outcome α) : Outcome α :=
  { o with actions := before ++ o.actions }

namespace World

/-- An await has passed. -/
def next (w : World) : World := { w with tick := w.tick + 1 }

/-- `Date.now()`. -/
def now (env : Env) (w : World) : Int := env.clock w.tick

/-- `callerSignal.aborted`. -/
def aborted (env : Env) (w : World) : Bool :=
  match env.abortedAt with
  | none => false
  | some t => t ≤ w.tick

/-- `recordSuccess(provider)`. -/
def recordSuccess (w : World) (provider : String) : World :=
  { w with circuitState := w.circuitState.recordSuccess provider }

/-- `recordFailure(provider)`. -/
def recordFailure (env : Env) (w : World) (provider : String) : World :=
  { w with circuitState := CircuitMap.recordFailure env.policy (w.now env) w.circuitState provider }

end World

/-- The breaker lets a run for the provider in. -/
def Admits (env : Env) (w : World) (provider : AiProvider) : Prop :=
  ∃ circuitState,
    CircuitMap.checkCircuitBreaker env.policy (w.now env) w.circuitState provider.name = .ok circuitState

/-! ## `executeWithPolicy` -/

/-- The message of a policy timeout. -/
def timeoutMessage (cfg : PolicyConfig) : String := s!"Operation timed out after {cfg.timeoutMs}ms"

/-- The retry loop of `executeWithPolicy`, from attempt `attempt` with `remaining` retries left. -/
def callAttempts (env : Env) (position : Nat) (provider : AiProvider) (request : UnifiedAiRequest) :
    Nat → Nat → World → Outcome (Except String UnifiedAiResponse)
  | remaining, attempt, w =>
      let id : AttemptId := ⟨position, attempt⟩
      let live := !w.aborted env
      let invoked : Action := .invoke id provider request live
      let failed (message : String) : Outcome (Except String UnifiedAiResponse) :=
        let w := w.next
        -- a caller abort is not a provider failure
        if w.aborted env then ⟨w, [invoked, .cancel id], .error message⟩
        else
          let w := w.recordFailure env provider.name
          let done := [invoked, .cancel id, .recordFailure id provider.name]
          match remaining with
          | 0 => ⟨w, done, .error message⟩
          | remaining + 1 =>
              (callAttempts env position provider request remaining (attempt + 1) w.next).after done
      match env.call id provider request live with
      | .returned response =>
          ⟨w.next.recordSuccess provider.name,
            [invoked, .recordSuccess id provider.name, .cancel id], .ok response⟩
      | .threw message => failed message
      | .timedOut => failed (timeoutMessage env.policy)

/-- `executeWithPolicy(providerName, operation, callerSignal)`, for the operation
    `provider.createResponse(request, context)`. -/
def executeWithPolicy (env : Env) (position : Nat) (provider : AiProvider) (request : UnifiedAiRequest)
    (w : World) : Outcome (Except String UnifiedAiResponse) :=
  match CircuitMap.checkCircuitBreaker env.policy (w.now env) w.circuitState provider.name with
  | .error e => ⟨w, [], .error e.message⟩
  | .ok circuitState =>
      let w := { w with circuitState := circuitState }
      -- the only look at the caller's signal before an attempt
      if w.aborted env then ⟨w, [], .error env.abortReason⟩
      else callAttempts env position provider request env.policy.maxRetries 0 w

/-! ### The turns of its retry loop -/

section CallTurn

variable (env : Env) (position : Nat) (provider : AiProvider) (request : UnifiedAiRequest)

/-- What attempt `attempt`, started in `w`, does. -/
def callOf (attempt : Nat) (w : World) : CallAttempt :=
  env.call ⟨position, attempt⟩ provider request (!w.aborted env)

/-- The error of a failed attempt. -/
def CallAttempt.failure (cfg : PolicyConfig) : CallAttempt → Option String
  | .returned _ => none
  | .threw message => some message
  | .timedOut => some (timeoutMessage cfg)

/-- The ways one turn of the loop can go. -/
inductive CallTurn (remaining attempt : Nat) (w : World) :
    Outcome (Except String UnifiedAiResponse) → Prop
  | returned {response : UnifiedAiResponse}
      (hcall : callOf env position provider request attempt w = .returned response) :
      CallTurn remaining attempt w
        ⟨w.next.recordSuccess provider.name,
          [.invoke ⟨position, attempt⟩ provider request (!w.aborted env),
            .recordSuccess ⟨position, attempt⟩ provider.name, .cancel ⟨position, attempt⟩],
          .ok response⟩
  /-- It fails after the caller has aborted. -/
  | gone {message : String}
      (hcall : (callOf env position provider request attempt w).failure env.policy = some message)
      (hgone : w.next.aborted env = true) :
      CallTurn remaining attempt w
        ⟨w.next, [.invoke ⟨position, attempt⟩ provider request (!w.aborted env),
          .cancel ⟨position, attempt⟩], .error message⟩
  /-- It fails, and no retry is left. -/
  | failed {message : String}
      (hcall : (callOf env position provider request attempt w).failure env.policy = some message)
      (hhere : w.next.aborted env = false) (hlast : remaining = 0) :
      CallTurn remaining attempt w
        ⟨w.next.recordFailure env provider.name,
          [.invoke ⟨position, attempt⟩ provider request (!w.aborted env), .cancel ⟨position, attempt⟩,
            .recordFailure ⟨position, attempt⟩ provider.name], .error message⟩
  | retried {message : String} {more : Nat}
      (hcall : (callOf env position provider request attempt w).failure env.policy = some message)
      (hhere : w.next.aborted env = false) (hmore : remaining = more + 1) :
      CallTurn remaining attempt w
        ((callAttempts env position provider request more (attempt + 1)
          (w.next.recordFailure env provider.name).next).after
          [.invoke ⟨position, attempt⟩ provider request (!w.aborted env), .cancel ⟨position, attempt⟩,
            .recordFailure ⟨position, attempt⟩ provider.name])

/-- **Every turn of the loop goes one of these ways.** -/
theorem callAttempts_turn (remaining attempt : Nat) (w : World) :
    CallTurn env position provider request remaining attempt w
      (callAttempts env position provider request remaining attempt w) := by
  rw [callAttempts.eq_def]
  have hfailed : ∀ message,
      (callOf env position provider request attempt w).failure env.policy = some message →
      CallTurn env position provider request remaining attempt w
        (if w.next.aborted env = true then
          ⟨w.next, [.invoke ⟨position, attempt⟩ provider request (!w.aborted env),
            .cancel ⟨position, attempt⟩], .error message⟩
        else
          match remaining with
          | 0 =>
              ⟨w.next.recordFailure env provider.name,
                [.invoke ⟨position, attempt⟩ provider request (!w.aborted env),
                  .cancel ⟨position, attempt⟩, .recordFailure ⟨position, attempt⟩ provider.name],
                .error message⟩
          | remaining + 1 =>
              (callAttempts env position provider request remaining (attempt + 1)
                (w.next.recordFailure env provider.name).next).after
                [.invoke ⟨position, attempt⟩ provider request (!w.aborted env),
                  .cancel ⟨position, attempt⟩, .recordFailure ⟨position, attempt⟩ provider.name]) := by
    intro message hcall
    split
    · exact CallTurn.gone hcall ‹_›
    · cases remaining with
      | zero => exact CallTurn.failed hcall (Bool.eq_false_iff.mpr ‹_›) rfl
      | succ more => exact CallTurn.retried hcall (Bool.eq_false_iff.mpr ‹_›) rfl
  cases hcall : callOf env position provider request attempt w with
  | returned response =>
      have hcall' := hcall
      unfold callOf at hcall'
      simp only [hcall']
      exact CallTurn.returned hcall
  | threw message =>
      have hcall' := hcall
      unfold callOf at hcall'
      simp only [hcall']
      exact hfailed message (by rw [hcall]; rfl)
  | timedOut =>
      have hcall' := hcall
      unfold callOf at hcall'
      simp only [hcall']
      exact hfailed (timeoutMessage env.policy) (by rw [hcall]; rfl)

/-- **The rule of the loop**: what every turn establishes, given that the retry it may lead to does, holds
    of the whole loop. -/
theorem callAttempts_rule {P : Nat → Nat → World → Outcome (Except String UnifiedAiResponse) → Prop}
    (hturn : ∀ remaining attempt w o, CallTurn env position provider request remaining attempt w o →
      (∀ more w', remaining = more + 1 →
        P more (attempt + 1) w' (callAttempts env position provider request more (attempt + 1) w')) →
      P remaining attempt w o) :
    ∀ remaining attempt w, P remaining attempt w
      (callAttempts env position provider request remaining attempt w) := by
  intro remaining
  induction remaining with
  | zero =>
      intro attempt w
      exact hturn 0 attempt w _ (callAttempts_turn ..) (fun _ _ h => absurd h (Nat.succ_ne_zero _).symm)
  | succ n ih =>
      intro attempt w
      refine hturn (n + 1) attempt w _ (callAttempts_turn ..) (fun more w' h => ?_)
      obtain rfl : n = more := Nat.succ.inj h
      exact ih (attempt + 1) w'

/-- A run of the policy is turned away at its entry, with nothing done, or is its retry loop. -/
theorem executeWithPolicy_cases (w : World) :
    (∃ w' message, executeWithPolicy env position provider request w = ⟨w', [], .error message⟩ ∧
        w'.tick = w.tick) ∨
      ∃ circuitState,
        CircuitMap.checkCircuitBreaker env.policy (w.now env) w.circuitState provider.name =
          .ok circuitState ∧
        executeWithPolicy env position provider request w =
          callAttempts env position provider request env.policy.maxRetries 0
            { w with circuitState := circuitState } := by
  unfold executeWithPolicy
  cases hcheck : CircuitMap.checkCircuitBreaker env.policy (w.now env) w.circuitState provider.name with
  | error e => exact Or.inl ⟨w, e.message, rfl, rfl⟩
  | ok circuitState =>
      simp only
      split
      · exact Or.inl ⟨_, _, rfl, rfl⟩
      · exact Or.inr ⟨circuitState, rfl, rfl⟩

end CallTurn

/-! ## `executeStreamWithPolicy` -/

/-- How the stream `executeStreamWithPolicy` returns ends for the gateway. -/
inductive StreamEnd where
  | completed
  /-- It throws. -/
  | threw (message : String)
  /-- The observer throws on an event, which closes it. -/
  | observerThrew (message : String)
  /-- The gateway's idle timer fires. -/
  | idle
  /-- The gateway's consumer stops. -/
  | stopped
  deriving DecidableEq

/-- The end, and whether an event has reached the consumer (`yieldedAny`). -/
structure StreamResult where
  ending : StreamEnd
  yieldedAny : Bool
  deriving DecidableEq

/-- The message of `Buffer.byteLength` on what is no string. -/
def byteLengthMessage : String :=
  "The \"string\" argument must be of type string or an instance of Buffer or ArrayBuffer."

/-- `StreamingObserver.observe` on one event: it measures a content delta with `Buffer.byteLength`. -/
def observeEvent (event : UnifiedStreamEvent) : Throws Unit :=
  if event.wellTyped then .ok () else .error (.typeError byteLengthMessage)

/-- The events of one attempt, pulled one by one through the observer to the consumer: the end when they
    were cut short, and whether any reached the consumer. -/
def forwardEvents (env : Env) (id : AttemptId) :
    List UnifiedStreamEvent → Bool → World → Outcome (Option StreamEnd × Bool)
  | [], yielded, w => ⟨w, [], (none, yielded)⟩
  | event :: rest, yielded, w =>
      -- the observer sees an event before the consumer does
      match observeEvent event with
      | .error e => ⟨w.next, [], (some (.observerThrew e.message), yielded)⟩
      | .ok () =>
          let w := { w.next with sent := w.sent + 1 }
          -- the consumer breaks out of its loop and the generators are returned
          if env.stopAfter = some w.sent then ⟨w, [.deliver id event], (some .stopped, true)⟩
          else (forwardEvents env id rest true w).after [.deliver id event]

/-- After the idle timer has fired during a back-off, the pending pull wakes once more: it invokes the
    operation with a fired signal. Nobody reads its events, and only a stream that ends without any is
    recorded. The gateway does not wait for it: here it runs at once, before the gateway goes on, which is
    one of the orders that can happen; in the transition system of `Gateway.Streams` it starts at any later
    moment. -/
def abandonedAttempt (env : Env) (id : AttemptId) (provider : AiProvider) (request : UnifiedAiRequest)
    (w : World) : World × List Action :=
  let invoked : Action := .invoke id provider request false
  match env.stream id provider request false with
  | ⟨[], .finished⟩ =>
      (w.recordSuccess provider.name, [invoked, .recordSuccess id provider.name, .cancel id])
  | _ => (w, [invoked, .cancel id])

section Attempt

variable (env : Env) (position : Nat) (provider : AiProvider) (request : UnifiedAiRequest)

/-- What attempt `attempt`, started in `w`, does. -/
def upstreamOf (attempt : Nat) (w : World) : StreamAttempt :=
  env.stream ⟨position, attempt⟩ provider request (!w.aborted env)

/-- Its events on their way to the consumer. -/
def forwardedOf (attempt : Nat) (w : World) : Outcome (Option StreamEnd × Bool) :=
  forwardEvents env ⟨position, attempt⟩ (upstreamOf env position provider request attempt w).events
    false w

/-- The actions up to the end of its events. -/
def startedOf (attempt : Nat) (w : World) : List Action :=
  .invoke ⟨position, attempt⟩ provider request (!w.aborted env) ::
    (forwardedOf env position provider request attempt w).actions

/-- The state after a failure of it has been recorded. -/
def failedWorld (attempt : Nat) (w : World) : World :=
  (forwardedOf env position provider request attempt w).world.next.recordFailure env provider.name

/-- The actions up to that record. -/
def failedActions (attempt : Nat) (w : World) : List Action :=
  startedOf env position provider request attempt w ++
    [.cancel ⟨position, attempt⟩, .recordFailure ⟨position, attempt⟩ provider.name]

end Attempt

/-- The retry loop of `executeStreamWithPolicy`, from attempt `attempt` with `remaining` retries left,
    pulled by the gateway until it ends or is given up. -/
def streamAttempts (env : Env) (position : Nat) (provider : AiProvider) (request : UnifiedAiRequest) :
    Nat → Nat → World → Outcome StreamResult
  | remaining, attempt, w =>
      let id : AttemptId := ⟨position, attempt⟩
      let forwarded := forwardedOf env position provider request attempt w
      let started := startedOf env position provider request attempt w
      let yielded := forwarded.result.2
      match forwarded.result.1 with
      | some ending => ⟨forwarded.world, started ++ [.cancel id], ⟨ending, yielded⟩⟩
      | none =>
          match (upstreamOf env position provider request attempt w).ending with
          | .finished =>
              ⟨forwarded.world.next.recordSuccess provider.name,
                started ++ [.recordSuccess id provider.name, .cancel id], ⟨.completed, yielded⟩⟩
          | .stalled =>
              -- the gateway fires the signal the policy takes for the caller's, so nothing is recorded
              ⟨forwarded.world.next, started ++ [.cancel id], ⟨.idle, yielded⟩⟩
          | .threw message =>
              if forwarded.world.next.aborted env then
                ⟨forwarded.world.next, started ++ [.cancel id], ⟨.threw message, yielded⟩⟩
              else
                let w' := failedWorld env position provider request attempt w
                let done := failedActions env position provider request attempt w
                -- the consumer already has this attempt's events
                if yielded then ⟨w', done, ⟨.threw message, true⟩⟩
                else
                  match remaining with
                  | 0 => ⟨w', done, ⟨.threw message, false⟩⟩
                  | remaining + 1 =>
                      if env.idleInBackoff id then
                        let late := abandonedAttempt env ⟨position, attempt + 1⟩ provider request w'.next
                        ⟨late.1, done ++ late.2, ⟨.idle, false⟩⟩
                      else
                        (streamAttempts env position provider request remaining (attempt + 1)
                          w'.next).after done

/-! ### The turns of the retry loop -/

section Turn

variable (env : Env) (position : Nat) (provider : AiProvider) (request : UnifiedAiRequest)

/-- The ways one turn of the loop can go. -/
inductive Turn (remaining attempt : Nat) (w : World) : Outcome StreamResult → Prop
  /-- The events are cut short by the observer or the consumer. -/
  | cut {ending : StreamEnd}
      (hcut : (forwardedOf env position provider request attempt w).result.1 = some ending) :
      Turn remaining attempt w
        ⟨(forwardedOf env position provider request attempt w).world,
          startedOf env position provider request attempt w ++ [.cancel ⟨position, attempt⟩],
          ⟨ending, (forwardedOf env position provider request attempt w).result.2⟩⟩
  | finished (hall : (forwardedOf env position provider request attempt w).result.1 = none)
      (hend : (upstreamOf env position provider request attempt w).ending = .finished) :
      Turn remaining attempt w
        ⟨(forwardedOf env position provider request attempt w).world.next.recordSuccess provider.name,
          startedOf env position provider request attempt w ++
            [.recordSuccess ⟨position, attempt⟩ provider.name, .cancel ⟨position, attempt⟩],
          ⟨.completed, (forwardedOf env position provider request attempt w).result.2⟩⟩
  | stalled (hall : (forwardedOf env position provider request attempt w).result.1 = none)
      (hend : (upstreamOf env position provider request attempt w).ending = .stalled) :
      Turn remaining attempt w
        ⟨(forwardedOf env position provider request attempt w).world.next,
          startedOf env position provider request attempt w ++ [.cancel ⟨position, attempt⟩],
          ⟨.idle, (forwardedOf env position provider request attempt w).result.2⟩⟩
  /-- It throws after the caller has aborted. -/
  | aborted {message : String}
      (hall : (forwardedOf env position provider request attempt w).result.1 = none)
      (hend : (upstreamOf env position provider request attempt w).ending = .threw message)
      (hgone : (forwardedOf env position provider request attempt w).world.next.aborted env = true) :
      Turn remaining attempt w
        ⟨(forwardedOf env position provider request attempt w).world.next,
          startedOf env position provider request attempt w ++ [.cancel ⟨position, attempt⟩],
          ⟨.threw message, (forwardedOf env position provider request attempt w).result.2⟩⟩
  /-- It throws, and no retry follows: output has been sent, or none is left. -/
  | failed {message : String}
      (hall : (forwardedOf env position provider request attempt w).result.1 = none)
      (hend : (upstreamOf env position provider request attempt w).ending = .threw message)
      (hhere : (forwardedOf env position provider request attempt w).world.next.aborted env = false)
      (hlast : (forwardedOf env position provider request attempt w).result.2 = true ∨ remaining = 0) :
      Turn remaining attempt w
        ⟨failedWorld env position provider request attempt w,
          failedActions env position provider request attempt w,
          ⟨.threw message, (forwardedOf env position provider request attempt w).result.2⟩⟩
  /-- It throws before any output, and the idle timer fires during the back-off. -/
  | abandoned {message : String} {more : Nat}
      (hall : (forwardedOf env position provider request attempt w).result.1 = none)
      (hend : (upstreamOf env position provider request attempt w).ending = .threw message)
      (hhere : (forwardedOf env position provider request attempt w).world.next.aborted env = false)
      (hsilent : (forwardedOf env position provider request attempt w).result.2 = false)
      (hmore : remaining = more + 1) (hidle : env.idleInBackoff ⟨position, attempt⟩ = true) :
      Turn remaining attempt w
        ⟨(abandonedAttempt env ⟨position, attempt + 1⟩ provider request
            (failedWorld env position provider request attempt w).next).1,
          failedActions env position provider request attempt w ++
            (abandonedAttempt env ⟨position, attempt + 1⟩ provider request
              (failedWorld env position provider request attempt w).next).2,
          ⟨.idle, false⟩⟩
  /-- It throws before any output, and is retried. -/
  | retried {message : String} {more : Nat}
      (hall : (forwardedOf env position provider request attempt w).result.1 = none)
      (hend : (upstreamOf env position provider request attempt w).ending = .threw message)
      (hhere : (forwardedOf env position provider request attempt w).world.next.aborted env = false)
      (hsilent : (forwardedOf env position provider request attempt w).result.2 = false)
      (hmore : remaining = more + 1) (hidle : env.idleInBackoff ⟨position, attempt⟩ = false) :
      Turn remaining attempt w
        ((streamAttempts env position provider request more (attempt + 1)
          (failedWorld env position provider request attempt w).next).after
          (failedActions env position provider request attempt w))

/-- **Every turn of the loop goes one of these ways.** -/
theorem streamAttempts_turn (remaining attempt : Nat) (w : World) :
    Turn env position provider request remaining attempt w
      (streamAttempts env position provider request remaining attempt w) := by
  rw [streamAttempts.eq_def]
  cases hcut : (forwardedOf env position provider request attempt w).result.1 with
  | some ending =>
      simp only [hcut]
      exact Turn.cut hcut
  | none =>
      simp only [hcut]
      cases hend : (upstreamOf env position provider request attempt w).ending with
      | finished => exact Turn.finished hcut hend
      | stalled => exact Turn.stalled hcut hend
      | threw message =>
          cases hgone : (forwardedOf env position provider request attempt w).world.next.aborted env with
          | true =>
              simp only [if_true]
              exact Turn.aborted hcut hend hgone
          | false =>
              simp only [Bool.false_eq_true, if_false]
              cases hyield : (forwardedOf env position provider request attempt w).result.2 with
              | true =>
                  simp only [if_true]
                  exact hyield ▸ Turn.failed hcut hend hgone (Or.inl hyield)
              | false =>
                  simp only [Bool.false_eq_true, if_false]
                  cases remaining with
                  | zero => exact hyield ▸ Turn.failed hcut hend hgone (Or.inr rfl)
                  | succ more =>
                      cases hidle : env.idleInBackoff ⟨position, attempt⟩ with
                      | true =>
                          simp only [if_true]
                          exact Turn.abandoned hcut hend hgone hyield rfl hidle
                      | false =>
                          simp only [Bool.false_eq_true, if_false]
                          exact Turn.retried hcut hend hgone hyield rfl hidle

/-- **The rule of the loop**: what every turn establishes, given that the retry it may lead to does, holds
    of the whole loop. -/
theorem streamAttempts_rule {P : Nat → Nat → World → Outcome StreamResult → Prop}
    (hturn : ∀ remaining attempt w o, Turn env position provider request remaining attempt w o →
      (∀ more w', remaining = more + 1 →
        P more (attempt + 1) w'
          (streamAttempts env position provider request more (attempt + 1) w')) →
      P remaining attempt w o) :
    ∀ remaining attempt w, P remaining attempt w
      (streamAttempts env position provider request remaining attempt w) := by
  intro remaining
  induction remaining with
  | zero =>
      intro attempt w
      exact hturn 0 attempt w _ (streamAttempts_turn ..) (fun _ _ h => absurd h (Nat.succ_ne_zero _).symm)
  | succ n ih =>
      intro attempt w
      refine hturn (n + 1) attempt w _ (streamAttempts_turn ..) (fun more w' h => ?_)
      obtain rfl : n = more := Nat.succ.inj h
      exact ih (attempt + 1) w'

end Turn

/-- `executeStreamWithPolicy(providerName, operation, callerSignal)`, for the operation
    `provider.streamResponse(request, signal)`, pulled by the gateway. -/
def executeStreamWithPolicy (env : Env) (position : Nat) (provider : AiProvider)
    (request : UnifiedAiRequest) (w : World) : Outcome StreamResult :=
  match CircuitMap.checkCircuitBreaker env.policy (w.now env) w.circuitState provider.name with
  | .error e => ⟨w, [], ⟨.threw e.message, false⟩⟩
  | .ok circuitState =>
      let w := { w with circuitState := circuitState }
      if w.aborted env then ⟨w, [], ⟨.threw env.abortReason, false⟩⟩
      else streamAttempts env position provider request env.policy.maxRetries 0 w

/-- A run of the policy is turned away at its entry, with nothing done, or is its retry loop. -/
theorem executeStreamWithPolicy_cases (env : Env) (position : Nat) (provider : AiProvider)
    (request : UnifiedAiRequest) (w : World) :
    (∃ w' message, executeStreamWithPolicy env position provider request w =
        ⟨w', [], ⟨.threw message, false⟩⟩ ∧ w'.sent = w.sent ∧ w'.tick = w.tick) ∨
      ∃ circuitState,
        CircuitMap.checkCircuitBreaker env.policy (w.now env) w.circuitState provider.name =
          .ok circuitState ∧
        executeStreamWithPolicy env position provider request w =
          streamAttempts env position provider request env.policy.maxRetries 0
            { w with circuitState := circuitState } := by
  unfold executeStreamWithPolicy
  cases hcheck : CircuitMap.checkCircuitBreaker env.policy (w.now env) w.circuitState provider.name with
  | error e => exact Or.inl ⟨w, e.message, rfl, rfl, rfl⟩
  | ok circuitState =>
      simp only
      split
      · exact Or.inl ⟨_, _, rfl, rfl, rfl⟩
      · exact Or.inr ⟨circuitState, rfl, rfl⟩

end Sirius
