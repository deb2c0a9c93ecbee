import SiriusGateway.Correctness.CallFailover
import SiriusGateway.Correctness.Drained
import Mathlib.Data.List.TakeWhile

/-!
# `Correctness.StreamReference` — `streamResponse` meets its reference

The reference says what the client of a stream receives from the script of the attempts alone. Of a provider's
first `maxRetries + 1` attempts the first one that is not retried decides (`firstLoud`). The provider speaks when
its breaker lets the call in and that attempt delivers an event or ends normally; the first provider of the chain
that speaks is the only one heard (`Speaker`), with all that its attempt shows and the error it breaks off with.
The loops of the gateway and of the policy, with the stream observer between them, meet it
(`streamOverChain_reference`), in runs nobody disturbs: the client neither aborts nor stops, and no back-off
outlasts the idle timer.

## Contents
- **The reference.** `shown`, `failure`, `firstLoud`, `streamWorldAt`, `Speaker`, `lastFailure`.
- **One attempt.** What of it reaches the consumer.
- **One provider.** The retry loop, up to the attempt that decides.
- **The chain.**
-/

namespace Sirius

open Js

/-! ## The reference -/

namespace StreamAttempt

variable (a : StreamAttempt)

/-- The events the observer lets through. -/
def shown : List UnifiedStreamEvent := a.events.takeWhile (·.wellTyped)

/-- The error the attempt breaks off with, unless it ends normally. -/
def failure : Option String :=
  if a.typed then
    match a.ending with
    | .finished => none
    | .threw message => some message
    | .stalled => some idleMessage
  else some byteLengthMessage

/-- It throws before its first event: the policy tries again behind it. -/
def isSilent : Bool :=
  a.events.isEmpty && match a.ending with
    | .threw _ => true
    | _ => false

variable {a}

theorem isSilent_iff : a.isSilent = true ↔ a.SilentThrow := by
  unfold isSilent SilentThrow
  cases a.ending <;> simp

theorem shown_of_typed (htyped : a.typed = true) : a.shown = a.events :=
  List.takeWhile_eq_self_iff.mpr (List.all_eq_true.mp htyped)

theorem events_of_untyped (huntyped : a.typed = false) : a.events ≠ [] := by
  intro hempty
  unfold typed at huntyped
  rw [hempty] at huntyped
  cases huntyped

theorem failure_of_typed (htyped : a.typed = true) :
    a.failure = match a.ending with
      | .finished => none
      | .threw message => some message
      | .stalled => some idleMessage := by
  rw [failure, if_pos htyped]

end StreamAttempt

section Reference

variable (env : Env) (request : UnifiedAiRequest)

/-- The attempt of a provider that decides: the first of those it has that is not retried. -/
def firstLoud (position : Nat) (entry : ChainEntry) : Option Nat :=
  (List.range (env.policy.maxRetries + 1)).find? fun a =>
    !(attemptOf env position entry.provider (enrichedRequest request entry) a).isSilent

/-- The state after `n` attempts have thrown silently and their back-offs have passed. -/
def retriedWorld (provider : String) : Nat → World → World
  | 0, w => w
  | n + 1, w => retriedWorld provider n (w.next.recordFailure env provider).next

/-- The state a provider that does not speak leaves behind. -/
def streamPassedBy (position : Nat) (entry : ChainEntry) (w : World) : World :=
  match CircuitMap.checkCircuitBreaker env.policy (w.now env) w.circuitState entry.provider.name with
  | .error _ => w
  | .ok m =>
      match firstLoud env request position entry with
      | some a => (retriedWorld env entry.provider.name a { w with circuitState := m }).next
      | none => afterFailures env entry.provider.name env.policy.maxRetries { w with circuitState := m }

/-- The state in which a chain's entry is met, when none before it has spoken. -/
def streamWorldAt : Nat → List ChainEntry → World → Nat → World
  | position, entry :: rest, w, i + 1 =>
      streamWorldAt (position + 1) rest (streamPassedBy env request position entry w) i
  | _, _, w, _ => w

/-- The provider, met in `w`, speaks: an event of it reaches the client, or it ends normally without one. -/
def SpeaksAt (position : Nat) (entry : ChainEntry) (w : World) (a : Nat) : Prop :=
  Admits env w entry.provider ∧ firstLoud env request position entry = some a ∧
    ((attemptOf env position entry.provider (enrichedRequest request entry) a).shown ≠ [] ∨
      (attemptOf env position entry.provider (enrichedRequest request entry) a).failure = none)

/-- Entry `i` of a chain that starts at `position` would speak. -/
def SpeaksFrom (position : Nat) (chain : List ChainEntry) (w : World) (i : Nat) : Prop :=
  ∃ entry a, chain[i]? = some entry ∧
    SpeaksAt env request (position + i) entry (streamWorldAt env request position chain w i) a

/-- Entry `i` of a chain that starts at `position` is the first that speaks, with its attempt `a`. -/
structure SpeakerFrom (position : Nat) (chain : List ChainEntry) (w : World) (i a : Nat) (entry : ChainEntry) :
    Prop where
  entry_eq : chain[i]? = some entry
  speaks : SpeaksAt env request (position + i) entry (streamWorldAt env request position chain w i) a
  first : ∀ j < i, ¬ SpeaksFrom env request position chain w j

/-- Entry `i` of the chain would speak. -/
abbrev Speaks := SpeaksFrom env request 0

/-- Entry `i` of the chain is the first that speaks. -/
abbrev Speaker := SpeakerFrom env request 0

/-- The error of a provider that does not speak. -/
def silentFailure (position : Nat) (entry : ChainEntry) (w : World) : Option String :=
  match CircuitMap.checkCircuitBreaker env.policy (w.now env) w.circuitState entry.provider.name with
  | .error e => some e.message
  | .ok _ => (attemptOf env position entry.provider (enrichedRequest request entry)
      ((firstLoud env request position entry).getD env.policy.maxRetries)).failure

/-- The error of the chain's last entry, when none speaks. -/
def lastFailure : Nat → List ChainEntry → Option String → World → Option String
  | _, [], last, _ => last
  | position, entry :: rest, _, w =>
      lastFailure (position + 1) rest (silentFailure env request position entry w)
        (streamPassedBy env request position entry w)

end Reference

/-! ## One attempt -/

variable {env : Env} {position : Nat} {provider : AiProvider} {request : UnifiedAiRequest}

/-- **The events on their way to a consumer who drains the stream.** -/
theorem forwardEvents_drained (hd : env.Drained) (id : AttemptId) (events : List UnifiedStreamEvent)
    (yielded : Bool) (w : World) :
    (forwardEvents env id events yielded w).actions = (events.takeWhile (·.wellTyped)).map (.deliver id) ∧
      (forwardEvents env id events yielded w).result =
        (if events.all (·.wellTyped) then none else some (.observerThrew byteLengthMessage),
          yielded || !(events.takeWhile (·.wellTyped)).isEmpty) := by
  induction events generalizing yielded w with
  | nil => exact ⟨rfl, by simp [forwardEvents]⟩
  | cons event rest ih =>
      cases hevent : event.wellTyped with
      | false => simp [forwardEvents, observeEvent, hevent, JsError.message]
      | true =>
          obtain ⟨hactions, hresult⟩ := ih true { w.next with sent := w.sent + 1 }
          have hstep : forwardEvents env id (event :: rest) yielded w =
              (forwardEvents env id rest true { w.next with sent := w.sent + 1 }).after [.deliver id event] := by
            simp [forwardEvents, observeEvent, hevent, hd.neverStopped]
          rw [hstep]
          simp [Outcome.after, hactions, hresult, hevent]

/-- The state behind an attempt that shows nothing. -/
theorem world_forwardEvents_of_nothing (id : AttemptId) {events : List UnifiedStreamEvent}
    (hnothing : events.takeWhile (·.wellTyped) = []) (yielded : Bool) (w : World) :
    (forwardEvents env id events yielded w).world = if events.isEmpty then w else w.next := by
  cases events with
  | nil => rfl
  | cons event rest =>
      cases hevent : event.wellTyped with
      | false => simp [forwardEvents, observeEvent, hevent]
      | true =>
          rw [List.takeWhile_cons_of_pos hevent] at hnothing
          cases hnothing

/-! ## One provider -/

/-- What a run of the retry loop shows when its attempt `a`, started in `w`, decides. -/
structure Decides (env : Env) (position : Nat) (provider : AiProvider) (request : UnifiedAiRequest) (a : Nat)
    (w : World) (o : Outcome StreamResult) : Prop where
  received : Sirius.received o.actions =
    (attemptOf env position provider request a).shown.map fun e => (some ⟨position, a⟩, e)
  yieldedAny : o.result.yieldedAny = !(attemptOf env position provider request a).shown.isEmpty
  failure : o.result.ending.failure = (attemptOf env position provider request a).failure
  completed : (attemptOf env position provider request a).failure = none → o.result.ending = .completed
  /-- One that shows nothing and fails takes an await, and the breaker hears nothing of it. -/
  passed : (attemptOf env position provider request a).shown = [] →
    (attemptOf env position provider request a).failure ≠ none → o.world = w.next

/-- What a run of the policy shows of a provider that is passed by. -/
structure Passes (failure : Option String) (w' : World) (o : Outcome StreamResult) : Prop where
  received : Sirius.received o.actions = []
  yieldedAny : o.result.yieldedAny = false
  failure : o.result.ending.failure = failure
  world : o.world = w'

theorem Decides.after {a : Nat} {w : World} {o : Outcome StreamResult} {before : List Action}
    (h : Decides env position provider request a w o) (hbefore : Sirius.received before = []) :
    Decides env position provider request a w (o.after before) where
  received := by
    show Sirius.received (before ++ o.actions) = _
    rw [received_append, hbefore, List.nil_append, h.received]
  yieldedAny := h.yieldedAny
  failure := h.failure
  completed := h.completed
  passed := h.passed

theorem Passes.after {failure : Option String} {w' : World} {o : Outcome StreamResult} {before : List Action}
    (h : Passes failure w' o) (hbefore : Sirius.received before = []) : Passes failure w' (o.after before) where
  received := by
    show Sirius.received (before ++ o.actions) = _
    rw [received_append, hbefore, List.nil_append, h.received]
  yieldedAny := h.yieldedAny
  failure := h.failure
  world := h.world

section Turns

variable (hd : env.Drained) {attempt : Nat} {w : World}
include hd

theorem forwardedOf_result :
    (forwardedOf env position provider request attempt w).result =
      (if (attemptOf env position provider request attempt).typed then none
        else some (.observerThrew byteLengthMessage),
        !(attemptOf env position provider request attempt).shown.isEmpty) := by
  unfold forwardedOf
  rw [upstreamOf_drained hd position provider request attempt w, (forwardEvents_drained hd _ _ _ _).2]
  rfl

theorem received_started {more : List Action} (hmore : received more = []) :
    received (startedOf env position provider request attempt w ++ more) =
      (attemptOf env position provider request attempt).shown.map fun e => (some ⟨position, attempt⟩, e) := by
  unfold startedOf forwardedOf
  rw [upstreamOf_drained hd position provider request attempt w, (forwardEvents_drained hd _ _ _ _).1,
    received_append, hmore, List.append_nil, received_invoke, received_deliver]
  rfl

/-- An attempt whose events are not cut short passes the observer. -/
theorem typed_of_uncut (hall : (forwardedOf env position provider request attempt w).result.1 = none) :
    (attemptOf env position provider request attempt).typed = true := by
  rw [forwardedOf_result hd] at hall
  by_contra hno
  rw [if_neg hno] at hall
  cases hall

/-- A silent attempt leaves the state as it is. -/
theorem world_forwardedOf_of_silent (hsilent : (attemptOf env position provider request attempt).SilentThrow) :
    (forwardedOf env position provider request attempt w).world = w := by
  unfold forwardedOf
  rw [upstreamOf_drained hd position provider request attempt w, hsilent.1]
  rfl

/-- The state behind an attempt that shows nothing, up to the policy's own await. -/
theorem world_forwardedOf_of_nothing
    (hnothing : (attemptOf env position provider request attempt).shown = []) :
    (forwardedOf env position provider request attempt w).world =
      if (attemptOf env position provider request attempt).events.isEmpty then w else w.next := by
  unfold forwardedOf
  rw [upstreamOf_drained hd position provider request attempt w]
  exact world_forwardEvents_of_nothing _ hnothing false w

/-- An attempt whose events are cut short by the observer. -/
theorem untyped_of_cut {ending : StreamEnd}
    (hcut : (forwardedOf env position provider request attempt w).result.1 = some ending) :
    (attemptOf env position provider request attempt).typed = false ∧
      ending = .observerThrew byteLengthMessage := by
  rw [forwardedOf_result hd] at hcut
  cases htyped : (attemptOf env position provider request attempt).typed with
  | true =>
      rw [htyped, if_pos rfl] at hcut
      cases hcut
  | false =>
      rw [htyped, if_neg Bool.false_ne_true] at hcut
      exact ⟨rfl, (Option.some.inj hcut).symm⟩

/-- An attempt that is not cut short shows all its events. -/
theorem shown_of_uncut (hall : (forwardedOf env position provider request attempt w).result.1 = none) :
    (attemptOf env position provider request attempt).shown =
      (attemptOf env position provider request attempt).events :=
  StreamAttempt.shown_of_typed (typed_of_uncut hd hall)

/-- An attempt that throws without output and is not cut short is silent. -/
theorem silent_of_throw {message : String}
    (hall : (forwardedOf env position provider request attempt w).result.1 = none)
    (hend : (upstreamOf env position provider request attempt w).ending = .threw message)
    (hquiet : (forwardedOf env position provider request attempt w).result.2 = false) :
    (attemptOf env position provider request attempt).isSilent = true := by
  rw [upstreamOf_drained hd] at hend
  rw [forwardedOf_result hd] at hquiet
  rw [StreamAttempt.isSilent_iff]
  refine ⟨?_, message, hend⟩
  rw [← shown_of_uncut hd hall]
  simpa using hquiet

/-- The failure of a silent attempt is recorded one await after its start. -/
theorem failedWorld_of_silent
    (hsilent : (attemptOf env position provider request attempt).isSilent = true) :
    failedWorld env position provider request attempt w = w.next.recordFailure env provider.name := by
  rw [failedWorld, world_forwardedOf_of_silent hd (StreamAttempt.isSilent_iff.mp hsilent)]

/-! ### Turns that decide -/

/-- A turn that ends behind its first attempt shows the consumer what that attempt shows. -/
theorem decides_of_started {o : Outcome StreamResult} {more : List Action}
    (hactions : o.actions = startedOf env position provider request attempt w ++ more)
    (hmore : Sirius.received more = [])
    (hyield : o.result.yieldedAny = (forwardedOf env position provider request attempt w).result.2)
    (hfailure : o.result.ending.failure = (attemptOf env position provider request attempt).failure)
    (hcompleted : (attemptOf env position provider request attempt).failure = none → o.result.ending = .completed)
    (hpassed : (attemptOf env position provider request attempt).shown = [] →
      (attemptOf env position provider request attempt).failure ≠ none → o.world = w.next) :
    Decides env position provider request attempt w o where
  received := by
    rw [hactions]
    exact received_started hd hmore
  yieldedAny := hyield.trans (congrArg Prod.snd (forwardedOf_result hd))
  failure := hfailure
  completed := hcompleted
  passed := hpassed

/-- A turn the observer cuts short has been shown an event. -/
theorem decides_of_cut {ending : StreamEnd}
    (hcut : (forwardedOf env position provider request attempt w).result.1 = some ending) :
    Decides env position provider request attempt w
      ⟨(forwardedOf env position provider request attempt w).world,
        startedOf env position provider request attempt w ++ [.cancel ⟨position, attempt⟩],
        ⟨ending, (forwardedOf env position provider request attempt w).result.2⟩⟩ := by
  obtain ⟨huntyped, rfl⟩ := untyped_of_cut hd hcut
  have hfailure : (attemptOf env position provider request attempt).failure = some byteLengthMessage := by
    rw [StreamAttempt.failure, huntyped, if_neg Bool.false_ne_true]
  refine decides_of_started hd rfl rfl rfl hfailure.symm ?_ ?_
  · intro hnone
    cases hfailure.symm.trans hnone
  · intro hnothing _
    show (forwardedOf env position provider request attempt w).world = w.next
    rw [world_forwardedOf_of_nothing hd hnothing,
      if_neg (by rw [List.isEmpty_iff]; exact StreamAttempt.events_of_untyped huntyped)]

theorem decides_of_finished (hall : (forwardedOf env position provider request attempt w).result.1 = none)
    (hend : (upstreamOf env position provider request attempt w).ending = .finished) :
    Decides env position provider request attempt w
      ⟨(forwardedOf env position provider request attempt w).world.next.recordSuccess provider.name,
        startedOf env position provider request attempt w ++
          [.recordSuccess ⟨position, attempt⟩ provider.name, .cancel ⟨position, attempt⟩],
        ⟨.completed, (forwardedOf env position provider request attempt w).result.2⟩⟩ := by
  rw [upstreamOf_drained hd] at hend
  have hfailure : (attemptOf env position provider request attempt).failure = none := by
    rw [StreamAttempt.failure_of_typed (typed_of_uncut hd hall), hend]
  exact decides_of_started hd rfl rfl rfl hfailure.symm (fun _ => rfl) fun _ hfails => absurd hfailure hfails

theorem decides_of_stalled (hall : (forwardedOf env position provider request attempt w).result.1 = none)
    (hend : (upstreamOf env position provider request attempt w).ending = .stalled) :
    Decides env position provider request attempt w
      ⟨(forwardedOf env position provider request attempt w).world.next,
        startedOf env position provider request attempt w ++ [.cancel ⟨position, attempt⟩],
        ⟨.idle, (forwardedOf env position provider request attempt w).result.2⟩⟩ := by
  rw [upstreamOf_drained hd] at hend
  have hfailure : (attemptOf env position provider request attempt).failure = some idleMessage := by
    rw [StreamAttempt.failure_of_typed (typed_of_uncut hd hall), hend]
  refine decides_of_started hd rfl rfl rfl hfailure.symm ?_ ?_
  · intro hnone
    cases hfailure.symm.trans hnone
  · intro hnothing _
    show (forwardedOf env position provider request attempt w).world.next = w.next
    have hempty : (attemptOf env position provider request attempt).events = [] := by
      rw [← shown_of_uncut hd hall, hnothing]
    rw [world_forwardedOf_of_nothing hd hnothing, hempty]
    rfl

/-- A failure behind events is not tried again. -/
theorem decides_of_failed {message : String}
    (hall : (forwardedOf env position provider request attempt w).result.1 = none)
    (hend : (upstreamOf env position provider request attempt w).ending = .threw message)
    (hshown : (attemptOf env position provider request attempt).shown ≠ []) :
    Decides env position provider request attempt w
      ⟨failedWorld env position provider request attempt w, failedActions env position provider request attempt w,
        ⟨.threw message, (forwardedOf env position provider request attempt w).result.2⟩⟩ := by
  rw [upstreamOf_drained hd] at hend
  have hfailure : (attemptOf env position provider request attempt).failure = some message := by
    rw [StreamAttempt.failure_of_typed (typed_of_uncut hd hall), hend]
  refine decides_of_started hd rfl rfl rfl hfailure.symm ?_ fun hnothing => absurd hnothing hshown
  intro hnone
  cases hfailure.symm.trans hnone

/-- **A turn whose attempt is not silent** ends with it. -/
theorem decides_of_turn {remaining : Nat} {o : Outcome StreamResult}
    (hturn : Turn env position provider request remaining attempt w o)
    (hloud : (attemptOf env position provider request attempt).isSilent = false) :
    Decides env position provider request attempt w o := by
  have hquiet : ∀ {message}, (forwardedOf env position provider request attempt w).result.1 = none →
      (upstreamOf env position provider request attempt w).ending = .threw message →
      (forwardedOf env position provider request attempt w).result.2 ≠ false := by
    intro message hall hend hnothing
    cases hloud.symm.trans (silent_of_throw hd hall hend hnothing)
  cases hturn with
  | cut hcut => exact decides_of_cut hd hcut
  | finished hall hend => exact decides_of_finished hd hall hend
  | stalled hall hend => exact decides_of_stalled hd hall hend
  | aborted hall hend hgone =>
      rw [aborted_of_drained hd] at hgone
      cases hgone
  | failed hall hend hhere hlast =>
      -- it has thrown and is not silent, so the consumer has events of it
      refine decides_of_failed hd hall hend fun hnothing => hquiet hall hend ?_
      rw [forwardedOf_result hd, hnothing]
      rfl
  | abandoned hall hend hhere hnothing => exact absurd hnothing (hquiet hall hend)
  | retried hall hend hhere hnothing => exact absurd hnothing (hquiet hall hend)

end Turns

section Loop

variable (hd : env.Drained) (hwakes : ∀ id, env.idleInBackoff id = false)
include hd hwakes

/-- **A turn whose attempt is silent** shows nothing of it: the loop fails with it when it was the last, and goes
    on behind it otherwise. -/
theorem silent_turn {remaining attempt : Nat} {w : World} {o : Outcome StreamResult}
    (hturn : Turn env position provider request remaining attempt w o)
    (hsilent : (attemptOf env position provider request attempt).isSilent = true) :
    (remaining = 0 ∧ Passes (attemptOf env position provider request attempt).failure
      (w.next.recordFailure env provider.name) o) ∨
    ∃ more before, remaining = more + 1 ∧ received before = [] ∧
      o = (streamAttempts env position provider request more (attempt + 1)
        (w.next.recordFailure env provider.name).next).after before := by
  obtain ⟨hempty, message, hending⟩ := StreamAttempt.isSilent_iff.mp hsilent
  cases hturn with
  | cut hcut =>
      exact absurd hempty (StreamAttempt.events_of_untyped (untyped_of_cut hd hcut).1)
  | finished hall hend =>
      rw [upstreamOf_drained hd, hending] at hend
      cases hend
  | stalled hall hend =>
      rw [upstreamOf_drained hd, hending] at hend
      cases hend
  | aborted hall hend hgone =>
      rw [aborted_of_drained hd] at hgone
      cases hgone
  | failed hall hend hhere hlast =>
      rw [upstreamOf_drained hd] at hend
      have hquiet : (forwardedOf env position provider request attempt w).result.2 = false := by
        rw [forwardedOf_result hd, StreamAttempt.shown, hempty]
        rfl
      rw [hquiet] at hlast
      refine Or.inl ⟨hlast.resolve_left Bool.false_ne_true, received_failedActions hquiet, hquiet, ?_,
        failedWorld_of_silent hd hsilent⟩
      rw [StreamAttempt.failure_of_typed (typed_of_uncut hd hall), hend]
      rfl
  | abandoned hall hend hhere hquiet hmore hidle =>
      rw [hwakes] at hidle
      cases hidle
  | retried hall hend hhere hquiet hmore hidle =>
      rw [failedWorld_of_silent hd hsilent]
      exact Or.inr ⟨_, _, hmore, received_failedActions hquiet, rfl⟩

/-- **The retry loop ends with the first attempt that is not retried.** -/
theorem streamAttempts_loud (a : Nat)
    (hloud : (attemptOf env position provider request a).isSilent = false) :
    ∀ remaining attempt w, attempt ≤ a → a ≤ attempt + remaining →
      (∀ b, attempt ≤ b → b < a → (attemptOf env position provider request b).isSilent = true) →
      Decides env position provider request a (retriedWorld env provider.name (a - attempt) w)
        (streamAttempts env position provider request remaining attempt w) := by
  refine streamAttempts_rule (P := fun remaining attempt w o => attempt ≤ a → a ≤ attempt + remaining →
    (∀ b, attempt ≤ b → b < a → (attemptOf env position provider request b).isSilent = true) →
      Decides env position provider request a (retriedWorld env provider.name (a - attempt) w) o)
    env position provider request ?_
  intro remaining attempt w o hturn hretry hfrom hto hbefore
  rcases Nat.lt_or_eq_of_le hfrom with hlt | rfl
  · obtain ⟨rfl, -⟩ | ⟨more, before, hmore, hnothing, rfl⟩ :=
      silent_turn hd hwakes hturn (hbefore attempt (Nat.le_refl _) hlt)
    · omega
    · have hrest := hretry more (w.next.recordFailure env provider.name).next hmore hlt (by omega)
        fun b hb => hbefore b (by omega)
      rw [show a - attempt = a - (attempt + 1) + 1 by omega]
      exact hrest.after hnothing
  · rw [Nat.sub_self]
    exact decides_of_turn hd hturn hloud

/-- **Without such an attempt the retry loop fails** with the error of the last one. -/
theorem streamAttempts_exhausted :
    ∀ remaining attempt w,
      (∀ b, attempt ≤ b → b ≤ attempt + remaining →
        (attemptOf env position provider request b).isSilent = true) →
      Passes (attemptOf env position provider request (attempt + remaining)).failure
        (afterFailures env provider.name remaining w)
        (streamAttempts env position provider request remaining attempt w) := by
  refine streamAttempts_rule (P := fun remaining attempt w o =>
    (∀ b, attempt ≤ b → b ≤ attempt + remaining →
        (attemptOf env position provider request b).isSilent = true) →
      Passes (attemptOf env position provider request (attempt + remaining)).failure
        (afterFailures env provider.name remaining w) o) env position provider request ?_
  intro remaining attempt w o hturn hretry hsilents
  obtain ⟨rfl, hpasses⟩ | ⟨more, before, rfl, hnothing, rfl⟩ :=
    silent_turn hd hwakes hturn (hsilents attempt (Nat.le_refl _) (Nat.le_add_right ..))
  · exact hpasses
  · have hrest := hretry more (w.next.recordFailure env provider.name).next rfl
      fun b hb hb' => hsilents b (by omega) (by omega)
    rw [show attempt + (more + 1) = attempt + 1 + more by omega]
    exact hrest.after hnothing

end Loop

section Entry

variable {entry : ChainEntry} {w : World} {a : Nat}

theorem firstLoud_eq_some_iff : firstLoud env request position entry = some a ↔
    a ≤ env.policy.maxRetries ∧
      (attemptOf env position entry.provider (enrichedRequest request entry) a).isSilent = false ∧
      ∀ b < a, (attemptOf env position entry.provider (enrichedRequest request entry) b).isSilent = true := by
  unfold firstLoud
  rw [List.find?_range_eq_some]
  simp only [List.mem_range, Nat.lt_succ_iff, Bool.not_eq_true', Bool.not_not]
  tauto

theorem firstLoud_eq_none_iff : firstLoud env request position entry = none ↔
    ∀ b ≤ env.policy.maxRetries,
      (attemptOf env position entry.provider (enrichedRequest request entry) b).isSilent = true := by
  unfold firstLoud
  rw [List.find?_eq_none]
  simp only [List.mem_range, Nat.lt_succ_iff, Bool.not_eq_true', Bool.not_eq_false]

variable (hd : env.Drained) (hwakes : ∀ id, env.idleInBackoff id = false)
include hd hwakes

/-- **A provider is heard through the attempt that decides.** -/
theorem executeStreamWithPolicy_decides {m : CircuitMap}
    (hcheck : CircuitMap.checkCircuitBreaker env.policy (w.now env) w.circuitState entry.provider.name = .ok m)
    (hloud : firstLoud env request position entry = some a) :
    Decides env position entry.provider (enrichedRequest request entry) a
      (retriedWorld env entry.provider.name a { w with circuitState := m })
      (executeStreamWithPolicy env position entry.provider (enrichedRequest request entry) w) := by
  obtain ⟨hle, hspeaks, hbefore⟩ := firstLoud_eq_some_iff.mp hloud
  rw [executeStreamWithPolicy_admitted hd hcheck]
  have := streamAttempts_loud hd hwakes a hspeaks env.policy.maxRetries 0 { w with circuitState := m }
    (Nat.zero_le a) (by omega) fun b _ hb => hbefore b hb
  rwa [Nat.sub_zero] at this

/-- **A provider that does not speak is passed by.** -/
theorem executeStreamWithPolicy_passes (hquiet : ∀ a, ¬ SpeaksAt env request position entry w a) :
    (∃ message, silentFailure env request position entry w = some message) ∧
      Passes (silentFailure env request position entry w) (streamPassedBy env request position entry w)
        (executeStreamWithPolicy env position entry.provider (enrichedRequest request entry) w) := by
  cases hcheck : CircuitMap.checkCircuitBreaker env.policy (w.now env) w.circuitState entry.provider.name with
  | error e =>
      unfold executeStreamWithPolicy silentFailure streamPassedBy
      rw [hcheck]
      exact ⟨⟨_, rfl⟩, rfl, rfl, rfl, rfl⟩
  | ok m =>
      unfold silentFailure streamPassedBy
      simp only [hcheck]
      cases hloud : firstLoud env request position entry with
      | some a =>
          have hdecides := executeStreamWithPolicy_decides hd hwakes hcheck hloud
          have hnothing := not_or.mp fun h => hquiet a ⟨⟨m, hcheck⟩, hloud, h⟩
          rw [not_not] at hnothing
          refine ⟨Option.ne_none_iff_exists'.mp hnothing.2, ?_, ?_, hdecides.failure, ?_⟩
          · rw [hdecides.received, hnothing.1]
            rfl
          · rw [hdecides.yieldedAny, hnothing.1]
            rfl
          · exact hdecides.passed hnothing.1 hnothing.2
      | none =>
          have hsilents := firstLoud_eq_none_iff.mp hloud
          obtain ⟨hempty, message, hending⟩ := StreamAttempt.isSilent_iff.mp (hsilents _ (Nat.le_refl _))
          have hexhausted := streamAttempts_exhausted hd hwakes env.policy.maxRetries 0
            { w with circuitState := m } fun b _ hb => hsilents b (by omega)
          rw [Nat.zero_add] at hexhausted
          rw [executeStreamWithPolicy_admitted hd hcheck]
          refine ⟨⟨message, ?_⟩, hexhausted⟩
          rw [Option.getD_none, StreamAttempt.failure_of_typed (by rw [StreamAttempt.typed, hempty]; rfl), hending]

end Entry

/-! ## The chain -/

/-- The latencies a run records, each under the position that has served. -/
def latencyRecords (actions : List Action) : List (Nat × String) :=
  actions.filterMap fun
    | .recordLatency position provider => some (position, provider)
    | _ => none

theorem latencyRecords_append (l r : List Action) :
    latencyRecords (l ++ r) = latencyRecords l ++ latencyRecords r := List.filterMap_append

theorem latencyRecords_forwardEvents (id : AttemptId) (events : List UnifiedStreamEvent) (yielded : Bool)
    (w : World) : latencyRecords (forwardEvents env id events yielded w).actions = [] := by
  fun_induction forwardEvents env id events yielded w with
  | case1 => rfl
  | case2 => rfl
  | case3 => rfl
  | case4 yielded w event rest h w' hgoes ih => exact ih

/-- The policy records no latency. -/
theorem latencyRecords_executeStreamWithPolicy (w : World) :
    latencyRecords (executeStreamWithPolicy env position provider request w).actions = [] := by
  have hstarted : ∀ attempt w more, latencyRecords more = [] →
      latencyRecords (startedOf env position provider request attempt w ++ more) = [] := by
    intro attempt w more hmore
    rw [latencyRecords_append, hmore, List.append_nil]
    exact latencyRecords_forwardEvents _ _ _ _
  rcases executeStreamWithPolicy_cases env position provider request w with
    ⟨w', message, heq, -⟩ | ⟨m, -, heq⟩
  · rw [heq]
    rfl
  · rw [heq]
    refine streamAttempts_rule (P := fun _ _ _ o => latencyRecords o.actions = []) env position provider request
      ?_ _ _ _
    intro remaining attempt w o hturn hretry
    cases hturn with
    | cut => exact hstarted attempt w _ rfl
    | finished => exact hstarted attempt w _ rfl
    | stalled => exact hstarted attempt w _ rfl
    | aborted => exact hstarted attempt w _ rfl
    | failed => exact hstarted attempt w _ rfl
    | abandoned =>
        show latencyRecords (failedActions env position provider request attempt w ++ _) = []
        rw [latencyRecords_append, failedActions, hstarted attempt w _ rfl, List.nil_append]
        unfold abandonedAttempt
        split <;> rfl
    | retried hall hend hhere hquiet hmore hidle =>
        show latencyRecords (failedActions env position provider request attempt w ++ _) = []
        rw [latencyRecords_append, failedActions, hstarted attempt w _ rfl, List.nil_append]
        exact hretry _ _ hmore

/-- What the client of a run receives, and the latencies the run records, when an attempt of the entry at the
    position is heard. -/
structure ClientHears (env : Env) (request : UnifiedAiRequest) (position a : Nat) (entry : ChainEntry)
    (actions : List Action) : Prop where
  received : Sirius.received actions =
    ((attemptOf env position entry.provider (enrichedRequest request entry) a).shown.map
        fun e => (some ⟨position, a⟩, e)) ++
      (attemptOf env position entry.provider (enrichedRequest request entry) a).failure.toList.map
        fun message => (none, .error message none)
  latencies : latencyRecords actions =
    if (attemptOf env position entry.provider (enrichedRequest request entry) a).failure = none then
      [(position, entry.provider.name)] else []

theorem ClientHears.after {a : Nat} {entry : ChainEntry} {before actions : List Action}
    (h : ClientHears env request position a entry actions) (hreceived : Sirius.received before = [])
    (hlatencies : latencyRecords before = []) : ClientHears env request position a entry (before ++ actions) where
  received := by rw [received_append, hreceived, List.nil_append, h.received]
  latencies := by rw [latencyRecords_append, hlatencies, List.nil_append, h.latencies]

theorem speaksFrom_zero_iff {entry : ChainEntry} {rest : List ChainEntry} {w : World} :
    SpeaksFrom env request position (entry :: rest) w 0 ↔ ∃ a, SpeaksAt env request position entry w a := by
  constructor
  · rintro ⟨entry', a, hentry, hspeaks⟩
    obtain rfl : entry = entry' := Option.some.inj hentry
    exact ⟨a, hspeaks⟩
  · rintro ⟨a, hspeaks⟩
    exact ⟨entry, a, rfl, hspeaks⟩

theorem speaksFrom_succ_iff {entry : ChainEntry} {rest : List ChainEntry} {w : World} {i : Nat} :
    SpeaksFrom env request position (entry :: rest) w (i + 1) ↔
      SpeaksFrom env request (position + 1) rest (streamPassedBy env request position entry w) i := by
  unfold SpeaksFrom
  rw [List.getElem?_cons_succ, show position + (i + 1) = position + 1 + i by omega]
  rfl

/-- Where some entry would speak, there is a first one. -/
theorem exists_speakerFrom {chain : List ChainEntry} {w : World}
    (h : ∃ i, SpeaksFrom env request position chain w i) :
    ∃ i a entry, SpeakerFrom env request position chain w i a entry := by
  classical
  obtain ⟨entry, a, hentry, hspeaks⟩ := Nat.find_spec h
  exact ⟨Nat.find h, a, entry, hentry, hspeaks, fun j hj => Nat.find_min h hj⟩

/-- A speaker behind the first entry is the speaker of the rest. -/
theorem SpeakerFrom.tail {entry speaker : ChainEntry} {rest : List ChainEntry} {w : World} {i a : Nat}
    (h : SpeakerFrom env request position (entry :: rest) w (i + 1) a speaker) :
    SpeakerFrom env request (position + 1) rest (streamPassedBy env request position entry w) i a speaker := by
  have hshift : position + (i + 1) = position + 1 + i := by omega
  refine ⟨h.entry_eq, ?_, fun j hj hspeaks => ?_⟩
  · rw [← hshift]
    exact h.speaks
  · exact h.first (j + 1) (Nat.succ_lt_succ hj) (speaksFrom_succ_iff.mpr hspeaks)

section Chain

variable (hd : env.Drained) (hwakes : ∀ id, env.idleInBackoff id = false)
include hd hwakes

/-- The turn of an entry that speaks ends the loop. -/
theorem streamChain_of_speaks {entry : ChainEntry} {rest : List ChainEntry} {w : World} {a : Nat}
    (hspeaks : SpeaksAt env request position entry w a) (lastError : Option String) :
    ClientHears env request position a entry
      (streamChain env request position (entry :: rest) lastError w).actions := by
  obtain ⟨⟨m, hcheck⟩, hloud, hsaid⟩ := hspeaks
  have hdecides := executeStreamWithPolicy_decides hd hwakes hcheck hloud
  have hlatencies : latencyRecords
      (executeStreamWithPolicy env position entry.provider (enrichedRequest request entry) w).actions = [] :=
    latencyRecords_executeStreamWithPolicy w
  have hturn := streamChain_turn env request position entry rest lastError w
  generalize executeStreamWithPolicy env position entry.provider (enrichedRequest request entry) w = tried
    at hturn hdecides hlatencies
  generalize streamChain env request position (entry :: rest) lastError w = o at hturn
  have hbroken : ∀ message, tried.result.ending.failure = some message →
      (attemptOf env position entry.provider (enrichedRequest request entry) a).failure = some message :=
    fun message hend => hdecides.failure.symm.trans hend
  cases hturn with
  | served hend hcircuit =>
      have hnone : (attemptOf env position entry.provider (enrichedRequest request entry) a).failure = none := by
        rw [← hdecides.failure, hend]
        rfl
      constructor
      · rw [received_append, hdecides.received, hnone]
        rfl
      · rw [latencyRecords_append, hlatencies, hnone]
        rfl
  | stopped hend =>
      have hnone : (attemptOf env position entry.provider (enrichedRequest request entry) a).failure = none := by
        rw [← hdecides.failure, hend]
        rfl
      rw [hdecides.completed hnone] at hend
      cases hend
  | gone hend hgone =>
      rw [aborted_of_drained hd] at hgone
      cases hgone
  | @broken message hend hhere hyield =>
      constructor
      · rw [received_append, hdecides.received, hbroken message hend]
        rfl
      · rw [latencyRecords_append, hlatencies, hbroken message hend]
        rfl
  | @replaced message hend hhere hyield =>
      -- an attempt that fails and speaks has shown something
      rw [hdecides.yieldedAny] at hyield
      rcases hsaid with hshown | hnone
      · exact absurd (by simpa using hyield) hshown
      · rw [hbroken message hend] at hnone
        cases hnone

/-- The turn of an entry that does not speak leads to the rest of the chain. -/
theorem streamChain_of_passes {entry : ChainEntry} (rest : List ChainEntry) {w : World}
    (hquiet : ∀ a, ¬ SpeaksAt env request position entry w a) (lastError : Option String) :
    ∃ before, received before = [] ∧ latencyRecords before = [] ∧
      (streamChain env request position (entry :: rest) lastError w).actions =
        before ++ (streamChain env request (position + 1) rest (silentFailure env request position entry w)
          (streamPassedBy env request position entry w)).actions := by
  obtain ⟨⟨failure, hfailure⟩, hpasses⟩ := executeStreamWithPolicy_passes hd hwakes hquiet
  have hlatencies : latencyRecords
      (executeStreamWithPolicy env position entry.provider (enrichedRequest request entry) w).actions = [] :=
    latencyRecords_executeStreamWithPolicy w
  have hturn := streamChain_turn env request position entry rest lastError w
  generalize executeStreamWithPolicy env position entry.provider (enrichedRequest request entry) w = tried
    at hturn hpasses hlatencies
  generalize streamChain env request position (entry :: rest) lastError w = o at hturn
  have hfails : tried.result.ending.failure = some failure := hpasses.failure.trans hfailure
  cases hturn with
  | served hend hcircuit =>
      rw [hend] at hfails
      cases hfails
  | stopped hend =>
      rw [hend] at hfails
      cases hfails
  | gone hend hgone =>
      rw [aborted_of_drained hd] at hgone
      cases hgone
  | broken hend hhere hyield =>
      rw [hpasses.yieldedAny] at hyield
      cases hyield
  | @replaced message hend hhere hyield =>
      refine ⟨tried.actions, hpasses.received, hlatencies, ?_⟩
      rw [← hpasses.failure, hend, ← hpasses.world]
      rfl

/-- **The loop ends at the speaker.** -/
theorem streamChain_of_speaker {a : Nat} {speaker : ChainEntry} (chain : List ChainEntry) :
    ∀ position lastError w i, SpeakerFrom env request position chain w i a speaker →
      ClientHears env request (position + i) a speaker
        (streamChain env request position chain lastError w).actions := by
  induction chain with
  | nil =>
      intro position lastError w i hspeaker
      cases hspeaker.entry_eq
  | cons entry rest ih =>
      intro position lastError w i hspeaker
      cases i with
      | zero =>
          obtain rfl : entry = speaker := Option.some.inj hspeaker.entry_eq
          exact streamChain_of_speaks hd hwakes hspeaker.speaks lastError
      | succ i =>
          -- the speaker is further down, so this entry does not speak
          have hquiet : ∀ b, ¬ SpeaksAt env request position entry w b := fun b hspeaks =>
            hspeaker.first 0 (Nat.zero_lt_succ i) (speaksFrom_zero_iff.mpr ⟨b, hspeaks⟩)
          obtain ⟨before, hreceived, hlatencies, hactions⟩ :=
            streamChain_of_passes hd hwakes rest hquiet lastError
          rw [hactions, show position + (i + 1) = position + 1 + i by omega]
          exact (ih (position + 1) _ _ i hspeaker.tail).after hreceived hlatencies

/-- **Without a speaker the client gets one error event**, that of the last entry. -/
theorem streamChain_exhausted (chain : List ChainEntry) :
    ∀ position lastError w, (∀ i, ¬ SpeaksFrom env request position chain w i) →
      received (streamChain env request position chain lastError w).actions =
          [(none, .error (allFailedMessage request (lastFailure env request position chain lastError w)) none)] ∧
        latencyRecords (streamChain env request position chain lastError w).actions = [] := by
  induction chain with
  | nil => exact fun position lastError w _ => ⟨rfl, rfl⟩
  | cons entry rest ih =>
      intro position lastError w hnone
      have hquiet : ∀ b, ¬ SpeaksAt env request position entry w b := fun b hspeaks =>
        hnone 0 (speaksFrom_zero_iff.mpr ⟨b, hspeaks⟩)
      obtain ⟨before, hreceived, hlatencies, hactions⟩ :=
        streamChain_of_passes hd hwakes rest hquiet lastError
      obtain ⟨hrest, hlatency⟩ := ih (position + 1) (silentFailure env request position entry w)
        (streamPassedBy env request position entry w)
        fun i hspeaks => hnone (i + 1) (speaksFrom_succ_iff.mpr hspeaks)
      rw [hactions, received_append, latencyRecords_append, hreceived, hlatencies]
      exact ⟨hrest, hlatency⟩

end Chain

/-- **`streamResponse` meets its reference.** In a run nobody disturbs, the client receives what the first
    provider that speaks shows in the attempt that decides, and the error it breaks off with, if it does; only
    that provider's latency is recorded, and only when its stream ends normally. Where no provider speaks, the
    client receives one error event, with the error of the last one. One of the two is the case. -/
theorem streamOverChain_reference (hd : env.Drained) (hwakes : ∀ id, env.idleInBackoff id = false)
    (request : UnifiedAiRequest) (chain : List ChainEntry) (w : World) :
    (∀ i a entry, Speaker env request chain w i a entry →
      ClientHears env request i a entry (streamOverChain env request chain w).actions) ∧
    ((∀ i, ¬ Speaks env request chain w i) →
      received (streamOverChain env request chain w).actions =
          [(none, .error (allFailedMessage request (lastFailure env request 0 chain none w)) none)] ∧
        latencyRecords (streamOverChain env request chain w).actions = []) ∧
    ((∃ i, Speaks env request chain w i) → ∃ i a entry, Speaker env request chain w i a entry) := by
  refine ⟨?_, ?_, exists_speakerFrom⟩
  · intro i a entry hspeaker
    have hheard := streamChain_of_speaker hd hwakes chain 0 none w i hspeaker
    rwa [Nat.zero_add] at hheard
  · intro hnone
    exact streamChain_exhausted hd hwakes chain 0 none w hnone

/-- The first provider throws on each of its attempts, the second one on its first attempt only: its second
    attempt delivers an event and breaks off. -/
def cutOffEnv : Env :=
  { flakyEnv none with
    stream := fun id _ _ _ =>
      if id = ⟨1, 1⟩ then ⟨[.contentDelta (.json (.str "Hel"))], .threw "terminated"⟩
      else ⟨[], .threw "fetch failed"⟩ }

/-- The client hears the second attempt of the second provider, with its error behind the event. -/
theorem streamOverChain_reference_cutOff :
    Sirius.received (streamOverChain cutOffEnv flakyRequest flakyChain idleWorld).actions =
      [(some ⟨1, 1⟩, .contentDelta (.json (.str "Hel"))), (none, .error "terminated" none)] := by
  have hspeaker : Speaker cutOffEnv flakyRequest flakyChain idleWorld 1 1
      ⟨⟨"anthropic", .anthropic⟩, "m"⟩ := by
    refine ⟨rfl, ⟨⟨_, rfl⟩, rfl, Or.inl (by decide)⟩, ?_⟩
    rintro j hj ⟨entry, a, hentry, -, hloud, -⟩
    obtain rfl : j = 0 := by omega
    obtain rfl := Option.some.inj hentry
    cases hloud
  exact ((streamOverChain_reference ⟨rfl, rfl⟩ (fun _ => rfl) flakyRequest flakyChain idleWorld).1
    _ _ _ hspeaker).received

end Sirius
