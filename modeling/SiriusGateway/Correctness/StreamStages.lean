import SiriusGateway.Correctness.LiveAttempts
import SiriusGateway.Gateway.Streams

/-!
# `Correctness.StreamStages` — who has spoken so far

The invariant of a stream request on its way through the gateway: what the consumer has received is what one
attempt said, and the phase of the gateway tells how far that attempt has come (`Stage`). The policy's flag
`yielded` is set before the gateway's `yieldedAny`, so an attempt that has given an event is never retried,
and a position that has been heard is never followed by another.

## Contents
- **What the consumer is told.** `Closing`, the ways the stream of the speaking attempt is over, and `Told`.
- **The invariant.** `Stage`, by the phase of the gateway.
- **Beside the stream.** What happens to other calls keeps the stage.
- **Steps of the awaited call.** One lemma for each policy action, and `stage_policy` over them.
-/

namespace Sirius

open Lts

namespace StreamSystem

variable {env : Env} {request : UnifiedAiRequest} {chain : List ChainEntry} {s t : StreamSystem}
  {l : RequestLabel} {past : List RequestLabel}

/-! ## What the consumer is told -/

/-- The attempts whose operation has been invoked. -/
def invoked (r : RequestSystem) : List AttemptId :=
  r.signals.handed.map fun i => ⟨i.call, i.attempt⟩

/-- The ways the stream of an attempt can be over for the consumer who has received `shown` of it, with the
    error events the gateway adds: `gone` when the client has aborted, `left` when the consumer has stopped. -/
inductive Closing (attempt : StreamAttempt) (shown : List UnifiedStreamEvent) (gone left : Prop) :
    List String → Prop
  | finished (hall : shown = attempt.events) (hend : attempt.ending = .finished) :
      Closing attempt shown gone left []
  | threw {message : String} (hall : shown = attempt.events) (hend : attempt.ending = .threw message) :
      Closing attempt shown gone left [message]
  /-- The observer has thrown on the next event. -/
  | rejected {bad : UnifiedStreamEvent} (hbad : shown ++ [bad] <+: attempt.events)
      (htype : bad.wellTyped = false) : Closing attempt shown gone left [byteLengthMessage]
  /-- The next event has not come in time. -/
  | idle (hpre : shown <+: attempt.events) : Closing attempt shown gone left [idleMessage]
  | stopped (hleft : left) (hpre : shown <+: attempt.events) : Closing attempt shown gone left []
  | aborted (hgone : gone) (hpre : shown <+: attempt.events) : Closing attempt shown gone left []

/-- What is shown is a first part of what the attempt gave. -/
theorem Closing.begins {attempt : StreamAttempt} {shown : List UnifiedStreamEvent} {gone left : Prop}
    {errors : List String} (h : Closing attempt shown gone left errors) : shown <+: attempt.events := by
  cases h with
  | finished hall => exact hall ▸ List.prefix_rfl
  | threw hall => exact hall ▸ List.prefix_rfl
  | rejected hbad => exact (List.prefix_append ..).trans hbad
  | idle hpre => exact hpre
  | stopped hleft hpre => exact hpre
  | aborted hgone hpre => exact hpre

/-- A closing stays one as the caller leaves or the attempt is given up. -/
theorem Closing.mono {attempt : StreamAttempt} {shown : List UnifiedStreamEvent}
    {gone left gone' left' : Prop} {errors : List String} (h : Closing attempt shown gone left errors)
    (hgone : gone → gone') (hleft : left → left') : Closing attempt shown gone' left' errors := by
  cases h with
  | finished hall hend => exact Closing.finished hall hend
  | threw hall hend => exact Closing.threw hall hend
  | rejected hbad htype => exact Closing.rejected hbad htype
  | idle hpre => exact Closing.idle hpre
  | stopped h hpre => exact Closing.stopped (hleft h) hpre
  | aborted h hpre => exact Closing.aborted (hgone h) hpre

/-- What the consumer has been told up to now, `ended` when the run has ended. -/
def Told (env : Env) (request : UnifiedAiRequest) (chain : List ChainEntry) (s : StreamSystem)
    (ended left : Prop) : Prop :=
  ∃ (id : AttemptId) (shown : List UnifiedStreamEvent) (errors : List String),
    s.received = (shown.map fun e => (some id, e)) ++ errors.map errorEvent ∧ errors.length ≤ 1 ∧
    (shown ≠ [] → ∃ live attempt, script env request chain id live = some attempt ∧ id ∈ invoked s.request ∧
      shown <+: attempt.events ∧
      (ended → Closing attempt shown (s.request.clientAborted = true) left errors))

/-! ## The invariant -/

/-- Where the policy call of the position stands. -/
def callAt (r : RequestSystem) (position : Nat) : Option CallPhase :=
  (r.signals.policy.calls.get position).map (·.phase)

/-- Nobody has spoken yet. -/
structure Silent (s : StreamSystem) : Prop where
  received : s.received = []
  yieldedAny : s.request.yieldedAny = false
  pending : s.pending = none

/-- The consumer has received `shown` from the attempt, and nothing else. -/
structure Heard (s : StreamSystem) (id : AttemptId) (shown : List UnifiedStreamEvent) : Prop where
  received : s.received = shown.map fun e => (some id, e)
  yieldedAny : s.request.yieldedAny = !shown.isEmpty

/-- The gateway, at position `k`, pulls the attempt: `shown` has been received of it, and `yielded` is the
    policy's flag. -/
structure Pulls (env : Env) (request : UnifiedAiRequest) (chain : List ChainEntry) (s : StreamSystem)
    (k : Nat) (pulled : PulledAttempt) (shown : List UnifiedStreamEvent) (yielded : Bool) : Prop where
  current : s.pulled = some pulled
  position : pulled.id.position = k
  attempting : callAt s.request k = some (.attempting pulled.id.attempt yielded)
  /-- What it has given, what is on its way and what is to come are the script. -/
  script : ∃ attempt, script env request chain pulled.id pulled.live = some attempt ∧
    attempt.ending = pulled.rest.ending ∧
    attempt.events = shown ++ s.pending.toList ++ pulled.rest.events
  invoked : pulled.id ∈ invoked s.request
  heard : s.Heard pulled.id shown
  /-- The policy's flag is set before the gateway's. -/
  flag : yielded = false → shown = [] ∧ s.pending = none

/-- What has become of an attempt whose policy call has ended, by completing or by throwing. -/
inductive Settled (attempt : StreamAttempt) (shown : List UnifiedStreamEvent) (gone : Prop)
    (lastError : Option String) : Bool → Prop
  | completed (hall : shown = attempt.events) (hend : attempt.ending = .finished) :
      Settled attempt shown gone lastError true
  | threw {message : String} (hall : shown = attempt.events) (hend : attempt.ending = .threw message)
      (herror : lastError = some message) : Settled attempt shown gone lastError false
  | rejected {bad : UnifiedStreamEvent} (hbad : shown ++ [bad] <+: attempt.events)
      (htype : bad.wellTyped = false) (herror : lastError = some byteLengthMessage) :
      Settled attempt shown gone lastError false
  | aborted (hgone : gone) (hpre : shown <+: attempt.events) : Settled attempt shown gone lastError false

/-- **The invariant**, by the phase of the gateway; `past` are the labels taken so far. -/
def Stage (env : Env) (request : UnifiedAiRequest) (chain : List ChainEntry) (past : List RequestLabel)
    (s : StreamSystem) : Prop :=
  match s.request.phase with
  | .opening _ => s.Silent
  | .waiting k =>
      (s.Silent ∧ ∃ attempt, callAt s.request k = some (.backoff attempt)) ∨
        ∃ pulled shown yielded, Pulls env request chain s k pulled shown yielded
  | .yielding k =>
      s.pending = none ∧ ∃ pulled shown, shown ≠ [] ∧ Pulls env request chain s k pulled shown true
  | .settled _ completed =>
      s.pending = none ∧ ∃ id shown, s.Heard id shown ∧
        (shown ≠ [] → ∃ live attempt, script env request chain id live = some attempt ∧
          id ∈ invoked s.request ∧ Settled attempt shown (s.request.clientAborted = true) s.lastError completed)
  | .ended => Told env request chain s True (.stop ∈ past)

/-- What a settled attempt showed is a beginning of what it would have said. -/
theorem Settled.begins {attempt : StreamAttempt} {shown : List UnifiedStreamEvent} {gone : Prop}
    {lastError : Option String} {completed : Bool} (h : Settled attempt shown gone lastError completed) :
    shown <+: attempt.events := by
  cases h with
  | completed hall => exact hall ▸ List.prefix_rfl
  | threw hall => exact hall ▸ List.prefix_rfl
  | rejected hbad => exact (List.prefix_append ..).trans hbad
  | aborted hgone hpre => exact hpre

/-- Nothing has been told when nobody has spoken. -/
theorem Silent.told {ended left : Prop} (h : s.Silent) : Told env request chain s ended left :=
  ⟨⟨0, 0⟩, [], [], h.received, Nat.zero_le 1, fun hne => absurd rfl hne⟩

/-- What has been shown, what is on its way and what is to come are the script, so what has been shown is a
    first part of it. -/
theorem Pulls.shown_prefix {k : Nat} {pulled : PulledAttempt} {shown : List UnifiedStreamEvent} {yielded : Bool}
    (h : Pulls env request chain s k pulled shown yielded) :
    ∃ attempt, StreamSystem.script env request chain pulled.id pulled.live = some attempt ∧
      shown <+: attempt.events := by
  obtain ⟨attempt, hscript, -, hevents⟩ := h.script
  refine ⟨attempt, hscript, ?_⟩
  rw [hevents, List.append_assoc]
  exact List.prefix_append ..

/-- While the gateway pulls an attempt, what has been told is a first part of its script. -/
theorem Pulls.told {k : Nat} {pulled : PulledAttempt} {shown : List UnifiedStreamEvent} {yielded : Bool}
    {ended left : Prop} (h : Pulls env request chain s k pulled shown yielded) (hended : ¬ ended) :
    Told env request chain s ended left := by
  obtain ⟨attempt, hscript, hpre⟩ := h.shown_prefix
  refine ⟨pulled.id, shown, [], by simpa using h.heard.received, Nat.zero_le 1, fun _ => ?_⟩
  exact ⟨pulled.live, attempt, hscript, h.invoked, hpre, fun h => absurd h hended⟩

theorem Pulls.stage {k : Nat} {pulled : PulledAttempt} {shown : List UnifiedStreamEvent} {yielded : Bool}
    (h : Pulls env request chain s k pulled shown yielded) (hphase : s.request.phase = .waiting k)
    (past : List RequestLabel) : Stage env request chain past s := by
  simp only [Stage, hphase]
  exact Or.inr ⟨pulled, shown, yielded, h⟩

/-- In every stage the consumer has been told what one attempt said. -/
theorem Stage.told (h : Stage env request chain past s) :
    Told env request chain s (s.request.phase = .ended) (.stop ∈ past) := by
  cases hphase : s.request.phase with
  | opening k =>
      simp only [Stage, hphase] at h
      exact h.told
  | waiting k =>
      simp only [Stage, hphase] at h
      rcases h with ⟨hsilent, -⟩ | ⟨pulled, shown, yielded, hpulls⟩
      · exact hsilent.told
      · exact hpulls.told nofun
  | yielding k =>
      simp only [Stage, hphase] at h
      obtain ⟨-, pulled, shown, -, hpulls⟩ := h
      exact hpulls.told nofun
  | settled k completed =>
      simp only [Stage, hphase] at h
      obtain ⟨-, id, shown, hheard, hsettled⟩ := h
      refine ⟨id, shown, [], by simpa using hheard.received, Nat.zero_le 1, fun hne => ?_⟩
      obtain ⟨live, attempt, hscript, hinvoked, hsettled⟩ := hsettled hne
      exact ⟨live, attempt, hscript, hinvoked, hsettled.begins, nofun⟩
  | ended =>
      simp only [Stage, hphase] at h
      obtain ⟨id, shown, errors, hreceived, hlength, hshown⟩ := h
      refine ⟨id, shown, errors, hreceived, hlength, fun hne => ?_⟩
      obtain ⟨live, attempt, hscript, hinvoked, hpre, hclosing⟩ := hshown hne
      exact ⟨live, attempt, hscript, hinvoked, hpre, fun _ => hclosing trivial⟩

/-! ## Beside the stream -/

/-- The step has left alone what the stream of the request depends on. -/
structure Beside (s t : StreamSystem) : Prop where
  phase : t.request.phase = s.request.phase
  yieldedAny : t.request.yieldedAny = s.request.yieldedAny
  gone : s.request.clientAborted = true → t.request.clientAborted = true
  pulled : t.pulled = s.pulled
  pending : t.pending = s.pending
  lastError : t.lastError = s.lastError
  received : t.received = s.received
  invoked : invoked s.request ⊆ invoked t.request
  callAt : ∀ k, s.request.AtPosition k → callAt t.request k = callAt s.request k

theorem Silent.beside (h : s.Silent) (hbeside : Beside s t) : t.Silent where
  received := hbeside.received.trans h.received
  yieldedAny := hbeside.yieldedAny.trans h.yieldedAny
  pending := hbeside.pending.trans h.pending

theorem Heard.beside {id : AttemptId} {shown : List UnifiedStreamEvent} (h : s.Heard id shown)
    (hbeside : Beside s t) : t.Heard id shown where
  received := hbeside.received.trans h.received
  yieldedAny := hbeside.yieldedAny.trans h.yieldedAny

theorem Pulls.beside {k : Nat} {pulled : PulledAttempt} {shown : List UnifiedStreamEvent} {yielded : Bool}
    (h : Pulls env request chain s k pulled shown yielded) (hat : s.request.AtPosition k)
    (hbeside : Beside s t) : Pulls env request chain t k pulled shown yielded where
  current := hbeside.pulled.trans h.current
  position := h.position
  attempting := (hbeside.callAt k hat).trans h.attempting
  script := by
    rw [hbeside.pending]
    exact h.script
  invoked := hbeside.invoked h.invoked
  heard := h.heard.beside hbeside
  flag := by
    rw [hbeside.pending]
    exact h.flag

/-- A settled attempt stays settled once the caller is gone. -/
theorem Settled.mono {attempt : StreamAttempt} {shown : List UnifiedStreamEvent} {gone gone' : Prop}
    {lastError : Option String} {completed : Bool} (h : Settled attempt shown gone lastError completed)
    (hgone : gone → gone') : Settled attempt shown gone' lastError completed := by
  cases h with
  | completed hall hend => exact Settled.completed hall hend
  | threw hall hend herror => exact Settled.threw hall hend herror
  | rejected hbad htype herror => exact Settled.rejected hbad htype herror
  | aborted h hpre => exact Settled.aborted (hgone h) hpre

/-- **What happens beside the stream keeps the stage.** -/
theorem Stage.beside (h : Stage env request chain past s) (hbeside : Beside s t) (more : List RequestLabel) :
    Stage env request chain (past ++ more) t := by
  unfold Stage
  rw [hbeside.phase]
  cases hphase : s.request.phase with
  | opening k =>
      simp only [Stage, hphase] at h
      exact h.beside hbeside
  | waiting k =>
      simp only [Stage, hphase] at h
      rcases h with ⟨hsilent, attempt, hcall⟩ | ⟨pulled, shown, yielded, hpulls⟩
      · exact Or.inl ⟨hsilent.beside hbeside, attempt, (hbeside.callAt k (Or.inl hphase)).trans hcall⟩
      · exact Or.inr ⟨pulled, shown, yielded, hpulls.beside (Or.inl hphase) hbeside⟩
  | yielding k =>
      simp only [Stage, hphase] at h
      obtain ⟨hpending, pulled, shown, hne, hpulls⟩ := h
      exact ⟨hbeside.pending.trans hpending, pulled, shown, hne, hpulls.beside (Or.inr hphase) hbeside⟩
  | settled k completed =>
      simp only [Stage, hphase] at h
      obtain ⟨hpending, id, shown, hheard, hsettled⟩ := h
      refine ⟨hbeside.pending.trans hpending, id, shown, hheard.beside hbeside, fun hne => ?_⟩
      obtain ⟨live, attempt, hscript, hinvoked, hsettled⟩ := hsettled hne
      refine ⟨live, attempt, hscript, hbeside.invoked hinvoked, ?_⟩
      rw [hbeside.lastError]
      exact hsettled.mono hbeside.gone
  | ended =>
      simp only [Stage, hphase] at h
      obtain ⟨id, shown, errors, hreceived, hlength, hshown⟩ := h
      refine ⟨id, shown, errors, hbeside.received.trans hreceived, hlength, fun hne => ?_⟩
      obtain ⟨live, attempt, hscript, hinvoked, hpre, hclosing⟩ := hshown hne
      refine ⟨live, attempt, hscript, hbeside.invoked hinvoked, hpre, fun hended => ?_⟩
      exact (hclosing hended).mono hbeside.gone (List.mem_append_left more)

/-! ## Steps of the awaited call -/

/-- The request after a step of the policy service. -/
def afterStep (s : RequestSystem) (a : PolicyAction) (next : PolicySystem) (out : Option Invocation) :
    RequestSystem :=
  { s with
    signals := s.signals.record a next out
    phase := RequestSystem.afterPolicy s.phase a next }

theorem get_setCall (p : PolicySystem) (k : Nat) (call : PolicyCall) :
    (p.setCall k call).calls.get k = some call := JsMap.get_set_self ..

theorem callAt_afterStep {r : RequestSystem} {a : PolicyAction} {next : PolicySystem}
    {out : Option Invocation} {k : Nat} {call : PolicyCall} (hget : next.calls.get k = some call) :
    callAt (afterStep r a next out) k = some call.phase := by
  simp [callAt, afterStep, SignalSystem.record, hget]

theorem invoked_afterStep (r : RequestSystem) (a : PolicyAction) (next : PolicySystem)
    (out : Option Invocation) :
    invoked (afterStep r a next out) = invoked r ++ out.toList.map fun i => ⟨i.call, i.attempt⟩ := by
  simp [invoked, afterStep, SignalSystem.record]

/-- Noting a failure on the breaker leaves the request's own run alone. -/
theorem request_afterFailure (s : StreamSystem) (k : Nat) :
    (s.afterFailure request chain k).request = s.request := by
  unfold afterFailure
  split
  · rfl
  · split
    · rfl
    · split <;> rfl

/-- The request under the events takes its own step. -/
theorem request_follow (s : StreamSystem) (l : RequestLabel) (r : RequestSystem) :
    (s.follow env request chain l r).request = r := by
  unfold follow
  split
  · split
    · simp only [followPolicy]
      split
      · split <;> rfl
      · split <;> rfl
      · split <;> rfl
      · rfl
      · rfl
      · rfl
    · rfl
  · rfl
  · exact request_afterFailure _ _
  · exact request_afterFailure _ _
  · rfl

/-- **Inversion of a step.** -/
theorem follow_of_step (h : step env request chain s l = some t) :
    s.allows l = true ∧ ∃ r, RequestSystem.step env.policy .stream (names chain) s.request l = some r ∧
      t = s.follow env request chain l r := by
  unfold step at h
  split at h
  · rename_i hallows
    obtain ⟨r, hr, rfl⟩ := Option.map_eq_some_iff.mp h
    exact ⟨hallows, r, hr, rfl⟩
  · cases h

/-- While the awaited call runs an attempt, the gateway pulls that attempt. -/
theorem Stage.pulls {k a : Nat} {yielded : Bool} (h : Stage env request chain past s)
    (hphase : s.request.phase = .waiting k) (hcall : callAt s.request k = some (.attempting a yielded)) :
    ∃ pulled shown, Pulls env request chain s k pulled shown yielded ∧ pulled.id.attempt = a := by
  simp only [Stage, hphase] at h
  rcases h with ⟨-, attempt, hasleep⟩ | ⟨pulled, shown, yielded', hpulls⟩
  · cases hasleep.symm.trans hcall
  · have hsame := hpulls.attempting.symm.trans hcall
    simp only [Option.some.injEq, CallPhase.attempting.injEq] at hsame
    obtain ⟨hattempt, rfl⟩ := hsame
    exact ⟨pulled, shown, hpulls, hattempt⟩

/-- While the awaited call sleeps, nobody has spoken. -/
theorem Stage.silent_of_backoff {k a : Nat} (h : Stage env request chain past s)
    (hphase : s.request.phase = .waiting k) (hcall : callAt s.request k = some (.backoff a)) : s.Silent := by
  simp only [Stage, hphase] at h
  rcases h with ⟨hsilent, -⟩ | ⟨pulled, shown, yielded, hpulls⟩
  · exact hsilent
  · cases hpulls.attempting.symm.trans hcall

/-- What the script of the pulled attempt allows. -/
theorem Pulls.allows (pl : PolicyLabel) {pulled : PulledAttempt} {shown : List UnifiedStreamEvent}
    {yielded : Bool} (h : Pulls env request chain s pl.action.call pulled shown yielded)
    (hphase : s.request.phase = .waiting pl.action.call) (hallows : s.allows (.policy pl) = true) :
    attemptAllows pulled.rest s.pending pl.action = true := by
  simp only [StreamSystem.allows, hphase, if_true, h.current, Option.any_some] at hallows
  exact hallows

/-- The call is not finished after the action, so the gateway goes on waiting for it. -/
theorem phase_afterStep_waiting {r : RequestSystem} {a : PolicyAction} {next : PolicySystem}
    {out : Option Invocation} {call : PolicyCall}
    (hphase : r.phase = .opening a.call ∨ r.phase = .waiting a.call)
    (hget : next.calls.get a.call = some call) (hbusy : call.phase ≠ .finished) :
    (afterStep r a next out).phase = .waiting a.call := by
  have hnot : RequestSystem.isFinished next a.call = false :=
    RequestSystem.not_isFinished_of_busy ⟨call, hget, hbusy⟩
  simp only [afterStep, RequestSystem.afterPolicy, if_pos hphase, hnot]
  rfl

/-- The action has ended the call. -/
theorem phase_afterStep_settled {r : RequestSystem} {a : PolicyAction} {next : PolicySystem}
    {out : Option Invocation} {call : PolicyCall} {completed : Bool}
    (hphase : r.phase = .opening a.call ∨ r.phase = .waiting a.call)
    (hget : next.calls.get a.call = some call) (hdone : call.phase = .finished)
    (hcompleted : (a == .succeed a.call) = completed) :
    (afterStep r a next out).phase = .settled a.call completed := by
  have hfinished : RequestSystem.isFinished next a.call = true := by
    unfold RequestSystem.isFinished
    rw [hget]
    simpa using hdone
  simp only [afterStep, RequestSystem.afterPolicy, if_pos hphase, hfinished, if_true, hcompleted]

/-- The gateway is at the position of the action. -/
def Attends (s : StreamSystem) (k : Nat) : Prop :=
  s.request.phase = .opening k ∨ s.request.phase = .waiting k

/-- What a policy action does that the gateway attends. -/
theorem follow_policy {pl : PolicyLabel} {r : RequestSystem} (hat : s.Attends pl.action.call) :
    s.follow env request chain (.policy pl) r = s.followPolicy env request chain pl r := by
  unfold follow
  exact if_pos hat

theorem callAt_of_get {r : RequestSystem} {k : Nat} {call : PolicyCall}
    (hget : r.signals.policy.calls.get k = some call) : callAt r k = some call.phase := by
  unfold callAt
  rw [hget]
  rfl

section Awaited

variable {now : Int} {k a : Nat} {provider : String} {kind : CallKind} {yielded : Bool}
  (more : List RequestLabel) (h : Stage env request chain past s) (hphase : s.request.phase = .waiting k)
include h hphase

/-- The attempt gives its next event. -/
theorem stage_event (hallows : s.allows (.policy ⟨now, .event k⟩) = true)
    (hcall : s.request.signals.policy.calls.get k = some ⟨provider, .stream, .attempting a yielded⟩) :
    Stage env request chain (past ++ more) (s.follow env request chain (.policy ⟨now, .event k⟩)
      (afterStep s.request (.event k)
        (s.request.signals.policy.setCall k ⟨provider, .stream, .attempting a true⟩) none)) := by
  obtain ⟨pulled, shown, hpulls, rfl⟩ := h.pulls hphase (callAt_of_get hcall)
  have hallowed := hpulls.allows ⟨now, .event k⟩ hphase hallows
  obtain ⟨⟨position, attempt⟩, live, ⟨events, ending⟩⟩ := pulled
  cases hpending : s.pending with
  | some event => simp [attemptAllows, hpending] at hallowed
  | none =>
      cases events with
      | nil => simp [attemptAllows] at hallowed
      | cons event events =>
          -- the event moves from what is to come to what is on its way
          rw [follow_policy (Or.inr hphase)]
          obtain ⟨script, hscript, hending, hevents⟩ := hpulls.script
          have hnext := @phase_afterStep_waiting s.request (.event k)
            (s.request.signals.policy.setCall k ⟨provider, .stream, .attempting attempt true⟩) none _
            (Or.inr hphase) (get_setCall ..) (by simp)
          simp only [followPolicy, hpulls.current, Stage, hnext]
          refine Or.inr ⟨_, shown, true, rfl, hpulls.position, ?_, ⟨script, hscript, hending, ?_⟩, ?_,
            ⟨hpulls.heard.received, hpulls.heard.yieldedAny⟩, nofun⟩
          · exact callAt_afterStep (get_setCall ..)
          · rw [hevents, hpending]
            simp
          · rw [invoked_afterStep]
            exact List.mem_append_left _ hpulls.invoked

/-- The attempt has given all its events, and its stream ends. -/
theorem stage_succeed {circuitState : CircuitMap} (hallows : s.allows (.policy ⟨now, .succeed k⟩) = true)
    (hcall : s.request.signals.policy.calls.get k = some ⟨provider, kind, .attempting a yielded⟩) :
    Stage env request chain (past ++ more) (s.follow env request chain (.policy ⟨now, .succeed k⟩)
      (afterStep s.request (.succeed k)
        ((⟨circuitState, s.request.signals.policy.calls⟩ : PolicySystem).setCall k
          ⟨provider, kind, .finished⟩) none)) := by
  obtain ⟨pulled, shown, hpulls, rfl⟩ := h.pulls hphase (callAt_of_get hcall)
  have hallowed := hpulls.allows ⟨now, .succeed k⟩ hphase hallows
  simp only [attemptAllows, Bool.and_eq_true, Option.isNone_iff_eq_none, decide_eq_true_eq] at hallowed
  obtain ⟨hpending, hrest⟩ := hallowed
  obtain ⟨attempt, hscript, hending, hevents⟩ := hpulls.script
  rw [hpending, hrest] at hevents
  rw [hrest] at hending
  have hnext := @phase_afterStep_settled s.request (.succeed k)
    ((⟨circuitState, s.request.signals.policy.calls⟩ : PolicySystem).setCall k
      ⟨provider, kind, .finished⟩) none _ true (Or.inr hphase) (get_setCall ..) rfl (by simp [PolicyAction.call])
  rw [follow_policy (Or.inr hphase)]
  simp only [followPolicy, Stage, hnext]
  refine ⟨hpending, pulled.id, shown, ⟨hpulls.heard.received, hpulls.heard.yieldedAny⟩, fun _ => ?_⟩
  refine ⟨pulled.live, attempt, hscript, ?_, ?_⟩
  · rw [invoked_afterStep]
    exact List.mem_append_left _ hpulls.invoked
  · exact Settled.completed (by simpa using hevents.symm) hending

/-- The observer throws on the event that is on its way. -/
theorem stage_leave (hallows : s.allows (.policy ⟨now, .leave k⟩) = true)
    (hcall : s.request.signals.policy.calls.get k = some ⟨provider, kind, .attempting a yielded⟩) :
    Stage env request chain (past ++ more) (s.follow env request chain (.policy ⟨now, .leave k⟩)
      (afterStep s.request (.leave k)
        (s.request.signals.policy.setCall k ⟨provider, kind, .finished⟩) none)) := by
  obtain ⟨pulled, shown, hpulls, rfl⟩ := h.pulls hphase (callAt_of_get hcall)
  have hallowed := hpulls.allows ⟨now, .leave k⟩ hphase hallows
  simp only [attemptAllows, Option.any_eq_true, Bool.not_eq_true'] at hallowed
  obtain ⟨bad, hpending, htype⟩ := hallowed
  obtain ⟨attempt, hscript, hending, hevents⟩ := hpulls.script
  rw [hpending] at hevents
  have hnext := @phase_afterStep_settled s.request (.leave k)
    (s.request.signals.policy.setCall k ⟨provider, kind, .finished⟩) none _ false (Or.inr hphase)
    (get_setCall ..) rfl (by simp)
  rw [follow_policy (Or.inr hphase)]
  simp only [followPolicy, Stage, hnext]
  refine ⟨trivial, pulled.id, shown, ⟨hpulls.heard.received, hpulls.heard.yieldedAny⟩, fun _ => ?_⟩
  refine ⟨pulled.live, attempt, hscript, ?_, Settled.rejected ?_ htype rfl⟩
  · rw [invoked_afterStep]
    exact List.mem_append_left _ hpulls.invoked
  · rw [hevents]
    exact List.prefix_append ..

/-- The attempt fails. If it has given an event it is not retried; otherwise nobody has spoken. -/
theorem stage_fail {aborted : Bool} {next : PolicySystem} {callPhase : CallPhase}
    (hgone : aborted = true → s.request.clientAborted = true)
    (hallows : s.allows (.policy ⟨now, .fail k aborted⟩) = true)
    (hcall : s.request.signals.policy.calls.get k = some ⟨provider, kind, .attempting a yielded⟩)
    (hget : next.calls.get k = some ⟨provider, kind, callPhase⟩)
    (hafter : callPhase = .finished ∨ yielded = false ∧ callPhase = .backoff a) :
    Stage env request chain (past ++ more) (s.follow env request chain (.policy ⟨now, .fail k aborted⟩)
      (afterStep s.request (.fail k aborted) next none)) := by
  obtain ⟨pulled, shown, hpulls, rfl⟩ := h.pulls hphase (callAt_of_get hcall)
  have hallowed := hpulls.allows ⟨now, .fail k aborted⟩ hphase hallows
  simp only [attemptAllows, Bool.and_eq_true, Option.isNone_iff_eq_none, Bool.or_eq_true] at hallowed
  obtain ⟨hpending, hwhy⟩ := hallowed
  obtain ⟨attempt, hscript, hending, hevents⟩ := hpulls.script
  rw [hpending, Option.toList_none, List.append_nil] at hevents
  rw [follow_policy (Or.inr hphase)]
  rcases hafter with rfl | ⟨rfl, rfl⟩
  · -- the call is over with this failure, whatever has been shown
    have hnext := @phase_afterStep_settled s.request (.fail k aborted) next none _ false (Or.inr hphase) hget
      rfl (by simp)
    simp only [followPolicy, Stage, hnext]
    refine ⟨hpending, pulled.id, shown, ⟨hpulls.heard.received, hpulls.heard.yieldedAny⟩, fun _ => ?_⟩
    refine ⟨pulled.live, attempt, hscript, ?_, ?_⟩
    · rw [invoked_afterStep]
      exact List.mem_append_left _ hpulls.invoked
    · rcases hwhy with haborted | ⟨hempty, hthrew⟩
      · exact Settled.aborted (hgone haborted) (hevents ▸ List.prefix_append ..)
      · obtain ⟨id, live, ⟨events, ending⟩⟩ := pulled
        obtain rfl : events = [] := List.isEmpty_iff.mp hempty
        cases ending with
        | finished => cases hthrew
        | stalled => cases hthrew
        | threw message =>
            refine Settled.threw (by simpa using hevents.symm) hending ?_
            rw [hpulls.current]
            rfl
  · -- it sleeps before a retry: the policy's flag says that nothing has been given
    have hnext := @phase_afterStep_waiting s.request (.fail k aborted) next none _ (Or.inr hphase) hget
      (by simp)
    obtain ⟨rfl, -⟩ := hpulls.flag rfl
    simp only [followPolicy, Stage, hnext]
    exact Or.inl ⟨⟨hpulls.heard.received, hpulls.heard.yieldedAny, hpending⟩, _, callAt_afterStep hget⟩

end Awaited

/-- The operation of an attempt is invoked before anybody has spoken, and the gateway pulls it. -/
theorem pulls_invoke {k attempt : Nat} {r : RequestSystem} (hin : k < chain.length)
    (hsilent : s.Silent) (hyield : r.yieldedAny = s.request.yieldedAny)
    (hcall : callAt r k = some (.attempting attempt false))
    (hinvoked : (⟨k, attempt⟩ : AttemptId) ∈ invoked r) :
    ∃ pulled, Pulls env request chain (({ s with request := r } : StreamSystem).invoke env request chain
      ⟨k, attempt⟩) k pulled [] false := by
  have hentry : chain[k]? = some chain[k] := List.getElem?_eq_getElem hin
  refine ⟨⟨⟨k, attempt⟩, decide (k ∉ r.signals.fired), env.stream ⟨k, attempt⟩ chain[k].provider
    (enrichedRequest request chain[k]) (decide (k ∉ r.signals.fired))⟩, ?_, rfl, hcall, ⟨_, ?_, rfl, ?_⟩,
    hinvoked, ⟨hsilent.received, hyield.trans hsilent.yieldedAny⟩, fun _ => ⟨rfl, hsilent.pending⟩⟩
  · simp only [invoke, script, hentry, Option.map_some]
  · simp only [script, hentry, Option.map_some]
  · simp [invoke, hsilent.pending]

/-- The call the gateway waits for has been made. -/
theorem Stage.call_made {k : Nat} (h : Stage env request chain past s)
    (hphase : s.request.phase = .waiting k) : s.request.signals.policy.calls.get k ≠ none := by
  intro hnone
  have hcall : callAt s.request k = none := by
    unfold callAt
    rw [hnone]
    rfl
  simp only [Stage, hphase] at h
  rcases h with ⟨-, attempt, hasleep⟩ | ⟨pulled, shown, yielded, hpulls⟩
  · cases hcall.symm.trans hasleep
  · cases hcall.symm.trans hpulls.attempting

/-- The call of an action that is not an entry is awaited, when the gateway stands at its position. -/
theorem waiting_of_call {k : Nat} {call : PolicyCall}
    (hord : RequestSystem.Ordered (names chain) s.request) (hat : s.Attends k)
    (hcall : s.request.signals.policy.calls.get k = some call) : s.request.phase = .waiting k := by
  rcases hat with hopening | hwaiting
  · cases (hord.unopened k hopening).symm.trans hcall
  · exact hwaiting

/-- The policy call of a position that is opened is turned away, or invokes the operation. -/
theorem stage_enter {now : Int} {k : Nat} {provider : String} {kind : CallKind} {aborted : Bool}
    {next : PolicySystem} {out : Option Invocation} (more : List RequestLabel)
    (h : Stage env request chain past s) (hord : RequestSystem.Ordered (names chain) s.request)
    (hphase : s.request.phase = .opening k)
    (hnext : next.calls.get k = some ⟨provider, kind, .finished⟩ ∧ out = none ∨
      next.calls.get k = some ⟨provider, kind, .attempting 0 false⟩ ∧ out = some ⟨k, provider, 0⟩) :
    Stage env request chain (past ++ more)
      (s.follow env request chain (.policy ⟨now, .enter k kind provider aborted⟩)
        (afterStep s.request (.enter k kind provider aborted) next out)) := by
  have hsilent : s.Silent := by
    simp only [Stage, hphase] at h
    exact h
  rw [follow_policy (Or.inl hphase)]
  rcases hnext with ⟨hget, rfl⟩ | ⟨hget, rfl⟩
  · -- the breaker is open, or the client has gone: no operation is invoked
    have hafter := @phase_afterStep_settled s.request (.enter k kind provider aborted) next none _ false
      (Or.inl hphase) hget rfl (by simp)
    have hfinished : RequestSystem.isFinished
        (afterStep s.request (.enter k kind provider aborted) next none).signals.policy k = true := by
      simp [RequestSystem.isFinished, afterStep, SignalSystem.record, hget]
    simp only [followPolicy, hfinished, if_true, Stage, hafter]
    exact ⟨hsilent.pending, ⟨0, 0⟩, [], ⟨hsilent.received, hsilent.yieldedAny⟩, fun hne => absurd rfl hne⟩
  · have hafter := @phase_afterStep_waiting s.request (.enter k kind provider aborted) next
      (some ⟨k, provider, 0⟩) _ (Or.inl hphase) hget (by simp)
    have hrunning : RequestSystem.isFinished (afterStep s.request (.enter k kind provider aborted) next
        (some ⟨k, provider, 0⟩)).signals.policy k = false := by
      simp [RequestSystem.isFinished, afterStep, SignalSystem.record, hget]
    have hin : k < chain.length := by
      simpa [names] using hord.within k (by rw [hphase]; rfl)
    obtain ⟨pulled, hpulls⟩ := @pulls_invoke env request chain s k 0
      (afterStep s.request (.enter k kind provider aborted) next (some ⟨k, provider, 0⟩)) hin hsilent rfl
      (callAt_afterStep hget) (by rw [invoked_afterStep]; simp)
    simp only [followPolicy, hrunning, Bool.false_eq_true, if_false]
    exact hpulls.stage hafter _

/-- The back-off of the awaited call is over, and the operation is invoked again. -/
theorem stage_wake {now : Int} {k a : Nat} {provider : String} {kind : CallKind}
    (more : List RequestLabel) (h : Stage env request chain past s)
    (hord : RequestSystem.Ordered (names chain) s.request) (hphase : s.request.phase = .waiting k)
    (hcall : s.request.signals.policy.calls.get k = some ⟨provider, kind, .backoff a⟩) :
    Stage env request chain (past ++ more) (s.follow env request chain (.policy ⟨now, .wake k⟩)
      (afterStep s.request (.wake k)
        (s.request.signals.policy.setCall k ⟨provider, kind, .attempting (a + 1) false⟩)
        (some ⟨k, provider, a + 1⟩))) := by
  have hsilent := h.silent_of_backoff hphase (callAt_of_get hcall)
  have hafter := @phase_afterStep_waiting s.request (.wake k)
    (s.request.signals.policy.setCall k ⟨provider, kind, .attempting (a + 1) false⟩)
    (some ⟨k, provider, a + 1⟩) _ (Or.inr hphase) (get_setCall ..) (by simp)
  have hin : k < chain.length := by
    simpa [names] using hord.within k (by rw [hphase]; rfl)
  obtain ⟨pulled, hpulls⟩ := @pulls_invoke env request chain s k (a + 1)
    (afterStep s.request (.wake k)
      (s.request.signals.policy.setCall k ⟨provider, kind, .attempting (a + 1) false⟩)
      (some ⟨k, provider, a + 1⟩)) hin hsilent rfl (callAt_afterStep (get_setCall ..))
    (by rw [invoked_afterStep]; simp)
  rw [follow_policy (Or.inr hphase)]
  simp only [followPolicy, hcall]
  exact hpulls.stage hafter _

/-- An action of a call the gateway does not stand at happens beside the stream. -/
theorem beside_policy {pl : PolicyLabel} {next : PolicySystem} {out : Option Invocation}
    (hord : RequestSystem.Ordered (names chain) s.request)
    (hpermits : RequestSystem.permits .stream (names chain) s.request pl.action = true)
    (heffect : PolicySystem.Effect env.policy s.request.signals.policy pl.now pl.action next out)
    (hat : ¬ s.Attends pl.action.call) :
    Beside s (s.follow env request chain (.policy pl) (afterStep s.request pl.action next out)) := by
  have hfollow : s.follow env request chain (.policy pl) (afterStep s.request pl.action next out) =
      { s with request := afterStep s.request pl.action next out } := if_neg hat
  rw [hfollow]
  have hother : ∀ k, s.request.AtPosition k → k ≠ pl.action.call := by
    rintro k hk rfl
    rcases hk with hwaiting | hyielding
    · exact hat (Or.inr hwaiting)
    · -- the generator is suspended in its yield: its call takes no step
      have hin := hord.within _ (by rw [hyielding]; rfl)
      rw [RequestSystem.not_permits_of_yielding hin hyielding] at hpermits
      cases hpermits
  exact {
    phase := by
      show RequestSystem.afterPolicy _ _ _ = _
      exact if_neg hat
    yieldedAny := rfl
    gone := id
    pulled := rfl
    pending := rfl
    lastError := rfl
    received := rfl
    invoked := by
      rw [invoked_afterStep]
      exact List.subset_append_left ..
    callAt := by
      intro k hk
      have hsame := (SignalSystem.frame_of_effect heffect).1 k (hother k hk)
      simp only [callAt, afterStep, SignalSystem.record, hsame] }

/-- **A step of the policy service keeps the stage.** -/
theorem stage_policy {pl : PolicyLabel} (more : List RequestLabel) (h : Stage env request chain past s)
    (hord : RequestSystem.Ordered (names chain) s.request)
    (hstep : step env request chain s (.policy pl) = some t) :
    Stage env request chain (past ++ more) t := by
  obtain ⟨hallows, r, hr, rfl⟩ := follow_of_step hstep
  obtain ⟨hpermits, next, out, heffect, hreads, rfl⟩ := RequestSystem.policy_of_step hr
  by_cases hat : s.Attends pl.action.call
  · obtain ⟨now, action⟩ := pl
    cases heffect with
    | rejected hfresh hcheck =>
        rcases hat with hopening | hwaiting
        · exact stage_enter more h hord hopening (Or.inl ⟨get_setCall .., rfl⟩)
        · exact absurd hfresh (h.call_made hwaiting)
    | turnedAway hfresh hcheck =>
        rcases hat with hopening | hwaiting
        · exact stage_enter more h hord hopening (Or.inl ⟨get_setCall .., rfl⟩)
        · exact absurd hfresh (h.call_made hwaiting)
    | admitted hfresh hcheck =>
        rcases hat with hopening | hwaiting
        · exact stage_enter more h hord hopening (Or.inr ⟨get_setCall .., rfl⟩)
        · exact absurd hfresh (h.call_made hwaiting)
    | yielded hcall => exact stage_event more h (waiting_of_call hord hat hcall) hallows hcall
    | succeeded hcall => exact stage_succeed more h (waiting_of_call hord hat hcall) hallows hcall
    | @failed k provider kind a yielded hcall =>
        refine stage_fail more h (waiting_of_call hord hat hcall) nofun hallows hcall (get_setCall ..) ?_
        cases yielded with
        | true => exact Or.inl rfl
        | false =>
            unfold PolicySystem.phaseAfterFailure
            rw [if_neg Bool.false_ne_true]
            split
            · exact Or.inr ⟨rfl, rfl⟩
            · exact Or.inl rfl
    | @cancelled k provider kind a yielded hcall =>
        have hwaiting := waiting_of_call hord hat hcall
        refine stage_fail more h hwaiting (fun _ => ?_) hallows hcall (get_setCall ..) (Or.inl rfl)
        -- the signal of the position has fired, so the client has aborted
        have hposition : RequestSystem.position s.request.phase = some k := by rw [hwaiting]; rfl
        exact hord.unfired k k hposition (Nat.le_refl k) (hord.within k hposition)
          (by simpa [PolicyAction.readsSignal] using hreads)
    | left hcall => exact stage_leave more h (waiting_of_call hord hat hcall) hallows hcall
    | retried hcall => exact stage_wake more h hord (waiting_of_call hord hat hcall) hcall
  · exact h.beside (beside_policy hord hpermits heffect hat) more

end StreamSystem

end Sirius
