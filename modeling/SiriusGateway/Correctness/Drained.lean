import SiriusGateway.Adapters.Native
import SiriusGateway.Correctness.Received

/-!
# `Correctness.Drained` — runs nobody disturbs

The client's signal never aborts and the consumer drains the stream: what is left to go wrong is upstream.
Such a run of one adapter is decided by its last attempt, since every attempt before that one threw without
output and was retried (`LastAttempt`).

## Contents
- **Drained runs.** `Env.Drained`, and `Upstream.drained`, which makes one.
- **One attempt.** `forwardEvents` on events that all pass the observer, and on others.
- **One adapter.** `streamAttempts_lastAttempt`; `soloRun`, for a chain of one.
- **An attempt upstream.** `Sends`; `Completes`, its normal end, and `FailsLoudly`, its failures that throw.
- **A plain setting.** The runs that the examples of the modules above this one share.
-/

namespace Sirius

open Js

/-! ## Drained runs -/

/-- The client never aborts, and drains the stream. -/
structure Env.Drained (env : Env) : Prop where
  neverAborted : env.abortedAt = none
  neverStopped : env.stopAfter = none

/-- The adapters under the policy, for a client that neither aborts nor stops. -/
def Upstream.drained (up : Upstream) (base : Env) : Env :=
  up.env { base with abortedAt := none, stopAfter := none }

theorem Upstream.drained_drained (up : Upstream) (base : Env) : (up.drained base).Drained := ⟨rfl, rfl⟩

variable {env : Env} {id : AttemptId} {position : Nat} {provider : AiProvider} {request : UnifiedAiRequest}

theorem aborted_of_drained (hd : env.Drained) (w : World) : w.aborted env = false := by
  unfold World.aborted
  rw [hd.neverAborted]

/-- A run whose breaker lets it in is its retry loop. -/
theorem executeStreamWithPolicy_admitted (hd : env.Drained) {w : World} {circuitState : CircuitMap}
    (hcheck : CircuitMap.checkCircuitBreaker env.policy (w.now env) w.circuitState provider.name =
      .ok circuitState) :
    executeStreamWithPolicy env position provider request w =
      streamAttempts env position provider request env.policy.maxRetries 0
        { w with circuitState := circuitState } := by
  unfold executeStreamWithPolicy
  rw [hcheck]
  simp only [aborted_of_drained hd, Bool.false_eq_true, if_false]

/-! ## One attempt -/

/-- All of the attempt's events pass the observer. -/
def StreamAttempt.typed (a : StreamAttempt) : Bool := a.events.all (·.wellTyped)

/-- The attempt throws before any output. -/
def StreamAttempt.SilentThrow (a : StreamAttempt) : Prop :=
  a.events = [] ∧ ∃ message, a.ending = .threw message

theorem StreamAttempt.typed_of_silentThrow {a : StreamAttempt} (h : a.SilentThrow) : a.typed = true := by
  unfold StreamAttempt.typed
  rw [h.1]
  rfl

theorem threw_ne_finished (message : String) : StreamEnding.threw message ≠ .finished := nofun

theorem stalled_ne_finished : StreamEnding.stalled ≠ .finished := nofun

theorem StreamAttempt.SilentThrow.not_quiet {a : StreamAttempt} (h : a.SilentThrow) :
    a.ending ≠ .finished ∧ a.ending ≠ .stalled := by
  obtain ⟨message, hend⟩ := h.2
  rw [hend]
  exact ⟨nofun, nofun⟩

/-- Events that pass the observer all reach the consumer. -/
theorem forwardEvents_of_typed (hd : env.Drained) {events : List UnifiedStreamEvent}
    (htyped : events.all (·.wellTyped) = true) (yielded : Bool) (w : World) :
    (forwardEvents env id events yielded w).actions = events.map (.deliver id) ∧
      (forwardEvents env id events yielded w).result = (none, yielded || !events.isEmpty) := by
  induction events generalizing yielded w with
  | nil => exact ⟨rfl, by simp [forwardEvents]⟩
  | cons event rest ih =>
      rw [List.all_cons, Bool.and_eq_true] at htyped
      obtain ⟨hacts, hresult⟩ := ih htyped.2 true { w.next with sent := w.sent + 1 }
      have hstep : forwardEvents env id (event :: rest) yielded w =
          (forwardEvents env id rest true { w.next with sent := w.sent + 1 }).after
            [.deliver id event] := by
        simp [forwardEvents, observeEvent, htyped.1, hd.neverStopped]
      rw [hstep]
      exact ⟨by simp [Outcome.after, hacts], by simp [Outcome.after, hresult]⟩

/-- An event that does not pass ends the attempt. -/
theorem forwardEvents_of_untyped (hd : env.Drained) (id : AttemptId) {events : List UnifiedStreamEvent}
    (htyped : events.all (·.wellTyped) = false) (yielded : Bool) (w : World) :
    ∃ message, (forwardEvents env id events yielded w).result.1 = some (.observerThrew message) := by
  induction events generalizing yielded w with
  | nil => cases htyped
  | cons event rest ih =>
      cases hevent : event.wellTyped with
      | false => exact ⟨_, by simp [forwardEvents, observeEvent, hevent]; rfl⟩
      | true =>
          rw [List.all_cons, hevent, Bool.true_and] at htyped
          obtain ⟨message, h⟩ := ih htyped true { w.next with sent := w.sent + 1 }
          refine ⟨message, ?_⟩
          rw [← h]
          simp [forwardEvents, observeEvent, hevent, hd.neverStopped, Outcome.after]

/-- An attempt of a drained run starts with its signal unfired. -/
theorem upstreamOf_drained (hd : env.Drained) (position : Nat) (provider : AiProvider)
    (request : UnifiedAiRequest) (attempt : Nat) (w : World) :
    upstreamOf env position provider request attempt w =
      env.stream ⟨position, attempt⟩ provider request true := by
  unfold upstreamOf
  rw [aborted_of_drained hd]
  rfl

section LastAttempt

variable (env position provider request)

/-- Attempt `i` of the adapter. -/
abbrev attemptOf (i : Nat) : StreamAttempt := env.stream ⟨position, i⟩ provider request true

/-- What the run `o` of the retry loop, from attempt `attempt` with `remaining` retries left, owes to its
    last attempt on the upstream. -/
structure LastAttempt (remaining attempt : Nat) (o : Outcome StreamResult) (last : Nat) : Prop where
  range : attempt ≤ last ∧ last ≤ attempt + remaining
  /-- The attempts before it threw silently, and their back-offs passed. -/
  before : ∀ i, attempt ≤ i → i < last →
    (attemptOf env position provider request i).SilentThrow ∧ env.idleInBackoff ⟨position, i⟩ = false
  /-- It would have been retried. -/
  exhausted : (attemptOf env position provider request last).SilentThrow → last < attempt + remaining →
    env.idleInBackoff ⟨position, last⟩ = true
  invoked : .invoke ⟨position, last⟩ provider request true ∈ o.actions
  invokes : ∀ id p r, .invoke id p r true ∈ o.actions →
    p = provider ∧ r = request ∧ ∃ i, id = ⟨position, i⟩ ∧ attempt ≤ i ∧ i ≤ last
  received : received o.actions =
    (attemptOf env position provider request last).events.map fun e => (some ⟨position, last⟩, e)
  yielded : o.result.yieldedAny = !(attemptOf env position provider request last).events.isEmpty
  ending : if (attemptOf env position provider request last).ending = .finished then
      o.result.ending = .completed
    else ∃ message, o.result.ending.failure = some message

end LastAttempt

section Ending

variable {remaining attempt last : Nat} {o : Outcome StreamResult}

/-- The consumer receives the events of the last attempt. -/
theorem LastAttempt.shown (h : LastAttempt env position provider request remaining attempt o last) :
    (Sirius.received o.actions).map Prod.snd = (attemptOf env position provider request last).events := by
  rw [h.received, List.map_map]
  exact List.map_id _

theorem LastAttempt.finished_of_completed
    (h : LastAttempt env position provider request remaining attempt o last)
    (hcompleted : o.result.ending = .completed) :
    (attemptOf env position provider request last).ending = .finished := by
  have hending := h.ending
  split at hending
  · assumption
  · obtain ⟨message, hfail⟩ := hending
    rw [hcompleted] at hfail
    cases hfail

theorem LastAttempt.not_finished_of_failure
    (h : LastAttempt env position provider request remaining attempt o last) {message : String}
    (hfail : o.result.ending.failure = some message) :
    (attemptOf env position provider request last).ending ≠ .finished := by
  intro hfinished
  have hending := h.ending
  rw [if_pos hfinished] at hending
  rw [hending] at hfail
  cases hfail

theorem LastAttempt.not_stopped
    (h : LastAttempt env position provider request remaining attempt o last) :
    o.result.ending ≠ .stopped := by
  intro hstopped
  have hending := h.ending
  rw [hstopped] at hending
  split at hending
  · cases hending
  · obtain ⟨message, hfail⟩ := hending
    cases hfail

end Ending

section Drained

variable {attempt remaining last : Nat} (hd : env.Drained)
  (htyped : (attemptOf env position provider request attempt).typed = true) (w : World)
include hd htyped

/-- All events of a typed attempt reach the consumer, and nothing cuts them short. -/
theorem forwardedOf_drained :
    (forwardedOf env position provider request attempt w).actions =
        (attemptOf env position provider request attempt).events.map (.deliver ⟨position, attempt⟩) ∧
      (forwardedOf env position provider request attempt w).result =
        (none, !(attemptOf env position provider request attempt).events.isEmpty) := by
  unfold forwardedOf
  rw [upstreamOf_drained hd position provider request attempt w]
  exact forwardEvents_of_typed hd htyped false w

theorem startedOf_drained : startedOf env position provider request attempt w =
    .invoke ⟨position, attempt⟩ provider request true ::
      (attemptOf env position provider request attempt).events.map (.deliver ⟨position, attempt⟩) := by
  unfold startedOf
  rw [(forwardedOf_drained hd htyped w).1, aborted_of_drained hd]
  rfl

theorem invoked_startedOf {id : AttemptId} {p : AiProvider} {r : UnifiedAiRequest}
    (hmem : .invoke id p r true ∈ startedOf env position provider request attempt w) :
    id = ⟨position, attempt⟩ ∧ p = provider ∧ r = request := by
  rw [startedOf_drained hd htyped w] at hmem
  simpa using hmem

theorem received_startedOf {more : List Action} (hmore : received more = []) :
    received (startedOf env position provider request attempt w ++ more) =
      (attemptOf env position provider request attempt).events.map
        fun e => (some ⟨position, attempt⟩, e) := by
  rw [received_append, hmore, List.append_nil, startedOf_drained hd htyped w, received_invoke,
    received_deliver]

/-- A run that ends with the attempt it starts with. -/
theorem LastAttempt.of_ended (w' : World) (more : List Action) (ending : StreamEnd)
    (hmore : Sirius.received more = []) (hquiet : ∀ id p r, Action.invoke id p r true ∉ more)
    (hexhausted : (attemptOf env position provider request attempt).SilentThrow → 0 < remaining →
      env.idleInBackoff ⟨position, attempt⟩ = true)
    (hending : if (attemptOf env position provider request attempt).ending = .finished then
      ending = .completed else ∃ message, ending.failure = some message) :
    LastAttempt env position provider request remaining attempt
      ⟨w', startedOf env position provider request attempt w ++ more,
        ⟨ending, (forwardedOf env position provider request attempt w).result.2⟩⟩ attempt where
  range := ⟨le_rfl, Nat.le_add_right _ _⟩
  before := fun i h h' => absurd h (Nat.not_le.mpr h')
  exhausted := fun h hlt => hexhausted h (by omega)
  invoked := by simp [startedOf_drained hd htyped w]
  invokes := by
    intro id p r hmem
    rcases List.mem_append.mp hmem with hmem | hmem
    · obtain ⟨rfl, rfl, rfl⟩ := invoked_startedOf hd htyped w hmem
      exact ⟨rfl, rfl, attempt, rfl, le_rfl, le_rfl⟩
    · exact absurd hmem (hquiet id p r)
  received := received_startedOf hd htyped w hmore
  yielded := by rw [(forwardedOf_drained hd htyped w).2]
  ending := hending

/-- A run that goes on after the attempt it starts with has the last attempt of what follows. -/
theorem LastAttempt.of_retried {o : Outcome StreamResult}
    (hsilent : (attemptOf env position provider request attempt).SilentThrow)
    (hidle : env.idleInBackoff ⟨position, attempt⟩ = false)
    (h : LastAttempt env position provider request remaining (attempt + 1) o last) :
    LastAttempt env position provider request (remaining + 1) attempt
      (o.after (failedActions env position provider request attempt w)) last where
  range := by
    have := h.range
    omega
  before := by
    intro i hi hlt
    rcases Nat.eq_or_lt_of_le hi with rfl | hi
    · exact ⟨hsilent, hidle⟩
    · exact h.before i hi hlt
  exhausted := fun hs hlt => h.exhausted hs (by omega)
  invoked := List.mem_append_right _ h.invoked
  invokes := by
    intro id p r hmem
    rcases List.mem_append.mp hmem with hmem | hmem
    · rcases List.mem_append.mp hmem with hmem | hmem
      · obtain ⟨rfl, rfl, rfl⟩ := invoked_startedOf hd htyped w hmem
        exact ⟨rfl, rfl, attempt, rfl, le_rfl, by have := h.range; omega⟩
      · simp at hmem
    · obtain ⟨hp, hr, i, hid, hlo, hhi⟩ := h.invokes id p r hmem
      exact ⟨hp, hr, i, hid, by omega, hhi⟩
  received := by
    have hnone : Sirius.received (failedActions env position provider request attempt w) = [] := by
      unfold failedActions
      rw [received_startedOf hd htyped w rfl, hsilent.1]
      rfl
    show Sirius.received (_ ++ _) = _
    rw [received_append, hnone, h.received]
    rfl
  yielded := h.yielded
  ending := h.ending

end Drained

/-- **A run of one adapter is decided by its last attempt.** -/
theorem streamAttempts_lastAttempt (hd : env.Drained) (position : Nat) (provider : AiProvider)
    (request : UnifiedAiRequest) (htyped : ∀ i, (attemptOf env position provider request i).typed = true)
    (remaining attempt : Nat) (w : World) :
    ∃ last, LastAttempt env position provider request remaining attempt
      (streamAttempts env position provider request remaining attempt w) last := by
  refine streamAttempts_rule (P := fun remaining attempt _ o =>
    ∃ last, LastAttempt env position provider request remaining attempt o last) env position provider
    request ?_ remaining attempt w
  intro remaining attempt w o hturn hretry
  have hup := upstreamOf_drained hd position provider request attempt w
  have hresult := (forwardedOf_drained hd (htyped attempt) w).2
  cases hturn with
  -- nobody cuts a drained run short
  | cut hcut =>
      rw [hresult] at hcut
      cases hcut
  | finished hall hend =>
      rw [hup] at hend
      refine ⟨attempt, LastAttempt.of_ended hd (htyped attempt) w _ _ _ rfl (by simp) ?_ ?_⟩
      · intro h
        exact absurd hend h.not_quiet.1
      · rw [if_pos hend]
  | stalled hall hend =>
      rw [hup] at hend
      refine ⟨attempt, LastAttempt.of_ended hd (htyped attempt) w _ _ _ rfl (by simp) ?_ ?_⟩
      · intro h
        exact absurd hend h.not_quiet.2
      · rw [if_neg (by simp [hend])]
        exact ⟨idleMessage, rfl⟩
  | aborted hall hend hgone =>
      rw [aborted_of_drained hd] at hgone
      cases hgone
  | @failed message hall hend hhere hfinal =>
      rw [hup] at hend
      refine ⟨attempt, LastAttempt.of_ended hd (htyped attempt) w _ _ _ rfl (by simp) ?_ ?_⟩
      · -- output was sent or no retry is left, so this was no silent throw with a retry left
        intro hsilent hmore
        rw [hresult] at hfinal
        rcases hfinal with hyield | hnone
        · simp [hsilent.1] at hyield
        · omega
      · rw [if_neg (by simp [hend])]
        exact ⟨message, rfl⟩
  -- the next attempt would be made with a fired signal: the run has ended with this one
  | @abandoned message more hall hend hhere hsilent hmore hidle =>
      rw [hup] at hend
      have hended := @LastAttempt.of_ended env position provider request attempt remaining hd
        (htyped attempt) w
        (abandonedAttempt env ⟨position, attempt + 1⟩ provider request
          (failedWorld env position provider request attempt w).next).1
        ([.cancel ⟨position, attempt⟩, .recordFailure ⟨position, attempt⟩ provider.name] ++
          (abandonedAttempt env ⟨position, attempt + 1⟩ provider request
            (failedWorld env position provider request attempt w).next).2) .idle
        (by rw [received_append, received_abandonedAttempt]; rfl)
        (fun id p r h => by
          unfold abandonedAttempt at h
          split at h <;> simp at h)
        (fun _ _ => hidle) (by rw [if_neg (by simp [hend])]; exact ⟨idleMessage, rfl⟩)
      rw [← List.append_assoc, hsilent] at hended
      exact ⟨attempt, hended⟩
  | @retried message more hall hend hhere hsilent hmore hidle =>
      rw [hup] at hend
      obtain ⟨last, h⟩ := hretry more (failedWorld env position provider request attempt w).next hmore
      have hempty : (attemptOf env position provider request attempt).events = [] := by
        rw [hresult] at hsilent
        simpa using hsilent
      rw [hmore]
      exact ⟨last, LastAttempt.of_retried hd (htyped attempt) w ⟨hempty, message, hend⟩ hidle h⟩

/-- Of the attempts that are made, all have a property exactly when the last one does, if those that throw
    silently have it. -/
theorem LastAttempt.forall_invoked_iff {remaining attempt last : Nat} {o : Outcome StreamResult}
    (h : LastAttempt env position provider request remaining attempt o last)
    {Q : AttemptId → AiProvider → UnifiedAiRequest → Prop}
    (hsilent : ∀ i, (attemptOf env position provider request i).SilentThrow → Q ⟨position, i⟩ provider request)
    {more : List Action} (hquiet : ∀ id p r, .invoke id p r true ∉ more) :
    (∀ id p r, .invoke id p r true ∈ o.actions ++ more → Q id p r) ↔ Q ⟨position, last⟩ provider request := by
  constructor
  · intro hall
    exact hall _ _ _ (List.mem_append_left _ h.invoked)
  · intro hlast id p r hmem
    rcases List.mem_append.mp hmem with hmem | hmem
    · obtain ⟨rfl, rfl, i, rfl, hle, hle'⟩ := h.invokes id p r hmem
      rcases Nat.eq_or_lt_of_le hle' with rfl | hlt
      · exact hlast
      · exact hsilent i (h.before i hle hlt).1
    · exact absurd hmem (hquiet id p r)

/-- The ways a run with one adapter can go: it is turned away at the entry, it completes, or it fails and the
    gateway says so. -/
inductive SoloRun (env : Env) (request : UnifiedAiRequest) (entry : ChainEntry) : List Action → Prop
  | refused (message : String) : SoloRun env request entry [.deliverError message]
  | completed {remaining last : Nat} {tried : Outcome StreamResult}
      (hlast : LastAttempt env 0 entry.provider (enrichedRequest request entry) remaining 0 tried last)
      (hend : tried.result.ending = .completed) :
      SoloRun env request entry (tried.actions ++ [.recordLatency 0 entry.provider.name])
  | failed {remaining last : Nat} {tried : Outcome StreamResult} {failure : String} (message : String)
      (hlast : LastAttempt env 0 entry.provider (enrichedRequest request entry) remaining 0 tried last)
      (hfail : tried.result.ending.failure = some failure) :
      SoloRun env request entry (tried.actions ++ [.deliverError message])

/-- **A drained run with one adapter goes one of these ways.** -/
theorem soloRun (hd : env.Drained) {entry : ChainEntry}
    (htyped : ∀ i, (attemptOf env 0 entry.provider (enrichedRequest request entry) i).typed = true) (w : World) :
    SoloRun env request entry (streamOverChain env request [entry] w).actions := by
  have hturn := streamChain_turn env request 0 entry [] none w
  show SoloRun env request entry (streamChain env request 0 [entry] none w).actions
  generalize streamChain env request 0 [entry] none w = o at hturn ⊢
  rcases executeStreamWithPolicy_cases env 0 entry.provider (enrichedRequest request entry) w with
    ⟨w', message, heq, -⟩ | ⟨circuitState, -, heq⟩
  · -- turned away at the entry: the error of the exhausted chain
    rw [heq] at hturn
    cases hturn with
    | served hend => cases hend
    | stopped hend => cases hend
    | gone hend hgone => exact absurd hgone (by simp [aborted_of_drained hd])
    | broken hend hhere hyield => cases hyield
    | replaced hend hhere hyield => exact SoloRun.refused _
  · rw [heq] at hturn
    obtain ⟨last, hlast⟩ := streamAttempts_lastAttempt hd 0 entry.provider (enrichedRequest request entry) htyped
      env.policy.maxRetries 0 { w with circuitState := circuitState }
    generalize streamAttempts env 0 entry.provider (enrichedRequest request entry) env.policy.maxRetries 0
      { w with circuitState := circuitState } = tried at hturn hlast
    cases hturn with
    | served hcompleted hcircuit => exact SoloRun.completed hlast hcompleted
    | stopped hstopped => exact absurd hstopped hlast.not_stopped
    | gone hfail hgone => exact absurd hgone (by simp [aborted_of_drained hd])
    | @broken message hfail hhere hyield => exact SoloRun.failed message hlast hfail
    | @replaced message hfail hhere hyield => exact SoloRun.failed _ hlast hfail

/-! ## An attempt upstream -/

/-- The upstream answers the attempt's stream request with a 2xx response and this body. -/
def Upstream.Sends (up : Upstream) (id : AttemptId) (provider : AiProvider) (request : UnifiedAiRequest)
    (body : HttpBody) : Prop :=
  ∃ wire res, mapRequest provider.kind request true = .ok wire ∧
    up.fetch id provider wire = .responded res ∧ res.ok = true ∧ res.body = some body

/-- All events of the attempt pass the observer, and its stream ends. -/
def StreamAttempt.finishes (a : StreamAttempt) : Bool := a.typed && decide (a.ending = .finished)

/-- The attempt completes normally: the upstream sends a body that closes and carries the completion marker,
    and the parser goes through it. -/
def Upstream.Completes (up : Upstream) (id : AttemptId) (provider : AiProvider)
    (request : UnifiedAiRequest) : Prop :=
  ∃ n body, Native.ofKind provider.kind = some n ∧ up.Sends id provider request body ∧
    body.ending = .closed ∧ (∃ line ∈ body.lines, n.isMarker line = true) ∧
    (n.parseStream (up.freshId id) body).finishes = true

variable {up : Upstream} {n : Native} {body : HttpBody}

/-- The stream of an attempt whose upstream sends a body is the parser's. -/
theorem Upstream.Sends.streamResponse_eq (hn : Native.ofKind provider.kind = some n)
    (h : up.Sends id provider request body) :
    up.streamResponse id provider request true = n.parseStream (up.freshId id) body := by
  obtain ⟨wire, res, hmap, hfetch, hok, hbody⟩ := h
  unfold Upstream.streamResponse Upstream.streamReply
  simp only [hmap, hn, hfetch, hok, hbody, if_true]

theorem Upstream.Completes.finishes (h : up.Completes id provider request) :
    (up.streamResponse id provider request true).finishes = true := by
  obtain ⟨n, body, hn, hsends, -, -, hfinishes⟩ := h
  rw [hsends.streamResponse_eq hn]
  exact hfinishes

/-- A stream that completes normally has a `done`. -/
theorem Upstream.Completes.exists_done (h : up.Completes id provider request) :
    ∃ e ∈ (up.streamResponse id provider request true).events, e.isDone = true := by
  obtain ⟨n, body, hn, hsends, -, hmarked, hfinishes⟩ := h
  rw [hsends.streamResponse_eq hn]
  rcases n.parseStream_cases (up.freshId id) body with hparsed | ⟨message, hthrew⟩
  · have hpos : 0 < ((n.parseStream (up.freshId id) body).events.filter (·.isTerminal)).length := by
      rw [hparsed.terminals]
      exact List.countP_pos_iff.mpr hmarked
    obtain ⟨e, he⟩ := List.exists_mem_of_length_pos hpos
    exact ⟨e, List.mem_of_mem_filter he, hparsed.done e he⟩
  · simp [StreamAttempt.finishes, hthrew] at hfinishes

/-- The attempt throws, and nothing cuts it short before. -/
def StreamAttempt.breaks (a : StreamAttempt) : Bool :=
  a.typed && match a.ending with
    | .threw _ => true
    | _ => false

/-- The failure of an attempt that reaches the policy as a throw: the request does not map, the connection
    fails, a refusal's text does not print, or a body breaks, with nothing in it that stops the observer. -/
inductive Upstream.FailsLoudly (up : Upstream) (id : AttemptId) (provider : AiProvider)
    (request : UnifiedAiRequest) : Prop
  | unmapped {e : JsError} (hmap : mapRequest provider.kind request true = .error e)
  | unreachable {wire : WireRequest} {message : String}
      (hmap : mapRequest provider.kind request true = .ok wire)
      (hfetch : up.fetch id provider wire = .failed message)
  | unprintable {n : Native} {wire : WireRequest} {res : HttpResponse} {e : JsError}
      (hn : Native.ofKind provider.kind = some n) (hmap : mapRequest provider.kind request true = .ok wire)
      (hfetch : up.fetch id provider wire = .responded res) (hok : res.ok = false)
      (hrefusal : n.refusal res = some (.error e))
  | broken {n : Native} {body : HttpBody} (hn : Native.ofKind provider.kind = some n)
      (hsends : up.Sends id provider request body)
      (hbreaks : (n.parseStream (up.freshId id) body).breaks = true)

/-- **An attempt of a native adapter throws exactly when it fails loudly.** -/
theorem streamResponse_breaks_iff {up : Upstream} {id : AttemptId} {n : Native}
    (hn : Native.ofKind provider.kind = some n) :
    (up.streamResponse id provider request true).breaks = true ↔ up.FailsLoudly id provider request := by
  constructor
  · intro h
    -- the stages of the adapter in their order: mapping, fetch, status, body
    cases hmap : mapRequest provider.kind request true with
    | error e => exact .unmapped hmap
    | ok wire =>
        cases hfetch : up.fetch id provider wire with
        | failed message => exact .unreachable hmap hfetch
        | pending =>
            simp [Upstream.streamResponse, hmap, hn, hfetch, Upstream.streamReply,
              StreamAttempt.breaks] at h
        | responded res =>
            cases hok : res.ok with
            | true =>
                cases hbody : res.body with
                | none =>
                    simp [Upstream.streamResponse, hmap, hn, hfetch, Upstream.streamReply, hok, hbody,
                      StreamAttempt.breaks] at h
                | some body =>
                    have hsends : up.Sends id provider request body := ⟨wire, res, hmap, hfetch, hok, hbody⟩
                    rw [hsends.streamResponse_eq hn] at h
                    exact .broken hn hsends h
            | false =>
                cases hrefusal : n.refusal res with
                | none =>
                    simp [Upstream.streamResponse, hmap, hn, hfetch, Upstream.streamReply, hok, hrefusal,
                      StreamAttempt.breaks] at h
                | some text =>
                    cases text with
                    | error e => exact .unprintable hn hmap hfetch hok hrefusal
                    | ok message =>
                        simp [Upstream.streamResponse, hmap, hn, hfetch, Upstream.streamReply, hok,
                          hrefusal, StreamAttempt.breaks] at h
  · intro h
    cases h with
    | unmapped hmap =>
        simp [Upstream.streamResponse, hmap, StreamAttempt.breaks, StreamAttempt.typed]
    | unreachable hmap hfetch =>
        simp [Upstream.streamResponse, hmap, hn, hfetch, Upstream.streamReply, StreamAttempt.breaks,
          StreamAttempt.typed]
    | unprintable hn' hmap hfetch hok hrefusal =>
        simp [Upstream.streamResponse, hmap, hn', hfetch, Upstream.streamReply, hok, hrefusal,
          StreamAttempt.breaks, StreamAttempt.typed]
    | broken hn' hsends hbreaks =>
        rw [hsends.streamResponse_eq hn']
        exact hbreaks

/-! ## A plain setting -/

/-- A client behind which everything is at its default. -/
def plainEnv : Env :=
  { policy := {}, clock := fun _ => 0, call := fun _ _ _ _ => .timedOut,
    stream := fun _ _ _ _ => ⟨[], .stalled⟩ }

/-- No request passed yet. -/
def freshWorld : World := { circuitState := JsMap.empty, latencyTracker := LatencyTracker.empty }

/-- The adapter of the `openai` module. -/
def openAiEntry : ChainEntry := ⟨⟨"openai", .openai⟩, "gpt-4o"⟩

/-- A request without messages. -/
def emptyRequest : UnifiedAiRequest :=
  { requestId := "req-1", model := .str "gpt-4o", messages := [], stream := .bool true }

/-- An upstream behind which `fetch` always does the same. -/
def steadyUpstream (result : FetchResult) : Upstream :=
  { fetch := fun _ _ _ => result, nova := fun _ _ _ _ => .timedOut,
    novaStream := fun _ _ _ _ => ⟨[], .stalled⟩ }

end Sirius
