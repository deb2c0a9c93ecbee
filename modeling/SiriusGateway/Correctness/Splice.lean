import SiriusGateway.Correctness.Drained
import SiriusGateway.Correctness.StreamStages

/-!
# `Correctness.Splice` — one attempt speaks

Two nested retry loops, each with its own flag for "output already sent". In every run of a stream request
the consumer receives the events of one attempt, in the order the attempt gave them, and at most one error
event of the gateway; and once it has received anything, no operation is handed a signal that has not fired
(`one_attempt_speaks`).

## Contents
- **Steps of the gateway.** One lemma for each, and `stage_step` over all steps.
- **Runs.** The invariant after every run (`Spoken`).
- **The result.** With a retry that wakes after another provider has spoken.
-/

namespace Sirius

open Lts

namespace StreamSystem

variable {env : Env} {request : UnifiedAiRequest} {chain : List ChainEntry} {s t : StreamSystem}
  {l : RequestLabel} {past : List RequestLabel}

/-! ## Steps of the gateway -/

/-- The position `k` has failed, `shown` having been received of an attempt: the client is gone, or the
    failure is what the stream of that attempt is over with, or nothing has been received and the next
    position is opened. -/
theorem stage_afterFailure (id : AttemptId) (shown : List UnifiedStreamEvent) {k : Nat}
    (hphase : s.request.phase = if s.request.clientAborted || s.request.yieldedAny then .ended
      else RequestSystem.openAt (names chain) (k + 1))
    (hpending : s.pending = none) (hheard : s.Heard id shown)
    (hshown : shown ≠ [] → ∃ live attempt, script env request chain id live = some attempt ∧
      id ∈ invoked s.request ∧ shown <+: attempt.events ∧
      (s.request.clientAborted = false → ∃ message, s.lastError = some message ∧
        Closing attempt shown (s.request.clientAborted = true) (.stop ∈ past) [message])) :
    Stage env request chain past (s.afterFailure request chain k) := by
  cases hgone : s.request.clientAborted with
  | true =>
      rw [hgone, Bool.true_or, if_pos rfl] at hphase
      simp only [afterFailure, hgone, if_true, Stage, hphase]
      refine ⟨id, shown, [], by simpa using hheard.received, Nat.zero_le 1, fun hne => ?_⟩
      obtain ⟨live, attempt, hscript, hinvoked, hpre, -⟩ := hshown hne
      exact ⟨live, attempt, hscript, hinvoked, hpre, fun _ => Closing.aborted hgone hpre⟩
  | false =>
      cases hyield : s.request.yieldedAny with
      | true =>
          rw [hgone, hyield, Bool.or_true, if_pos rfl] at hphase
          have hne : shown ≠ [] := by
            rintro rfl
            cases hyield.symm.trans hheard.yieldedAny
          obtain ⟨live, attempt, hscript, hinvoked, hpre, hclosing⟩ := hshown hne
          obtain ⟨message, hmessage, hclosing⟩ := hclosing hgone
          simp only [afterFailure, hgone, hyield, Bool.false_eq_true, if_false, if_true, hmessage, Stage, hphase]
          refine ⟨id, shown, [message], ?_, le_refl 1, fun _ => ?_⟩
          · rw [hheard.received]
            rfl
          · exact ⟨live, attempt, hscript, hinvoked, hpre, fun _ => hclosing⟩
      | false =>
          rw [hgone, hyield, Bool.or_false, if_neg Bool.false_ne_true] at hphase
          obtain rfl : shown = [] := by simpa [hyield] using hheard.yieldedAny
          by_cases hmore : k + 1 < chain.length
          · rw [RequestSystem.openAt, if_pos (by simpa [names] using hmore)] at hphase
            simp only [afterFailure, hgone, hyield, Bool.false_eq_true, if_false, if_pos hmore, Stage, hphase]
            exact ⟨hheard.received, hyield, hpending⟩
          · rw [RequestSystem.openAt, if_neg (by simpa [names] using hmore)] at hphase
            simp only [afterFailure, hgone, hyield, Bool.false_eq_true, if_false, if_neg hmore, Stage, hphase]
            refine ⟨id, [], [allFailedMessage request s.lastError], ?_, le_refl 1, fun hne => absurd rfl hne⟩
            rw [hheard.received]
            rfl

section Awaiting

variable {k : Nat} (more : List RequestLabel) (h : Stage env request chain past s)
include h

/-- The event on its way reaches the consumer. -/
theorem stage_deliver (hphase : s.request.phase = .waiting k) (hallows : s.allows .deliver = true) :
    Stage env request chain (past ++ more) (s.follow env request chain .deliver
      { s.request with yieldedAny := true, phase := .yielding k }) := by
  simp only [allows, Option.any_eq_true] at hallows
  obtain ⟨event, hpending, -⟩ := hallows
  simp only [Stage, hphase] at h
  rcases h with ⟨hsilent, -⟩ | ⟨pulled, shown, yielded, hpulls⟩
  · cases hsilent.pending.symm.trans hpending
  · obtain rfl : yielded = true := by
      cases yielded with
      | true => rfl
      | false => cases (hpulls.flag rfl).2.symm.trans hpending
    obtain ⟨attempt, hscript, hending, hevents⟩ := hpulls.script
    refine ⟨rfl, pulled, shown ++ [event], by simp, hpulls.current, hpulls.position, hpulls.attempting,
      ⟨attempt, hscript, hending, ?_⟩, hpulls.invoked, ⟨?_, ?_⟩, ?_⟩
    · rw [hevents, hpending]
      simp [follow]
    · simp [follow, hpulls.heard.received, hpending, hpulls.current]
    · simp [follow]
    · -- the attempt has yielded
      intro hquiet
      cases hquiet

/-- The consumer pulls. -/
theorem stage_pull (hphase : s.request.phase = .yielding k) :
    Stage env request chain (past ++ more) (s.follow env request chain .pull
      { s.request with phase := .waiting k }) := by
  simp only [Stage, hphase] at h
  obtain ⟨-, pulled, shown, -, hpulls⟩ := h
  exact Or.inr ⟨pulled, shown, true, hpulls.current, hpulls.position, hpulls.attempting, hpulls.script,
    hpulls.invoked, ⟨hpulls.heard.received, hpulls.heard.yieldedAny⟩, hpulls.flag⟩

/-- The idle timer fires. -/
theorem stage_idle (hphase : s.request.phase = .waiting k) (hallows : s.allows .idle = true) :
    Stage env request chain (past ++ more) (s.follow env request chain .idle
      (s.request.tearDown .stream k (s.request.afterFailure (names chain) k))) := by
  have hpending : s.pending = none := Option.isNone_iff_eq_none.mp hallows
  simp only [Stage, hphase] at h
  simp only [follow, hphase]
  rcases h with ⟨hsilent, -⟩ | ⟨pulled, shown, yielded, hpulls⟩
  · exact stage_afterFailure ⟨0, 0⟩ [] rfl hpending
      ⟨hsilent.received, hsilent.yieldedAny⟩ fun hne => absurd rfl hne
  · obtain ⟨attempt, hscript, hpre⟩ := hpulls.shown_prefix
    refine stage_afterFailure pulled.id shown rfl hpending
      ⟨hpulls.heard.received, hpulls.heard.yieldedAny⟩ fun _ => ?_
    exact ⟨pulled.live, attempt, hscript, hpulls.invoked, hpre, fun _ => ⟨_, rfl, Closing.idle hpre⟩⟩

/-- The consumer stops before its first pull. -/
theorem stage_unpulled (hphase : s.request.phase = .opening 0) :
    Stage env request chain (past ++ [.stop]) (s.follow env request chain .stop
      { s.request with phase := .ended }) := by
  simp only [Stage, hphase] at h
  exact Silent.told ⟨h.received, h.yieldedAny, h.pending⟩

/-- The consumer stops pulling. -/
theorem stage_stop (hphase : s.request.phase = .yielding k) :
    Stage env request chain (past ++ [.stop]) (s.follow env request chain .stop
      (s.request.tearDown .stream k .ended)) := by
  simp only [Stage, hphase] at h
  obtain ⟨-, pulled, shown, -, hpulls⟩ := h
  obtain ⟨attempt, hscript, hpre⟩ := hpulls.shown_prefix
  refine ⟨pulled.id, shown, [], by simpa [follow] using hpulls.heard.received, Nat.zero_le 1, fun _ => ?_⟩
  exact ⟨pulled.live, attempt, hscript, hpulls.invoked, hpre, fun _ => Closing.stopped (by simp) hpre⟩

/-- The gateway goes on after its policy call has ended: a completed stream is all the consumer gets. -/
theorem stage_completed (hphase : s.request.phase = .settled k true) :
    Stage env request chain (past ++ more) (s.follow env request chain .resume
      (s.request.tearDown .stream k .ended)) := by
  simp only [Stage, hphase] at h
  obtain ⟨-, id, shown, hheard, hsettled⟩ := h
  simp only [follow, hphase]
  refine ⟨id, shown, [], by simpa using hheard.received, Nat.zero_le 1, fun hne => ?_⟩
  obtain ⟨live, attempt, hscript, hinvoked, hsettled⟩ := hsettled hne
  refine ⟨live, attempt, hscript, hinvoked, hsettled.begins, fun _ => ?_⟩
  cases hsettled with
  | completed hall hend => exact Closing.finished hall hend

/-- A failed one is followed by the gateway's error, or by the next position. -/
theorem stage_failed (hphase : s.request.phase = .settled k false) :
    Stage env request chain (past ++ more) (s.follow env request chain .resume
      (s.request.tearDown .stream k (s.request.afterFailure (names chain) k))) := by
  simp only [Stage, hphase] at h
  obtain ⟨hpending, id, shown, hheard, hsettled⟩ := h
  simp only [follow, hphase]
  refine stage_afterFailure id shown rfl hpending ⟨hheard.received, hheard.yieldedAny⟩ fun hne => ?_
  obtain ⟨live, attempt, hscript, hinvoked, hsettled⟩ := hsettled hne
  refine ⟨live, attempt, hscript, hinvoked, hsettled.begins, fun hhere => ?_⟩
  cases hsettled with
  | threw hall hend herror => exact ⟨_, herror, Closing.threw hall hend⟩
  | rejected hbad htype herror => exact ⟨_, herror, Closing.rejected hbad htype⟩
  | aborted hgone => cases hhere.symm.trans hgone

end Awaiting

/-- **Every step keeps the stage.** -/
theorem stage_step (h : Stage env request chain past s)
    (hord : RequestSystem.Ordered (names chain) s.request) (hstep : step env request chain s l = some t) :
    Stage env request chain (past ++ [l]) t := by
  obtain ⟨hallows, r, hr, rfl⟩ := follow_of_step hstep
  cases RequestSystem.effect_of_step hr with
  | clientAbort =>
      have hbeside : Beside s (s.follow env request chain .clientAbort
          { s.request with
            signals := s.request.signals.fire (List.range (names chain).length), clientAborted := true }) :=
        ⟨rfl, rfl, fun _ => rfl, rfl, rfl, rfl, rfl, List.Subset.refl _, fun _ _ => rfl⟩
      exact h.beside hbeside _
  | @otherAbort calls hothers =>
      have hbeside : Beside s (s.follow env request chain (.otherAbort calls)
          { s.request with signals := s.request.signals.fire calls }) :=
        ⟨rfl, rfl, id, rfl, rfl, rfl, rfl, List.Subset.refl _, fun _ _ => rfl⟩
      exact h.beside hbeside _
  | policy => exact stage_policy _ h hord hstep
  | deliver hphase => exact stage_deliver _ h hphase hallows
  | pull hphase => exact stage_pull _ h hphase
  | idle hkind hphase => exact stage_idle _ h hphase hallows
  | unpulled hkind hphase => exact stage_unpulled h hphase
  | stop hkind hphase => exact stage_stop h hphase
  | @resume k completed hphase =>
      cases completed with
      | true => exact stage_completed _ h hphase
      | false => exact stage_failed _ h hphase

/-! ## Runs -/

/-- A request at its start: nobody has spoken, or the chain is empty. -/
theorem stage_initial : Stage env request chain [] (initial request chain) := by
  cases chain with
  | nil => exact ⟨⟨0, 0⟩, [], [allFailedMessage request none], rfl, le_refl 1, fun hne => absurd rfl hne⟩
  | cons entry rest => exact ⟨rfl, rfl, rfl⟩

/-- A step of the events is a step of the request under it. -/
theorem request_of_step (h : step env request chain s l = some t) :
    RequestSystem.step env.policy .stream (names chain) s.request l = some t.request := by
  obtain ⟨-, r, hr, rfl⟩ := follow_of_step h
  rw [request_follow]
  exact hr

/-- What holds in every reachable state: the request is served and its positions are taken in order, and the
    gateway's phase says who has spoken. -/
structure Spoken (env : Env) (request : UnifiedAiRequest) (chain : List ChainEntry)
    (past : List RequestLabel) (s : StreamSystem) : Prop where
  served : RequestSystem.Served (names chain) s.request
  ordered : RequestSystem.Ordered (names chain) s.request
  stage : Stage env request chain past s

/-- Before the first step nobody has spoken. -/
theorem spoken_initial : Spoken env request chain [] (initial request chain) :=
  ⟨RequestSystem.served_initial, RequestSystem.ordered_initial, stage_initial⟩

/-- **Every step keeps the invariant.** -/
theorem spoken_step (h : Spoken env request chain past s) (hstep : step env request chain s l = some t) :
    Spoken env request chain (past ++ [l]) t := by
  have hrequest := request_of_step hstep
  exact ⟨RequestSystem.served_step h.served hrequest, RequestSystem.ordered_step h.ordered hrequest,
    stage_step h.stage h.ordered hstep⟩

/-- **The invariant holds after every run.** -/
theorem spoken_of_run {labels : List RequestLabel}
    (h : Run (step env request chain) (initial request chain) labels s) :
    Spoken env request chain labels s :=
  Run.history (I := Spoken env request chain) (fun _ _ _ _ hs hstep => spoken_step hs hstep) h []
    spoken_initial

/-- Once anything has been received, no step hands out a signal that has not fired. -/
theorem Spoken.not_live {i : Invocation} (h : Spoken env request chain past s) (hne : s.received ≠ [])
    (hstep : step env request chain s l = some t)
    (hhanded : t.request.signals.handed = s.request.signals.handed ++ [i]) :
    i ∉ t.request.liveSignals (names chain) := by
  intro hlive
  have hstage := h.stage
  rcases h.served.handed_live (request_of_step hstep) hhanded hlive with
    hopening | ⟨hat, provider, kind, attempt, hasleep⟩
  · simp only [Stage, hopening] at hstage
    exact hne hstage.received
  · have hcall := callAt_of_get hasleep
    rcases hat with hwaiting | hyielding
    · exact hne (hstage.silent_of_backoff hwaiting hcall).received
    · simp only [Stage, hyielding] at hstage
      obtain ⟨-, pulled, shown, -, hpulls⟩ := hstage
      cases hcall.symm.trans hpulls.attempting

end StreamSystem

/-! ## The result -/

open StreamSystem in
/-- **One attempt speaks**, for every chain and every script of attempts, over every run: whatever the order
    of retries, back-offs, idle timers and client aborts, whenever the consumer stops, with other requests
    in between and policy calls that go on after the gateway has given them up. What the consumer has
    received is, in order, a first part of what one attempt gave and at most one error event of the gateway
    after it. When the run has ended it is all of what that attempt gave, unless the observer threw, the idle
    timer fired, the consumer stopped or the client aborted there (`Closing`). And once anything has been
    received, no step hands an operation of the request a signal that has not fired. -/
theorem one_attempt_speaks {env : Env} {request : UnifiedAiRequest} {chain : List ChainEntry}
    {labels : List RequestLabel} {s : StreamSystem}
    (hrun : Run (StreamSystem.step env request chain) (StreamSystem.initial request chain) labels s) :
    (∃ (id : AttemptId) (shown : List UnifiedStreamEvent) (errors : List String),
      s.received = (shown.map fun e => (some id, e)) ++ errors.map (fun m => (none, .error m none)) ∧
      errors.length ≤ 1 ∧
      (shown ≠ [] → ∃ live attempt, script env request chain id live = some attempt ∧
        id ∈ invoked s.request ∧ shown <+: attempt.events ∧
        (s.request.phase = .ended →
          Closing attempt shown (s.request.clientAborted = true) (.stop ∈ labels) errors))) ∧
    (s.received ≠ [] → ∀ l t i, StreamSystem.step env request chain s l = some t →
      t.request.signals.handed = s.request.signals.handed ++ [i] →
        i ∉ t.request.liveSignals (names chain)) := by
  have hspoken := spoken_of_run hrun
  exact ⟨hspoken.stage.told, fun hne l t i hstep hhanded => hspoken.not_live hne hstep hhanded⟩

/-! ### A retry that wakes after another provider has spoken -/

/-- The first provider always hangs up; the second one greets. -/
def hangUpEnv : Env :=
  { plainEnv with
    stream := fun id _ _ _ =>
      if id.position = 0 then ⟨[], .threw "socket hang up"⟩
      else ⟨[.contentDelta (.json (.str "Hi")), .done "stop"], .finished⟩ }

/-- The chain of both. -/
def hangUpChain : List ChainEntry := [openAiEntry, ⟨⟨"anthropic", .anthropic⟩, "claude"⟩]

/-- The first provider fails and sleeps, and the idle timer gives it up; the second one greets, the first
    one is invoked once more, and the second one ends. -/
def lateWakeRun : List RequestLabel :=
  [.policy ⟨0, .enter 0 .stream "openai" false⟩, .policy ⟨1, .fail 0 false⟩, .idle,
    .policy ⟨2, .enter 1 .stream "anthropic" false⟩, .policy ⟨3, .event 1⟩, .deliver,
    .policy ⟨4, .wake 0⟩, .pull, .policy ⟨5, .event 1⟩, .deliver, .pull, .policy ⟨6, .succeed 1⟩, .resume]

theorem one_attempt_speaks_lateWake :
    ∃ s, Run (StreamSystem.step hangUpEnv emptyRequest hangUpChain)
        (StreamSystem.initial emptyRequest hangUpChain) lateWakeRun s ∧
      s.received = [(some ⟨1, 0⟩, .contentDelta (.json (.str "Hi"))), (some ⟨1, 0⟩, .done "stop")] ∧
      s.request.signals.handed.length = 3 ∧
      (∀ l t i, StreamSystem.step hangUpEnv emptyRequest hangUpChain s l = some t →
        t.request.signals.handed = s.request.signals.handed ++ [i] →
          i ∉ t.request.liveSignals (StreamSystem.names hangUpChain)) := by
  have hdone : (exec (StreamSystem.step hangUpEnv emptyRequest hangUpChain)
      (StreamSystem.initial emptyRequest hangUpChain) lateWakeRun).map
        (fun s => (s.received, s.request.signals.handed.length)) =
      some ([(some ⟨1, 0⟩, .contentDelta (.json (.str "Hi"))), (some ⟨1, 0⟩, .done "stop")], 3) := by decide
  obtain ⟨s, hs, hboth⟩ := Option.map_eq_some_iff.mp hdone
  obtain ⟨hreceived, hthree⟩ := Prod.mk.inj hboth
  have hrun := run_iff_exec.mpr hs
  exact ⟨s, hrun, hreceived, hthree,
    (one_attempt_speaks hrun).2 (by rw [hreceived]; exact List.cons_ne_nil _ _)⟩

end Sirius
