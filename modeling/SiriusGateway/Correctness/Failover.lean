import SiriusGateway.Correctness.Drained

/-!
# `Correctness.Failover` — the two failover loops

`createResponse` and `streamResponse` walk the same chain with separate loops. Where every adapter either
answers or refuses each of its attempts, the call goes to the first that answers (`createChain_stops`). The
stream goes there too, unless an adapter before it reports a refusal as an event: then that event is all the
client receives (`streamChain_stops`). The two agree exactly when none does (`failover_agrees_iff`).

## Contents
- **Other breakers.** A policy run touches its own provider's breaker only.
- **Refusals and answers.** `RefusesAt`, `AnswersAt`, and what they are to either loop.
- **Where the loops stop.** `createChain_stops`, `streamChain_stops`.
- **Agreement.** `FailoverAgrees` and its exact condition.
- **Two adapters.** The first refused, the second answering.
-/

namespace Sirius

open Js

variable {env : Env} {position : Nat} {provider : AiProvider} {request : UnifiedAiRequest}

/-! ## Other breakers -/

/-- The breakers of the other providers are left alone. -/
def OthersKept (p : String) (w w' : World) : Prop :=
  ∀ q, q ≠ p → w'.circuitState.getCircuitBreakerState q = w.circuitState.getCircuitBreakerState q

theorem OthersKept.refl (p : String) (w : World) : OthersKept p w w := fun _ _ => rfl

theorem OthersKept.trans {p : String} {w₁ w₂ w₃ : World} (h : OthersKept p w₁ w₂)
    (h' : OthersKept p w₂ w₃) : OthersKept p w₁ w₃ := fun q hq => (h' q hq).trans (h q hq)

theorem othersKept_recordSuccess (p : String) (w : World) : OthersKept p w (w.recordSuccess p) :=
  fun _ hq => CircuitMap.getState_recordSuccess_ne hq

theorem othersKept_recordFailure (env : Env) (p : String) (w : World) :
    OthersKept p w (w.recordFailure env p) :=
  fun _ hq => CircuitMap.getState_recordFailure_ne hq

theorem othersKept_check {p : String} {w : World} {circuitState : CircuitMap}
    (h : CircuitMap.checkCircuitBreaker env.policy (w.now env) w.circuitState p = .ok circuitState) :
    OthersKept p w { w with circuitState := circuitState } :=
  fun _ hq => CircuitMap.getState_check_ne h hq

theorem circuitState_forwardEvents (id : AttemptId) (events : List UnifiedStreamEvent) :
    ∀ (yielded : Bool) (w : World),
      (forwardEvents env id events yielded w).world.circuitState = w.circuitState := by
  induction events with
  | nil => exact fun _ _ => rfl
  | cons event rest ih =>
      intro yielded w
      simp only [forwardEvents]
      split
      · rfl
      · split
        · rfl
        · exact ih true { w.next with sent := w.next.sent + 1 }

theorem othersKept_streamAttempts (remaining attempt : Nat) (w : World) :
    OthersKept provider.name w
      (streamAttempts env position provider request remaining attempt w).world := by
  refine streamAttempts_rule (P := fun _ _ w o => OthersKept provider.name w o.world) env position
    provider request ?_ remaining attempt w
  intro remaining attempt w o hturn hretry
  have hshown : OthersKept provider.name w
      (forwardedOf env position provider request attempt w).world := fun q _ => by
    unfold forwardedOf
    rw [circuitState_forwardEvents]
  have hfailed : OthersKept provider.name w (failedWorld env position provider request attempt w) :=
    hshown.trans (othersKept_recordFailure env provider.name
      (forwardedOf env position provider request attempt w).world.next)
  cases hturn with
  | cut => exact hshown
  | finished =>
      exact hshown.trans (othersKept_recordSuccess provider.name
        (forwardedOf env position provider request attempt w).world.next)
  | stalled => exact hshown
  | aborted => exact hshown
  | failed => exact hfailed
  | abandoned =>
      refine hfailed.trans ?_
      unfold abandonedAttempt
      split
      · exact othersKept_recordSuccess provider.name
          (failedWorld env position provider request attempt w).next
      · exact OthersKept.refl _ _
  | retried hall hend hhere hsilent hmore hidle =>
      exact hfailed.trans (hretry _ (failedWorld env position provider request attempt w).next hmore)

theorem othersKept_executeStreamWithPolicy (w : World) :
    OthersKept provider.name w (executeStreamWithPolicy env position provider request w).world := by
  unfold executeStreamWithPolicy
  split
  · exact OthersKept.refl _ _
  · rename_i hcheck
    simp only
    split
    · exact othersKept_check hcheck
    · exact (othersKept_check hcheck).trans (othersKept_streamAttempts _ _ _)

theorem othersKept_executeWithPolicy (w : World) :
    OthersKept provider.name w (executeWithPolicy env position provider request w).world := by
  have hattempts : ∀ remaining attempt w, OthersKept provider.name w
      (callAttempts env position provider request remaining attempt w).world := by
    refine callAttempts_rule (P := fun _ _ w o => OthersKept provider.name w o.world) env position
      provider request ?_
    intro remaining attempt w o hturn hretry
    have hfailed := othersKept_recordFailure env provider.name w.next
    cases hturn with
    | returned => exact othersKept_recordSuccess provider.name w.next
    | gone => exact OthersKept.refl _ _
    | failed => exact hfailed
    | retried hcall hhere hmore =>
        exact OthersKept.trans hfailed (hretry _ (w.next.recordFailure env provider.name).next hmore)
  unfold executeWithPolicy
  split
  · exact OthersKept.refl _ _
  · rename_i hcheck
    simp only
    split
    · exact othersKept_check hcheck
    · exact (othersKept_check hcheck).trans (hattempts _ _ _)

/-! ## Refusals and answers -/

/-- The connection fails, or the status is no 2xx. -/
def FetchResult.Refused : FetchResult → Prop
  | .failed _ => True
  | .responded res => res.ok = false
  | .pending => False

variable (up : Upstream)

/-- The native adapter at this position of the chain is refused whatever it sends. -/
def RefusesAt (position : Nat) (provider : AiProvider) (request : UnifiedAiRequest) : Prop :=
  ∃ n, Native.ofKind provider.kind = some n ∧
    ∀ attempt stream wire, mapRequest provider.kind request stream = .ok wire →
      (up.fetch ⟨position, attempt⟩ provider wire).Refused

/-- The upstream answers the attempt's call, and the adapter reads the answer as this response. -/
def Upstream.Responds (id : AttemptId) (provider : AiProvider) (request : UnifiedAiRequest)
    (response : UnifiedAiResponse) : Prop :=
  ∃ n wire res text raw, Native.ofKind provider.kind = some n ∧
    mapRequest provider.kind request false = .ok wire ∧ up.fetch id provider wire = .responded res ∧
    res.ok = true ∧ res.readText = .text text ∧ parseJson (.json (.str text)) = .ok raw ∧
    n.fromResponse (up.freshId id) (up.now id) raw provider.name (up.latencyMs id) = .ok response

/-- The native adapter at this position of the chain answers normally, streaming and not. -/
def AnswersAt (position : Nat) (provider : AiProvider) (request : UnifiedAiRequest) : Prop :=
  up.Completes ⟨position, 0⟩ provider request ∧
    ∃ response, up.Responds ⟨position, 0⟩ provider request response

/-- The attempt is refused by a status, with a text that can be read and printed. -/
def Upstream.Reports (id : AttemptId) (provider : AiProvider) (request : UnifiedAiRequest) : Prop :=
  ∃ n wire res message, Native.ofKind provider.kind = some n ∧
    mapRequest provider.kind request true = .ok wire ∧ up.fetch id provider wire = .responded res ∧
    res.ok = false ∧ n.refusal res = some (.ok message)

variable {up}

theorem Upstream.Reports.streamResponse_eq {id : AttemptId} (h : up.Reports id provider request) :
    ∃ message, up.streamResponse id provider request true = ⟨[.error message], .finished⟩ := by
  obtain ⟨n, wire, res, message, hn, hmap, hfetch, hok, hrefusal⟩ := h
  refine ⟨message, ?_⟩
  simp [Upstream.streamResponse, hmap, hn, hfetch, Upstream.streamReply, hok, hrefusal]

theorem Upstream.Responds.createResponse_eq {id : AttemptId} {response : UnifiedAiResponse}
    (h : up.Responds id provider request response) :
    up.createResponse id provider request true = .returned response := by
  obtain ⟨n, wire, res, text, raw, hn, hmap, hfetch, hok, htext, hparse, hresponse⟩ := h
  simp [Upstream.createResponse, hmap, hn, hfetch, Upstream.callReply, hok, htext, hparse, hresponse]

/-- **A refused stream attempt** reports the refusal, or yields nothing and does not end. -/
theorem RefusesAt.streamResponse (h : RefusesAt up position provider request) (attempt : Nat) :
    (∃ message, up.streamResponse ⟨position, attempt⟩ provider request true =
        ⟨[.error message], .finished⟩ ∧ up.Reports ⟨position, attempt⟩ provider request) ∨
      ((up.streamResponse ⟨position, attempt⟩ provider request true).events = [] ∧
        (up.streamResponse ⟨position, attempt⟩ provider request true).ending ≠ .finished) := by
  obtain ⟨n, hn, hrefused⟩ := h
  cases hmap : mapRequest provider.kind request true with
  | error e =>
      have heq : up.streamResponse ⟨position, attempt⟩ provider request true =
          ⟨[], .threw e.message⟩ := by
        simp [Upstream.streamResponse, hmap]
      rw [heq]
      exact Or.inr ⟨rfl, threw_ne_finished _⟩
  | ok wire =>
      have heq : up.streamResponse ⟨position, attempt⟩ provider request true =
          up.streamReply ⟨position, attempt⟩ n (up.fetch ⟨position, attempt⟩ provider wire) := by
        simp [Upstream.streamResponse, hmap, hn]
      have hfetched := hrefused attempt true wire hmap
      rw [heq]
      cases hfetch : up.fetch ⟨position, attempt⟩ provider wire with
      | failed message => exact Or.inr ⟨rfl, threw_ne_finished _⟩
      | pending =>
          rw [hfetch] at hfetched
          exact hfetched.elim
      | responded res =>
          rw [hfetch] at hfetched
          have hok : res.ok = false := hfetched
          simp only [Upstream.streamReply, hok, Bool.false_eq_true, if_false]
          cases hrefusal : n.refusal res with
          | none => exact Or.inr ⟨rfl, stalled_ne_finished⟩
          | some text =>
              cases text with
              | error e => exact Or.inr ⟨rfl, threw_ne_finished _⟩
              | ok message =>
                  exact Or.inl ⟨message, rfl, n, wire, res, message, hn, hmap, hfetch, hok, hrefusal⟩

/-- A refused call fails. -/
theorem RefusesAt.createResponse (h : RefusesAt up position provider request) (attempt : Nat)
    (cfg : PolicyConfig) :
    ∃ message, (up.createResponse ⟨position, attempt⟩ provider request true).failure cfg =
      some message := by
  obtain ⟨n, hn, hrefused⟩ := h
  cases hmap : mapRequest provider.kind request false with
  | error e => exact ⟨e.message, by simp [Upstream.createResponse, hmap, CallAttempt.failure]⟩
  | ok wire =>
      have heq : up.createResponse ⟨position, attempt⟩ provider request true =
          up.callReply ⟨position, attempt⟩ n provider.name
            (up.fetch ⟨position, attempt⟩ provider wire) := by
        simp [Upstream.createResponse, hmap, hn]
      have hfetched := hrefused attempt false wire hmap
      rw [heq]
      cases hfetch : up.fetch ⟨position, attempt⟩ provider wire with
      | failed message => exact ⟨message, rfl⟩
      | pending =>
          rw [hfetch] at hfetched
          exact hfetched.elim
      | responded res =>
          rw [hfetch] at hfetched
          have hok : res.ok = false := hfetched
          simp only [Upstream.callReply, hok, Bool.false_eq_true, if_false]
          cases n.refusal res with
          | none => exact ⟨timeoutMessage cfg, rfl⟩
          | some text =>
              cases text with
              | error e => exact ⟨e.message, rfl⟩
              | ok message => exact ⟨message, rfl⟩

/-- One of the adapter's attempts reports its refusal; those before it throw and are retried. -/
def ReportsRefusal (up : Upstream) (base : Env) (position : Nat) (provider : AiProvider)
    (request : UnifiedAiRequest) : Prop :=
  ∃ j ≤ base.policy.maxRetries, up.Reports ⟨position, j⟩ provider request ∧
    ∀ i < j, up.FailsLoudly ⟨position, i⟩ provider request ∧ base.idleInBackoff ⟨position, i⟩ = false

variable {base : Env}

/-- The turn of a refused adapter in the stream loop: its stream consists of the refusal, if `Reported`, or
    the loop goes on. -/
inductive RefusedTurn (Reported : Prop) (tried : Outcome StreamResult) : Prop
  | reported (h : Reported) (hend : tried.result.ending = .completed) {id : AttemptId} {message : String}
      (hreceived : received tried.actions = [(some id, .error message)])
  | passed (h : ¬ Reported) {message : String} (hfail : tried.result.ending.failure = some message)
      (hsilent : tried.result.yieldedAny = false) (hreceived : received tried.actions = [])

theorem RefusesAt.typed (h : RefusesAt up position provider request) (i : Nat) :
    (attemptOf (up.drained base) position provider request i).typed = true := by
  show (up.streamResponse ⟨position, i⟩ provider request true).typed = true
  rcases h.streamResponse i with ⟨message, heq, -⟩ | ⟨hevents, -⟩
  · rw [heq]
    rfl
  · unfold StreamAttempt.typed
    rw [hevents]
    rfl

/-- Of a refused attempt, a silent throw is a loud failure and the other way round. -/
theorem RefusesAt.silentThrow_iff (h : RefusesAt up position provider request) (i : Nat) :
    (up.streamResponse ⟨position, i⟩ provider request true).SilentThrow ↔
      up.FailsLoudly ⟨position, i⟩ provider request := by
  obtain ⟨n, hn, -⟩ := id h
  rw [← streamResponse_breaks_iff hn]
  rcases h.streamResponse i with ⟨message, heq, -⟩ | ⟨hevents, -⟩
  · rw [heq]
    exact ⟨fun hthrow => absurd hthrow.1 nofun, fun hbreaks => absurd hbreaks nofun⟩
  · constructor
    · intro hthrow
      obtain ⟨message, hend⟩ := hthrow.2
      simp [StreamAttempt.breaks, StreamAttempt.typed_of_silentThrow hthrow, hend]
    · intro hbreaks
      refine ⟨hevents, ?_⟩
      unfold StreamAttempt.breaks at hbreaks
      split at hbreaks
      · exact ⟨_, ‹_›⟩
      · simp at hbreaks

section

variable {tried : Outcome StreamResult} {last : Nat}

/-- The last attempt reports its refusal, so one does. -/
theorem RefusesAt.reportsRefusal (h : RefusesAt up position provider request)
    (hlast : LastAttempt (up.drained base) position provider request base.policy.maxRetries 0 tried last)
    (hreports : up.Reports ⟨position, last⟩ provider request) :
    ReportsRefusal up base position provider request := by
  refine ⟨last, ?_, hreports, fun i hi => ?_⟩
  · have hrange := hlast.range.2
    rwa [Nat.zero_add] at hrange
  · obtain ⟨hthrow, hidle⟩ := hlast.before i (Nat.zero_le i) hi
    exact ⟨(h.silentThrow_iff i).mp hthrow, hidle⟩

/-- The last attempt does not report a refusal, so none does that is made. -/
theorem RefusesAt.not_reportsRefusal (h : RefusesAt up position provider request)
    (hlast : LastAttempt (up.drained base) position provider request base.policy.maxRetries 0 tried last)
    (hopen : (up.streamResponse ⟨position, last⟩ provider request true).ending ≠ .finished) :
    ¬ ReportsRefusal up base position provider request := by
  rintro ⟨j, hj, hreports, hbefore⟩
  obtain ⟨message, hreport⟩ := hreports.streamResponse_eq
  rcases Nat.lt_trichotomy j last with hlt | rfl | hgt
  · have hevents : (up.streamResponse ⟨position, j⟩ provider request true).events = [] :=
      (hlast.before j (Nat.zero_le j) hlt).1.1
    rw [hreport] at hevents
    cases hevents
  · rw [hreport] at hopen
    exact hopen rfl
  · -- the last attempt would have been retried
    obtain ⟨hloud, hidle⟩ := hbefore last hgt
    have hidle' := hlast.exhausted ((h.silentThrow_iff last).mpr hloud) (by
      rw [Nat.zero_add]
      exact Nat.lt_of_lt_of_le hgt hj)
    exact Bool.false_ne_true (hidle.symm.trans hidle')

end

/-- A run whose breaker turns it away. -/
theorem executeStreamWithPolicy_rejected (position : Nat) (request : UnifiedAiRequest) {w : World}
    (h : ¬ Admits env w provider) :
    ∃ message, executeStreamWithPolicy env position provider request w =
      ⟨w, [], ⟨.threw message, false⟩⟩ := by
  unfold executeStreamWithPolicy
  cases hcheck : CircuitMap.checkCircuitBreaker env.policy (w.now env) w.circuitState provider.name with
  | error e => exact ⟨e.message, rfl⟩
  | ok circuitState => exact absurd ⟨circuitState, hcheck⟩ h

/-- **The turn of a refused adapter in the stream loop.** -/
theorem RefusesAt.streamTurn (h : RefusesAt up position provider request) (base : Env) (w : World) :
    RefusedTurn (Admits (up.drained base) w provider ∧ ReportsRefusal up base position provider request)
      (executeStreamWithPolicy (up.drained base) position provider request w) := by
  by_cases hadmits : Admits (up.drained base) w provider
  · obtain ⟨circuitState, hcheck⟩ := id hadmits
    rw [executeStreamWithPolicy_admitted (up.drained_drained base) hcheck]
    obtain ⟨last, hlast⟩ := streamAttempts_lastAttempt (up.drained_drained base) position provider
      request h.typed base.policy.maxRetries 0
      { w with circuitState := circuitState }
    have hreceived := hlast.received
    have hyielded := hlast.yielded
    have hending := hlast.ending
    change received _ = (up.streamResponse ⟨position, last⟩ provider request true).events.map _
      at hreceived
    change _ = !(up.streamResponse ⟨position, last⟩ provider request true).events.isEmpty at hyielded
    change if (up.streamResponse ⟨position, last⟩ provider request true).ending = .finished then _ else _
      at hending
    rcases h.streamResponse last with ⟨message, heq, hreports⟩ | ⟨hevents, hopen⟩
    · rw [heq] at hreceived hending
      exact .reported ⟨hadmits, h.reportsRefusal hlast hreports⟩ hending hreceived
    · rw [if_neg hopen] at hending
      rw [hevents] at hreceived hyielded
      obtain ⟨failure, hfail⟩ := hending
      exact .passed (fun hboth => h.not_reportsRefusal hlast hopen hboth.2) hfail hyielded hreceived
  · obtain ⟨message, heq⟩ := executeStreamWithPolicy_rejected position request hadmits
    rw [heq]
    exact .passed (fun hboth => hadmits hboth.1) rfl rfl rfl

/-- **The turn of an answering adapter in the stream loop**: its events are delivered. -/
theorem streamTurn_of_completes (h : up.Completes ⟨position, 0⟩ provider request) (base : Env) {w : World}
    (hclosed : ¬ w.circuitState.IsOpen provider.name) :
    (executeStreamWithPolicy (up.drained base) position provider request w).result.ending = .completed ∧
      received (executeStreamWithPolicy (up.drained base) position provider request w).actions =
        (up.streamResponse ⟨position, 0⟩ provider request true).events.map
          fun e => (some ⟨position, 0⟩, e) := by
  have hd := up.drained_drained base
  obtain ⟨htyped, hend⟩ : (up.streamResponse ⟨position, 0⟩ provider request true).typed = true ∧
      (up.streamResponse ⟨position, 0⟩ provider request true).ending = .finished := by
    simpa [StreamAttempt.finishes] using h.finishes
  rw [executeStreamWithPolicy_admitted hd (CircuitMap.check_of_closed hclosed)]
  generalize { w with circuitState := w.circuitState } = w
  have hup := upstreamOf_drained hd position provider request 0 w
  obtain ⟨hacts, hresult⟩ : (forwardedOf (up.drained base) position provider request 0 w).actions =
        (up.streamResponse ⟨position, 0⟩ provider request true).events.map (.deliver ⟨position, 0⟩) ∧
      (forwardedOf (up.drained base) position provider request 0 w).result =
        (none, !(up.streamResponse ⟨position, 0⟩ provider request true).events.isEmpty) := by
    unfold forwardedOf
    rw [hup]
    exact forwardEvents_of_typed hd htyped false w
  have hstarted : received (startedOf (up.drained base) position provider request 0 w) =
      (up.streamResponse ⟨position, 0⟩ provider request true).events.map
        fun e => (some ⟨position, 0⟩, e) := by
    unfold startedOf
    rw [received_invoke, hacts, received_deliver]
  have hturn := streamAttempts_turn (up.drained base) position provider request
    (up.drained base).policy.maxRetries 0 w
  generalize streamAttempts (up.drained base) position provider request
    (up.drained base).policy.maxRetries 0 w = o at hturn ⊢
  cases hturn with
  | cut hcut =>
      rw [hresult] at hcut
      cases hcut
  | finished hall hfinished =>
      refine ⟨rfl, ?_⟩
      rw [received_append, hstarted]
      exact List.append_nil _
  | stalled hall hstalled => cases hend.symm.trans (hup ▸ hstalled)
  | aborted hall hthrew => cases hend.symm.trans (hup ▸ hthrew)
  | failed hall hthrew => cases hend.symm.trans (hup ▸ hthrew)
  | abandoned hall hthrew => cases hend.symm.trans (hup ▸ hthrew)
  | retried hall hthrew => cases hend.symm.trans (hup ▸ hthrew)

/-- **The turn of a refused adapter in the call loop** fails. -/
theorem RefusesAt.callTurn (h : RefusesAt up position provider request) (base : Env) (w : World) :
    ∃ message,
      (executeWithPolicy (up.drained base) position provider request w).result = .error message := by
  have hattempts : ∀ remaining attempt w, ∃ message,
      (callAttempts (up.drained base) position provider request remaining attempt w).result =
        .error message := by
    refine callAttempts_rule (P := fun _ _ _ o => ∃ message, o.result = .error message)
      (up.drained base) position provider request ?_
    intro remaining attempt w o hturn hretry
    cases hturn with
    | returned hcall =>
        obtain ⟨message, hfail⟩ := h.createResponse attempt base.policy
        unfold callOf at hcall
        rw [aborted_of_drained (up.drained_drained base)] at hcall
        rw [show up.createResponse ⟨position, attempt⟩ provider request true = _ from hcall] at hfail
        cases hfail
    | gone => exact ⟨_, rfl⟩
    | failed => exact ⟨_, rfl⟩
    | retried hcall hhere hmore => exact hretry _ _ hmore
  rcases executeWithPolicy_cases (up.drained base) position provider request w with
    ⟨w', message, heq, -⟩ | ⟨circuitState, -, heq⟩
  · rw [heq]
    exact ⟨message, rfl⟩
  · rw [heq]
    exact hattempts _ _ _

/-- **The turn of an answering adapter in the call loop** returns its response. -/
theorem callTurn_of_responds {response : UnifiedAiResponse}
    (h : up.Responds ⟨position, 0⟩ provider request response) (base : Env) {w : World}
    (hclosed : ¬ w.circuitState.IsOpen provider.name) :
    (executeWithPolicy (up.drained base) position provider request w).result = .ok response := by
  have hcall : ∀ w, callOf (up.drained base) position provider request 0 w = .returned response := by
    intro w
    unfold callOf
    rw [aborted_of_drained (up.drained_drained base)]
    exact h.createResponse_eq
  unfold executeWithPolicy
  rw [CircuitMap.check_of_closed hclosed]
  simp only [aborted_of_drained (up.drained_drained base), Bool.false_eq_true, if_false]
  generalize { w with circuitState := w.circuitState } = w
  have hturn := callAttempts_turn (up.drained base) position provider request
    (up.drained base).policy.maxRetries 0 w
  generalize callAttempts (up.drained base) position provider request
    (up.drained base).policy.maxRetries 0 w = o at hturn ⊢
  cases hturn with
  | returned hreturned =>
      cases (hcall w).symm.trans hreturned
      rfl
  | gone hfail => cases (hcall w) ▸ hfail
  | failed hfail => cases (hcall w) ▸ hfail
  | retried hfail => cases (hcall w) ▸ hfail

/-! ## Where the loops stop -/

variable (up : Upstream) (base : Env) (request : UnifiedAiRequest) (answers : String → Prop)

/-- The adapters of the chain from `position` on whose provider is to answer do, and the others are
    refused. -/
def Assigned (position : Nat) (chain : List ChainEntry) : Prop :=
  ∀ k entry, chain[k]? = some entry →
    (answers entry.provider.name →
      AnswersAt up (position + k) entry.provider (enrichedRequest request entry)) ∧
    (¬ answers entry.provider.name →
      RefusesAt up (position + k) entry.provider (enrichedRequest request entry))

/-- The state in which the turn of the `i`-th adapter starts, if the stream loop gets there. -/
def turnWorld : Nat → List ChainEntry → World → Nat → World
  | _, [], w, _ => w
  | _, _, w, 0 => w
  | position, entry :: rest, w, i + 1 =>
      turnWorld (position + 1) rest
        (executeStreamWithPolicy (up.drained base) position entry.provider (enrichedRequest request entry)
          w).world i

/-- The adapter at this place of the chain is let in at its turn, and reports a refusal. -/
def ReportsInTurn (position : Nat) (chain : List ChainEntry) (w : World) (i : Nat) (entry : ChainEntry) :
    Prop :=
  Admits (up.drained base) (turnWorld up base request position chain w i) entry.provider ∧
    ReportsRefusal up base (position + i) entry.provider (enrichedRequest request entry)

variable {up base request answers}

theorem Assigned.head {position : Nat} {entry : ChainEntry} {rest : List ChainEntry}
    (h : Assigned up request answers position (entry :: rest)) :
    (answers entry.provider.name → AnswersAt up position entry.provider (enrichedRequest request entry)) ∧
    (¬ answers entry.provider.name →
      RefusesAt up position entry.provider (enrichedRequest request entry)) := h 0 entry rfl

theorem Assigned.tail {position : Nat} {entry : ChainEntry} {rest : List ChainEntry}
    (h : Assigned up request answers position (entry :: rest)) :
    Assigned up request answers (position + 1) rest := by
  intro k e he
  rw [Nat.add_assoc, Nat.add_comm 1 k]
  exact h (k + 1) e he

/-- The breakers of the answering providers are closed. -/
def AnsweringClosed (answers : String → Prop) (w : World) : Prop :=
  ∀ p, answers p → ¬ w.circuitState.IsOpen p

/-- A refused adapter's turn opens no breaker of a provider that answers. -/
theorem AnsweringClosed.of_othersKept {w w' : World} {p : String} (h : AnsweringClosed answers w)
    (hp : ¬ answers p) (hkept : OthersKept p w w') : AnsweringClosed answers w' := by
  intro q hq hopen
  have hne : q ≠ p := fun heq => hp (heq ▸ hq)
  unfold CircuitMap.IsOpen at hopen
  rw [hkept q hne] at hopen
  exact h q hq hopen

/-- Where the stream loop stops: at the end of the chain, at an adapter that answers, or at one that
    reports a refusal. -/
inductive StreamStops (up : Upstream) (base : Env) (request : UnifiedAiRequest) (answers : String → Prop)
    (position : Nat) (chain : List ChainEntry) (w : World) (actions : List Action) : Prop
  | exhausted {message : String} (hrefused : ∀ entry ∈ chain, ¬ answers entry.provider.name)
      (hlast : actions.getLast? = some (.deliverError message))
      (hreceived : received actions = [(none, .error message)])
  | answered {i : Nat} {entry : ChainEntry} (hentry : chain[i]? = some entry)
      (hanswers : answers entry.provider.name)
      (hbefore : ∀ k < i, ∀ e, chain[k]? = some e → ¬ answers e.provider.name ∧
        ¬ ReportsInTurn up base request position chain w k e)
      (hlast : actions.getLast? = some (.recordLatency (position + i) entry.provider.name))
      (hreceived : received actions = (up.streamResponse ⟨position + i, 0⟩ entry.provider
        (enrichedRequest request entry) true).events.map fun e => (some ⟨position + i, 0⟩, e))
  | reported {i : Nat} {entry : ChainEntry} {id : AttemptId} {message : String}
      (hentry : chain[i]? = some entry) (hrefused : ∀ k ≤ i, ∀ e, chain[k]? = some e →
        ¬ answers e.provider.name)
      (hreports : ReportsInTurn up base request position chain w i entry)
      (hlast : actions.getLast? = some (.recordLatency (position + i) entry.provider.name))
      (hreceived : received actions = [(some id, .error message)])

/-- A refused adapter whose turn passes leaves the stop to the rest of the chain. -/
theorem StreamStops.after {position : Nat} {entry : ChainEntry} {rest : List ChainEntry} {w : World}
    {before actions : List Action} (hrefused : ¬ answers entry.provider.name)
    (hpassed : ¬ ReportsInTurn up base request position (entry :: rest) w 0 entry)
    (hsilent : received before = [])
    (h : StreamStops up base request answers (position + 1) rest
      (executeStreamWithPolicy (up.drained base) position entry.provider (enrichedRequest request entry)
        w).world actions) :
    StreamStops up base request answers position (entry :: rest) w (before ++ actions) := by
  have hlast : ∀ {a}, actions.getLast? = some a → (before ++ actions).getLast? = some a := by
    intro a ha
    rw [List.getLast?_append, ha]
    rfl
  have hshown : received (before ++ actions) = received actions := by
    rw [received_append, hsilent, List.nil_append]
  have hshift : ∀ i, position + 1 + i = position + (i + 1) := fun i => by omega
  have hturn : ∀ i e, ReportsInTurn up base request position (entry :: rest) w (i + 1) e ↔
      ReportsInTurn up base request (position + 1) rest
        (executeStreamWithPolicy (up.drained base) position entry.provider
          (enrichedRequest request entry) w).world i e := by
    intro i e
    unfold ReportsInTurn
    rw [hshift]
    rfl
  cases h with
  | exhausted hnone hend hreceived =>
      exact .exhausted (List.forall_mem_cons.mpr ⟨hrefused, hnone⟩) (hlast hend) (hshown.trans hreceived)
  | @answered i e hentry hanswers hbefore hend hreceived =>
      refine .answered (i := i + 1) hentry hanswers ?_ ?_ ?_
      · intro k hk e' he'
        -- the first of the chain is the adapter whose turn has passed
        cases k with
        | zero =>
            cases he'
            exact ⟨hrefused, hpassed⟩
        | succ k =>
            rw [hturn]
            exact hbefore k (Nat.lt_of_succ_lt_succ hk) e' he'
      · rw [← hshift]
        exact hlast hend
      · rw [← hshift]
        exact hshown.trans hreceived
  | @reported i e id message hentry hnone hreports hend hreceived =>
      refine .reported (i := i + 1) hentry ?_ ((hturn i e).mpr hreports) ?_ (hshown.trans hreceived)
      · intro k hk e' he'
        cases k with
        | zero =>
            cases he'
            exact hrefused
        | succ k => exact hnone k (Nat.le_of_succ_le_succ hk) e' he'
      · rw [← hshift]
        exact hlast hend

/-- **Where the stream loop stops.** -/
theorem streamChain_stops (base : Env) (chain : List ChainEntry) (position : Nat) (lastError : Option String)
    (w : World) (hassigned : Assigned up request answers position chain)
    (hclosed : AnsweringClosed answers w) :
    StreamStops up base request answers position chain w
      (streamChain (up.drained base) request position chain lastError w).actions := by
  have hd := up.drained_drained base
  refine streamChain_rule (P := fun position chain w o =>
    Assigned up request answers position chain → AnsweringClosed answers w →
      StreamStops up base request answers position chain w o.actions) ?_ ?_ chain position lastError w
    hassigned hclosed
  · intro position lastError w _ _
    exact .exhausted (by simp) rfl rfl
  · intro position entry rest w o hturn hrest hassigned hclosed
    by_cases hanswers : answers entry.provider.name
    -- an adapter that answers completes its turn, so the loop stops here
    · obtain ⟨hcompleted, hreceived⟩ := streamTurn_of_completes (hassigned.head.1 hanswers).1 base
        (hclosed _ hanswers)
      cases hturn with
      | served hend =>
          refine .answered (i := 0) rfl hanswers (fun k hk => absurd hk (Nat.not_lt_zero k)) ?_ ?_
          · simp
          · rw [received_append, hreceived]
            exact List.append_nil _
      | stopped hend => cases hcompleted.symm.trans hend
      | gone hend => cases hcompleted ▸ hend
      | broken hend => cases hcompleted ▸ hend
      | replaced hend => cases hcompleted ▸ hend
    · have hrefuses := hassigned.head.2 hanswers
      have hkept : AnsweringClosed answers (executeStreamWithPolicy (up.drained base) position
          entry.provider (enrichedRequest request entry) w).world :=
        hclosed.of_othersKept hanswers (othersKept_executeStreamWithPolicy w)
      cases hrefuses.streamTurn base w with
      -- the refusal went out as an event: the turn counts as served
      | @reported hreports hcompleted id message hreceived =>
          cases hturn with
          | served hend =>
              refine @StreamStops.reported _ _ _ _ _ _ _ _ 0 _ id message rfl ?_ hreports ?_ ?_
              · intro k hk e he
                obtain rfl := Nat.le_zero.mp hk
                cases he
                exact hanswers
              · simp
              · rw [received_append, hreceived]
                rfl
          | stopped hend => cases hcompleted.symm.trans hend
          | gone hend => cases hcompleted ▸ hend
          | broken hend => cases hcompleted ▸ hend
          | replaced hend => cases hcompleted ▸ hend
      -- it threw before any event: the next position takes over
      | passed hpassed hfail hsilent hreceived =>
          cases hturn with
          | served hend => cases hend ▸ hfail
          | stopped hend => cases hend ▸ hfail
          | gone hend hgone => exact absurd hgone (by simp [aborted_of_drained hd])
          | broken hend hhere hyield => exact absurd hyield (by simp [hsilent])
          | replaced hend hhere hyield =>
              exact StreamStops.after hanswers hpassed hreceived (hrest _ _ hassigned.tail hkept)

/-- Where the call loop stops: at the end of the chain, or at the first adapter that answers. -/
inductive CreateStops (up : Upstream) (request : UnifiedAiRequest) (answers : String → Prop)
    (position : Nat) (chain : List ChainEntry) (o : Outcome (Except String GatewayResponse)) : Prop
  | exhausted {message : String} (hrefused : ∀ entry ∈ chain, ¬ answers entry.provider.name)
      (herror : o.result = .error message)
  | answered {i : Nat} {entry : ChainEntry} {served : GatewayResponse} (hentry : chain[i]? = some entry)
      (hanswers : answers entry.provider.name)
      (hbefore : ∀ k < i, ∀ e, chain[k]? = some e → ¬ answers e.provider.name)
      (hlast : o.actions.getLast? = some (.recordLatency (position + i) entry.provider.name))
      (hresult : o.result = .ok served)
      (hresponds : up.Responds ⟨position + i, 0⟩ entry.provider (enrichedRequest request entry)
        served.response)

/-- A refused adapter leaves the stop to the rest of the chain. -/
theorem CreateStops.after {position : Nat} {entry : ChainEntry} {rest : List ChainEntry}
    {before : List Action} {o : Outcome (Except String GatewayResponse)}
    (hrefused : ¬ answers entry.provider.name)
    (h : CreateStops up request answers (position + 1) rest o) :
    CreateStops up request answers position (entry :: rest) (o.after before) := by
  have hshift : ∀ i, position + 1 + i = position + (i + 1) := fun i => by omega
  cases h with
  | exhausted hnone herror => exact .exhausted (List.forall_mem_cons.mpr ⟨hrefused, hnone⟩) herror
  | @answered i e served hentry hanswers hbefore hlast hresult hresponds =>
      refine .answered (i := i + 1) hentry hanswers ?_ ?_ hresult (hshift i ▸ hresponds)
      · intro k hk e' he'
        cases k with
        | zero =>
            cases he'
            exact hrefused
        | succ k => exact hbefore k (Nat.lt_of_succ_lt_succ hk) e' he'
      · show (_ ++ _ : List Action).getLast? = _
        rw [List.getLast?_append, hlast, Option.some_or, hshift]

/-- **Where the call loop stops.** -/
theorem createChain_stops (base : Env) (strategy : String) (chain : List ChainEntry) (position : Nat)
    (lastError : Option String) (w : World) (hassigned : Assigned up request answers position chain)
    (hclosed : AnsweringClosed answers w) :
    CreateStops up request answers position chain
      (createChain (up.drained base) request strategy position chain lastError w) := by
  have hd := up.drained_drained base
  refine createChain_rule (P := fun position chain w o =>
    Assigned up request answers position chain → AnsweringClosed answers w →
      CreateStops up request answers position chain o) ?_ ?_ chain position lastError w hassigned hclosed
  · intro position lastError w _ _
    exact .exhausted (by simp) rfl
  · intro position entry rest w o hturn hrest hassigned hclosed
    by_cases hanswers : answers entry.provider.name
    · obtain ⟨response, hresponds⟩ := (hassigned.head.1 hanswers).2
      have hok := callTurn_of_responds hresponds base (hclosed _ hanswers)
      cases hturn with
      | served hresult hresponse hprovider =>
          obtain rfl := Except.ok.inj (hok.symm.trans hresult)
          refine .answered (i := 0) rfl hanswers (fun k hk => absurd hk (Nat.not_lt_zero k)) ?_ rfl ?_
          · simp
          · rw [hresponse]
            exact hresponds
      | gone herror => cases hok.symm.trans herror
      | replaced herror => cases hok.symm.trans herror
    · have hkept : AnsweringClosed answers (executeWithPolicy (up.drained base) position entry.provider
          (enrichedRequest request entry) w).world :=
        hclosed.of_othersKept hanswers (othersKept_executeWithPolicy w)
      obtain ⟨message, hfail⟩ := (hassigned.head.2 hanswers).callTurn base w
      cases hturn with
      | served hresult => cases hfail.symm.trans hresult
      | gone herror hgone => exact absurd hgone (by simp [aborted_of_drained hd])
      | @replaced message' herror hhere =>
          exact CreateStops.after hanswers (hrest (some message') _ hassigned.tail hkept)

/-! ## Agreement -/

variable (up base request answers)

/-- The stream run with these actions delivers the event list of the `k`-th adapter. -/
def StreamServes (chain : List ChainEntry) (actions : List Action) (k : Nat) : Prop :=
  ∃ entry, chain[k]? = some entry ∧
    up.Completes ⟨k, 0⟩ entry.provider (enrichedRequest request entry) ∧
    actions.getLast? = some (.recordLatency k entry.provider.name) ∧
    received actions = (up.streamResponse ⟨k, 0⟩ entry.provider (enrichedRequest request entry)
      true).events.map fun e => (some ⟨k, 0⟩, e)

/-- The call returns the response of the `k`-th adapter. -/
def CreateServes (chain : List ChainEntry) (o : Outcome (Except String GatewayResponse)) (k : Nat) : Prop :=
  ∃ entry served, chain[k]? = some entry ∧
    o.actions.getLast? = some (.recordLatency k entry.provider.name) ∧ o.result = .ok served ∧
    up.Responds ⟨k, 0⟩ entry.provider (enrichedRequest request entry) served.response

/-- An error is all the stream's consumer receives. -/
def StreamFails (actions : List Action) : Prop := ∃ tag message, received actions = [(tag, .error message)]

/-- The call throws. -/
def CreateFails (o : Outcome (Except String GatewayResponse)) : Prop := ∃ message, o.result = .error message

/-- The stream is served by the adapter that serves the call, and either fails exactly when all refuse. -/
structure FailoverAgrees (chain : List ChainEntry) (actions : List Action)
    (o : Outcome (Except String GatewayResponse)) : Prop where
  serves : ∀ k, StreamServes up request chain actions k ↔ CreateServes up request chain o k
  streamFails : StreamFails actions ↔ ∀ entry ∈ chain, ¬ answers entry.provider.name
  createFails : CreateFails o ↔ ∀ entry ∈ chain, ¬ answers entry.provider.name

/-- No adapter ahead of the first that answers reports a refusal in its turn. -/
def RefusalsPass (chain : List ChainEntry) (w : World) : Prop :=
  ∀ j entry, chain[j]? = some entry → answers entry.provider.name →
    (∀ k < j, ∀ e, chain[k]? = some e → ¬ answers e.provider.name) →
    ∀ k < j, ∀ e, chain[k]? = some e → ¬ ReportsInTurn up base request 0 chain w k e

variable {up base request answers}

/-- An adapter that is refused does not complete. -/
theorem RefusesAt.not_completes {attempt : Nat} (h : RefusesAt up position provider request) :
    ¬ up.Completes ⟨position, attempt⟩ provider request := by
  rintro ⟨-, body, -, ⟨wire, res, hmap, hfetch, hok, -⟩, -⟩
  obtain ⟨n, -, hrefused⟩ := h
  have hfetched := hrefused attempt true wire hmap
  rw [hfetch] at hfetched
  exact Bool.false_ne_true (hfetched.symm.trans hok)

/-- A normal stream is no failure. -/
theorem not_streamFails {id : AttemptId} {actions : List Action} (h : up.Completes id provider request)
    (hreceived : received actions =
      (up.streamResponse id provider request true).events.map fun e => (some id, e)) :
    ¬ StreamFails actions := by
  rintro ⟨tag, message, herror⟩
  obtain ⟨e, he, hdone⟩ := h.exists_done
  have hmem : (some id, e) ∈ received actions := hreceived ▸ List.mem_map_of_mem he
  rw [herror, List.mem_singleton] at hmem
  rw [(Prod.mk.inj hmem).2] at hdone
  cases hdone

/-- When every adapter refuses, both loops fail. -/
theorem failoverAgrees_of_exhausted {chain : List ChainEntry} {w : World} {actions : List Action}
    {o : Outcome (Except String GatewayResponse)} {failure : String}
    (hassigned : Assigned up request answers 0 chain)
    (hstream : StreamStops up base request answers 0 chain w actions)
    (hrefused : ∀ entry ∈ chain, ¬ answers entry.provider.name) (herror : o.result = .error failure) :
    FailoverAgrees up request answers chain actions o := by
  have hnoCreate : ∀ k, ¬ CreateServes up request chain o k := by
    rintro k ⟨entry, served, -, -, hresult, -⟩
    cases herror.symm.trans hresult
  have hnoStream : ∀ k, ¬ StreamServes up request chain actions k := by
    rintro k ⟨entry, hentry, hcompletes, -⟩
    have hrefuses := (hassigned k entry hentry).2 (hrefused entry (List.mem_of_getElem? hentry))
    rw [Nat.zero_add] at hrefuses
    exact hrefuses.not_completes hcompletes
  refine ⟨fun k => iff_of_false (hnoStream k) (hnoCreate k), iff_of_true ?_ hrefused,
    iff_of_true ⟨failure, herror⟩ hrefused⟩
  cases hstream with
  | exhausted _ _ hreceived => exact ⟨_, _, hreceived⟩
  | answered hentry hanswers => exact absurd hanswers (hrefused _ (List.mem_of_getElem? hentry))
  -- a refusal reported in its turn is all the consumer receives, which is a failure too
  | reported _ _ _ _ hreceived => exact ⟨_, _, hreceived⟩

/-- **When the two loops agree.** Over a chain of native adapters each of whose providers answers normally or
    refuses every attempt, all breakers closed: the stream and the call are served by the same adapter and
    fail together, exactly when no adapter ahead of the first that answers reports a refusal in its turn. -/
theorem failover_agrees_iff (up : Upstream) (base : Env) (request : UnifiedAiRequest) (strategy : String)
    (answers : String → Prop) (chain : List ChainEntry) (w : World)
    (hassigned : Assigned up request answers 0 chain) (hclosed : ∀ p, ¬ w.circuitState.IsOpen p) :
    FailoverAgrees up request answers chain
        (streamOverChain (up.drained base) request chain w).actions
        (createOverChain (up.drained base) request strategy chain w) ↔
      RefusalsPass up base request answers chain w := by
  have hstream := streamChain_stops base chain 0 none w hassigned (fun p _ => hclosed p)
  have hcreate := createChain_stops base strategy chain 0 none w hassigned
    (fun p _ => hclosed p)
  change StreamStops up base request answers 0 chain w
    (streamOverChain (up.drained base) request chain w).actions at hstream
  change CreateStops up request answers 0 chain
    (createOverChain (up.drained base) request strategy chain w) at hcreate
  generalize (streamOverChain (up.drained base) request chain w).actions = actions at hstream ⊢
  generalize createOverChain (up.drained base) request strategy chain w = o at hcreate ⊢
  cases hcreate with
  | @exhausted failure hrefused herror =>
      have hvacuous : RefusalsPass up base request answers chain w :=
        fun j entry hentry hanswers => absurd hanswers (hrefused entry (List.mem_of_getElem? hentry))
      exact iff_of_true (failoverAgrees_of_exhausted hassigned hstream hrefused herror) hvacuous
  | @answered i entry served hentry hanswers hfirst hlast hresult hresponds =>
      rw [Nat.zero_add] at hlast hresponds
      have hsome : ¬ ∀ e ∈ chain, ¬ answers e.provider.name :=
        fun h => h entry (List.mem_of_getElem? hentry) hanswers
      have hnoFail : ¬ CreateFails o := by
        rintro ⟨message, herror⟩
        cases herror.symm.trans hresult
      cases hstream with
      | exhausted hrefused => exact absurd hrefused hsome
      | @answered i' entry' hentry' hanswers' hbefore hlast' hreceived =>
          -- both loops stop at the first adapter that answers
          obtain rfl : i' = i := by
            rcases Nat.lt_trichotomy i' i with hlt | heq | hgt
            · exact absurd hanswers' (hfirst i' hlt entry' hentry')
            · exact heq
            · exact absurd hanswers (hbefore i hgt entry hentry).1
          obtain rfl : entry' = entry := Option.some.inj (hentry'.symm.trans hentry)
          rw [Nat.zero_add] at hlast' hreceived
          have hcompletes := ((hassigned i' entry' hentry).1 hanswers).1
          rw [Nat.zero_add] at hcompletes
          refine iff_of_true ⟨fun k => ?_, iff_of_false (not_streamFails hcompletes hreceived) hsome,
            iff_of_false hnoFail hsome⟩ ?_
          · constructor
            · rintro ⟨e, he, -, hend, -⟩
              obtain ⟨rfl, -⟩ := Action.recordLatency.inj (Option.some.inj (hlast'.symm.trans hend))
              exact ⟨entry', served, hentry, hlast, hresult, hresponds⟩
            · rintro ⟨e, served', he, hend, -⟩
              obtain ⟨rfl, -⟩ := Action.recordLatency.inj (Option.some.inj (hlast.symm.trans hend))
              exact ⟨entry', hentry, hcompletes, hlast', hreceived⟩
          · intro j e he hanswersJ hfirstJ k hk e' he'
            refine (hbefore k (Nat.lt_of_lt_of_le hk ?_) e' he').2
            exact Nat.le_of_not_lt fun hlt => hfirstJ i' hlt entry' hentry hanswers
      | @reported i' entry' id message hentry' hrefused hreports hlast' hreceived =>
          have hahead : i' < i := Nat.lt_of_not_le fun hle => hrefused i hle entry hentry hanswers
          refine iff_of_false (fun h => hsome (h.streamFails.mp ⟨_, _, hreceived⟩)) fun h => ?_
          exact h i entry hentry hanswers hfirst i' hahead entry' hentry' hreports

/-! ## Two adapters -/

/-- The adapter of the `ollama` module. -/
def ollamaEntry : ChainEntry := ⟨⟨"ollama", .ollama⟩, "llama3.2"⟩

/-- A complete answer, which reads the same as a stream and as a response. -/
def ollamaBody : HttpBody :=
  ⟨["\x7b\"message\":\x7b\"role\":\"assistant\",\"content\":\"Hi\"\x7d,\"done\":true\x7d\n"], .closed⟩

/-- Its JSON. -/
def ollamaAnswer : Json :=
  .obj [("message", .obj [("role", .str "assistant"), ("content", .str "Hi")]), ("done", .bool true)]

/-- What the adapter makes of it. -/
def ollamaResponse : UnifiedAiResponse :=
  { id := .json (.str "ollama-0"), model := .undefined, provider := "ollama",
    content := [.text (.json (.str "Hi"))], finishReason := "stop",
    usage := ⟨.json (.num 0), .json (.num 0), .json (.num 0)⟩, latencyMs := 0 }

/-- An upstream where the `openai` provider meets `first` and every other provider gets an answer. -/
def secondAnswers (first : FetchResult) : Upstream :=
  { steadyUpstream first with
    fetch := fun _ provider _ =>
      if provider.name = "openai" then first else .responded ⟨200, "OK", some ollamaBody⟩ }

theorem ollamaEntry_answers (first : FetchResult) :
    AnswersAt (secondAnswers first) 1 ollamaEntry.provider (enrichedRequest emptyRequest ollamaEntry) := by
  have hwire : ∀ stream, ∃ wire, mapRequest ollamaEntry.provider.kind
      (enrichedRequest emptyRequest ollamaEntry) stream = .ok wire := fun _ => ⟨_, rfl⟩
  constructor
  · obtain ⟨wire, hmap⟩ := hwire true
    have hfinishes : (Native.ollama.parseStream (fun i => s!"tc-{i}") ollamaBody).finishes = true := by
      decide +kernel
    exact ⟨.ollama, ollamaBody, rfl, ⟨wire, ⟨200, "OK", some ollamaBody⟩, hmap, rfl, rfl, rfl⟩, rfl,
      by decide +kernel, hfinishes⟩
  · obtain ⟨wire, hmap⟩ := hwire false
    have hparse : parseJson (.json (.str ollamaBody.text)) = .ok ollamaAnswer := by decide +kernel
    have hresponse : Native.ollama.fromResponse (fun i => s!"tc-{i}") 0 ollamaAnswer "ollama" 0 =
        .ok ollamaResponse := by
      decide +kernel
    exact ⟨ollamaResponse, .ollama, wire, ⟨200, "OK", some ollamaBody⟩, _, _, rfl, hmap, rfl, rfl, rfl,
      hparse, hresponse⟩

theorem secondAnswers_assigned {first : FetchResult} (hfirst : first.Refused) :
    Assigned (secondAnswers first) emptyRequest (· = "ollama") 0 [openAiEntry, ollamaEntry] := by
  intro k entry hentry
  match k with
  | 0 =>
      cases hentry
      exact ⟨fun h => absurd h (by decide), fun _ => ⟨.openai, rfl, fun _ _ _ _ => hfirst⟩⟩
  | 1 =>
      cases hentry
      exact ⟨fun _ => ollamaEntry_answers first, fun h => absurd rfl h⟩
  | k + 2 => cases hentry

/-- A first adapter that cannot be reached. -/
theorem failover_agrees_iff_unreachable :
    FailoverAgrees (secondAnswers (.failed "ECONNREFUSED")) emptyRequest (· = "ollama")
        [openAiEntry, ollamaEntry]
        (streamOverChain ((secondAnswers (.failed "ECONNREFUSED")).drained plainEnv) emptyRequest
          [openAiEntry, ollamaEntry] freshWorld).actions
        (createOverChain ((secondAnswers (.failed "ECONNREFUSED")).drained plainEnv) emptyRequest "pinned"
          [openAiEntry, ollamaEntry] freshWorld) ↔
      RefusalsPass (secondAnswers (.failed "ECONNREFUSED")) plainEnv emptyRequest (· = "ollama")
        [openAiEntry, ollamaEntry] freshWorld :=
  failover_agrees_iff _ plainEnv emptyRequest "pinned" (· = "ollama") [openAiEntry, ollamaEntry] freshWorld
    (secondAnswers_assigned trivial) (fun _ h => absurd h nofun)

/-- **A refusal keeps the stream from failing over**: the client gets the first adapter's 401, and the call
    the second one's answer. -/
theorem refusal_hides_fallback :
    ¬ ∀ (up : Upstream) (base : Env) (request : UnifiedAiRequest) (strategy : String)
        (answers : String → Prop) (chain : List ChainEntry) (w : World),
      Assigned up request answers 0 chain → (∀ p, ¬ w.circuitState.IsOpen p) →
      FailoverAgrees up request answers chain
        (streamOverChain (up.drained base) request chain w).actions
        (createOverChain (up.drained base) request strategy chain w) := by
  intro h
  have hagrees := h (secondAnswers (.responded ⟨401, "Unauthorized", some ⟨[], .closed⟩⟩)) plainEnv
    emptyRequest "pinned" (· = "ollama") [openAiEntry, ollamaEntry] freshWorld
    (secondAnswers_assigned rfl) (fun _ h => absurd h nofun)
  have hreceived : received (streamOverChain
      ((secondAnswers (.responded ⟨401, "Unauthorized", some ⟨[], .closed⟩⟩)).drained plainEnv)
      emptyRequest [openAiEntry, ollamaEntry] freshWorld).actions =
      [(some ⟨0, 0⟩, .error "OpenAI API error 401: Unauthorized")] := by decide +kernel
  exact hagrees.streamFails.mp ⟨_, _, hreceived⟩ ollamaEntry (by simp) rfl

end Sirius
