import SiriusGateway.Gateway.Service

/-!
# `Correctness.Received` — what a run delivers

What `received` reads off the actions of a run of `streamResponse`: how much of an attempt's events reaches
the consumer (`forwardEvents_shown`), and that a policy run that has yielded nothing has delivered nothing
(`executeStreamWithPolicy_silent`).

## Contents
- **Actions.** `received` of joined lists and of deliveries.
- **One attempt.** `Shown`.
- **One adapter.** Its silent turns.
-/

namespace Sirius

/-! ## Actions -/

/-- Joined runs deliver one after the other. -/
theorem received_append (l r : List Action) : received (l ++ r) = received l ++ received r := by
  induction l with
  | nil => rfl
  | cons a l ih => cases a <;> simp [received, ih]

/-- Invoking an operation delivers nothing. -/
theorem received_invoke (id : AttemptId) (provider : AiProvider) (request : UnifiedAiRequest)
    (live : Bool) (l : List Action) :
    received (.invoke id provider request live :: l) = received l := rfl

/-- The events of one attempt arrive under its name. -/
theorem received_deliver (id : AttemptId) (shown : List UnifiedStreamEvent) :
    received (shown.map (.deliver id)) = shown.map fun e => (some id, e) := by
  induction shown with
  | nil => rfl
  | cons e rest ih => simp [received, ih]

/-! ## One attempt -/

/-- How much of an attempt's events is shown: all of them, those before the consumer's stop, or those
    before an event the observer rejects. -/
def Shown (env : Env) (sent : Nat) (events shown : List UnifiedStreamEvent) : Prop :=
  shown <+: events ∧
    (shown = events ∨ env.stopAfter = some (sent + shown.length) ∨
      ∃ bad, shown ++ [bad] <+: events ∧ bad.wellTyped = false)

variable {env : Env} {id : AttemptId}

/-- Nothing is shown of no events. -/
theorem Shown.nil (sent : Nat) : Shown env sent [] [] := ⟨List.prefix_rfl, Or.inl rfl⟩

/-- An event that is shown comes before what is shown of the others. -/
theorem Shown.cons {sent : Nat} {event : UnifiedStreamEvent} {events shown : List UnifiedStreamEvent}
    (h : Shown env (sent + 1) events shown) : Shown env sent (event :: events) (event :: shown) := by
  obtain ⟨hpre, hcut⟩ := h
  refine ⟨List.cons_prefix_cons.mpr ⟨rfl, hpre⟩, ?_⟩
  rcases hcut with rfl | hstop | ⟨bad, hbad, htype⟩
  · exact Or.inl rfl
  · refine Or.inr (Or.inl ?_)
    rw [hstop, List.length_cons]
    congr 1
    omega
  · exact Or.inr (Or.inr ⟨bad, List.cons_prefix_cons.mpr ⟨rfl, hbad⟩, htype⟩)

/-- **The events of one attempt on their way to the consumer.** -/
theorem forwardEvents_shown (env : Env) (id : AttemptId) (events : List UnifiedStreamEvent) :
    ∀ (yielded : Bool) (w : World), ∃ shown,
      (forwardEvents env id events yielded w).actions = shown.map (.deliver id) ∧
      Shown env w.sent events shown ∧
      (forwardEvents env id events yielded w).result.2 = (yielded || !shown.isEmpty) ∧
      (forwardEvents env id events yielded w).world.sent = w.sent + shown.length ∧
      ((forwardEvents env id events yielded w).result.1 = some .stopped → shown ≠ []) := by
  induction events with
  | nil =>
      intro yielded w
      exact ⟨[], rfl, Shown.nil _, by simp [forwardEvents], rfl, by simp [forwardEvents]⟩
  | cons event rest ih =>
      intro yielded w
      cases htype : event.wellTyped with
      | false =>
          refine ⟨[], ?_, ⟨ List.nil_prefix, Or.inr (Or.inr ⟨event, ?_, htype⟩)⟩, ?_, ?_, ?_⟩
          · simp [forwardEvents, observeEvent, htype]
          · exact List.cons_prefix_cons.mpr ⟨rfl, List.nil_prefix⟩
          · simp [forwardEvents, observeEvent, htype]
          · simp [forwardEvents, observeEvent, htype, World.next]
          · simp [forwardEvents, observeEvent, htype]
      | true =>
          by_cases hstop : env.stopAfter = some (w.sent + 1)
          · refine ⟨[event], ?_, ⟨List.cons_prefix_cons.mpr ⟨rfl, List.nil_prefix⟩,
              Or.inr (Or.inl hstop)⟩, ?_, ?_, by simp⟩
            · simp [forwardEvents, observeEvent, htype, hstop]
            · simp [forwardEvents, observeEvent, htype, hstop]
            · simp [forwardEvents, observeEvent, htype, hstop]
          · obtain ⟨shown, hacts, hshown, hyield, hsent, -⟩ :=
              ih true { w.next with sent := w.sent + 1 }
            have hstep : forwardEvents env id (event :: rest) yielded w =
                (forwardEvents env id rest true { w.next with sent := w.sent + 1 }).after
                  [.deliver id event] := by
              simp [forwardEvents, observeEvent, htype, hstop]
            rw [hstep]
            refine ⟨event :: shown, ?_, hshown.cons, ?_, ?_, by simp⟩
            · simp [Outcome.after, hacts]
            · simp [Outcome.after, hyield]
            · simp only [Outcome.after, hsent, List.length_cons]
              omega

/-! ## One adapter -/

variable {position : Nat} {provider : AiProvider} {request : UnifiedAiRequest}

/-- Nobody reads what an attempt sends whose idle timer has fired. -/
theorem received_abandonedAttempt (env : Env) (id : AttemptId) (w : World) :
    received (abandonedAttempt env id provider request w).2 = [] := by
  unfold abandonedAttempt
  split <;> rfl

/-- A failed attempt that has yielded nothing has delivered nothing. -/
theorem received_failedActions {attempt : Nat} {w : World}
    (hquiet : (forwardedOf env position provider request attempt w).result.2 = false) :
    received (failedActions env position provider request attempt w) = [] := by
  obtain ⟨shown, hacts, -, hyield, -⟩ := forwardEvents_shown env ⟨position, attempt⟩
    (upstreamOf env position provider request attempt w).events false w
  have hyield' : (forwardedOf env position provider request attempt w).result.2 = (false || !shown.isEmpty) :=
    hyield
  rw [hquiet] at hyield'
  obtain rfl : shown = [] := by simpa using hyield'
  unfold failedActions startedOf forwardedOf
  rw [hacts]
  rfl

/-- The actions up to the end of an attempt's events, when it has yielded nothing. -/
theorem received_startedOf_silent {attempt : Nat} {w : World} {more : List Action}
    (hquiet : (forwardedOf env position provider request attempt w).result.2 = false)
    (hmore : received more = []) :
    received (startedOf env position provider request attempt w ++ more) = [] := by
  have hfailed := received_failedActions hquiet
  unfold failedActions at hfailed
  rw [received_append] at hfailed ⊢
  rw [(List.append_eq_nil_iff.mp hfailed).1, hmore]
  rfl

/-- **A turn of one adapter that has yielded nothing has delivered nothing.** -/
theorem streamAttempts_silent (remaining attempt : Nat) (w : World) :
    (streamAttempts env position provider request remaining attempt w).result.yieldedAny = false →
      received (streamAttempts env position provider request remaining attempt w).actions = [] := by
  refine streamAttempts_rule (P := fun _ _ _ o => o.result.yieldedAny = false → received o.actions = [])
    env position provider request ?_ remaining attempt w
  intro remaining attempt w o hturn hretry
  cases hturn with
  | cut hcut => exact fun hquiet => received_startedOf_silent hquiet rfl
  | finished hall hend => exact fun hquiet => received_startedOf_silent hquiet rfl
  | stalled hall hend => exact fun hquiet => received_startedOf_silent hquiet rfl
  | aborted hall hend hgone => exact fun hquiet => received_startedOf_silent hquiet rfl
  | failed hall hend hhere hlast => exact received_failedActions
  | abandoned hall hend hhere hquiet hmore hidle =>
      intro _
      rw [received_append, received_failedActions hquiet, received_abandonedAttempt]
      rfl
  | retried hall hend hhere hquiet hmore hidle =>
      intro hyield
      simp only [Outcome.after, received_append]
      rw [received_failedActions hquiet, hretry _ _ hmore hyield]
      rfl

/-- **A policy run that has yielded nothing has delivered nothing.** -/
theorem executeStreamWithPolicy_silent (env : Env) (position : Nat) (provider : AiProvider)
    (request : UnifiedAiRequest) (w : World)
    (hquiet : (executeStreamWithPolicy env position provider request w).result.yieldedAny = false) :
    received (executeStreamWithPolicy env position provider request w).actions = [] := by
  rcases executeStreamWithPolicy_cases env position provider request w with
    ⟨w', message, heq, -⟩ | ⟨circuitState, -, heq⟩
  · rw [heq]
    rfl
  · rw [heq] at hquiet ⊢
    exact streamAttempts_silent _ _ _ hquiet

end Sirius
