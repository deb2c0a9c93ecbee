import SiriusGateway.Policy.Concurrent

/-!
# `Correctness.BreakerLog` — the breaker's state is a function of its provider's log

Every change to a breaker is one of three steps: a check, a recorded success, a recorded failure. Whatever
calls the steps come from and however they interleave, the state of one provider's breaker can be read off
the steps that name this provider (`breaker_follows_log`).

## Contents
- **The log.** `BreakerStep`, and the circuit state after a log (`stateAfter`).
- **The reading.** `sinceReset`: the part of the log since the last reset, `failuresSince` and
  `lastFailureOf`.
- **Agreement.** What one step does to the state and to the reading (`agrees_step`).
- **The service.** The circuit state of the policy service is the state after the steps its calls made
  (`circuitState_eq_stateAfter`).
-/

namespace Sirius

open CircuitMap

/-! ## The log -/

/-- The operations on the breaker. -/
inductive BreakerOp where
  | check
  | recordSuccess
  | recordFailure
  deriving DecidableEq

/-- One step: an operation on the breaker of a provider, and the clock reading it sees. -/
structure BreakerStep where
  op : BreakerOp
  provider : String
  now : Int
  deriving DecidableEq

/-- The circuit state after a step; a check that throws leaves it as it is. -/
def BreakerStep.apply (cfg : PolicyConfig) (m : CircuitMap) (step : BreakerStep) : CircuitMap :=
  match step.op with
  | .check =>
      match checkCircuitBreaker cfg step.now m step.provider with
      | .ok m' => m'
      | .error _ => m
  | .recordSuccess => m.recordSuccess step.provider
  | .recordFailure => CircuitMap.recordFailure cfg step.now m step.provider

/-- The circuit state after a log, newest step first. -/
def stateAfter (cfg : PolicyConfig) : List BreakerStep → CircuitMap
  | [] => JsMap.empty
  | step :: past => step.apply cfg (stateAfter cfg past)

/-! ## The reading -/

/-- The step records a failure of `p`. -/
def BreakerStep.IsFailureOf (p : String) (step : BreakerStep) : Prop :=
  step.op = .recordFailure ∧ step.provider = p

instance (p : String) : DecidablePred (BreakerStep.IsFailureOf p) :=
  fun _ => inferInstanceAs (Decidable (_ ∧ _))

/-- The clock reading of the last recorded failure of `p`. -/
def lastFailureOf (p : String) (log : List BreakerStep) : Option Int :=
  (log.find? fun step => step.IsFailureOf p).map (·.now)

/-- `circuitBreakerResetMs` have passed since the last recorded failure of `p`. -/
def WindowOver (cfg : PolicyConfig) (p : String) (past : List BreakerStep) (now : Int) : Prop :=
  ∃ t ∈ lastFailureOf p past, cfg.circuitBreakerResetMs ≤ now - t

instance (cfg : PolicyConfig) (p : String) (past : List BreakerStep) (now : Int) :
    Decidable (WindowOver cfg p past now) :=
  inferInstanceAs (Decidable (∃ t ∈ lastFailureOf p past, _))

/-- The number of recorded failures of `p` among the steps. -/
def failuresOf (p : String) (steps : List BreakerStep) : Nat := steps.countP fun s => s.IsFailureOf p

/-- The step resets the breaker of `p`, which has seen the failures in `recent` since its last reset: it
    records a success of `p`, or it is a check of `p` that finds the breaker full and its window over. -/
def Resets (cfg : PolicyConfig) (p : String) (recent past : List BreakerStep) (step : BreakerStep) :
    Prop :=
  step.provider = p ∧ (step.op = .recordSuccess ∨
    (step.op = .check ∧ cfg.circuitBreakerThreshold ≤ failuresOf p recent ∧
      WindowOver cfg p past step.now))

instance (cfg : PolicyConfig) (p : String) (recent past : List BreakerStep) :
    DecidablePred (Resets cfg p recent past) :=
  fun _ => inferInstanceAs (Decidable (_ ∧ (_ ∨ (_ ∧ _ ∧ _))))

/-- The part of the log after the last reset of `p`. -/
def sinceReset (cfg : PolicyConfig) (p : String) : List BreakerStep → List BreakerStep
  | [] => []
  | step :: past =>
      if Resets cfg p (sinceReset cfg p past) past step then []
      else step :: sinceReset cfg p past

/-- The number of recorded failures of `p` since its last reset. -/
def failuresSince (cfg : PolicyConfig) (p : String) (log : List BreakerStep) : Nat :=
  failuresOf p (sinceReset cfg p log)

section Reading

variable {cfg : PolicyConfig} {p : String} {log : List BreakerStep} {step : BreakerStep}

/-- A reset starts the count again. -/
theorem failuresSince_of_resets (h : Resets cfg p (sinceReset cfg p log) log step) :
    failuresSince cfg p (step :: log) = 0 := by
  unfold failuresSince
  rw [sinceReset, if_pos h]
  rfl

/-- Any other step is counted when it is a failure. -/
theorem failuresSince_of_not_resets (h : ¬ Resets cfg p (sinceReset cfg p log) log step) :
    failuresSince cfg p (step :: log) =
      failuresSince cfg p log + if step.IsFailureOf p then 1 else 0 := by
  unfold failuresSince failuresOf
  rw [sinceReset, if_neg h, List.countP_cons]
  simp only [decide_eq_true_eq]

theorem lastFailureOf_of_failure (h : step.IsFailureOf p) :
    lastFailureOf p (step :: log) = some step.now := by
  unfold lastFailureOf
  simp [h]

theorem lastFailureOf_of_other (h : ¬ step.IsFailureOf p) :
    lastFailureOf p (step :: log) = lastFailureOf p log := by
  unfold lastFailureOf
  simp [h]

end Reading

/-! ## Agreement -/

/-- The circuit state of `p` is what the log says. -/
structure Agrees (cfg : PolicyConfig) (p : String) (m : CircuitMap) (log : List BreakerStep) : Prop where
  failures : (m.getCircuitBreakerState p).failures = failuresSince cfg p log
  isOpen : m.IsOpen p ↔ cfg.circuitBreakerThreshold ≤ failuresSince cfg p log
  last : ∀ t ∈ lastFailureOf p log, m.lastFailure p = t
  failed : 0 < failuresSince cfg p log → ∃ t, lastFailureOf p log = some t

section Steps

variable {cfg : PolicyConfig} {p : String} {m : CircuitMap} {log : List BreakerStep} {step : BreakerStep}

/-- A step leaves every other provider alone. -/
theorem getState_apply_ne (h : step.provider ≠ p) :
    (step.apply cfg m).getCircuitBreakerState p = m.getCircuitBreakerState p := by
  unfold BreakerStep.apply
  split
  · split
    · exact getState_check_ne ‹_› h.symm
    · rfl
  · exact getState_recordSuccess_ne h.symm
  · exact getState_recordFailure_ne h.symm

/-- The state and the last failure carry over when neither changes and the step is no reset. -/
theorem Agrees.unchanged {m' : CircuitMap} (h : Agrees cfg p m log)
    (hstate : m'.getCircuitBreakerState p = m.getCircuitBreakerState p)
    (hreset : ¬ Resets cfg p (sinceReset cfg p log) log step) (hfail : ¬ step.IsFailureOf p) :
    Agrees cfg p m' (step :: log) := by
  have hcount : failuresSince cfg p (step :: log) = failuresSince cfg p log := by
    rw [failuresSince_of_not_resets hreset, if_neg hfail, Nat.add_zero]
  constructor
  · rw [hstate, hcount]
    exact h.failures
  · unfold CircuitMap.IsOpen
    rw [hstate, hcount]
    exact h.isOpen
  · unfold lastFailure
    rw [hstate, lastFailureOf_of_other hfail]
    exact h.last
  · rw [hcount, lastFailureOf_of_other hfail]
    exact h.failed

/-- A reset leaves a closed breaker without failures. -/
theorem Agrees.reset (hthreshold : 1 ≤ cfg.circuitBreakerThreshold) {m' : CircuitMap}
    (h : Agrees cfg p m log) (hstate : m'.getCircuitBreakerState p = ⟨0, m.lastFailure p, false⟩)
    (hreset : Resets cfg p (sinceReset cfg p log) log step) (hfail : ¬ step.IsFailureOf p) :
    Agrees cfg p m' (step :: log) := by
  have hcount : failuresSince cfg p (step :: log) = 0 := failuresSince_of_resets hreset
  constructor
  · rw [hstate, hcount]
  · unfold CircuitMap.IsOpen
    rw [hstate, hcount]
    constructor
    · exact fun hopen => absurd hopen Bool.false_ne_true
    · intro hfull
      omega
  · intro t ht
    rw [lastFailureOf_of_other hfail] at ht
    unfold lastFailure
    rw [hstate]
    exact h.last t ht
  · intro hpos
    omega

/-- A recorded failure is counted, and opens the breaker at the threshold. -/
theorem Agrees.recordFailure {now : Int} (h : Agrees cfg p m log)
    (hreset : ¬ Resets cfg p (sinceReset cfg p log) log ⟨.recordFailure, p, now⟩)
    (hfail : BreakerStep.IsFailureOf p ⟨.recordFailure, p, now⟩) :
    Agrees cfg p (CircuitMap.recordFailure cfg now m p) (⟨.recordFailure, p, now⟩ :: log) := by
  have hcount : failuresSince cfg p (⟨.recordFailure, p, now⟩ :: log) = failuresSince cfg p log + 1 := by
    rw [failuresSince_of_not_resets hreset, if_pos hfail]
  have hstate := @getState_recordFailure_self cfg now m p
  rw [h.failures] at hstate
  constructor
  · rw [hstate, hcount]
  · unfold CircuitMap.IsOpen
    rw [hstate, hcount]
    by_cases hfull : cfg.circuitBreakerThreshold ≤ failuresSince cfg p log + 1
    · simp [hfull]
    · simp only [ge_iff_le, hfull, if_false, iff_false]
      have hbefore : ¬ cfg.circuitBreakerThreshold ≤ failuresSince cfg p log := by omega
      exact fun hopen => hbefore (h.isOpen.mp hopen)
  · intro t ht
    rw [lastFailureOf_of_failure hfail, Option.mem_some_iff] at ht
    rw [lastFailure_recordFailure]
    exact ht
  · exact fun _ => ⟨now, lastFailureOf_of_failure hfail⟩

/-- While a breaker is full, its window is over exactly when a check would pass it. -/
theorem Agrees.windowOver_iff (h : Agrees cfg p m log) {t : Int} (ht : lastFailureOf p log = some t)
    {now : Int} : WindowOver cfg p log now ↔ cfg.circuitBreakerResetMs ≤ now - m.lastFailure p := by
  rw [h.last t ht]
  unfold WindowOver
  rw [ht]
  simp

/-- A check rejects exactly while the log says so. -/
theorem Agrees.rejects_iff (hthreshold : 1 ≤ cfg.circuitBreakerThreshold) (h : Agrees cfg p m log)
    {now : Int} : (∃ e, checkCircuitBreaker cfg now m p = .error e) ↔
      cfg.circuitBreakerThreshold ≤ failuresSince cfg p log ∧
        ∃ t, lastFailureOf p log = some t ∧ now - t < cfg.circuitBreakerResetMs := by
  rw [check_error_iff, h.isOpen]
  refine and_congr_right fun hfull => ?_
  obtain ⟨t, ht⟩ := h.failed (by omega)
  rw [h.last t ht, ht]
  simp

/-- A check keeps the agreement: it forgets the failures exactly when the log says that their window is
    over. -/
theorem Agrees.check {provider : String} {now : Int} (hthreshold : 1 ≤ cfg.circuitBreakerThreshold)
    (h : Agrees cfg provider m log) :
    Agrees cfg provider (BreakerStep.apply cfg m ⟨.check, provider, now⟩) (⟨.check, provider, now⟩ :: log) := by
  have hfail : ¬ BreakerStep.IsFailureOf provider ⟨.check, provider, now⟩ :=
    fun hfail => (nomatch hfail.1)
  show Agrees cfg provider (match checkCircuitBreaker cfg now m provider with
    | .ok m' => m'
    | .error _ => m) _
  cases hcheck : checkCircuitBreaker cfg now m provider with
  | error e =>
      -- the window is not over, so this is no reset
      obtain ⟨-, t, ht, hwithin⟩ := (h.rejects_iff hthreshold).mp ⟨e, hcheck⟩
      refine h.unchanged rfl ?_ hfail
      rintro ⟨-, hop | ⟨-, -, t', ht', hover⟩⟩
      · cases hop
      · rw [ht, Option.mem_some_iff] at ht'
        subst ht'
        have hlate : cfg.circuitBreakerResetMs ≤ now - t := hover
        omega
  | ok m' =>
      have hstate := getState_check_self hcheck
      by_cases hopen : m.IsOpen provider
      · -- an open breaker lets a check through only when its window is over
        rw [if_pos hopen] at hstate
        have hfull := h.isOpen.mp hopen
        obtain ⟨t, ht⟩ := h.failed (by omega)
        have hover : cfg.circuitBreakerResetMs ≤ now - m.lastFailure provider := by
          by_contra hwithin
          obtain ⟨e, he⟩ := check_error_iff.mpr ⟨hopen, Int.not_le.mp hwithin⟩
          rw [hcheck] at he
          cases he
        exact h.reset hthreshold hstate ⟨rfl, Or.inr ⟨rfl, hfull, (h.windowOver_iff ht).mpr hover⟩⟩
          hfail
      · rw [if_neg hopen] at hstate
        refine h.unchanged hstate ?_ hfail
        rintro ⟨-, hop | ⟨-, hfull, -⟩⟩
        · cases hop
        · exact hopen (h.isOpen.mpr hfull)

/-- **One step keeps the agreement.** -/
theorem agrees_step (hthreshold : 1 ≤ cfg.circuitBreakerThreshold) (h : Agrees cfg p m log) :
    Agrees cfg p (step.apply cfg m) (step :: log) := by
  by_cases hp : step.provider = p
  · obtain ⟨op, provider, now⟩ := step
    obtain rfl : provider = p := hp
    cases op with
    | recordSuccess =>
        refine h.reset hthreshold getState_recordSuccess_self ⟨rfl, Or.inl rfl⟩ ?_
        exact fun hfail => (nomatch hfail.1)
    | recordFailure =>
        have hreset : ¬ Resets cfg provider (sinceReset cfg provider log) log
            ⟨.recordFailure, provider, now⟩ := by
          rintro ⟨-, hop | ⟨hop, -⟩⟩ <;> cases hop
        have hfail : BreakerStep.IsFailureOf provider ⟨.recordFailure, provider, now⟩ := ⟨rfl, rfl⟩
        exact h.recordFailure hreset hfail
    | check => exact h.check hthreshold
  · exact h.unchanged (getState_apply_ne hp) (fun hreset => hp hreset.1) (fun hfail => hp hfail.2)

end Steps

/-- The circuit state after any log is what the log says. -/
theorem agrees_stateAfter {cfg : PolicyConfig} (hthreshold : 1 ≤ cfg.circuitBreakerThreshold) (p : String)
    (log : List BreakerStep) : Agrees cfg p (stateAfter cfg log) log := by
  induction log with
  | nil =>
      refine ⟨rfl, ?_, fun t ht => (nomatch ht), fun hpos => absurd hpos (Nat.lt_irrefl 0)⟩
      constructor
      · exact fun hopen => absurd hopen Bool.false_ne_true
      · intro hfull
        exact absurd hfull (by simp only [failuresSince, sinceReset, failuresOf, List.countP_nil]; omega)
  | cons step past ih => exact agrees_step hthreshold ih

/-- **The breaker of a provider follows the provider's own log.** -/
theorem breaker_follows_log {cfg : PolicyConfig} (hthreshold : 1 ≤ cfg.circuitBreakerThreshold)
    (log : List BreakerStep) (p : String) :
    ((stateAfter cfg log).IsOpen p ↔
      cfg.circuitBreakerThreshold ≤ ((stateAfter cfg log).getCircuitBreakerState p).failures) ∧
    ((stateAfter cfg log).getCircuitBreakerState p).failures = failuresSince cfg p log ∧
    (∀ now, (∃ e, checkCircuitBreaker cfg now (stateAfter cfg log) p = .error e) ↔
      cfg.circuitBreakerThreshold ≤ failuresSince cfg p log ∧
        ∃ t, lastFailureOf p log = some t ∧ now - t < cfg.circuitBreakerResetMs) ∧
    (∀ step : BreakerStep, step.provider ≠ p →
      (stateAfter cfg (step :: log)).getCircuitBreakerState p =
        (stateAfter cfg log).getCircuitBreakerState p) := by
  have hagrees := agrees_stateAfter hthreshold p log
  refine ⟨?_, hagrees.failures, fun now => hagrees.rejects_iff hthreshold,
    fun step hne => getState_apply_ne hne⟩
  rw [hagrees.failures]
  exact hagrees.isOpen

/-- One failure opens this breaker. -/
def strictPolicy : PolicyConfig := { circuitBreakerThreshold := 1 }

/-- A failure of `p`, a check of `p` inside its window, and a success of another provider. -/
def strictLog : List BreakerStep :=
  [⟨.recordSuccess, "q", 12⟩, ⟨.check, "p", 11⟩, ⟨.recordFailure, "p", 10⟩]

theorem breaker_follows_log_strict :
    (stateAfter strictPolicy strictLog).IsOpen "p" ∧
      ∃ e, checkCircuitBreaker strictPolicy 13 (stateAfter strictPolicy strictLog) "p" = .error e := by
  obtain ⟨hopen, hcount, hrejects, -⟩ :=
    @breaker_follows_log strictPolicy (by decide) strictLog "p"
  have hfull : strictPolicy.circuitBreakerThreshold ≤ failuresSince strictPolicy "p" strictLog := by
    decide
  refine ⟨hopen.mpr (hcount ▸ hfull), (hrejects 13).mpr ⟨hfull, 10, by decide, by decide⟩⟩

/-! ## The service -/

open Lts PolicySystem

/-- The steps on the breaker an action of the service makes. -/
def stepsOf (s : PolicySystem) (l : PolicyLabel) : List BreakerStep :=
  match l.action with
  | .enter _ _ provider _ => [⟨.check, provider, l.now⟩]
  | .succeed id => ((s.calls.get id).map fun call => ⟨.recordSuccess, call.provider, l.now⟩).toList
  | .fail id false => ((s.calls.get id).map fun call => ⟨.recordFailure, call.provider, l.now⟩).toList
  | _ => []

/-- A step of the service changes the circuit state by its steps on the breaker. -/
theorem circuitState_of_effect {cfg : PolicyConfig} {s t : PolicySystem} {now : Int} {a : PolicyAction}
    {out : Option Invocation} (he : Effect cfg s now a t out) :
    t.circuitState = (stepsOf s ⟨now, a⟩).foldl (fun m step => step.apply cfg m) s.circuitState := by
  cases he with
  | rejected hfresh hcheck => simp [stepsOf, BreakerStep.apply, hcheck, setCall]
  | turnedAway hfresh hcheck => simp [stepsOf, BreakerStep.apply, hcheck, setCall]
  | admitted hfresh hcheck => simp [stepsOf, BreakerStep.apply, hcheck, setCall]
  | yielded hcall => rfl
  | succeeded hcall => simp [stepsOf, BreakerStep.apply, hcall, setCall]
  | failed hcall => simp [stepsOf, BreakerStep.apply, hcall, setCall]
  | cancelled hcall => rfl
  | left hcall => rfl
  | retried hcall => rfl

/-- **The circuit state of the service is the state after the steps its calls made.** -/
theorem circuitState_eq_stateAfter {cfg : PolicyConfig} {s : PolicySystem} {ls : List PolicyLabel}
    (h : Run (step cfg) initial ls s) : ∃ log, s.circuitState = stateAfter cfg log := by
  have hfold : ∀ (steps log : List BreakerStep),
      ∃ log', steps.foldl (fun m step => step.apply cfg m) (stateAfter cfg log) = stateAfter cfg log' := by
    intro steps
    induction steps with
    | nil => exact fun log => ⟨log, rfl⟩
    | cons step rest ih => exact fun log => ih (step :: log)
  refine Run.invariant (I := fun s => ∃ log, s.circuitState = stateAfter cfg log) ?_ h ⟨[], rfl⟩
  rintro s l t ⟨log, hlog⟩ hstep
  obtain ⟨out, hout⟩ := stepOut_of_step hstep
  rw [circuitState_of_effect (effect_of_stepOut hout), hlog]
  exact hfold _ log

end Sirius
