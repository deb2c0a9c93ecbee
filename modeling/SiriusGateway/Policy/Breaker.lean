import SiriusGateway.Js.Value
import SiriusGateway.Lib.JsMap

/-!
# `Policy.Breaker` — the circuit breaker

The state `PolicyService` keeps per provider and the three operations on it. `Date.now()` is an argument:
every operation takes the clock reading it sees.

## Contents
- **Operations.** `checkCircuitBreaker`, `recordSuccess`, `recordFailure`, `getCircuitBreakerState`.
- **Point lemmas.** What each operation does to the provider it names, and that it leaves every other alone.
-/

namespace Sirius

open Js

/-- `CircuitState`. -/
structure CircuitState where
  failures : Nat
  lastFailure : Int
  isOpen : Bool
  deriving DecidableEq

/-- The settings `PolicyService` reads in its constructor, under their environment names' defaults. -/
structure PolicyConfig where
  maxRetries : Nat := 2
  baseDelay : Nat := 500
  timeoutMs : Nat := 60000
  circuitBreakerThreshold : Nat := 5
  circuitBreakerResetMs : Int := 30000
  deriving DecidableEq

/-- `circuitState`. -/
abbrev CircuitMap := JsMap String CircuitState

namespace CircuitMap

/-- `getCircuitBreakerState(provider)`. -/
def getCircuitBreakerState (m : CircuitMap) (provider : String) : CircuitState :=
  (m.get provider).getD ⟨0, 0, false⟩

/-- The message of an open breaker. -/
def openMessage (cfg : PolicyConfig) (provider : String) (elapsed : Int) : String :=
  s!"Circuit breaker is open for provider \"{provider}\". Retry after {cfg.circuitBreakerResetMs - elapsed}ms."

/-- `checkCircuitBreaker(provider)`: throws while the breaker is open, and closes it once
    `circuitBreakerResetMs` have passed. -/
def checkCircuitBreaker (cfg : PolicyConfig) (now : Int) (m : CircuitMap) (provider : String) :
    Throws CircuitMap :=
  match m.get provider with
  | none => .ok m
  | some state =>
      if state.isOpen = false then .ok m
      else
        let elapsed := now - state.lastFailure
        if elapsed ≥ cfg.circuitBreakerResetMs then
          .ok (m.set provider { state with isOpen := false, failures := 0 })
        else .error (.error (openMessage cfg provider elapsed))

/-- `recordSuccess(provider)`. -/
def recordSuccess (m : CircuitMap) (provider : String) : CircuitMap :=
  match m.get provider with
  | none => m
  | some state => m.set provider { state with failures := 0, isOpen := false }

/-- `recordFailure(provider)`. -/
def recordFailure (cfg : PolicyConfig) (now : Int) (m : CircuitMap) (provider : String) : CircuitMap :=
  let state := (m.get provider).getD ⟨0, 0, false⟩
  m.set provider
    { failures := state.failures + 1
      lastFailure := now
      isOpen := if state.failures + 1 ≥ cfg.circuitBreakerThreshold then true else state.isOpen }

/-! ## Point lemmas -/

variable {cfg : PolicyConfig} {now : Int} {m m' : CircuitMap} {p q : String}

/-- The breaker of `p` is open. -/
def IsOpen (m : CircuitMap) (p : String) : Prop := (m.getCircuitBreakerState p).isOpen = true

instance (m : CircuitMap) (p : String) : Decidable (m.IsOpen p) := inferInstanceAs (Decidable (_ = _))

/-- The clock reading of the last recorded failure of `p`. -/
def lastFailure (m : CircuitMap) (p : String) : Int := (m.getCircuitBreakerState p).lastFailure

theorem getState_set_ne (v : CircuitState) (h : q ≠ p) :
    getCircuitBreakerState (m.set p v) q = getCircuitBreakerState m q := by
  unfold getCircuitBreakerState
  rw [JsMap.get_set_ne m v h]

theorem getState_set_self (v : CircuitState) : getCircuitBreakerState (m.set p v) p = v := by
  unfold getCircuitBreakerState
  rw [JsMap.get_set_self, Option.getD_some]

/-- A check rejects exactly while the breaker is open and its window has not passed. -/
theorem check_error_iff : (∃ e, checkCircuitBreaker cfg now m p = .error e) ↔
    m.IsOpen p ∧ now - m.lastFailure p < cfg.circuitBreakerResetMs := by
  unfold checkCircuitBreaker IsOpen lastFailure getCircuitBreakerState
  cases hget : m.get p with
  | none => simp
  | some state =>
      by_cases hopen : state.isOpen = false
      · simp [hopen]
      · have htrue : state.isOpen = true := by simpa using hopen
        by_cases hlate : now - state.lastFailure ≥ cfg.circuitBreakerResetMs
        · simp [htrue, hlate]
        · simp only [htrue, hlate, if_false, Bool.true_eq_false, Option.getD_some, true_and]
          exact ⟨fun _ => by omega, fun _ => ⟨_, rfl⟩⟩

/-- What a check that passes leaves of the provider it names. -/
theorem getState_check_self (h : checkCircuitBreaker cfg now m p = .ok m') :
    m'.getCircuitBreakerState p =
      if m.IsOpen p then ⟨0, m.lastFailure p, false⟩ else m.getCircuitBreakerState p := by
  unfold checkCircuitBreaker at h
  split at h
  · rename_i hget
    have hclosed : m.getCircuitBreakerState p = ⟨0, 0, false⟩ := by
      rw [getCircuitBreakerState, hget, Option.getD_none]
    rw [← Except.ok.inj h, if_neg (by rw [IsOpen, hclosed]; exact Bool.false_ne_true)]
  · rename_i state hget
    have hstate : m.getCircuitBreakerState p = state := by
      rw [getCircuitBreakerState, hget, Option.getD_some]
    split at h
    · rename_i hopen
      rw [← Except.ok.inj h, if_neg (by rw [IsOpen, hstate, hopen]; exact Bool.false_ne_true)]
    · rename_i hopen
      simp only at h
      split at h
      · rw [← Except.ok.inj h, getState_set_self, if_pos (by rw [IsOpen, hstate]; simpa using hopen),
          lastFailure, hstate]
      · cases h

/-- A check leaves every other provider alone. -/
theorem getState_check_ne (h : checkCircuitBreaker cfg now m p = .ok m') (hne : q ≠ p) :
    m'.getCircuitBreakerState q = m.getCircuitBreakerState q := by
  unfold checkCircuitBreaker at h
  split at h
  · exact Except.ok.inj h ▸ rfl
  · split at h
    · exact Except.ok.inj h ▸ rfl
    · simp only at h
      split at h
      · rw [← Except.ok.inj h]
        exact getState_set_ne _ hne
      · cases h

/-- **An open breaker rejects** until `circuitBreakerResetMs` have passed since the last failure. -/
theorem check_of_open (hopen : m.IsOpen p)
    (hnow : now - m.lastFailure p < cfg.circuitBreakerResetMs) :
    checkCircuitBreaker cfg now m p =
      .error (.error (openMessage cfg p (now - m.lastFailure p))) := by
  unfold IsOpen getCircuitBreakerState at hopen
  unfold lastFailure getCircuitBreakerState at hnow ⊢
  unfold checkCircuitBreaker
  cases hget : m.get p with
  | none => simp [hget] at hopen
  | some state =>
      simp only [hget, Option.getD_some] at hopen hnow ⊢
      rw [if_neg (by simp [hopen]), if_neg (by omega)]

/-- A closed breaker lets every call through, and the check changes nothing. -/
theorem check_of_closed (h : ¬ m.IsOpen p) : checkCircuitBreaker cfg now m p = .ok m := by
  unfold IsOpen getCircuitBreakerState at h
  unfold checkCircuitBreaker
  cases hget : m.get p with
  | none => rfl
  | some state =>
      simp only [hget, Option.getD_some, Bool.not_eq_true] at h ⊢
      rw [if_pos h]

theorem getState_recordSuccess_ne (hne : q ≠ p) :
    (m.recordSuccess p).getCircuitBreakerState q = m.getCircuitBreakerState q := by
  unfold recordSuccess
  split
  · rfl
  · exact getState_set_ne _ hne

/-- What a recorded success leaves of the provider it names. -/
theorem getState_recordSuccess_self :
    (m.recordSuccess p).getCircuitBreakerState p = ⟨0, m.lastFailure p, false⟩ := by
  unfold recordSuccess lastFailure getCircuitBreakerState
  cases hget : m.get p with
  | none => simp [hget]
  | some state => simp

/-- What a recorded failure leaves of the provider it names. -/
theorem getState_recordFailure_self :
    (recordFailure cfg now m p).getCircuitBreakerState p =
      ⟨(m.getCircuitBreakerState p).failures + 1, now,
        if (m.getCircuitBreakerState p).failures + 1 ≥ cfg.circuitBreakerThreshold then true
        else (m.getCircuitBreakerState p).isOpen⟩ :=
  getState_set_self _

theorem getState_recordFailure_ne (hne : q ≠ p) :
    (recordFailure cfg now m p).getCircuitBreakerState q = m.getCircuitBreakerState q :=
  getState_set_ne _ hne

/-- A recorded success closes no other breaker. -/
theorem isOpen_recordSuccess_ne (hne : q ≠ p) (h : m.IsOpen q) : (m.recordSuccess p).IsOpen q := by
  unfold IsOpen
  rw [getState_recordSuccess_ne hne]
  exact h

/-- A check closes no other breaker. -/
theorem isOpen_check_ne (hcheck : checkCircuitBreaker cfg now m p = .ok m') (hne : q ≠ p)
    (h : m.IsOpen q) : m'.IsOpen q := by
  unfold IsOpen
  rw [getState_check_ne hcheck hne]
  exact h

/-- A recorded failure never closes a breaker. -/
theorem isOpen_recordFailure (h : m.IsOpen q) : (recordFailure cfg now m p).IsOpen q := by
  unfold IsOpen at h ⊢
  by_cases hq : q = p
  · subst hq
    unfold recordFailure
    rw [getState_set_self]
    unfold getCircuitBreakerState at h
    simp only [h, ite_self]
  · rw [getState_recordFailure_ne hq]
    exact h

@[simp] theorem lastFailure_recordFailure :
    (recordFailure cfg now m p).lastFailure p = now := by
  unfold lastFailure recordFailure
  rw [getState_set_self]

end CircuitMap

end Sirius
