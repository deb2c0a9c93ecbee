import SiriusGateway.Policy.Concurrent

/-!
# `Policy.Signals` — the signals of the attempts

The service of `Policy.Concurrent` together with the abort signals around it. Each attempt of a call owns an
`AbortController` whose signal is merged with the caller's signal; the merged signal is what the operation is
handed. The state remembers which signals were handed out, which controllers have been aborted since, for
which calls the caller's signal has fired, and which calls fed a failure to the breaker.

## Contents
- **The state.** `SignalSystem`, and when a handed signal is still `Live`.
- **The step.** A caller's signal fires, or the service takes a step that reads the caller's signal as it is.
- **Frame.** A step concerns one call (`frame_of_effect`).
- **The controllers.** An attempt whose controller is not aborted is the running one (`Tidy`).
- **The attempts.** No attempt is invoked twice (`Numbered`).
-/

namespace Sirius

open Lts PolicySystem

/-! ## Actions and the call they concern -/

namespace PolicyAction

/-- The call an action happens to. -/
def call : PolicyAction → Nat
  | .enter id _ _ _ => id
  | .event id => id
  | .succeed id => id
  | .fail id _ => id
  | .leave id => id
  | .wake id => id

/-- The action reads the caller's signal of its call as aborted exactly when it has fired. -/
def readsSignal (fired : List Nat) : PolicyAction → Bool
  | .enter id _ _ callerAborted => callerAborted == decide (id ∈ fired)
  | .fail id callerAborted => callerAborted == decide (id ∈ fired)
  | _ => true

/-- The calls for which the action records a failure. -/
def failures : PolicyAction → List Nat
  | .fail id false => [id]
  | _ => []

/-- The attempts whose controller the action aborts: those that end. -/
def released (s : PolicySystem) (action : PolicyAction) : List (Nat × Nat) :=
  match action with
  | .succeed id | .fail id _ | .leave id =>
      -- the `finally` block of the attempt calls `abort()` on its own controller
      match s.calls.get id with
      | some ⟨_, _, .attempting attempt _⟩ => [(id, attempt)]
      | _ => []
  | _ => []

end PolicyAction

/-! ## The state -/

/-- The service, and what has happened to the signals. -/
structure SignalSystem where
  policy : PolicySystem
  /-- The calls whose caller's signal has fired. -/
  fired : List Nat
  /-- The attempts a signal was handed to, in order. -/
  handed : List Invocation
  /-- The attempts, by call and number, whose own controller has been aborted. -/
  released : List (Nat × Nat)
  /-- The calls that recorded a failure, in order. -/
  failures : List Nat

namespace SignalSystem

/-- A fresh service: no signal has been handed out. -/
def initial : SignalSystem := ⟨PolicySystem.initial, [], [], [], []⟩

/-- The signal handed to an attempt has not fired: neither its controller nor the caller's signal has. -/
def Live (s : SignalSystem) (i : Invocation) : Prop :=
  i ∈ s.handed ∧ (i.call, i.attempt) ∉ s.released ∧ i.call ∉ s.fired

/-- The attempts of a call that were invoked, in order. -/
def handedTo (s : SignalSystem) (id : Nat) : List Invocation := s.handed.filter (·.call = id)

/-- How often a call has recorded a failure. -/
def failuresOf (s : SignalSystem) (id : Nat) : Nat := s.failures.count id

/-- The call is in the back-off sleep between two attempts. -/
def InBackoff (s : SignalSystem) (id : Nat) : Prop :=
  ∃ provider kind attempt, s.policy.calls.get id = some ⟨provider, kind, .backoff attempt⟩

/-! ## The step -/

/-- What can happen next. -/
inductive Label where
  /-- The caller's signal of these calls fires; some of them may not have been made yet. -/
  | abort (calls : List Nat)
  | policy (label : PolicyLabel)

/-- The caller's signal of these calls fires. -/
def fire (s : SignalSystem) (calls : List Nat) : SignalSystem := { s with fired := s.fired ++ calls }

/-- The state after a step of the service that leads to `next` and invokes `out`. -/
def record (s : SignalSystem) (action : PolicyAction) (next : PolicySystem) (out : Option Invocation) :
    SignalSystem where
  policy := next
  fired := s.fired
  handed := s.handed ++ out.toList
  released := s.released ++ action.released s.policy
  failures := s.failures ++ action.failures

/-- One step. -/
def step (cfg : PolicyConfig) (s : SignalSystem) : Label → Option SignalSystem
  | .abort calls => some (s.fire calls)
  | .policy l =>
      if l.action.readsSignal s.fired then
        (PolicySystem.stepOut cfg s.policy l).map fun r => s.record l.action r.1 r.2
      else none

variable {cfg : PolicyConfig} {s t : SignalSystem} {l : PolicyLabel} {id : Nat} {i : Invocation}

/-- **Inversion of a step of the service.** -/
theorem effect_of_step (h : step cfg s (.policy l) = some t) :
    ∃ next out, Effect cfg s.policy l.now l.action next out ∧ l.action.readsSignal s.fired = true ∧
      t = s.record l.action next out := by
  simp only [step] at h
  split at h
  · rename_i hreads
    obtain ⟨⟨next, out⟩, hstep, rfl⟩ := Option.map_eq_some_iff.mp h
    exact ⟨next, out, effect_of_stepOut hstep, hreads, rfl⟩
  · cases h

/-! ## Frame -/

/-- **A step concerns one call**: every other call stays where it is, and what is invoked is an attempt of
    the call the step happens to. -/
theorem frame_of_effect {p next : PolicySystem} {now : Int} {a : PolicyAction} {out : Option Invocation}
    (h : Effect cfg p now a next out) :
    (∀ id, id ≠ a.call → next.calls.get id = p.calls.get id) ∧ ∀ i ∈ out, i.call = a.call := by
  have hset : ∀ {q : PolicySystem} {k : Nat} {c : PolicyCall} {id : Nat}, q.calls = p.calls → id ≠ k →
      (q.setCall k c).calls.get id = p.calls.get id := by
    intro q k c id hq hne
    rw [← hq]
    exact JsMap.get_set_ne q.calls c hne
  cases h with
  | rejected hfresh hcheck => exact ⟨fun id hne => hset rfl hne, by simp⟩
  | turnedAway hfresh hcheck => exact ⟨fun id hne => hset rfl hne, by simp⟩
  | admitted hfresh hcheck =>
      refine ⟨fun id hne => hset rfl hne, fun i hi => ?_⟩
      rw [← Option.mem_some_iff.mp hi]
      rfl
  | yielded hcall => exact ⟨fun id hne => hset rfl hne, by simp⟩
  | succeeded hcall => exact ⟨fun id hne => hset rfl hne, by simp⟩
  | failed hcall => exact ⟨fun id hne => hset rfl hne, by simp⟩
  | cancelled hcall => exact ⟨fun id hne => hset rfl hne, by simp⟩
  | left hcall => exact ⟨fun id hne => hset rfl hne, by simp⟩
  | retried hcall =>
      refine ⟨fun id hne => hset rfl hne, fun i hi => ?_⟩
      rw [← Option.mem_some_iff.mp hi]
      rfl

/-- Only the call an action happens to can record a failure. -/
theorem mem_failures_iff {a : PolicyAction} : id ∈ a.failures ↔ a = .fail id false := by
  cases a with
  | fail k aborted =>
      cases aborted with
      | true => simp [PolicyAction.failures]
      | false => simp [PolicyAction.failures, eq_comm]
  | enter k kind provider aborted => simp [PolicyAction.failures]
  | event k => simp [PolicyAction.failures]
  | succeed k => simp [PolicyAction.failures]
  | leave k => simp [PolicyAction.failures]
  | wake k => simp [PolicyAction.failures]

/-! ## The controllers -/

/-- The call is running its attempt `attempt`. -/
def Attempting (p : PolicySystem) (id attempt : Nat) : Prop :=
  ∃ provider kind yielded, p.calls.get id = some ⟨provider, kind, .attempting attempt yielded⟩

theorem Attempting.ne_of_get_none {p : PolicySystem} {attempt k : Nat} (h : Attempting p id attempt)
    (hk : p.calls.get k = none) : id ≠ k := by
  rintro rfl
  obtain ⟨provider, kind, y, hget⟩ := h
  cases hk.symm.trans hget

theorem Attempting.ne_of_backoff {p : PolicySystem} {attempt k n : Nat} {provider : String}
    {kind : CallKind} (h : Attempting p id attempt)
    (hk : p.calls.get k = some ⟨provider, kind, .backoff n⟩) : id ≠ k := by
  rintro rfl
  obtain ⟨provider', kind', y, hget⟩ := h
  cases hk.symm.trans hget

/-- Every attempt whose controller has not been aborted is the running attempt of its call. -/
def Tidy (s : SignalSystem) : Prop :=
  ∀ i ∈ s.handed, (i.call, i.attempt) ∉ s.released → Attempting s.policy i.call i.attempt

theorem tidy_initial : Tidy initial := by
  intro i hi
  cases hi

theorem tidy_fire (h : Tidy s) (calls : List Nat) : Tidy (s.fire calls) := h

/-- An action that ends the running attempt of its call aborts the controller of that attempt. -/
theorem released_of_attempting {p : PolicySystem} {a : PolicyAction} {attempt : Nat}
    (h : Attempting p id attempt) (ha : a = .succeed id ∨ (∃ aborted, a = .fail id aborted) ∨ a = .leave id) :
    (id, attempt) ∈ a.released p := by
  obtain ⟨provider, kind, yielded, hget⟩ := h
  rcases ha with rfl | ⟨aborted, rfl⟩ | rfl
  · simp [PolicyAction.released, hget]
  · simp [PolicyAction.released, hget]
  · simp [PolicyAction.released, hget]

/-- So an attempt whose controller the action leaves alone is one of another call. -/
theorem ne_of_not_released {p : PolicySystem} {a : PolicyAction} {id attempt k : Nat}
    (ha : a = .succeed k ∨ (∃ aborted, a = .fail k aborted) ∨ a = .leave k) (h : Attempting p id attempt)
    (hkept : (id, attempt) ∉ a.released p) : id ≠ k := by
  rintro rfl
  exact hkept (released_of_attempting h ha)

/-- After a step of the service, an attempt runs that has just been invoked or was running before, unless
    the step has aborted its controller. -/
theorem attempting_of_effect {p next : PolicySystem} {now : Int} {a : PolicyAction}
    {out : Option Invocation} (h : Effect cfg p now a next out) :
    (∀ i ∈ out, Attempting next i.call i.attempt) ∧
    ∀ id attempt, Attempting p id attempt → (id, attempt) ∉ a.released p → Attempting next id attempt := by
  -- an attempt of another call goes on
  have hother : ∀ {id attempt}, Attempting p id attempt → id ≠ a.call → Attempting next id attempt := by
    intro id attempt hrunning hne
    unfold Attempting at hrunning ⊢
    rw [(frame_of_effect h).1 id hne]
    exact hrunning
  cases h with
  | @rejected k kind provider aborted e hfresh hcheck =>
      refine ⟨by simp, fun id attempt hrunning _ => hother hrunning ?_⟩
      exact hrunning.ne_of_get_none hfresh
  | @turnedAway k kind provider m hfresh hcheck =>
      refine ⟨by simp, fun id attempt hrunning _ => hother hrunning ?_⟩
      exact hrunning.ne_of_get_none hfresh
  | @admitted k kind provider m hfresh hcheck =>
      refine ⟨fun i hi => ?_, fun id attempt hrunning _ => hother hrunning ?_⟩
      · rw [← Option.mem_some_iff.mp hi]
        exact ⟨_, _, _, JsMap.get_set_self ..⟩
      · exact hrunning.ne_of_get_none hfresh
  | @yielded k provider attempt y hcall =>
      refine ⟨by simp, fun id a' hrunning _ => ?_⟩
      by_cases hid : id = k
      · subst hid
        obtain ⟨provider', kind', y', hget⟩ := hrunning
        rw [hcall] at hget
        cases hget
        exact ⟨_, _, _, JsMap.get_set_self ..⟩
      · exact hother hrunning hid
  | @succeeded k provider kind attempt y hcall =>
      refine ⟨by simp, fun id a' hrunning hkept => hother hrunning ?_⟩
      exact ne_of_not_released (Or.inl rfl) hrunning hkept
  | @failed k provider kind attempt y hcall =>
      refine ⟨by simp, fun id a' hrunning hkept => hother hrunning ?_⟩
      exact ne_of_not_released (Or.inr (Or.inl ⟨_, rfl⟩)) hrunning hkept
  | @cancelled k provider kind attempt y hcall =>
      refine ⟨by simp, fun id a' hrunning hkept => hother hrunning ?_⟩
      exact ne_of_not_released (Or.inr (Or.inl ⟨_, rfl⟩)) hrunning hkept
  | @left k provider attempt hcall =>
      refine ⟨by simp, fun id a' hrunning hkept => hother hrunning ?_⟩
      exact ne_of_not_released (Or.inr (Or.inr rfl)) hrunning hkept
  | @retried k provider kind attempt hcall =>
      refine ⟨fun i hi => ?_, fun id a' hrunning _ => hother hrunning ?_⟩
      · rw [← Option.mem_some_iff.mp hi]
        exact ⟨_, _, _, JsMap.get_set_self ..⟩
      · exact hrunning.ne_of_backoff hcall

/-- **Every step keeps the controllers tidy.** -/
theorem tidy_step {label : Label} (h : Tidy s) (hstep : step cfg s label = some t) : Tidy t := by
  cases label with
  | abort calls =>
      obtain rfl : s.fire calls = t := Option.some.inj hstep
      exact tidy_fire h calls
  | policy l =>
      obtain ⟨next, out, heffect, -, rfl⟩ := effect_of_step hstep
      intro i hi hkept
      obtain ⟨hbefore, hnow⟩ := not_or.mp fun h' => hkept (List.mem_append.mpr h')
      obtain ⟨hnew, hold⟩ := attempting_of_effect heffect
      rcases List.mem_append.mp hi with hthere | hfresh
      · exact hold _ _ (h i hthere hbefore) hnow
      · exact hnew i (Option.mem_toList.mp hfresh)

/-- The controllers are tidy in every reachable state. -/
theorem tidy_of_run {labels : List Label} (h : Run (step cfg) initial labels s) : Tidy s :=
  Run.invariant (I := Tidy) (fun _ _ _ hs hstep => tidy_step hs hstep) h tidy_initial

/-! ## The attempts -/

/-- The attempt an unfinished call has come to. -/
def attemptOf : CallPhase → Option Nat
  | .attempting attempt _ => some attempt
  | .backoff attempt => some attempt
  | .finished => none

/-- The key of an invocation: its call and the number of the attempt. -/
def keyOf (i : Invocation) : Nat × Nat := (i.call, i.attempt)

/-- No attempt has been invoked twice, and none beyond the one its call has come to. -/
structure Numbered (s : SignalSystem) : Prop where
  nodup : (s.handed.map keyOf).Nodup
  reached : ∀ i ∈ s.handed, ∃ c, s.policy.calls.get i.call = some c ∧
    ∀ n, attemptOf c.phase = some n → i.attempt ≤ n

theorem numbered_initial : Numbered initial :=
  ⟨List.nodup_nil, fun i hi => by cases hi⟩

/-- What a step does to the attempt number of its call: it stays, or it is that of the operation the step
    invokes, which lies beyond the one before. -/
theorem attemptOf_of_effect {p next : PolicySystem} {now : Int} {a : PolicyAction}
    {out : Option Invocation} (h : Effect cfg p now a next out) :
    ∃ c, next.calls.get a.call = some c ∧
      ((out = none ∧ ∀ n, attemptOf c.phase = some n →
          ∃ c', p.calls.get a.call = some c' ∧ attemptOf c'.phase = some n) ∨
        ∃ i, out = some i ∧ i.call = a.call ∧ attemptOf c.phase = some i.attempt ∧
          ∀ c', p.calls.get a.call = some c' → ∃ n, attemptOf c'.phase = some n ∧ n < i.attempt) := by
  have hended : ∀ n, attemptOf CallPhase.finished = some n →
      ∃ c', p.calls.get a.call = some c' ∧ attemptOf c'.phase = some n := by
    intro n hn
    cases hn
  cases h with
  | rejected hfresh hcheck => exact ⟨_, JsMap.get_set_self _ _ _, Or.inl ⟨rfl, hended⟩⟩
  | turnedAway hfresh hcheck => exact ⟨_, JsMap.get_set_self _ _ _, Or.inl ⟨rfl, hended⟩⟩
  | admitted hfresh hcheck =>
      refine ⟨_, JsMap.get_set_self _ _ _, Or.inr ⟨_, rfl, rfl, rfl, fun c' hc' => ?_⟩⟩
      cases hfresh.symm.trans hc'
  | yielded hcall =>
      exact ⟨_, JsMap.get_set_self _ _ _, Or.inl ⟨rfl, fun n hn => ⟨_, hcall, hn⟩⟩⟩
  | succeeded hcall => exact ⟨_, JsMap.get_set_self _ _ _, Or.inl ⟨rfl, hended⟩⟩
  | @failed k provider kind attempt y hcall =>
      refine ⟨_, JsMap.get_set_self _ _ _, Or.inl ⟨rfl, fun n hn => ⟨_, hcall, ?_⟩⟩⟩
      unfold phaseAfterFailure at hn
      split at hn
      · cases hn
      · split at hn
        · exact hn
        · cases hn
  | cancelled hcall => exact ⟨_, JsMap.get_set_self _ _ _, Or.inl ⟨rfl, hended⟩⟩
  | left hcall => exact ⟨_, JsMap.get_set_self _ _ _, Or.inl ⟨rfl, hended⟩⟩
  | @retried k provider kind attempt hcall =>
      refine ⟨_, JsMap.get_set_self _ _ _, Or.inr ⟨_, rfl, rfl, rfl, fun c' hc' => ?_⟩⟩
      cases hcall.symm.trans hc'
      exact ⟨attempt, rfl, Nat.lt_succ_self attempt⟩

/-- **Every step keeps the attempts numbered.** -/
theorem numbered_step {label : Label} (h : Numbered s) (hstep : step cfg s label = some t) :
    Numbered t := by
  cases label with
  | abort calls =>
      obtain rfl : s.fire calls = t := Option.some.inj hstep
      exact ⟨h.nodup, h.reached⟩
  | policy l =>
      obtain ⟨next, out, heffect, -, rfl⟩ := effect_of_step hstep
      obtain ⟨hframe, -⟩ := frame_of_effect heffect
      obtain ⟨c, hc, hnumber⟩ := attemptOf_of_effect heffect
      -- an attempt invoked before stays within the number its call has come to
      have hbefore : ∀ i ∈ s.handed, ∃ c, next.calls.get i.call = some c ∧
          ∀ n, attemptOf c.phase = some n → i.attempt ≤ n := by
        intro i hi
        obtain ⟨c', hc', hle⟩ := h.reached i hi
        by_cases hid : i.call = l.action.call
        · rw [hid] at hc' ⊢
          refine ⟨c, hc, fun n hn => ?_⟩
          rcases hnumber with ⟨-, hkept⟩ | ⟨j, -, -, hj, hlater⟩
          · obtain ⟨c'', hc'', hn''⟩ := hkept n hn
            cases hc'.symm.trans hc''
            exact hle n hn''
          · obtain ⟨m, hm, hlt⟩ := hlater c' hc'
            obtain rfl : j.attempt = n := Option.some.inj (hj.symm.trans hn)
            exact (hle m hm).trans hlt.le
        · exact ⟨c', (hframe _ hid).trans hc', hle⟩
      rcases hnumber with ⟨rfl, -⟩ | ⟨j, rfl, hcall, hj, hlater⟩
      · refine ⟨?_, ?_⟩
        · simpa [record] using h.nodup
        · simpa [record] using hbefore
      · constructor
        · show ((s.handed ++ [j]).map keyOf).Nodup
          rw [List.map_append, List.nodup_append]
          refine ⟨h.nodup, List.nodup_singleton _, ?_⟩
          intro key hkey key' hkey' heq
          obtain ⟨i, hi, rfl⟩ := List.mem_map.mp hkey
          rw [List.map_singleton, List.mem_singleton] at hkey'
          subst hkey'
          -- an earlier attempt of the same call has a smaller number
          obtain ⟨hsame, hattempt⟩ := Prod.mk.inj heq
          obtain ⟨c', hc', hle⟩ := h.reached i hi
          rw [hsame, hcall] at hc'
          obtain ⟨m, hm, hlt⟩ := hlater c' hc'
          have := hle m hm
          omega
        · intro i hi
          rcases List.mem_append.mp hi with hold | hnew
          · exact hbefore i hold
          · obtain rfl : i = j := List.mem_singleton.mp hnew
            refine ⟨c, by rw [hcall]; exact hc, fun n hn => ?_⟩
            exact (Option.some.inj (hj.symm.trans hn)).le

end SignalSystem

end Sirius
