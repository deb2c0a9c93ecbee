import SiriusGateway.Correctness.Placement
import SiriusGateway.Gateway.Timers

/-!
# `Correctness.Deadlines` — how long a client can be kept waiting

A plain request is answered within the time its chain can take: for every adapter all attempts at their timeout
and all back-offs between them. The consumer of a stream waits for no event longer than one idle timeout for each
adapter. Neither depends on what the upstreams do, on the breaker, on other requests or on the client
(`answered_in_time`).

## Contents
- **The timers.** Every call that waits for a timer has it running, and no other (`Armed`).
- **The budget.** What a policy call can take (`callBudget`), attempt by attempt.
- **The potential.** What the request may still take. What has been waited and the potential never exceed the
  shares of the chain (`InTime`).
- **Progress.** While it owes an answer, the request can go on by itself.
-/

namespace Sirius

open Lts PolicySystem

namespace TimedRequest

open RequestSystem (Placed Move AtPosition Busy Ahead StandsAt)

variable {cfg : PolicyConfig} {idleTimeout : Nat} {kind : CallKind} {chain : List String} {s t : TimedRequest}

/-! ## The timers -/

/-- The timer of a call of the request, as the call needs it. -/
def neededTimer (cfg : PolicyConfig) (chain : List String) (p : PolicySystem) (k : Nat) : Option Nat :=
  if k < chain.length then (p.calls.get k).bind (callTimer cfg) else none

/-- **The timers that run** are those of the calls that wait for one, and the idle timer of a pull. -/
structure Armed (cfg : PolicyConfig) (kind : CallKind) (chain : List String) (s : TimedRequest) : Prop where
  calls : ∀ k, (s.timers.get (.call k)).isSome = (neededTimer cfg chain s.request.signals.policy k).isSome
  idle : (s.timers.get .idle).isSome = (kind == .stream && awaited s.request.phase)

theorem get_call_armIdle (timers : Timers Timer) (before next : GatewayPhase) (k : Nat) :
    (armIdle idleTimeout kind timers before next).get (.call k) = timers.get (.call k) := by
  unfold armIdle
  cases kind with
  | plain => rfl
  | stream =>
      simp only
      split
      · split
        · rfl
        · exact JsMap.get_set_ne timers idleTimeout (by simp)
      · exact JsMap.get_delete_ne timers (by simp)

theorem get_idle_armCalls (timers : Timers Timer) (next : RequestSystem) (label : RequestLabel) :
    (armCalls cfg chain timers next label).get .idle = timers.get .idle := by
  cases label with
  | policy l =>
      simp only [armCalls]
      split
      · exact Timers.get_arm_ne timers _ (by simp)
      · rfl
  | _ => rfl

/-- A step of a call of the request sets the timer of that call. -/
theorem get_call_rearm_self (timers : Timers Timer) (before : GatewayPhase) (next : RequestSystem)
    {l : PolicyLabel} (h : l.action.call < chain.length) :
    (rearm cfg idleTimeout kind chain timers before next (.policy l)).get (.call l.action.call) =
      (next.signals.policy.calls.get l.action.call).bind (callTimer cfg) := by
  unfold rearm
  rw [get_call_armIdle]
  simp only [armCalls]
  rw [if_pos h, Timers.get_arm_self]

/-- Every other timer of a call goes on. -/
theorem get_call_rearm_other (timers : Timers Timer) (before : GatewayPhase) (next : RequestSystem)
    {label : RequestLabel} {k : Nat} (h : ∀ l, label = .policy l → k < chain.length → k ≠ l.action.call) :
    (rearm cfg idleTimeout kind chain timers before next label).get (.call k) = timers.get (.call k) := by
  unfold rearm
  rw [get_call_armIdle]
  cases label with
  | policy l =>
      simp only [armCalls]
      split
      · rename_i hown
        refine Timers.get_arm_ne timers _ ?_
        rintro ⟨⟩
        exact h l rfl hown rfl
      · rfl
  | _ => rfl

/-- What a step leaves of the idle timer. -/
theorem get_idle_rearm (timers : Timers Timer) (before : GatewayPhase) (next : RequestSystem)
    (label : RequestLabel) :
    (rearm cfg idleTimeout kind chain timers before next label).get .idle =
      match kind with
      | .plain => timers.get .idle
      | .stream =>
          if awaited next.phase then if awaited before then timers.get .idle else some idleTimeout else none := by
  unfold rearm armIdle
  cases kind with
  | plain => exact get_idle_armCalls ..
  | stream =>
      simp only
      split
      · split
        · exact get_idle_armCalls ..
        · exact JsMap.get_set_self ..
      · exact JsMap.get_delete_self ..

/-- A step of another call leaves a call of the request alone. -/
theorem calls_of_step {label : RequestLabel} {next : RequestSystem} {k : Nat}
    (h : RequestSystem.step cfg kind chain s.request label = some next)
    (hother : ∀ l, label = .policy l → k ≠ l.action.call) :
    next.signals.policy.calls.get k = s.request.signals.policy.calls.get k := by
  by_cases hlabel : ∃ l, label = .policy l
  · obtain ⟨l, rfl⟩ := hlabel
    simp only [RequestSystem.step] at h
    split at h
    · obtain ⟨signals, hsignals, rfl⟩ := Option.map_eq_some_iff.mp h
      obtain ⟨policy, out, heffect, -, rfl⟩ := SignalSystem.effect_of_step hsignals
      exact (SignalSystem.frame_of_effect heffect).1 k (hother l rfl)
    · cases h
  · rw [(RequestSystem.move_of_step (fun l hl => hlabel ⟨l, hl⟩) h).1]

theorem armed_initial (start : Int) : Armed cfg kind chain (initial chain start) where
  calls := by
    intro k
    unfold neededTimer
    split <;> rfl
  idle := by
    have hphase : awaited (RequestSystem.initial chain).phase = false := by
      rcases RequestSystem.openAt_cases chain 0 with ⟨hopening, -⟩ | hended
      · rw [show (RequestSystem.initial chain).phase = RequestSystem.openAt chain 0 from rfl, hopening]
        rfl
      · rw [show (RequestSystem.initial chain).phase = RequestSystem.openAt chain 0 from rfl, hended]
        rfl
    rw [show (initial chain start).request = RequestSystem.initial chain from rfl, hphase, Bool.and_false]
    rfl

/-- **Every step keeps the timers armed.** -/
theorem armed_step {label : TimedLabel} (h : Armed cfg kind chain s)
    (hstep : step cfg idleTimeout kind chain s label = some t) : Armed cfg kind chain t := by
  cases label with
  | elapse ms =>
      obtain ⟨-, -, rfl⟩ := elapse_of_step hstep
      refine ⟨fun k => ?_, ?_⟩
      · rw [Timers.get_elapse, Option.isSome_map]
        exact h.calls k
      · rw [Timers.get_elapse, Option.isSome_map]
        exact h.idle
  | act label =>
      obtain ⟨-, next, hnext, rfl⟩ := act_of_step hstep
      refine ⟨fun k => ?_, ?_⟩
      · by_cases hown : ∃ l, label = .policy l ∧ k < chain.length ∧ k = l.action.call
        · obtain ⟨l, rfl, hk, rfl⟩ := hown
          rw [get_call_rearm_self _ _ _ hk]
          unfold neededTimer
          rw [if_pos hk]
        · rw [get_call_rearm_other _ _ _ fun l hl hk hid => hown ⟨l, hl, hk, hid⟩, h.calls k]
          unfold neededTimer
          split
          · rename_i hk
            rw [calls_of_step hnext fun l hl hid => hown ⟨l, hl, hk, hid⟩]
          · rfl
      · rw [get_idle_rearm]
        have hidle := h.idle
        cases kind with
        | plain => exact hidle
        | stream =>
            simp only
            split
            · rename_i hnow
              rw [hnow]
              split
              · rename_i hbefore
                rw [hbefore] at hidle
                exact hidle
              · rfl
            · rename_i hnow
              rw [Bool.eq_false_iff.mpr hnow]
              rfl

/-! ## The budget -/

/-- What the attempts behind attempt `attempt` can take, `more` of them, with the back-offs in front of them. -/
def laterAttempts (cfg : PolicyConfig) : Nat → Nat → Nat
  | 0, _ => 0
  | more + 1, attempt => cfg.baseDelay * 2 ^ attempt + cfg.timeoutMs + laterAttempts cfg more (attempt + 1)

/-- What a policy call of a plain request can take: every attempt times out. -/
def callBudget (cfg : PolicyConfig) : Nat :=
  (cfg.maxRetries + 1) * cfg.timeoutMs + cfg.baseDelay * (2 ^ cfg.maxRetries - 1)

theorem laterAttempts_eq (more : Nat) : ∀ attempt,
    laterAttempts cfg more attempt + cfg.baseDelay * 2 ^ attempt =
      more * cfg.timeoutMs + cfg.baseDelay * 2 ^ (attempt + more) := by
  induction more with
  | zero =>
      intro attempt
      simp [laterAttempts]
  | succ more ih =>
      intro attempt
      have hnext := ih (attempt + 1)
      have hpow : cfg.baseDelay * 2 ^ (attempt + 1) = cfg.baseDelay * 2 ^ attempt + cfg.baseDelay * 2 ^ attempt := by
        rw [pow_succ, Nat.mul_two, Nat.mul_add]
      rw [hpow, show attempt + 1 + more = attempt + (more + 1) by omega] at hnext
      rw [laterAttempts, Nat.succ_mul]
      omega

theorem first_eq_callBudget : cfg.timeoutMs + laterAttempts cfg cfg.maxRetries 0 = callBudget cfg := by
  have hsum := @laterAttempts_eq cfg cfg.maxRetries 0
  unfold callBudget
  rw [pow_zero, Nat.mul_one, Nat.zero_add] at hsum
  rw [Nat.mul_sub, Nat.mul_one, Nat.succ_mul]
  have hpos : cfg.baseDelay ≤ cfg.baseDelay * 2 ^ cfg.maxRetries :=
    Nat.le_mul_of_pos_right _ (Nat.pow_pos (by decide))
  omega

/-- What a call can take behind the timer it waits for. -/
def behindTimer (cfg : PolicyConfig) (call : PolicyCall) : Nat :=
  match call.phase with
  | .attempting attempt _ => laterAttempts cfg (cfg.maxRetries - attempt) attempt
  | .backoff attempt => cfg.timeoutMs + laterAttempts cfg (cfg.maxRetries - (attempt + 1)) (attempt + 1)
  | .finished => 0

/-- A step of a plain call sets its next timer to no more than what lay behind the last one. -/
theorem behindTimer_step {p next : PolicySystem} {now : Int} {a : PolicyAction} {out : Option Invocation}
    (h : PolicySystem.Effect cfg p now a next out) {before after : PolicyCall}
    (hbefore : p.calls.get a.call = some before) (hplain : before.kind = .plain)
    (hafter : next.calls.get a.call = some after) (hgoes : after.phase ≠ .finished) :
    (callTimer cfg after).getD 0 + behindTimer cfg after ≤ behindTimer cfg before := by
  cases h with
  | rejected hfresh hcheck => cases hfresh.symm.trans hbefore
  | turnedAway hfresh hcheck => cases hfresh.symm.trans hbefore
  | admitted hfresh hcheck => cases hfresh.symm.trans hbefore
  | yielded hcall =>
      obtain rfl := Option.some.inj (hcall.symm.trans hbefore)
      cases hplain
  | left hcall =>
      obtain rfl := Option.some.inj (hcall.symm.trans hbefore)
      cases hplain
  | succeeded hcall =>
      obtain rfl := Option.some.inj ((JsMap.get_set_self ..).symm.trans hafter)
      exact absurd rfl hgoes
  | cancelled hcall =>
      obtain rfl := Option.some.inj ((JsMap.get_set_self ..).symm.trans hafter)
      exact absurd rfl hgoes
  | @failed id provider kind attempt y hcall =>
      obtain rfl := Option.some.inj (hcall.symm.trans hbefore)
      obtain rfl := Option.some.inj ((JsMap.get_set_self ..).symm.trans hafter)
      obtain rfl : kind = .plain := hplain
      unfold phaseAfterFailure at hgoes ⊢
      cases y with
      | true => exact absurd rfl hgoes
      | false =>
          simp only [Bool.false_eq_true, if_false] at hgoes ⊢
          by_cases hmore : attempt < cfg.maxRetries
          · rw [if_pos hmore]
            obtain ⟨more, hleft⟩ : ∃ more, cfg.maxRetries - attempt = more + 1 :=
              ⟨cfg.maxRetries - attempt - 1, by omega⟩
            show cfg.baseDelay * 2 ^ attempt +
                (cfg.timeoutMs + laterAttempts cfg (cfg.maxRetries - (attempt + 1)) (attempt + 1)) ≤
              laterAttempts cfg (cfg.maxRetries - attempt) attempt
            rw [hleft, show cfg.maxRetries - (attempt + 1) = more by omega, laterAttempts]
            omega
          · rw [if_neg hmore] at hgoes
            exact absurd rfl hgoes
  | @retried id provider kind attempt hcall =>
      obtain rfl := Option.some.inj (hcall.symm.trans hbefore)
      obtain rfl := Option.some.inj ((JsMap.get_set_self ..).symm.trans hafter)
      obtain rfl : kind = .plain := hplain
      exact Nat.le_refl _

/-! ## The potential -/

/-- What an adapter of the chain may keep the consumer waiting. -/
def share (cfg : PolicyConfig) (idleTimeout : Nat) : CallKind → Nat
  | .plain => callBudget cfg
  | .stream => idleTimeout

/-- What the position the gateway waits for may still take. -/
def remaining (cfg : PolicyConfig) (kind : CallKind) (s : TimedRequest) (k : Nat) : Nat :=
  match kind with
  | .plain =>
      (s.timers.get (.call k)).getD 0 + ((s.request.signals.policy.calls.get k).map (behindTimer cfg)).getD 0
  | .stream => (s.timers.get .idle).getD 0

/-- What the consumer may still have to wait. -/
def potential (cfg : PolicyConfig) (idleTimeout : Nat) (kind : CallKind) (chain : List String) (s : TimedRequest) :
    Nat :=
  match s.request.phase with
  | .opening k => (chain.length - k) * share cfg idleTimeout kind
  | .waiting k => remaining cfg kind s k + (chain.length - (k + 1)) * share cfg idleTimeout kind
  | .settled k completed => if completed then 0 else (chain.length - (k + 1)) * share cfg idleTimeout kind
  | .yielding _ | .ended => 0

/-- What the consumer has waited and may still have to wait is within the shares of the chain. -/
def InTime (cfg : PolicyConfig) (idleTimeout : Nat) (kind : CallKind) (chain : List String) (s : TimedRequest) :
    Prop :=
  s.waited + potential cfg idleTimeout kind chain s ≤ chain.length * share cfg idleTimeout kind

theorem inTime_initial (start : Int) : InTime cfg idleTimeout kind chain (initial chain start) := by
  have hphase : (initial chain start).request.phase = RequestSystem.openAt chain 0 := rfl
  unfold InTime potential
  rw [hphase]
  rcases RequestSystem.openAt_cases chain 0 with ⟨hopening, -⟩ | hended
  · rw [hopening]
    simp [initial]
  · rw [hended]
    exact Nat.zero_le _

/-- The shares of the positions from `k` on. -/
theorem shares_succ {k n share : Nat} (h : k < n) : (n - k) * share = share + (n - (k + 1)) * share := by
  rw [show n - k = (n - (k + 1)) + 1 by omega, Nat.succ_mul, Nat.add_comm]

/-- The gateway waits for a timer: time passes on it, and what lies behind it stays. -/
theorem timer_of_waiting {k : Nat} (hplaced : Placed kind chain s.request) (harmed : Armed cfg kind chain s)
    (hphase : s.request.phase = .waiting k) :
    ∃ timer left behind, s.timers.get timer = some left ∧ remaining cfg kind s k = left + behind ∧
      ∀ ms, remaining cfg kind { s with timers := s.timers.elapse ms } k = left - ms + behind := by
  cases kind with
  | plain =>
      obtain ⟨call, hcall, hbusy⟩ := hplaced.busy k (Or.inl hphase)
      have hk : k < chain.length := hplaced.within k (by rw [hphase]; exact rfl)
      have hplain := hplaced.kinds k hk call hcall
      have hneeded : (neededTimer cfg chain s.request.signals.policy k).isSome = true := by
        unfold neededTimer
        rw [if_pos hk, hcall]
        obtain ⟨provider, callKind, phase⟩ := call
        obtain rfl : callKind = .plain := hplain
        cases phase with
        | attempting attempt y => rfl
        | backoff attempt => rfl
        | finished => exact absurd rfl hbusy
      obtain ⟨left, hleft⟩ := Option.isSome_iff_exists.mp ((harmed.calls k).trans hneeded)
      refine ⟨.call k, left, behindTimer cfg call, hleft, ?_, fun ms => ?_⟩
      · simp [remaining, hleft, hcall]
      · simp [remaining, hleft, hcall]
  | stream =>
      have hidle := harmed.idle
      rw [hphase] at hidle
      obtain ⟨left, hleft⟩ := Option.isSome_iff_exists.mp hidle
      refine ⟨.idle, left, 0, hleft, ?_, fun ms => ?_⟩
      · simp [remaining, hleft]
      · simp [remaining, hleft]

theorem inTime_elapse {ms : Nat} (hplaced : Placed kind chain s.request) (harmed : Armed cfg kind chain s)
    (h : InTime cfg idleTimeout kind chain s) (hstep : step cfg idleTimeout kind chain s (.elapse ms) = some t) :
    InTime cfg idleTimeout kind chain t := by
  obtain ⟨hrest, hpermits, rfl⟩ := elapse_of_step hstep
  unfold InTime potential at h ⊢
  cases hphase : s.request.phase with
  | waiting k =>
      obtain ⟨timer, left, behind, hleft, hnow, hthen⟩ := timer_of_waiting hplaced harmed hphase
      have hms : ms ≤ left := Timers.permits_iff.mp hpermits timer left hleft
      have hthen : remaining cfg kind
          ⟨s.request, s.timers.elapse ms, s.clock + ms,
            if awaited s.request.phase then s.waited + ms else s.waited⟩ k = left - ms + behind := hthen ms
      rw [hphase] at h hthen
      simp only at h ⊢
      rw [hthen]
      rw [hnow] at h
      simp only [awaited, if_true]
      omega
  | opening k =>
      rw [hphase] at h
      exact h
  | yielding k =>
      rw [hphase] at h
      exact h
  | ended =>
      rw [hphase] at h
      exact h
  | settled k completed =>
      rw [hphase] at hrest
      cases hrest

/-- A call that has just been let in runs its first attempt. -/
theorem entered_of_effect {p next : PolicySystem} {now : Int} {a : PolicyAction} {out : Option Invocation}
    (h : PolicySystem.Effect cfg p now a next out) {after : PolicyCall} (hfresh : p.calls.get a.call = none)
    (hafter : next.calls.get a.call = some after) (hgoes : after.phase ≠ .finished) :
    after.phase = .attempting 0 false := by
  cases h with
  | admitted hnone hcheck =>
      obtain rfl := Option.some.inj ((JsMap.get_set_self ..).symm.trans hafter)
      rfl
  | rejected hnone hcheck =>
      obtain rfl := Option.some.inj ((JsMap.get_set_self ..).symm.trans hafter)
      exact absurd rfl hgoes
  | turnedAway hnone hcheck =>
      obtain rfl := Option.some.inj ((JsMap.get_set_self ..).symm.trans hafter)
      exact absurd rfl hgoes
  | yielded hcall | succeeded hcall | failed hcall | cancelled hcall | left hcall | retried hcall =>
      cases hfresh.symm.trans hcall

/-- **The step of the call the gateway waits for**, which is not finished by it: it may take a share when it has
    just been made, and no longer than before otherwise. -/
theorem remaining_own {l : PolicyLabel} {next : RequestSystem} {out : Option Invocation} {waited : Nat}
    (hplaced : Placed kind chain s.request) (hnext : Placed kind chain next)
    (heffect : PolicySystem.Effect cfg s.request.signals.policy l.now l.action next.signals.policy out)
    (hphase : next.phase = .waiting l.action.call) :
    let after : TimedRequest :=
      ⟨next, rearm cfg idleTimeout kind chain s.timers s.request.phase next (.policy l), s.clock, waited⟩
    (s.request.phase = .opening l.action.call →
        remaining cfg kind after l.action.call = share cfg idleTimeout kind) ∧
      (s.request.phase = .waiting l.action.call →
        remaining cfg kind after l.action.call ≤ remaining cfg kind s l.action.call) := by
  intro after
  have hk : l.action.call < chain.length := hnext.within _ (by rw [hphase]; exact rfl)
  cases kind with
  | plain =>
      obtain ⟨call, hcall, hbusy⟩ := hnext.busy _ (Or.inl hphase)
      have hplain : call.kind = .plain := hnext.kinds _ hk call hcall
      have hnow : remaining cfg .plain after l.action.call = (callTimer cfg call).getD 0 + behindTimer cfg call := by
        show ((rearm cfg idleTimeout .plain chain s.timers s.request.phase next (.policy l)).get _).getD 0 +
          ((next.signals.policy.calls.get l.action.call).map (behindTimer cfg)).getD 0 = _
        rw [get_call_rearm_self _ _ _ hk, hcall]
        rfl
      rw [hnow]
      constructor
      · intro hopening
        have hfresh := hplaced.fresh _ hk (by rw [hopening]; exact Nat.le_refl _)
        -- no call was made of the position before, so this step has made it
        have hfirst := entered_of_effect heffect hfresh hcall hbusy
        obtain ⟨provider, callKind, phase⟩ := call
        obtain rfl : callKind = .plain := hplain
        obtain rfl : phase = .attempting 0 false := hfirst
        exact first_eq_callBudget
      · intro hwaiting
        obtain ⟨before, hbefore, -⟩ := hplaced.busy _ (Or.inl hwaiting)
        -- what is armed now was still behind the timer before
        have hstep := behindTimer_step heffect hbefore (hplaced.kinds _ hk before hbefore) hcall hbusy
        unfold remaining
        simp only [hbefore, Option.map_some, Option.getD_some]
        omega
  | stream =>
      -- one idle timer guards the wait: it is armed when the wait begins, and by no policy step in it
      have hidle : after.timers.get .idle =
          if awaited s.request.phase then s.timers.get .idle else some idleTimeout := by
        show (rearm cfg idleTimeout .stream chain s.timers s.request.phase next (.policy l)).get .idle = _
        rw [get_idle_rearm, hphase]
        rfl
      unfold remaining
      simp only [hidle]
      constructor
      · intro hopening
        rw [hopening]
        rfl
      · intro hwaiting
        rw [hwaiting]
        exact Nat.le_refl _

/-- A step of another call leaves what the gateway waits for as it is. -/
theorem remaining_other {label : RequestLabel} {next : RequestSystem} {waited k : Nat}
    (hpolicy : next.signals.policy.calls.get k = s.request.signals.policy.calls.get k)
    (hlabel : ∀ l, label = .policy l → k ≠ l.action.call) (hphase : s.request.phase = .waiting k)
    (hsame : next.phase = s.request.phase) :
    remaining cfg kind
        ⟨next, rearm cfg idleTimeout kind chain s.timers s.request.phase next label, s.clock, waited⟩ k =
      remaining cfg kind s k := by
  cases kind with
  | plain =>
      unfold remaining
      simp only [hpolicy]
      rw [get_call_rearm_other _ _ _ fun l hl _ => hlabel l hl]
  | stream =>
      unfold remaining
      simp only
      rw [get_idle_rearm, hsame, hphase]
      rfl

/-- A step of a call: what the gateway waits for may take no longer than before. -/
theorem inTime_policy {l : PolicyLabel} (hplaced : Placed kind chain s.request)
    (h : InTime cfg idleTimeout kind chain s)
    (hstep : step cfg idleTimeout kind chain s (.act (.policy l)) = some t) :
    InTime cfg idleTimeout kind chain t := by
  obtain ⟨-, next, hnext, rfl⟩ := act_of_step hstep
  have hafter := RequestSystem.placed_step hplaced hnext
  have hframe := fun k hk => @calls_of_step cfg kind chain s (.policy l) next k hnext hk
  simp only [RequestSystem.step] at hnext
  split at hnext
  case isFalse => cases hnext
  obtain ⟨signals, hsignals, hmade⟩ := Option.map_eq_some_iff.mp hnext
  obtain ⟨policy, out, heffect, -, rfl⟩ := SignalSystem.effect_of_step hsignals
  obtain ⟨rfl, hphase⟩ : policy = next.signals.policy ∧
      next.phase = RequestSystem.afterPolicy s.request.phase l.action policy := by
    subst hmade
    exact ⟨rfl, rfl⟩
  unfold InTime at h ⊢
  refine Nat.le_trans (Nat.add_le_add_left ?_ s.waited) h
  unfold potential
  simp only
  rcases RequestSystem.afterPolicy_cases s.request.phase l.action next.signals.policy with
    ⟨hat, ⟨hgoes, -⟩ | hsettled⟩ | ⟨hopening, hwaiting, hsame⟩
  · -- the call goes on: the gateway waits for its next timer
    obtain ⟨hfirst, hlater⟩ := @remaining_own cfg idleTimeout kind chain s l next out s.waited hplaced hafter heffect
      (hphase.trans hgoes)
    have hk : l.action.call < chain.length := hafter.within _ (by rw [hphase, hgoes]; exact rfl)
    rw [hphase, hgoes]
    rcases hat with hat | hat
    · rw [hat] at hfirst ⊢
      simp only
      rw [shares_succ hk]
      exact Nat.add_le_add_right (hfirst rfl).le _
    · rw [hat] at hlater ⊢
      exact Nat.add_le_add_right (hlater rfl) _
  · -- the call is finished
    rw [hphase, hsettled]
    simp only
    split
    · exact Nat.zero_le _
    · rcases hat with hat | hat
      · rw [hat]
        exact Nat.mul_le_mul_right _ (by omega)
      · rw [hat]
        exact Nat.le_add_left ..
  · rw [hphase, hsame]
    cases hp : s.request.phase with
    | waiting k =>
        have hne : k ≠ l.action.call := by
          rintro rfl
          exact hwaiting hp
        have hother : ∀ l', RequestLabel.policy l = .policy l' → k ≠ l'.action.call := by
          rintro l' ⟨⟩
          exact hne
        have hleft := @remaining_other cfg idleTimeout kind chain s (.policy l) next s.waited k (hframe k hother)
          hother hp (hphase.trans hsame)
        rw [hp] at hleft
        exact Nat.add_le_add_right hleft.le _
    | _ => exact Nat.le_refl _

/-- A step of the gateway: it goes on to the next share, or begins a new wait. -/
theorem inTime_move {label : RequestLabel} (hlabel : ∀ l, label ≠ .policy l) (hplaced : Placed kind chain s.request)
    (h : InTime cfg idleTimeout kind chain s) (hstep : step cfg idleTimeout kind chain s (.act label) = some t) :
    InTime cfg idleTimeout kind chain t := by
  obtain ⟨-, next, hnext, rfl⟩ := act_of_step hstep
  obtain ⟨hpolicy, hmove⟩ := RequestSystem.move_of_step hlabel hnext
  unfold InTime at h ⊢
  -- behind position `k` the shares of the later positions are left
  have hbehind : ∀ (k waited : Nat) (timers : Timers Timer), next.phase = s.request.afterFailure chain k →
      potential cfg idleTimeout kind chain ⟨next, timers, s.clock, waited⟩ ≤
        (chain.length - (k + 1)) * share cfg idleTimeout kind := by
    intro k waited timers hafter
    unfold potential
    simp only
    rcases RequestSystem.afterFailure_cases s.request chain k with ⟨hopening, -⟩ | hended
    · rw [hafter, hopening]
    · rw [hafter, hended]
      exact Nat.zero_le _
  generalize hnew : next.phase = phase at hmove
  cases hmove with
  | stays hsame =>
      have hwaited : waitedAfter s.waited label = s.waited := by
        rcases hsame with rfl | ⟨calls, rfl⟩ <;> rfl
      rw [hwaited]
      refine Nat.le_trans (Nat.add_le_add_left ?_ s.waited) h
      unfold potential
      simp only
      rw [hnew]
      cases hp : s.request.phase with
      | waiting k =>
          have hleft := @remaining_other cfg idleTimeout kind chain s label next s.waited k (by rw [hpolicy])
            (fun l hl => absurd hl (hlabel l)) hp hnew
          rw [hp] at hleft
          exact Nat.add_le_add_right hleft.le _
      | _ => exact Nat.le_refl _
  | deliver hphase hyielded =>
      unfold potential
      simp only
      rw [hnew]
      exact (Nat.le_add_right ..).trans h
  | @pull k hphase =>
      have hstream := hplaced.yields k hphase
      subst hstream
      have hk : k < chain.length := hplaced.within k (by rw [hphase]; exact rfl)
      have hidle : (rearm cfg idleTimeout .stream chain s.timers s.request.phase next .pull).get .idle =
          some idleTimeout := by
        rw [get_idle_rearm, hnew, hphase]
        rfl
      unfold potential
      simp only
      rw [hnew]
      unfold remaining
      simp only [hidle]
      show 0 + (idleTimeout + (chain.length - (k + 1)) * idleTimeout) ≤ chain.length * idleTimeout
      rw [Nat.zero_add, ← shares_succ hk]
      exact Nat.mul_le_mul_right _ (Nat.sub_le ..)
  | @idle k hstream hphase =>
      refine Nat.le_trans (Nat.add_le_add_left (hbehind k _ _ hnew) s.waited) ?_
      refine Nat.le_trans (Nat.add_le_add_left ?_ s.waited) h
      unfold potential
      rw [hphase]
      exact Nat.le_add_left ..
  | stop =>
      unfold potential
      simp only
      rw [hnew]
      exact (Nat.le_add_right ..).trans h
  | @resume k completed hphase =>
      cases completed with
      | true =>
          unfold potential
          simp only
          rw [hnew]
          exact (Nat.le_add_right ..).trans h
      | false =>
          refine Nat.le_trans (Nat.add_le_add_left (hbehind k _ _ hnew) s.waited) ?_
          refine Nat.le_trans (Nat.add_le_add_left ?_ s.waited) h
          unfold potential
          rw [hphase]
          exact Nat.le_refl _

/-- What holds in every reachable state. -/
structure Punctual (cfg : PolicyConfig) (idleTimeout : Nat) (kind : CallKind) (chain : List String)
    (s : TimedRequest) : Prop where
  placed : Placed kind chain s.request
  armed : Armed cfg kind chain s
  inTime : InTime cfg idleTimeout kind chain s

theorem punctual_step {label : TimedLabel} (h : Punctual cfg idleTimeout kind chain s)
    (hstep : step cfg idleTimeout kind chain s label = some t) : Punctual cfg idleTimeout kind chain t := by
  refine ⟨?_, armed_step h.armed hstep, ?_⟩
  · cases label with
    | elapse ms =>
        obtain ⟨-, -, rfl⟩ := elapse_of_step hstep
        exact h.placed
    | act label =>
        obtain ⟨-, next, hnext, rfl⟩ := act_of_step hstep
        exact RequestSystem.placed_step h.placed hnext
  · cases label with
    | elapse ms => exact inTime_elapse h.placed h.armed h.inTime hstep
    | act label =>
        by_cases hlabel : ∃ l, label = .policy l
        · obtain ⟨l, rfl⟩ := hlabel
          exact inTime_policy h.placed h.inTime hstep
        · exact inTime_move (fun l hl => hlabel ⟨l, hl⟩) h.placed h.inTime hstep

theorem punctual_of_run {start : Int} {labels : List TimedLabel}
    (h : Run (step cfg idleTimeout kind chain) (initial chain start) labels s) :
    Punctual cfg idleTimeout kind chain s :=
  Run.invariant (I := Punctual cfg idleTimeout kind chain) (fun _ _ _ hs hstep => punctual_step hs hstep) h
    ⟨RequestSystem.placed_initial, armed_initial start, inTime_initial start⟩

/-! ## Progress -/

/-- The label brings the answer closer: time passes, or the request itself takes a step. -/
def Advances (chain : List String) : TimedLabel → Prop
  | .elapse ms => 0 < ms
  | .act (.policy l) => l.action.call < chain.length
  | .act .idle | .act .resume => True
  | _ => False

/-- The gateway has work to do, or something to wait for, that its consumer waits for. -/
def Owes (kind : CallKind) : GatewayPhase → Bool
  | .opening position => !(kind == .stream && position == 0)
  | .waiting _ | .settled _ _ => true
  | .yielding _ | .ended => false

/-- A policy step can be taken when its timer is due, the gateway lets it, and the service can take it. -/
theorem can_step {a : PolicyAction} (htime : onTime chain s.timers (.policy ⟨s.clock, a⟩) = true)
    (hpermits : RequestSystem.permits kind chain s.request a = true)
    (hreads : a.readsSignal s.request.signals.fired = true)
    (hgoes : (PolicySystem.stepOut cfg s.request.signals.policy ⟨s.clock, a⟩).isSome = true) :
    ∃ t, step cfg idleTimeout kind chain s (.act (.policy ⟨s.clock, a⟩)) = some t := by
  obtain ⟨result, hresult⟩ := Option.isSome_iff_exists.mp hgoes
  have hboth :
      (readsClock s.clock (.policy ⟨s.clock, a⟩) && onTime chain s.timers (.policy ⟨s.clock, a⟩)) = true := by
    rw [htime, Bool.and_true]
    exact beq_self_eq_true s.clock
  simp only [step]
  rw [if_pos hboth]
  simp only [RequestSystem.step, SignalSystem.step]
  rw [if_pos hpermits, if_pos hreads, hresult]
  exact ⟨_, rfl⟩

/-- **A due timer goes off.** -/
theorem fires_of_due (h : Punctual cfg idleTimeout kind chain s) {k : Nat} (hphase : s.request.phase = .waiting k)
    {timer : Timer} (hdue : s.timers.isDue timer = true) :
    ∃ label t, Advances chain label ∧ step cfg idleTimeout kind chain s label = some t := by
  have hzero := Timers.isDue_iff.mp hdue
  cases timer with
  | idle =>
      have hidle := h.armed.idle
      rw [hzero] at hidle
      obtain ⟨hstream, -⟩ := Bool.and_eq_true_iff.mp hidle.symm
      obtain rfl : kind = .stream := eq_of_beq hstream
      refine ⟨.act .idle, ?_⟩
      simp only [step, RequestSystem.step, hphase]
      rw [if_pos (show (readsClock s.clock .idle && onTime chain s.timers .idle) = true from hdue)]
      exact ⟨_, trivial, rfl⟩
  | call j =>
      have hneeded := h.armed.calls j
      rw [hzero] at hneeded
      unfold neededTimer at hneeded
      split at hneeded
      case isFalse => cases hneeded
      rename_i hj
      obtain ⟨full, hfull⟩ := Option.isSome_iff_exists.mp hneeded.symm
      obtain ⟨⟨provider, callKind, phase⟩, hcall, htimer⟩ := Option.bind_eq_some_iff.mp hfull
      -- it is not the gateway's consumer who holds the call up
      have hpermits : ∀ a : PolicyAction, a.call = j → (∀ id k p b, a ≠ .enter id k p b) →
          RequestSystem.permits kind chain s.request a = true := by
        rintro a rfl ha
        unfold RequestSystem.permits
        rw [if_pos hj, hphase]
        cases a with
        | enter id k p b => exact absurd rfl (ha id k p b)
        | _ => rfl
      cases phase with
      | finished => cases callKind <;> cases htimer
      | attempting attempt y =>
          have hgoes : (PolicySystem.stepOut cfg s.request.signals.policy
              ⟨s.clock, .fail j (decide (j ∈ s.request.signals.fired))⟩).isSome = true := by
            simp only [PolicySystem.stepOut, hcall]
            split <;> rfl
          obtain ⟨t, ht⟩ := @can_step cfg idleTimeout kind chain s
            (.fail j (decide (j ∈ s.request.signals.fired))) rfl (hpermits _ rfl (by simp)) (beq_self_eq_true _) hgoes
          exact ⟨.act (.policy ⟨s.clock, .fail j _⟩), t, hj, ht⟩
      | backoff attempt =>
          have hgoes : (PolicySystem.stepOut cfg s.request.signals.policy ⟨s.clock, .wake j⟩).isSome = true := by
            simp [PolicySystem.stepOut, hcall]
          obtain ⟨t, ht⟩ := @can_step cfg idleTimeout kind chain s (.wake j)
            (show (decide (chain.length ≤ j) || s.timers.isDue (.call j)) = true by rw [hdue, Bool.or_true])
            (hpermits _ rfl (by simp)) rfl hgoes
          exact ⟨.act (.policy ⟨s.clock, .wake j⟩), t, hj, ht⟩

/-- **Nothing holds the answer up**: while it owes its consumer something, the request can go on by itself. -/
theorem advances_of_punctual (h : Punctual cfg idleTimeout kind chain s)
    (howes : Owes kind s.request.phase = true) :
    ∃ label t, Advances chain label ∧ step cfg idleTimeout kind chain s label = some t := by
  cases hphase : s.request.phase with
  | opening k =>
      have hk : k < chain.length := h.placed.within k (by rw [hphase]; exact rfl)
      have hfresh := h.placed.fresh k hk (by rw [hphase]; exact Nat.le_refl k)
      have hpermits : RequestSystem.permits kind chain s.request
          (.enter k kind (chain.get ⟨k, hk⟩) (decide (k ∈ s.request.signals.fired))) = true := by
        unfold RequestSystem.permits
        rw [if_pos (show (PolicyAction.enter k kind _ _).call < chain.length from hk), hphase]
        simp [hk]
      have hgoes : (PolicySystem.stepOut cfg s.request.signals.policy
          ⟨s.clock, .enter k kind (chain.get ⟨k, hk⟩) (decide (k ∈ s.request.signals.fired))⟩).isSome = true := by
        simp only [PolicySystem.stepOut, hfresh]
        split
        · rfl
        · split <;> rfl
      obtain ⟨t, ht⟩ := @can_step cfg idleTimeout kind chain s _ rfl hpermits (beq_self_eq_true _) hgoes
      exact ⟨.act (.policy ⟨s.clock, .enter k kind _ _⟩), t, hk, ht⟩
  | waiting k =>
      rcases Timers.permits_or_due s.timers with hpermits | ⟨timer, hdue⟩
      · refine ⟨.elapse 1, ?_⟩
        simp only [step, hphase]
        rw [if_pos (show (atRest kind (.waiting k) && s.timers.permits 1) = true from hpermits)]
        exact ⟨_, Nat.one_pos, rfl⟩
      · exact fires_of_due h hphase hdue
  | settled k completed =>
      refine ⟨.act .resume, ?_⟩
      simp only [step, RequestSystem.step, hphase]
      exact ⟨_, trivial, rfl⟩
  | yielding k =>
      rw [hphase] at howes
      cases howes
  | ended =>
      rw [hphase] at howes
      cases howes

end TimedRequest

/-! ## Result -/

open TimedRequest in
/-- **A client is answered in time.** In every run of a request, whatever its upstreams, its client and the other
    requests do: the client of a plain request has never waited longer than all attempts at their timeout and all
    back-offs take, for every adapter of the chain; the consumer of a stream has waited for no event longer than
    one idle timeout for each adapter. And while the request owes an answer, it can go on by itself. -/
theorem answered_in_time {cfg : PolicyConfig} {idleTimeout : Nat} {kind : CallKind} {chain : List String}
    {start : Int} {labels : List TimedLabel} {s : TimedRequest}
    (hrun : Run (TimedRequest.step cfg idleTimeout kind chain) (TimedRequest.initial chain start) labels s) :
    (kind = .plain → s.waited ≤ chain.length *
      ((cfg.maxRetries + 1) * cfg.timeoutMs + cfg.baseDelay * (2 ^ cfg.maxRetries - 1))) ∧
    (kind = .stream → s.waited ≤ chain.length * idleTimeout) ∧
    (Owes kind s.request.phase = true →
      ∃ label t, Advances chain label ∧ TimedRequest.step cfg idleTimeout kind chain s label = some t) := by
  have hpunctual := punctual_of_run hrun
  have hwaited := (Nat.le_add_right ..).trans hpunctual.inTime
  refine ⟨?_, ?_, advances_of_punctual hpunctual⟩
  · rintro rfl
    exact hwaited
  · rintro rfl
    exact hwaited

/-- The first adapter hangs until its timeout, twice, and the second one answers. -/
def hangingRun : List TimedLabel :=
  [.act (.policy ⟨0, .enter 0 .plain "openai" false⟩), .elapse 50, .act (.policy ⟨50, .fail 0 false⟩), .elapse 5,
    .act (.policy ⟨55, .wake 0⟩), .elapse 50, .act (.policy ⟨105, .fail 0 false⟩), .act .resume,
    .act (.policy ⟨105, .enter 1 .plain "anthropic" false⟩), .elapse 20, .act (.policy ⟨125, .succeed 1⟩)]

/-- The first adapter's stream is silent until the idle timeout, and the second one's first event comes late. -/
def silentRun : List TimedLabel :=
  [.act (.policy ⟨0, .enter 0 .stream "openai" false⟩), .elapse 40, .act .idle,
    .act (.policy ⟨40, .enter 1 .stream "anthropic" false⟩), .elapse 30, .act (.policy ⟨70, .event 1⟩), .act .deliver]

/-- How long the clients of both runs wait, and what they would at most. -/
theorem answered_in_time_hanging_silent :
    (∃ s, Run (TimedRequest.step ⟨1, 5, 50, 5, 30000⟩ 40 .plain ["openai", "anthropic"])
        (TimedRequest.initial ["openai", "anthropic"] 0) hangingRun s ∧ s.waited = 125 ∧
      s.waited ≤ 2 * (2 * 50 + 5 * (2 ^ 1 - 1))) ∧
    ∃ s, Run (TimedRequest.step ⟨1, 5, 50, 5, 30000⟩ 40 .stream ["openai", "anthropic"])
        (TimedRequest.initial ["openai", "anthropic"] 0) silentRun s ∧ s.waited = 70 ∧ s.waited ≤ 2 * 40 := by
  have hanging : (exec (TimedRequest.step ⟨1, 5, 50, 5, 30000⟩ 40 .plain ["openai", "anthropic"])
      (TimedRequest.initial ["openai", "anthropic"] 0) hangingRun).map (·.waited) = some 125 := by decide
  have hsilent : (exec (TimedRequest.step ⟨1, 5, 50, 5, 30000⟩ 40 .stream ["openai", "anthropic"])
      (TimedRequest.initial ["openai", "anthropic"] 0) silentRun).map (·.waited) = some 70 := by decide
  obtain ⟨s, hs, hwaited⟩ := Option.map_eq_some_iff.mp hanging
  obtain ⟨t, ht, hlate⟩ := Option.map_eq_some_iff.mp hsilent
  have hrun := run_iff_exec.mpr hs
  have hstream := run_iff_exec.mpr ht
  exact ⟨⟨s, hrun, hwaited, (answered_in_time hrun).1 rfl⟩, t, hstream, hlate, (answered_in_time hstream).2.1 rfl⟩

end Sirius
