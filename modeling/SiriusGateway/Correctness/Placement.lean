import SiriusGateway.Correctness.LiveAttempts

/-!
# `Correctness.Placement` — where the policy calls of a request stand

The gateway makes the policy calls of its chain one by one. Over every run the calls of the request are of its
kind, none is made ahead of the gateway, and the call it waits for is not finished (`Placed`).

## Contents
- **Steps of the gateway.** `Move`, and what a policy step does to the phase (`afterPolicy_cases`).
- **Places.** `Placed` and its step lemma (`placed_step`).
-/

namespace Sirius

open Lts PolicySystem

namespace RequestSystem

variable {cfg : PolicyConfig} {kind : CallKind} {chain : List String} {s t : RequestSystem}

/-! ## Steps of the gateway -/

/-- Where the gateway goes, its policy calls standing still. -/
inductive Move (kind : CallKind) (chain : List String) (s : RequestSystem) : RequestLabel → GatewayPhase → Prop
  | stays {label : RequestLabel} (hlabel : label = .clientAbort ∨ ∃ calls, label = .otherAbort calls) :
      Move kind chain s label s.phase
  | deliver {position : Nat} (hphase : s.phase = .waiting position)
      (hyielded : hasYielded s.signals.policy position = true) : Move kind chain s .deliver (.yielding position)
  | pull {position : Nat} (hphase : s.phase = .yielding position) : Move kind chain s .pull (.waiting position)
  | idle {position : Nat} (hkind : kind = .stream) (hphase : s.phase = .waiting position) :
      Move kind chain s .idle (s.afterFailure chain position)
  | stop : Move kind chain s .stop .ended
  | resume {position : Nat} {completed : Bool} (hphase : s.phase = .settled position completed) :
      Move kind chain s .resume (if completed then .ended else s.afterFailure chain position)

theorem tearDown_spec (s : RequestSystem) (kind : CallKind) (position : Nat) (phase : GatewayPhase) :
    (s.tearDown kind position phase).signals.policy = s.signals.policy ∧
      (s.tearDown kind position phase).phase = phase := by
  cases kind <;> exact ⟨rfl, rfl⟩

/-- **A step of the gateway itself** moves it and leaves the policy calls alone. -/
theorem move_of_step {label : RequestLabel} (hlabel : ∀ l, label ≠ .policy l)
    (h : step cfg kind chain s label = some t) :
    t.signals.policy = s.signals.policy ∧ Move kind chain s label t.phase := by
  cases effect_of_step h with
  | clientAbort => exact ⟨rfl, Move.stays (Or.inl rfl)⟩
  | otherAbort => exact ⟨rfl, Move.stays (Or.inr ⟨_, rfl⟩)⟩
  | policy => exact absurd rfl (hlabel _)
  | deliver hphase hyielded => exact ⟨rfl, Move.deliver hphase hyielded⟩
  | pull hphase => exact ⟨rfl, Move.pull hphase⟩
  | idle hkind hphase => exact ⟨(tearDown_spec ..).1, (tearDown_spec s kind ..).2 ▸ Move.idle hkind hphase⟩
  | unpulled => exact ⟨rfl, Move.stop⟩
  | stop => exact ⟨(tearDown_spec ..).1, (tearDown_spec s kind ..).2 ▸ Move.stop⟩
  | resume hphase => exact ⟨(tearDown_spec ..).1, (tearDown_spec s kind ..).2 ▸ Move.resume hphase⟩

/-- The call an action happens to, before and after it: it has just been made, or was not finished. -/
theorem call_of_effect {p next : PolicySystem} {now : Int} {a : PolicyAction} {out : Option Invocation}
    (h : PolicySystem.Effect cfg p now a next out) :
    ∃ call, next.calls.get a.call = some call ∧
      ((∃ provider aborted, a = .enter a.call call.kind provider aborted ∧ p.calls.get a.call = none) ∨
        ∃ before, p.calls.get a.call = some before ∧ before.kind = call.kind ∧ before.phase ≠ .finished) := by
  cases h with
  | rejected hfresh hcheck => exact ⟨_, JsMap.get_set_self .., Or.inl ⟨_, _, rfl, hfresh⟩⟩
  | turnedAway hfresh hcheck => exact ⟨_, JsMap.get_set_self .., Or.inl ⟨_, _, rfl, hfresh⟩⟩
  | admitted hfresh hcheck => exact ⟨_, JsMap.get_set_self .., Or.inl ⟨_, _, rfl, hfresh⟩⟩
  | yielded hcall => exact ⟨_, JsMap.get_set_self .., Or.inr ⟨_, hcall, rfl, by simp⟩⟩
  | succeeded hcall => exact ⟨_, JsMap.get_set_self .., Or.inr ⟨_, hcall, rfl, by simp⟩⟩
  | failed hcall => exact ⟨_, JsMap.get_set_self .., Or.inr ⟨_, hcall, rfl, by simp⟩⟩
  | cancelled hcall => exact ⟨_, JsMap.get_set_self .., Or.inr ⟨_, hcall, rfl, by simp⟩⟩
  | left hcall => exact ⟨_, JsMap.get_set_self .., Or.inr ⟨_, hcall, rfl, by simp⟩⟩
  | retried hcall => exact ⟨_, JsMap.get_set_self .., Or.inr ⟨_, hcall, rfl, by simp⟩⟩

/-! ## Places -/

/-- The position is one the gateway has not come to. -/
def Ahead : GatewayPhase → Nat → Prop
  | .opening position, k => position ≤ k
  | .waiting position, k | .yielding position, k | .settled position _, k => position < k
  | .ended, _ => False

/-- The gateway stands at the position. -/
def StandsAt : GatewayPhase → Nat → Prop
  | .opening position, k | .waiting position, k | .yielding position, k | .settled position _, k => position = k
  | .ended, _ => False

/-- **Where the policy calls of a request stand.** They are of its kind, none is made ahead of the gateway, and the
    one it waits for is not finished. -/
structure Placed (kind : CallKind) (chain : List String) (s : RequestSystem) : Prop where
  kinds : ∀ k < chain.length, ∀ call, s.signals.policy.calls.get k = some call → call.kind = kind
  fresh : ∀ k < chain.length, Ahead s.phase k → s.signals.policy.calls.get k = none
  within : ∀ k, StandsAt s.phase k → k < chain.length
  busy : ∀ k, s.AtPosition k → Busy s.signals.policy k
  yields : ∀ k, s.phase = .yielding k → kind = .stream

theorem openAt_cases (chain : List String) (k : Nat) :
    (openAt chain k = .opening k ∧ k < chain.length) ∨ openAt chain k = .ended := by
  unfold openAt
  split
  · exact Or.inl ⟨rfl, ‹_›⟩
  · exact Or.inr rfl

/-- Behind a failure the next position is opened, or the run ends. -/
theorem afterFailure_cases (s : RequestSystem) (chain : List String) (k : Nat) :
    (s.afterFailure chain k = .opening (k + 1) ∧ k + 1 < chain.length) ∨ s.afterFailure chain k = .ended := by
  unfold afterFailure
  split
  · exact Or.inr rfl
  · exact openAt_cases chain (k + 1)

theorem placed_initial : Placed kind chain (initial chain) where
  kinds := by
    rintro k - call hget
    cases hget
  fresh := fun k _ _ => rfl
  within := by
    intro k hk
    rcases openAt_cases chain 0 with ⟨hopen, hlt⟩ | hended
    · rw [show (initial chain).phase = openAt chain 0 from rfl, hopen] at hk
      obtain rfl : 0 = k := hk
      exact hlt
    · rw [show (initial chain).phase = openAt chain 0 from rfl, hended] at hk
      cases hk
  busy := by
    intro k hk
    rcases openAt_cases chain 0 with ⟨hopen, -⟩ | hended <;> rcases hk with hk | hk <;>
      simp_all [initial]
  yields := by
    intro k hk
    rcases openAt_cases chain 0 with ⟨hopen, -⟩ | hended <;> simp_all [initial]

/-- A policy step of the request's own leaves the gateway at the position of the call. -/
theorem afterPolicy_cases (phase : GatewayPhase) (a : PolicyAction) (next : PolicySystem) :
    ((phase = .opening a.call ∨ phase = .waiting a.call) ∧
        ((afterPolicy phase a next = .waiting a.call ∧ isFinished next a.call = false) ∨
          afterPolicy phase a next = .settled a.call (a == .succeed a.call))) ∨
      (phase ≠ .opening a.call ∧ phase ≠ .waiting a.call ∧ afterPolicy phase a next = phase) := by
  unfold afterPolicy
  split
  · rename_i hat
    refine Or.inl ⟨hat, ?_⟩
    split
    · exact Or.inr rfl
    · exact Or.inl ⟨rfl, Bool.eq_false_iff.mpr ‹_›⟩
  · rename_i hnot
    obtain ⟨hopening, hwaiting⟩ := not_or.mp hnot
    exact Or.inr ⟨hopening, hwaiting, rfl⟩

section PolicyStep

variable {l : PolicyLabel} {next : PolicySystem} {out : Option Invocation} (h : Placed kind chain s)
  (hpermits : permits kind chain s l.action = true)

/-- A call of the request is made where the gateway opens it. -/
theorem opening_of_enter (hpermits : permits kind chain s l.action = true) {callKind : CallKind} {provider : String}
    {aborted : Bool} (ha : l.action = .enter l.action.call callKind provider aborted)
    (hown : l.action.call < chain.length) : s.phase = .opening l.action.call ∧ callKind = kind := by
  rw [ha] at hpermits
  refine ⟨phase_of_permits_enter hown hpermits, ?_⟩
  unfold permits at hpermits
  rw [if_pos (show (PolicyAction.enter l.action.call callKind provider aborted).call < _ from hown)] at hpermits
  simp only [Bool.and_eq_true, beq_iff_eq] at hpermits
  exact hpermits.1.2

/-- Where the gateway is after the step, it was before, or the step was of its own position. -/
theorem standsAt_afterPolicy {k : Nat} (hk : StandsAt (afterPolicy s.phase l.action next) k) :
    StandsAt s.phase k := by
  rcases afterPolicy_cases s.phase l.action next with ⟨hat, hnow⟩ | ⟨-, -, hsame⟩
  · obtain rfl : l.action.call = k := by
      rcases hnow with ⟨hwaiting, -⟩ | hsettled
      · rw [hwaiting] at hk
        exact hk
      · rw [hsettled] at hk
        exact hk
    rcases hat with hopening | hwaiting
    · rw [hopening]
      exact rfl
    · rw [hwaiting]
      exact rfl
  · rwa [hsame] at hk

include h hpermits

/-- What is ahead after the step was so before, and is no call of the step. -/
theorem ahead_afterPolicy (heffect : PolicySystem.Effect cfg s.signals.policy l.now l.action next out) {k : Nat}
    (hk : k < chain.length) (hahead : Ahead (afterPolicy s.phase l.action next) k) :
    k ≠ l.action.call ∧ Ahead s.phase k := by
  rcases afterPolicy_cases s.phase l.action next with ⟨hat, hnow⟩ | ⟨hopening, -, hsame⟩
  · have hlt : l.action.call < k := by
      rcases hnow with ⟨hwaiting, -⟩ | hsettled
      · rw [hwaiting] at hahead
        exact hahead
      · rw [hsettled] at hahead
        exact hahead
    refine ⟨hlt.ne', ?_⟩
    rcases hat with hopening | hwaiting
    · rw [hopening]
      exact hlt.le
    · rw [hwaiting]
      exact hlt
  · rw [hsame] at hahead
    refine ⟨?_, hahead⟩
    rintro rfl
    obtain ⟨call, -, hmade⟩ := call_of_effect heffect
    rcases hmade with ⟨provider, aborted, ha, -⟩ | ⟨before, hbefore, -, -⟩
    · exact hopening (opening_of_enter hpermits ha hk).1
    · cases (h.fresh _ hk hahead).symm.trans hbefore

/-- The calls of the request are of its kind. -/
theorem kinds_policy (heffect : PolicySystem.Effect cfg s.signals.policy l.now l.action next out) {k : Nat}
    (hk : k < chain.length) {call : PolicyCall} (hget : next.calls.get k = some call) : call.kind = kind := by
  by_cases hid : k = l.action.call
  · subst hid
    obtain ⟨made, hmade, hcases⟩ := call_of_effect heffect
    obtain rfl := Option.some.inj (hmade.symm.trans hget)
    rcases hcases with ⟨provider, aborted, ha, -⟩ | ⟨before, hbefore, hkind, -⟩
    · exact (opening_of_enter hpermits ha hk).2
    · exact hkind.symm.trans (h.kinds _ hk before hbefore)
  · exact h.kinds k hk call (((SignalSystem.frame_of_effect heffect).1 k hid).symm.trans hget)

/-- The call the gateway waits for, or is suspended with, goes on. -/
theorem busy_policy (heffect : PolicySystem.Effect cfg s.signals.policy l.now l.action next out)
    {k : Nat} (hk : afterPolicy s.phase l.action next = .waiting k ∨
      afterPolicy s.phase l.action next = .yielding k) : Busy next k := by
  rcases afterPolicy_cases s.phase l.action next with ⟨-, ⟨hwaiting, hunfinished⟩ | hsettled⟩ | ⟨-, hnot, hsame⟩
  · rw [hwaiting] at hk
    obtain rfl : l.action.call = k := by
      rcases hk with hk | hk
      · exact GatewayPhase.waiting.inj hk
      · cases hk
    obtain ⟨call, hcall, -⟩ := call_of_effect heffect
    refine ⟨call, hcall, ?_⟩
    unfold isFinished at hunfinished
    rw [hcall] at hunfinished
    simpa using hunfinished
  · rw [hsettled] at hk
    rcases hk with hk | hk <;> cases hk
  · rw [hsame] at hk
    -- at a `yield` the call of the position cannot have moved
    have hne : k ≠ l.action.call := by
      rintro rfl
      rcases hk with hk | hk
      · exact hnot hk
      · rw [not_permits_of_yielding (h.within _ (by rw [hk]; exact rfl)) hk] at hpermits
        cases hpermits
    obtain ⟨other, hother, hbusy⟩ := h.busy k hk
    exact ⟨other, ((SignalSystem.frame_of_effect heffect).1 k hne).trans hother, hbusy⟩

/-- **A policy step** of a request, or of another one, keeps the places. -/
theorem placed_policy (heffect : PolicySystem.Effect cfg s.signals.policy l.now l.action next out)
    (hpolicy : t.signals.policy = next) (hphase : t.phase = afterPolicy s.phase l.action next) :
    Placed kind chain t where
  kinds := by
    rw [hpolicy]
    exact fun k hk call hget => kinds_policy h hpermits heffect hk hget
  fresh := by
    rw [hpolicy, hphase]
    intro k hk hahead
    obtain ⟨hne, hbefore⟩ := ahead_afterPolicy h hpermits heffect hk hahead
    rw [(SignalSystem.frame_of_effect heffect).1 k hne]
    exact h.fresh k hk hbefore
  within := by
    rw [hphase]
    exact fun k hk => h.within k (standsAt_afterPolicy hk)
  busy := by
    unfold AtPosition
    rw [hpolicy, hphase]
    exact fun k hk => busy_policy h hpermits heffect hk
  yields := by
    rw [hphase]
    intro k hk
    rcases afterPolicy_cases s.phase l.action next with ⟨-, ⟨hwaiting, -⟩ | hsettled⟩ | ⟨-, -, hsame⟩
    · cases hwaiting.symm.trans hk
    · cases hsettled.symm.trans hk
    · exact h.yields k (hsame.symm.trans hk)

end PolicyStep

theorem kind_of_hasYielded {p : PolicySystem} {id : Nat} (h : hasYielded p id = true) :
    ∃ call, p.calls.get id = some call ∧ call.kind = .stream := by
  unfold hasYielded at h
  split at h
  · rename_i hget
    exact ⟨_, hget, rfl⟩
  · cases h

/-- The gateway moves, its policy calls standing still. -/
theorem Placed.moved (h : Placed kind chain s) (hpolicy : t.signals.policy = s.signals.policy)
    (hahead : ∀ k, Ahead t.phase k → Ahead s.phase k) (hwithin : ∀ k, StandsAt t.phase k → k < chain.length)
    (hat : ∀ k, t.AtPosition k → s.AtPosition k) (hyields : ∀ k, t.phase = .yielding k → kind = .stream) :
    Placed kind chain t := by
  refine ⟨?_, ?_, hwithin, ?_, hyields⟩
  · rw [hpolicy]
    exact h.kinds
  · rw [hpolicy]
    exact fun k hk hbefore => h.fresh k hk (hahead k hbefore)
  · rw [hpolicy]
    exact fun k hk => h.busy k (hat k hk)

/-- Behind a position the gateway opens the next one, or is done. -/
theorem Placed.failed (h : Placed kind chain s) {position : Nat} (hpolicy : t.signals.policy = s.signals.policy)
    (hbehind : ∀ k, position < k → Ahead s.phase k) (hphase : t.phase = s.afterFailure chain position) :
    Placed kind chain t := by
  rcases afterFailure_cases s chain position with ⟨hopening, hlt⟩ | hended
  · rw [hopening] at hphase
    refine h.moved hpolicy ?_ ?_ ?_ ?_
    · rw [hphase]
      exact fun k hk => hbehind k hk
    · rw [hphase]
      rintro k rfl
      exact hlt
    · rintro k (hk | hk) <;> cases hphase.symm.trans hk
    · intro k hk
      cases hphase.symm.trans hk
  · rw [hended] at hphase
    refine h.moved hpolicy ?_ ?_ ?_ ?_
    · rw [hphase]
      exact fun k hk => hk.elim
    · rw [hphase]
      exact fun k hk => hk.elim
    · rintro k (hk | hk) <;> cases hphase.symm.trans hk
    · intro k hk
      cases hphase.symm.trans hk

theorem Placed.ended (h : Placed kind chain s) (hpolicy : t.signals.policy = s.signals.policy)
    (hphase : t.phase = .ended) : Placed kind chain t := by
  refine h.moved hpolicy ?_ ?_ ?_ ?_
  · rw [hphase]
    exact fun k hk => hk.elim
  · rw [hphase]
    exact fun k hk => hk.elim
  · rintro k (hk | hk) <;> cases hphase.symm.trans hk
  · intro k hk
    cases hphase.symm.trans hk

theorem placed_move {label : RequestLabel} (h : Placed kind chain s) (hpolicy : t.signals.policy = s.signals.policy)
    (hmove : Move kind chain s label t.phase) : Placed kind chain t := by
  generalize hnew : t.phase = phase at hmove
  cases hmove with
  | stays =>
      refine h.moved hpolicy ?_ ?_ ?_ ?_
      · rw [hnew]
        exact fun k hk => hk
      · rw [hnew]
        exact h.within
      · unfold AtPosition
        rw [hnew]
        exact fun k hk => hk
      · rw [hnew]
        exact h.yields
  | @deliver position hphase hyielded =>
      refine h.moved hpolicy ?_ ?_ ?_ ?_
      · rw [hnew, hphase]
        exact fun k hk => hk
      · rw [hnew]
        exact fun k hk => h.within k (by rw [hphase]; exact hk)
      · rintro k (hk | hk)
        · cases hnew.symm.trans hk
        · cases hnew.symm.trans hk
          exact Or.inl hphase
      · intro k hk
        obtain ⟨call, hget, hstream⟩ := kind_of_hasYielded hyielded
        exact (h.kinds position (h.within position (by rw [hphase]; exact rfl)) call hget).symm.trans hstream
  | @pull position hphase =>
      refine h.moved hpolicy ?_ ?_ ?_ ?_
      · rw [hnew, hphase]
        exact fun k hk => hk
      · rw [hnew]
        exact fun k hk => h.within k (by rw [hphase]; exact hk)
      · rintro k (hk | hk)
        · cases hnew.symm.trans hk
          exact Or.inr hphase
        · cases hnew.symm.trans hk
      · intro k hk
        cases hnew.symm.trans hk
  | @idle position hkind hphase =>
      exact h.failed hpolicy (fun k hk => by rw [hphase]; exact hk) hnew
  | stop => exact h.ended hpolicy hnew
  | @resume position completed hphase =>
      cases completed with
      | true => exact h.ended hpolicy hnew
      | false => exact h.failed hpolicy (fun k hk => by rw [hphase]; exact hk) hnew

/-- **Every step keeps the calls in their places.** -/
theorem placed_step {label : RequestLabel} (h : Placed kind chain s) (hstep : step cfg kind chain s label = some t) :
    Placed kind chain t := by
  by_cases hlabel : ∃ l, label = .policy l
  · obtain ⟨l, rfl⟩ := hlabel
    simp only [step] at hstep
    split at hstep
    · rename_i hpermits
      obtain ⟨signals, hsignals, rfl⟩ := Option.map_eq_some_iff.mp hstep
      obtain ⟨next, out, heffect, -, rfl⟩ := SignalSystem.effect_of_step hsignals
      exact placed_policy h hpermits heffect rfl rfl
    · cases hstep
  · obtain ⟨hpolicy, hmove⟩ := move_of_step (fun l hl => hlabel ⟨l, hl⟩) hstep
    exact placed_move h hpolicy hmove

end RequestSystem

end Sirius
