import SiriusGateway.Gateway.Signals

/-!
# `Correctness.LiveAttempts` — one live attempt per request

Over every run of a request, with other requests in between: at most one of the signals handed to its
operations has not fired, an operation that is handed an unfired signal finds all earlier ones fired, and
once the run has ended all of them have (`one_live_attempt`).

The invariant is about the policy calls (`Served`): a call of the request that is not finished and whose
caller's signal has not fired is the one the gateway is waiting for. A stream the gateway has given up may
still retry, but under a signal that has fired.

## Contents
- **Live signals.** `liveSignals`, and the calls they belong to.
- **Steps of the gateway.** `Effect`, what a step can do (`effect_of_step`), and what it does to the signals
  and to the position it stands at (`step_cases`).
- **The invariant.** `Served`, its step lemma and what it says about the live signals.
- **Positions.** They are taken in order, each under a signal that only the client's abort fires (`Ordered`).
-/

namespace Sirius

open Lts

namespace RequestSystem

/-! ## Live signals -/

/-- The signals handed to operations of the request that have not fired: neither the attempt's own
    controller nor the caller's signal of its call has. -/
def liveSignals (chain : List String) (s : RequestSystem) : List Invocation :=
  s.signals.handed.filter fun i =>
    i.call < chain.length ∧ (i.call, i.attempt) ∉ s.signals.released ∧ i.call ∉ s.signals.fired

variable {cfg : PolicyConfig} {kind : CallKind} {chain : List String} {s t : RequestSystem}
  {l : RequestLabel} {i : Invocation}

theorem mem_liveSignals : i ∈ s.liveSignals chain ↔
    i ∈ s.signals.handed ∧ i.call < chain.length ∧ (i.call, i.attempt) ∉ s.signals.released ∧
      i.call ∉ s.signals.fired := by
  simp [liveSignals]

/-- The call is not finished. -/
def Busy (p : PolicySystem) (id : Nat) : Prop :=
  ∃ call, p.calls.get id = some call ∧ call.phase ≠ .finished

theorem busy_of_attempting {p : PolicySystem} {id attempt : Nat}
    (h : SignalSystem.Attempting p id attempt) : Busy p id := by
  obtain ⟨provider, callKind, yielded, hget⟩ := h
  exact ⟨_, hget, by simp⟩

theorem not_isFinished_of_busy {p : PolicySystem} {id : Nat} (h : Busy p id) :
    isFinished p id = false := by
  obtain ⟨call, hget, hphase⟩ := h
  unfold isFinished
  rw [hget]
  simpa using hphase

/-- Apart from the entry of a new call, an action happens to a call that is not finished. -/
theorem enter_or_busy {p next : PolicySystem} {now : Int} {a : PolicyAction} {out : Option Invocation}
    (h : PolicySystem.Effect cfg p now a next out) :
    (∃ callKind provider aborted, a = .enter a.call callKind provider aborted) ∨ Busy p a.call := by
  cases h with
  | rejected hfresh hcheck => exact Or.inl ⟨_, _, _, rfl⟩
  | turnedAway hfresh hcheck => exact Or.inl ⟨_, _, _, rfl⟩
  | admitted hfresh hcheck => exact Or.inl ⟨_, _, _, rfl⟩
  | yielded hcall => exact Or.inr ⟨_, hcall, by simp⟩
  | succeeded hcall => exact Or.inr ⟨_, hcall, by simp⟩
  | failed hcall => exact Or.inr ⟨_, hcall, by simp⟩
  | cancelled hcall => exact Or.inr ⟨_, hcall, by simp⟩
  | left hcall => exact Or.inr ⟨_, hcall, by simp⟩
  | retried hcall => exact Or.inr ⟨_, hcall, by simp⟩

/-! ## Steps of the gateway -/

/-- The gateway stands at the position: it waits for its policy call, or has just yielded an event of it. -/
def AtPosition (s : RequestSystem) (position : Nat) : Prop :=
  s.phase = .waiting position ∨ s.phase = .yielding position

theorem AtPosition.eq_of_waiting {position k : Nat} (hphase : s.phase = .waiting position)
    (hat : s.AtPosition k) : k = position := by
  rcases hat with hwaiting | hyielding
  · rw [hphase] at hwaiting
    cases hwaiting
    rfl
  · rw [hphase] at hyielding
    cases hyielding

theorem AtPosition.eq_of_yielding {position k : Nat} (hphase : s.phase = .yielding position)
    (hat : s.AtPosition k) : k = position := by
  rcases hat with hwaiting | hyielding
  · rw [hphase] at hwaiting
    cases hwaiting
  · rw [hphase] at hyielding
    cases hyielding
    rfl

theorem fire_nil (signals : SignalSystem) : signals.fire [] = signals := by
  simp [SignalSystem.fire]

/-- What a step does, one case for each way it can go. -/
inductive Effect (cfg : PolicyConfig) (kind : CallKind) (chain : List String) (s : RequestSystem) :
    RequestLabel → RequestSystem → Prop
  | clientAbort : Effect cfg kind chain s .clientAbort
      { s with signals := s.signals.fire (List.range chain.length), clientAborted := true }
  | otherAbort {calls : List Nat} (hothers : ∀ k ∈ calls, chain.length ≤ k) :
      Effect cfg kind chain s (.otherAbort calls) { s with signals := s.signals.fire calls }
  | policy {pl : PolicyLabel} {signals : SignalSystem} (hpermits : permits kind chain s pl.action = true)
      (hsignals : SignalSystem.step cfg s.signals (.policy pl) = some signals) :
      Effect cfg kind chain s (.policy pl)
        { s with signals := signals, phase := afterPolicy s.phase pl.action signals.policy }
  | deliver {position : Nat} (hphase : s.phase = .waiting position)
      (hyielded : hasYielded s.signals.policy position = true) :
      Effect cfg kind chain s .deliver { s with yieldedAny := true, phase := .yielding position }
  | pull {position : Nat} (hphase : s.phase = .yielding position) :
      Effect cfg kind chain s .pull { s with phase := .waiting position }
  | idle {position : Nat} (hkind : kind = .stream) (hphase : s.phase = .waiting position) :
      Effect cfg kind chain s .idle (s.tearDown kind position (s.afterFailure chain position))
  | unpulled (hkind : kind = .stream) (hphase : s.phase = .opening 0) :
      Effect cfg kind chain s .stop { s with phase := .ended }
  | stop {position : Nat} (hkind : kind = .stream) (hphase : s.phase = .yielding position) :
      Effect cfg kind chain s .stop (s.tearDown kind position .ended)
  | resume {position : Nat} {completed : Bool} (hphase : s.phase = .settled position completed) :
      Effect cfg kind chain s .resume
        (s.tearDown kind position (if completed then .ended else s.afterFailure chain position))

/-- **Inversion of a step.** -/
theorem effect_of_step (h : step cfg kind chain s l = some t) : Effect cfg kind chain s l t := by
  cases l with
  | clientAbort =>
      obtain rfl := Option.some.inj h
      exact Effect.clientAbort
  | otherAbort calls =>
      simp only [step] at h
      split at h
      · rename_i hall
        obtain rfl := Option.some.inj h
        exact Effect.otherAbort fun k hk => of_decide_eq_true (List.all_eq_true.mp hall k hk)
      · cases h
  | policy pl =>
      simp only [step] at h
      split at h
      · rename_i hpermits
        obtain ⟨signals, hsignals, rfl⟩ := Option.map_eq_some_iff.mp h
        exact Effect.policy hpermits hsignals
      · cases h
  | deliver =>
      simp only [step] at h
      split at h
      · rename_i position hphase
        split at h
        · rename_i hyielded
          obtain rfl := Option.some.inj h
          exact Effect.deliver hphase hyielded
        · cases h
      · cases h
  | pull =>
      simp only [step] at h
      split at h
      · rename_i position hphase
        obtain rfl := Option.some.inj h
        exact Effect.pull hphase
      · cases h
  | idle =>
      simp only [step] at h
      split at h
      · rename_i position hphase
        obtain rfl := Option.some.inj h
        exact Effect.idle rfl hphase
      · cases h
  | stop =>
      simp only [step] at h
      split at h
      · rename_i hphase
        obtain rfl := Option.some.inj h
        exact Effect.unpulled rfl hphase
      · rename_i position hphase
        obtain rfl := Option.some.inj h
        exact Effect.stop rfl hphase
      · cases h
  | resume =>
      simp only [step] at h
      split at h
      · rename_i position completed hphase
        obtain rfl := Option.some.inj h
        exact Effect.resume hphase
      · cases h

/-- **The signals of a step.** A policy call goes on, or a caller's signal may fire; and the gateway leaves a
    position only when the caller's signal of that position fires. -/
theorem step_cases (h : step cfg kind chain s l = some t) :
    (∃ pl, permits kind chain s pl.action = true ∧
        SignalSystem.step cfg s.signals (.policy pl) = some t.signals ∧
        t.phase = afterPolicy s.phase pl.action t.signals.policy) ∨
      ∃ calls, t.signals = s.signals.fire calls ∧
        ∀ k < chain.length, k ∉ calls → s.AtPosition k → t.AtPosition k := by
  cases effect_of_step h with
  | clientAbort => exact Or.inr ⟨_, rfl, fun k hk hout _ => absurd (List.mem_range.mpr hk) hout⟩
  | @otherAbort calls hothers => exact Or.inr ⟨calls, rfl, fun k _ _ hat => hat⟩
  | policy hpermits hsignals => exact Or.inl ⟨_, hpermits, hsignals, rfl⟩
  | deliver hphase hyielded =>
      refine Or.inr ⟨[], (fire_nil _).symm, ?_⟩
      intro k _ _ hat
      obtain rfl := hat.eq_of_waiting hphase
      exact Or.inr rfl
  | pull hphase =>
      refine Or.inr ⟨[], (fire_nil _).symm, ?_⟩
      intro k _ _ hat
      obtain rfl := hat.eq_of_yielding hphase
      exact Or.inl rfl
  | @idle position hkind hphase =>
      subst hkind
      -- the watchdog fires the signal of the position it guards, so that position is among the calls
      refine Or.inr ⟨[position], rfl, ?_⟩
      intro k _ hout hat
      exact absurd (List.mem_singleton.mpr (hat.eq_of_waiting hphase)) hout
  | unpulled hkind hphase =>
      refine Or.inr ⟨[], (fire_nil _).symm, ?_⟩
      intro k _ _ hat
      rcases hat with hat | hat <;> rw [hphase] at hat <;> cases hat
  | @stop position hkind hphase =>
      subst hkind
      -- the consumer left at a `yield`: the `finally` of that position fires its signal
      refine Or.inr ⟨[position], rfl, ?_⟩
      intro k _ hout hat
      exact absurd (List.mem_singleton.mpr (hat.eq_of_yielding hphase)) hout
  | @resume position completed hphase =>
      -- the gateway stands at no position: its policy call has ended
      have hnowhere : ∀ k, ¬ s.AtPosition k := by
        rintro k (hat | hat) <;> rw [hphase] at hat <;> cases hat
      cases kind with
      | plain => exact Or.inr ⟨[], (fire_nil _).symm, fun k _ _ hat => absurd hat (hnowhere k)⟩
      | stream => exact Or.inr ⟨[position], rfl, fun k _ _ hat => absurd hat (hnowhere k)⟩

/-- The gateway makes a policy call only for the position it is opening. -/
theorem phase_of_permits_enter {id : Nat} {callKind : CallKind} {provider : String} {aborted : Bool}
    (hown : id < chain.length)
    (h : permits kind chain s (.enter id callKind provider aborted) = true) : s.phase = .opening id := by
  have hcall : (PolicyAction.enter id callKind provider aborted).call < chain.length := hown
  unfold permits at h
  rw [if_pos hcall] at h
  simp only [Bool.and_eq_true, beq_iff_eq] at h
  exact h.1.1

/-- A stream that is not pulled stands still. -/
theorem not_permits_of_yielding {a : PolicyAction} (hown : a.call < chain.length)
    (hphase : s.phase = .yielding a.call) : permits kind chain s a = false := by
  unfold permits
  rw [if_pos hown]
  cases a <;> simp [hphase, PolicyAction.call]

/-! ## The invariant -/

/-- What holds in every reachable state. -/
structure Served (chain : List String) (s : RequestSystem) : Prop where
  tidy : SignalSystem.Tidy s.signals
  numbered : SignalSystem.Numbered s.signals
  /-- An unfinished call of the request whose caller's signal has not fired is the awaited one. -/
  current : ∀ k < chain.length, k ∉ s.signals.fired → Busy s.signals.policy k → s.AtPosition k

theorem served_initial : Served chain (initial chain) where
  tidy := SignalSystem.tidy_initial
  numbered := SignalSystem.numbered_initial
  current := by
    rintro k - - ⟨call, hget, -⟩
    cases hget

/-- The gateway's own call is opened by the gateway, and goes on only while the gateway waits for it. -/
theorem current_policy {pl : PolicyLabel} {next : PolicySystem} {out : Option Invocation} {k : Nat}
    (h : Served chain s) (hpermits : permits kind chain s pl.action = true)
    (heffect : PolicySystem.Effect cfg s.signals.policy pl.now pl.action next out)
    (hk : k < chain.length) (hunfired : k ∉ s.signals.fired) (hbusy : Busy next k) :
    afterPolicy s.phase pl.action next = .waiting k ∨ afterPolicy s.phase pl.action next = .yielding k := by
  by_cases hid : k = pl.action.call
  · subst hid
    have hopen : s.phase = .opening pl.action.call ∨ s.phase = .waiting pl.action.call := by
      rcases enter_or_busy heffect with ⟨callKind, provider, aborted, ha⟩ | hbefore
      · left
        rw [ha] at hpermits
        exact phase_of_permits_enter hk hpermits
      · rcases h.current _ hk hunfired hbefore with hwaiting | hyielding
        · exact Or.inr hwaiting
        · rw [not_permits_of_yielding hk hyielding] at hpermits
          cases hpermits
    left
    rw [afterPolicy, if_pos hopen, not_isFinished_of_busy hbusy]
    rfl
  · have hbefore : Busy s.signals.policy k := by
      obtain ⟨call, hget, hphase⟩ := hbusy
      exact ⟨call, ((SignalSystem.frame_of_effect heffect).1 k hid).symm.trans hget, hphase⟩
    have hat := h.current k hk hunfired hbefore
    have hstay : afterPolicy s.phase pl.action next = s.phase := by
      rw [afterPolicy, if_neg]
      rintro (hopening | hwaiting)
      · rcases hat with hat | hat <;> rw [hopening] at hat <;> cases hat
      · rcases hat with hat | hat <;> rw [hwaiting] at hat <;> cases hat
        exact hid rfl
    rw [hstay]
    exact hat

/-- **Every step keeps the invariant.** -/
theorem served_step (h : Served chain s) (hstep : step cfg kind chain s l = some t) : Served chain t := by
  rcases step_cases hstep with ⟨pl, hpermits, hsignals, hphase⟩ | ⟨calls, hsignals, hkeep⟩
  · refine ⟨SignalSystem.tidy_step h.tidy hsignals, SignalSystem.numbered_step h.numbered hsignals, ?_⟩
    obtain ⟨next, out, heffect, -, hrecord⟩ := SignalSystem.effect_of_step hsignals
    rw [hrecord] at hphase ⊢
    intro k hk hunfired hbusy
    have hcurrent := current_policy h hpermits heffect hk hunfired hbusy
    unfold AtPosition
    rw [hphase]
    exact hcurrent
  · have hfire : SignalSystem.step cfg s.signals (.abort calls) = some t.signals := by
      rw [hsignals]
      rfl
    refine ⟨SignalSystem.tidy_step h.tidy hfire, SignalSystem.numbered_step h.numbered hfire, ?_⟩
    rw [hsignals]
    intro k hk hunfired hbusy
    obtain ⟨hbefore, hout⟩ := not_or.mp fun hmem => hunfired (List.mem_append.mpr hmem)
    exact hkeep k hk hout (h.current k hk hbefore hbusy)

theorem served_of_run {labels : List RequestLabel}
    (h : Run (step cfg kind chain) (initial chain) labels s) : Served chain s :=
  Run.invariant (I := Served chain) (fun _ _ _ hs hstep => served_step hs hstep) h served_initial

/-- A live signal belongs to the running attempt of the call the gateway waits for. -/
theorem Served.live (h : Served chain s) (hi : i ∈ s.liveSignals chain) :
    s.AtPosition i.call ∧ SignalSystem.Attempting s.signals.policy i.call i.attempt := by
  obtain ⟨hhanded, hown, hunreleased, hunfired⟩ := mem_liveSignals.mp hi
  have hrunning := h.tidy i hhanded hunreleased
  exact ⟨h.current _ hown hunfired (busy_of_attempting hrunning), hrunning⟩

theorem AtPosition.unique {k m : Nat} (h : s.AtPosition k) (h' : s.AtPosition m) : k = m := by
  rcases h with h | h <;> rcases h' with h' | h' <;> rw [h] at h' <;> cases h' <;> rfl

/-- **At most one signal is live.** -/
theorem Served.at_most_one (h : Served chain s) : (s.liveSignals chain).length ≤ 1 := by
  have hdistinct : ((s.liveSignals chain).map SignalSystem.keyOf).Nodup :=
    (h.numbered.nodup).sublist (List.filter_sublist.map _)
  have hsame : ∀ i ∈ s.liveSignals chain, ∀ j ∈ s.liveSignals chain,
      SignalSystem.keyOf i = SignalSystem.keyOf j := by
    intro i hi j hj
    obtain ⟨hati, provider, callKind, y, hgeti⟩ := h.live hi
    obtain ⟨hatj, provider', callKind', y', hgetj⟩ := h.live hj
    have hcall : i.call = j.call := hati.unique hatj
    rw [hcall, hgetj] at hgeti
    have hattempt : j.attempt = i.attempt := by
      injection hgeti with hcalls
      injection hcalls with _ _ hphases
      injection hphases
    exact Prod.ext hcall hattempt.symm
  match hlive : s.liveSignals chain with
  | [] => exact Nat.zero_le 1
  | [i] => exact Nat.le_refl 1
  | i :: j :: rest =>
      rw [hlive] at hdistinct hsame
      have hne := (List.nodup_cons.mp hdistinct).1
      have heq := hsame i (by simp) j (by simp)
      exact absurd (heq ▸ List.mem_cons_self) hne

/-- **When a live signal is handed out.** The gateway is opening the position of the call, or it awaits the
    call, which has slept. -/
theorem Served.handed_live (h : Served chain s) (hstep : step cfg kind chain s l = some t)
    (hhanded : t.signals.handed = s.signals.handed ++ [i]) (hlive : i ∈ t.liveSignals chain) :
    s.phase = .opening i.call ∨ s.AtPosition i.call ∧
      ∃ provider callKind attempt,
        s.signals.policy.calls.get i.call = some ⟨provider, callKind, .backoff attempt⟩ := by
  rcases step_cases hstep with ⟨pl, hpermits, hsignals, hphase⟩ | ⟨calls, hsignals, -⟩
  · obtain ⟨next, out, heffect, -, hrecord⟩ := SignalSystem.effect_of_step hsignals
    obtain ⟨-, hown, -, hunfired⟩ := mem_liveSignals.mp hlive
    rw [hrecord] at hhanded hunfired
    have hout : out = some i := by
      have hlist : out.toList = [i] := List.append_cancel_left hhanded
      cases out with
      | none => cases hlist
      | some j => rw [List.head_eq_of_cons_eq hlist]
    subst hout
    generalize ha : pl.action = action at heffect
    cases heffect with
    | admitted hfresh hcheck =>
        rw [ha] at hpermits
        exact Or.inl (phase_of_permits_enter hown hpermits)
    | retried hasleep =>
        exact Or.inr ⟨h.current _ hown hunfired ⟨_, hasleep, by simp⟩, _, _, _, hasleep⟩
  · rw [hsignals] at hhanded
    have hlength := congrArg List.length hhanded
    simp [SignalSystem.fire] at hlength

/-- **An operation that is handed a live signal finds no other live one.** -/
theorem Served.none_before (h : Served chain s) (hstep : step cfg kind chain s l = some t)
    (hhanded : t.signals.handed = s.signals.handed ++ [i]) (hlive : i ∈ t.liveSignals chain) :
    s.liveSignals chain = [] := by
  rw [List.eq_nil_iff_forall_not_mem]
  intro j hj
  obtain ⟨hat, provider, callKind, y, hget⟩ := h.live hj
  rcases h.handed_live hstep hhanded hlive with hopening | ⟨hcurrent, provider', callKind', attempt, hasleep⟩
  · -- a position is opened from a phase in which the gateway stands at none
    rcases hat with hat | hat <;> rw [hopening] at hat <;> cases hat
  · -- the call the gateway waits for sleeps, so it has no running attempt
    rw [hcurrent.unique hat] at hasleep
    cases hasleep.symm.trans hget

/-- **Once the run has ended no signal is live.** -/
theorem Served.ended (h : Served chain s) (hended : s.phase = .ended) : s.liveSignals chain = [] := by
  rw [List.eq_nil_iff_forall_not_mem]
  intro i hi
  rcases (h.live hi).1 with hat | hat <;> rw [hended] at hat <;> cases hat

section Positions

variable {r r' : RequestSystem}

/-! ## Positions -/

/-- The position the gateway stands at. -/
def position : GatewayPhase → Option Nat
  | .opening k => some k
  | .waiting k => some k
  | .yielding k => some k
  | .settled k _ => some k
  | .ended => none

/-- The positions are taken in order, each under a signal that only the client's abort fires. -/
structure Ordered (chain : List String) (r : RequestSystem) : Prop where
  within : ∀ k, position r.phase = some k → k < chain.length
  /-- No call has been made of a position the gateway has not come to. -/
  unmade : ∀ k m, position r.phase = some k → k < m → m < chain.length →
    r.signals.policy.calls.get m = none
  unopened : ∀ k, r.phase = .opening k → r.signals.policy.calls.get k = none
  unfired : ∀ k m, position r.phase = some k → k ≤ m → m < chain.length → m ∈ r.signals.fired →
    r.clientAborted = true

theorem position_openAt {k m : Nat} (h : position (openAt chain k) = some m) :
    m = k ∧ k < chain.length ∧ openAt chain k = .opening k := by
  unfold openAt at h ⊢
  split at h
  · rename_i hin
    exact ⟨(Option.some.inj h).symm, hin, if_pos hin⟩
  · cases h

theorem ordered_initial : Ordered chain (initial chain) where
  within := by
    intro k hk
    obtain ⟨rfl, hin, -⟩ := position_openAt hk
    exact hin
  unmade := fun _ _ _ _ _ => rfl
  unopened := fun _ _ => rfl
  unfired := fun _ _ _ _ _ hfired => by cases hfired

/-- **Inversion of a step of the service.** -/
theorem policy_of_step {pl : PolicyLabel} (h : step cfg kind chain r (.policy pl) = some r') :
    permits kind chain r pl.action = true ∧
    ∃ next out, PolicySystem.Effect cfg r.signals.policy pl.now pl.action next out ∧
      pl.action.readsSignal r.signals.fired = true ∧
      r' = { r with
        signals := r.signals.record pl.action next out
        phase := afterPolicy r.phase pl.action next } := by
  cases effect_of_step h with
  | policy hpermits hsignals =>
      obtain ⟨next, out, heffect, hreads, rfl⟩ := SignalSystem.effect_of_step hsignals
      exact ⟨hpermits, next, out, heffect, hreads, rfl⟩

/-- A policy action leaves the gateway at its position, and opens none. -/
theorem position_afterPolicy (phase : GatewayPhase) (a : PolicyAction) (next : PolicySystem) :
    position (afterPolicy phase a next) = position phase ∧
      ∀ k, afterPolicy phase a next = .opening k → phase = .opening k ∧ k ≠ a.call := by
  unfold afterPolicy
  split
  · rename_i hat
    split
    · exact ⟨by rcases hat with hat | hat <;> simp [hat, position], nofun⟩
    · exact ⟨by rcases hat with hat | hat <;> simp [hat, position], nofun⟩
  · rename_i hnot
    refine ⟨rfl, fun k hk => ⟨hk, ?_⟩⟩
    rintro rfl
    exact hnot (Or.inl hk)

/-- The gateway goes on to the next position, or to its end; nothing happens to the calls. -/
theorem Ordered.leave {k : Nat} (h : Ordered chain r) (hat : position r.phase = some k)
    (hpolicy : r'.signals.policy = r.signals.policy)
    (hfired : ∀ m, m ∈ r'.signals.fired → m ∈ r.signals.fired ∨ m = k)
    (hgone : r'.clientAborted = r.clientAborted)
    (hnext : ∀ m, position r'.phase = some m → m = k + 1 ∧ m < chain.length) : Ordered chain r' where
  within := fun m hm => (hnext m hm).2
  unmade := by
    intro j m hj hlt hin
    obtain ⟨rfl, -⟩ := hnext j hj
    rw [hpolicy]
    exact h.unmade k m hat (by omega) hin
  unopened := by
    intro j hj
    obtain ⟨rfl, hin⟩ := hnext j (by rw [hj]; rfl)
    rw [hpolicy]
    exact h.unmade k _ hat (by omega) hin
  unfired := by
    intro j m hj hle hin hmem
    obtain ⟨rfl, -⟩ := hnext j hj
    rw [hgone]
    rcases hfired m hmem with hmem | rfl
    · exact h.unfired k m hat (by omega) hin hmem
    · omega

/-- The gateway stays at its position, and no call is made. -/
theorem Ordered.stay (h : Ordered chain r) (hpolicy : r'.signals.policy = r.signals.policy)
    (hfired : ∀ m < chain.length, m ∈ r'.signals.fired → m ∈ r.signals.fired ∨ r'.clientAborted = true)
    (hgone : r.clientAborted = true → r'.clientAborted = true)
    (hposition : position r'.phase = position r.phase)
    (hopening : ∀ k, r'.phase = .opening k → r.phase = .opening k) : Ordered chain r' where
  within := fun k hk => h.within k (hposition ▸ hk)
  unmade := by
    intro k m hk
    rw [hpolicy]
    exact h.unmade k m (hposition ▸ hk)
  unopened := by
    intro k hk
    rw [hpolicy]
    exact h.unopened k (hopening k hk)
  unfired := by
    intro k m hk hle hin hmem
    rcases hfired m hin hmem with hmem | hgone'
    · exact hgone (h.unfired k m (hposition ▸ hk) hle hin hmem)
    · exact hgone'

theorem ordered_policy {pl : PolicyLabel} (h : Ordered chain r)
    (hstep : step cfg kind chain r (.policy pl) = some r') : Ordered chain r' := by
  obtain ⟨hpermits, next, out, heffect, -, rfl⟩ := policy_of_step hstep
  obtain ⟨hposition, hopening⟩ := position_afterPolicy r.phase pl.action next
  -- a call of the request that is made is the one the gateway opens
  have hother : ∀ m < chain.length, r.signals.policy.calls.get m = none → r.phase ≠ .opening m →
      next.calls.get m = none := by
    intro m hin hnone hnot
    by_cases hm : m = pl.action.call
    · subst hm
      rcases enter_or_busy heffect with ⟨callKind, provider, aborted, ha⟩ | ⟨call, hget, -⟩
      · rw [ha] at hpermits
        exact absurd (phase_of_permits_enter hin hpermits) hnot
      · cases hnone.symm.trans hget
    · exact ((SignalSystem.frame_of_effect heffect).1 m hm).trans hnone
  refine ⟨fun k hk => h.within k (hposition ▸ hk), fun k m hk hlt hin => ?_, fun k hk => ?_,
    fun k m hk hle hin hmem => h.unfired k m (hposition ▸ hk) hle hin hmem⟩
  · have hat : position r.phase = some k := hposition ▸ hk
    refine hother m hin (h.unmade k m hat hlt hin) fun hopen => ?_
    rw [hopen] at hat
    exact absurd (Option.some.inj hat) (by omega)
  · obtain ⟨hbefore, hne⟩ := hopening k hk
    exact ((SignalSystem.frame_of_effect heffect).1 k hne).trans (h.unopened k hbefore)

/-- The gateway tears its position down. -/
theorem Ordered.tearDown {k : Nat} {phase : GatewayPhase} (h : Ordered chain r)
    (hat : position r.phase = some k)
    (hnext : ∀ m, position phase = some m → m = k + 1 ∧ m < chain.length) :
    Ordered chain (r.tearDown kind k phase) := by
  cases kind with
  | plain => exact h.leave hat rfl (fun m hm => Or.inl hm) rfl hnext
  | stream => exact h.leave hat rfl (fun m hm => by
      simpa [RequestSystem.tearDown, SignalSystem.fire] using hm) rfl hnext

/-- After a failure the next position is opened, if any is. -/
theorem position_afterFailure {k m : Nat} (h : position (r.afterFailure chain k) = some m) :
    m = k + 1 ∧ m < chain.length := by
  unfold afterFailure at h
  split at h
  · cases h
  · obtain ⟨rfl, hin, -⟩ := position_openAt h
    exact ⟨rfl, hin⟩

/-- **Every step keeps the order.** -/
theorem ordered_step (h : Ordered chain r) (hstep : step cfg kind chain r l = some r') :
    Ordered chain r' := by
  cases effect_of_step hstep with
  | clientAbort => exact h.stay rfl (fun _ _ _ => Or.inr rfl) (fun _ => rfl) rfl fun _ hk => hk
  | otherAbort hothers =>
      refine h.stay rfl ?_ id rfl fun _ hk => hk
      intro m hin hmem
      rcases List.mem_append.mp hmem with hmem | hmem
      · exact Or.inl hmem
      · exact absurd (hothers m hmem) (not_le.mpr hin)
  | policy => exact ordered_policy h hstep
  | deliver hphase => exact h.stay rfl (fun _ _ hmem => Or.inl hmem) id (by rw [hphase]; rfl) nofun
  | pull hphase => exact h.stay rfl (fun _ _ hmem => Or.inl hmem) id (by rw [hphase]; rfl) nofun
  | idle hkind hphase => exact h.tearDown (by rw [hphase]; rfl) fun m hm => position_afterFailure hm
  | unpulled hkind hphase =>
      exact h.leave (k := 0) (by rw [hphase]; rfl) rfl (fun _ hm => Or.inl hm) rfl nofun
  | stop hkind hphase => exact h.tearDown (by rw [hphase]; rfl) nofun
  | @resume k completed hphase =>
      cases completed with
      | true => exact h.tearDown (by rw [hphase]; rfl) nofun
      | false => exact h.tearDown (by rw [hphase]; rfl) fun m hm => position_afterFailure hm

end Positions

end RequestSystem

/-! ## The result -/

open RequestSystem in
/-- **At most one live attempt per request**, for every chain, for plain and streamed requests, over every
    run and with other requests in between: at every moment at most one of the signals handed to operations
    of the request has not fired; a step that hands a live signal to an operation finds every signal handed
    out before fired; and once the run has ended every signal handed out has fired. -/
theorem one_live_attempt {cfg : PolicyConfig} {kind : CallKind} {chain : List String}
    {labels : List RequestLabel} {s : RequestSystem}
    (hrun : Run (RequestSystem.step cfg kind chain) (RequestSystem.initial chain) labels s) :
    (s.liveSignals chain).length ≤ 1 ∧
    (∀ l t i, RequestSystem.step cfg kind chain s l = some t →
      t.signals.handed = s.signals.handed ++ [i] → i ∈ t.liveSignals chain →
        s.liveSignals chain = []) ∧
    (s.phase = .ended → s.liveSignals chain = []) := by
  have hserved := served_of_run hrun
  exact ⟨hserved.at_most_one, fun l t i hstep hhanded hlive => hserved.none_before hstep hhanded hlive,
    hserved.ended⟩

/-! ### A stream that is given up in a back-off -/

/-- The first provider fails and sleeps, the idle timer gives it up, the second one is asked; then the first
    one wakes, the second one yields, the client aborts and the run ends. -/
def givenUpRun : List RequestLabel :=
  [.policy ⟨0, .enter 0 .stream "openai" false⟩, .policy ⟨1, .fail 0 false⟩, .idle,
    .policy ⟨2, .enter 1 .stream "anthropic" false⟩, .policy ⟨3, .wake 0⟩, .policy ⟨4, .event 1⟩,
    .deliver, .pull, .clientAbort, .policy ⟨5, .fail 1 true⟩, .resume]

theorem one_live_attempt_givenUp :
    ∃ s, Run (RequestSystem.step {} .stream ["openai", "anthropic"])
        (RequestSystem.initial ["openai", "anthropic"]) givenUpRun s ∧
      s.signals.handed.length = 3 ∧ s.liveSignals ["openai", "anthropic"] = [] := by
  have hdone : (exec (RequestSystem.step {} .stream ["openai", "anthropic"])
      (RequestSystem.initial ["openai", "anthropic"]) givenUpRun).map
        (fun s => (s.phase, s.signals.handed.length)) = some (.ended, 3) := by decide
  obtain ⟨s, hs, hboth⟩ := Option.map_eq_some_iff.mp hdone
  obtain ⟨hended, hthree⟩ := Prod.mk.inj hboth
  have hrun := run_iff_exec.mpr hs
  exact ⟨s, hrun, hthree, (one_live_attempt hrun).2.2 hended⟩

end Sirius
