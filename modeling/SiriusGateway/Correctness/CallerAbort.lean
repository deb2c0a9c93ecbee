import SiriusGateway.Policy.Signals

/-!
# `Correctness.CallerAbort` — what follows after the caller has gone

A caller's abort is read at the entry of a call and in the handler of a failed attempt, and nowhere else. So
a call whose caller's signal has fired starts no operation any more and never feeds the breaker, unless the
signal fired while the call slept between two attempts: the timer of the back-off is not cancelled and the
loop goes on without looking at the signal (`silent_after_abort_iff`).

## Contents
- **Gone callers.** No run records a failure of a call whose signal has fired (`failuresOf_of_run`); a `Gone`
  call is left `Silent` by every step (`gone_step`, `silent_of_run`).
- **The back-off.** A sleeping call can always wake (`wake_invokes`).
- **The result**, and the run in which the abandoned retry is sent.
-/

namespace Sirius

open Lts PolicySystem SignalSystem

/-! ## Gone callers -/

/-- The caller's signal of the call has fired, and the call is not about to wake. -/
def Gone (s : SignalSystem) (id : Nat) : Prop := id ∈ s.fired ∧ ¬ s.InBackoff id

/-- Between the two states the call has invoked no operation and recorded no failure. -/
def Silent (s t : SignalSystem) (id : Nat) : Prop :=
  t.handedTo id = s.handedTo id ∧ t.failuresOf id = s.failuresOf id

variable {cfg : PolicyConfig} {s t u : SignalSystem} {id : Nat}

theorem Silent.trans (h : Silent s t id) (h' : Silent t u id) : Silent s u id :=
  ⟨h'.1.trans h.1, h'.2.trans h.2⟩

/-- **A call whose caller has gone never feeds the breaker**: no step records a failure of it. -/
theorem failuresOf_step {label : SignalSystem.Label} (hfired : id ∈ s.fired)
    (hstep : SignalSystem.step cfg s label = some t) :
    id ∈ t.fired ∧ t.failuresOf id = s.failuresOf id := by
  cases label with
  | abort calls =>
      obtain rfl : s.fire calls = t := Option.some.inj hstep
      exact ⟨List.mem_append_left _ hfired, rfl⟩
  | policy l =>
      obtain ⟨next, out, -, hreads, rfl⟩ := effect_of_step hstep
      refine ⟨hfired, ?_⟩
      have hnone : l.action.failures.count id = 0 := by
        rw [List.count_eq_zero]
        intro hmem
        -- the handler that records has read the signal as not fired
        rw [mem_failures_iff.mp hmem] at hreads
        have hunread : id ∉ s.fired := by simpa [PolicyAction.readsSignal] using hreads
        exact hunread hfired
      show (s.failures ++ l.action.failures).count id = s.failures.count id
      rw [List.count_append, hnone, Nat.add_zero]

theorem failuresOf_of_run {labels : List SignalSystem.Label} (hfired : id ∈ s.fired)
    (hrun : Run (SignalSystem.step cfg) s labels t) : t.failuresOf id = s.failuresOf id := by
  induction hrun with
  | nil s => rfl
  | cons hd _ ih =>
      obtain ⟨hstill, hsame⟩ := failuresOf_step hfired hd
      exact (ih hstill).trans hsame

/-- A step that invokes nothing for the call leaves what it has invoked. -/
theorem handedTo_record {a : PolicyAction} {next : PolicySystem} {out : Option Invocation}
    (hout : ∀ i ∈ out, i.call ≠ id) : (s.record a next out).handedTo id = s.handedTo id := by
  show (s.handed ++ out.toList).filter (·.call = id) = s.handed.filter (·.call = id)
  have hnone : out.toList.filter (·.call = id) = [] := by
    rw [List.filter_eq_nil_iff]
    intro i hi
    simpa using hout i (Option.mem_toList.mp hi)
  rw [List.filter_append, hnone, List.append_nil]

theorem not_inBackoff_of_get {c : PolicyCall} (hget : t.policy.calls.get id = some c)
    (h : ∀ n, c.phase ≠ .backoff n) : ¬ t.InBackoff id := by
  rintro ⟨provider, kind, n, hasleep⟩
  obtain rfl : c = ⟨provider, kind, .backoff n⟩ := Option.some.inj (hget.symm.trans hasleep)
  exact h n rfl

/-- **A step of the service invokes nothing for a gone call** and does not put it to sleep. -/
theorem handedTo_of_gone {now : Int} {a : PolicyAction} {next : PolicySystem} {out : Option Invocation}
    (h : Gone s id) (heffect : Effect cfg s.policy now a next out) (hreads : a.readsSignal s.fired = true) :
    ¬ (s.record a next out).InBackoff id ∧ (s.record a next out).handedTo id = s.handedTo id := by
  obtain ⟨hfired, hawake⟩ := h
  obtain ⟨hframe, hcall⟩ := frame_of_effect heffect
  by_cases hother : id = a.call
  · -- the step happens to the call itself, and leaves it in a phase that is no sleep
    subst hother
    cases heffect with
    | rejected hfresh hcheck =>
        exact ⟨not_inBackoff_of_get (JsMap.get_set_self _ _ _) (by simp), handedTo_record (by simp)⟩
    | turnedAway hfresh hcheck =>
        exact ⟨not_inBackoff_of_get (JsMap.get_set_self _ _ _) (by simp), handedTo_record (by simp)⟩
    | @admitted k kind provider m hfresh hcheck =>
        -- an entry that is let through reads an unfired signal
        have hunread : ¬ (false = true) ∧ k ∉ s.fired := by simpa [PolicyAction.readsSignal] using hreads
        exact absurd hfired hunread.2
    | yielded hcall =>
        exact ⟨not_inBackoff_of_get (JsMap.get_set_self _ _ _) (by simp), handedTo_record (by simp)⟩
    | succeeded hcall =>
        exact ⟨not_inBackoff_of_get (JsMap.get_set_self _ _ _) (by simp), handedTo_record (by simp)⟩
    | @failed k provider kind attempt y hcall =>
        have hunread : k ∉ s.fired := by simpa [PolicyAction.readsSignal] using hreads
        exact absurd hfired hunread
    | cancelled hcall =>
        exact ⟨not_inBackoff_of_get (JsMap.get_set_self _ _ _) (by simp), handedTo_record (by simp)⟩
    | left hcall =>
        exact ⟨not_inBackoff_of_get (JsMap.get_set_self _ _ _) (by simp), handedTo_record (by simp)⟩
    | retried hasleep => exact absurd ⟨_, _, _, hasleep⟩ hawake
  · refine ⟨?_, handedTo_record fun i hi => ?_⟩
    · rintro ⟨provider, kind, n, hget⟩
      exact hawake ⟨provider, kind, n, (hframe id hother).symm.trans hget⟩
    · rw [hcall i hi]
      exact Ne.symm hother

/-- **A step leaves a gone call silent**, and gone. -/
theorem gone_step {label : SignalSystem.Label} (h : Gone s id)
    (hstep : SignalSystem.step cfg s label = some t) : Gone t id ∧ Silent s t id := by
  obtain ⟨hfired, hfailures⟩ := failuresOf_step h.1 hstep
  cases label with
  | abort calls =>
      obtain rfl : s.fire calls = t := Option.some.inj hstep
      exact ⟨⟨hfired, h.2⟩, rfl, hfailures⟩
  | policy l =>
      obtain ⟨next, out, heffect, hreads, rfl⟩ := effect_of_step hstep
      obtain ⟨hawake, hhanded⟩ := handedTo_of_gone h heffect hreads
      exact ⟨⟨hfired, hawake⟩, hhanded, hfailures⟩

/-- **A gone call stays silent** over every run. -/
theorem silent_of_run {labels : List SignalSystem.Label} (h : Gone s id)
    (hrun : Run (SignalSystem.step cfg) s labels t) : Silent s t id := by
  induction hrun with
  | nil s => exact ⟨rfl, rfl⟩
  | cons hd _ ih =>
      obtain ⟨hgone, hsilent⟩ := gone_step h hd
      exact hsilent.trans (ih hgone)

/-! ## The back-off -/

/-- **A sleeping call wakes**, whatever has happened to its caller, and invokes the operation. -/
theorem wake_invokes (h : s.InBackoff id) :
    ∃ t, SignalSystem.step cfg s (.policy ⟨0, .wake id⟩) = some t ∧ ¬ Silent s t id := by
  obtain ⟨provider, kind, attempt, hget⟩ := h
  have hstep : SignalSystem.step cfg s (.policy ⟨0, .wake id⟩) =
      some (s.record (.wake id) (s.policy.setCall id ⟨provider, kind, .attempting (attempt + 1) false⟩)
        (some ⟨id, provider, attempt + 1⟩)) := by
    simp [SignalSystem.step, PolicyAction.readsSignal, stepOut, hget]
  refine ⟨_, hstep, fun hsilent => ?_⟩
  have hlonger : (s.handed ++ [(⟨id, provider, attempt + 1⟩ : Invocation)]).filter (·.call = id) =
      s.handed.filter (·.call = id) := hsilent.1
  rw [List.filter_append] at hlonger
  simp at hlonger

/-! ## The result -/

/-- **Nothing starts after the caller has gone, unless it leaves during a back-off.** When the caller's
    signal of the call fires in any state, every continuation invokes no further operation for the call and
    records no failure of it, if and only if the call is not asleep between two attempts at that moment. -/
theorem silent_after_abort_iff (cfg : PolicyConfig) (s : SignalSystem) {calls : List Nat} {id : Nat}
    (hid : id ∈ calls) :
    (∀ labels t, Run (SignalSystem.step cfg) (s.fire calls) labels t → Silent (s.fire calls) t id) ↔
      ¬ s.InBackoff id := by
  constructor
  · intro hsilent hasleep
    have hasleep' : (s.fire calls).InBackoff id := hasleep
    obtain ⟨t, hstep, hloud⟩ := @wake_invokes cfg _ _ hasleep'
    exact hloud (hsilent _ t (Run.cons hstep (Run.nil t)))
  · intro hawake labels t hrun
    have hgone : Gone (s.fire calls) id := ⟨List.mem_append_right _ hid, hawake⟩
    exact silent_of_run hgone hrun

/-! ### The abandoned retry -/

/-- A call has failed once and sleeps; then its caller aborts, and the timer fires. -/
def sleepingRun : List SignalSystem.Label :=
  [.policy ⟨0, .enter 0 .plain "openai" false⟩, .policy ⟨1, .fail 0 false⟩, .abort [0],
    .policy ⟨2, .wake 0⟩]

/-- Leaving during a back-off does not stop the retry. -/
theorem retry_after_abort :
    ¬ ∀ (cfg : PolicyConfig) (past : List SignalSystem.Label) (s : SignalSystem) (calls : List Nat) (id : Nat)
      (later : List SignalSystem.Label) (t : SignalSystem),
      Run (SignalSystem.step cfg) SignalSystem.initial past s → id ∈ calls →
      Run (SignalSystem.step cfg) (s.fire calls) later t → Silent (s.fire calls) t id := by
  intro hclaim
  have hpast : (exec (SignalSystem.step {}) SignalSystem.initial (sleepingRun.take 2)).isSome = true := by
    decide
  obtain ⟨s, hs⟩ := Option.isSome_iff_exists.mp hpast
  have hasleep : s.InBackoff 0 := by
    have hget : (exec (SignalSystem.step {}) SignalSystem.initial (sleepingRun.take 2)).bind
        (fun s => s.policy.calls.get 0) = some ⟨"openai", .plain, .backoff 0⟩ := by decide
    rw [hs] at hget
    exact ⟨_, _, _, hget⟩
  have hasleep' : (s.fire [0]).InBackoff 0 := hasleep
  obtain ⟨t, hwake, hloud⟩ := @wake_invokes {} _ _ hasleep'
  exact hloud (hclaim {} _ s [0] 0 _ t (run_iff_exec.mpr hs) (by simp) (Run.cons hwake (Run.nil t)))

/-- The first attempt of a stream runs and has yielded. -/
def streamingState : SignalSystem where
  policy := ⟨JsMap.empty, JsMap.empty.set 0 ⟨"openai", .stream, .attempting 0 true⟩⟩
  fired := []
  handed := [⟨0, "openai", 0⟩]
  released := []
  failures := []

/-- A caller that leaves in the middle of a stream leaves nothing behind. -/
theorem silent_after_abort_iff_streaming :
    ¬ streamingState.InBackoff 0 ∧
      ∀ labels t, Run (SignalSystem.step {}) (streamingState.fire [0]) labels t →
        Silent (streamingState.fire [0]) t 0 := by
  have hawake : ¬ streamingState.InBackoff 0 := by
    rintro ⟨provider, kind, attempt, hget⟩
    cases hget
  exact ⟨hawake, (@silent_after_abort_iff {} streamingState [0] 0 (by decide)).mpr hawake⟩

end Sirius
