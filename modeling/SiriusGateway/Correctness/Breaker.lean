import SiriusGateway.Policy.Concurrent

/-!
# `Correctness.Breaker` — what an open breaker stops

The breaker is read when a call enters and never again, so an open breaker turns new calls away but lets a
call that is already inside go on retrying. Over every interleaving: while the breaker of a provider is
open, the only operations invoked for it are retries of calls admitted before it opened
(`only_retries_while_open`).

## Contents
- **The window.** `Opens` starts it, `Quiet` steps stay inside it.
- **Live calls.** `live_of_effect` and, by induction over the run, `admitted_of_live`.
- **Inside the window.** `openFor_step`: the breaker stays open and no call becomes live.
-/

namespace Sirius

open Lts PolicySystem

/-! ## The window -/

/-- The step records a failure of provider `p` and leaves its breaker open. -/
def Opens (cfg : PolicyConfig) (p : String) (s : PolicySystem) (l : PolicyLabel) (t : PolicySystem) :
    Prop :=
  (∃ id call, l.action = .fail id false ∧ s.calls.get id = some call ∧ call.provider = p) ∧
    step cfg s l = some t ∧ t.circuitState.IsOpen p

/-- The step records no success of provider `p`, and its clock reading is less than
    `circuitBreakerResetMs` after the last recorded failure. -/
def Quiet (cfg : PolicyConfig) (p : String) (s : PolicySystem) (l : PolicyLabel) : Prop :=
  (∀ id call, l.action = .succeed id → s.calls.get id = some call → call.provider ≠ p) ∧
    l.now - s.circuitState.lastFailure p < cfg.circuitBreakerResetMs

/-! ## Live calls -/

variable {cfg : PolicyConfig} {p : String} {s t : PolicySystem} {now : Int} {a : PolicyAction}
  {out : Option Invocation}

/-- The call `id` for provider `p` is not finished. -/
def Live (s : PolicySystem) (p : String) (id : Nat) : Prop :=
  ∃ call, s.calls.get id = some call ∧ call.provider = p ∧ call.phase ≠ .finished

/-- Setting the call of one id to `call` makes at most that call live. -/
theorem live_setCall {m : CircuitMap} {k id : Nat} {call : PolicyCall}
    (h : Live ((⟨m, s.calls⟩ : PolicySystem).setCall k call) p id) :
    Live s p id ∨ (id = k ∧ call.provider = p ∧ call.phase ≠ .finished) := by
  obtain ⟨call', hget, hp, hphase⟩ := h
  have hget' : (s.calls.set k call).get id = some call' := hget
  rw [JsMap.get_set] at hget'
  split at hget'
  · rename_i hid
    obtain rfl : call = call' := Option.some.inj hget'
    exact Or.inr ⟨hid, hp, hphase⟩
  · exact Or.inl ⟨call', hget', hp, hphase⟩

/-- **A call is live because it was, or because it has just been admitted.** -/
theorem live_of_effect {id : Nat} (he : Effect cfg s now a t out) (h : Live t p id) :
    Live s p id ∨ ∃ kind m, a = .enter id kind p false ∧
      CircuitMap.checkCircuitBreaker cfg now s.circuitState p = .ok m := by
  cases he with
  | rejected hfresh hcheck =>
      exact (live_setCall h).imp_right fun hk => absurd rfl hk.2.2
  | turnedAway hfresh hcheck =>
      exact (live_setCall h).imp_right fun hk => absurd rfl hk.2.2
  | admitted hfresh hcheck =>
      rcases live_setCall h with hold | ⟨rfl, rfl, -⟩
      · exact Or.inl hold
      · exact Or.inr ⟨_, _, rfl, hcheck⟩
  | yielded hcall =>
      rcases live_setCall h with hold | ⟨rfl, hp, -⟩
      · exact Or.inl hold
      · exact Or.inl ⟨_, hcall, hp, by simp⟩
  | succeeded hcall =>
      exact (live_setCall h).imp_right fun hk => absurd rfl hk.2.2
  | failed hcall =>
      rcases live_setCall h with hold | ⟨rfl, hp, -⟩
      · exact Or.inl hold
      · exact Or.inl ⟨_, hcall, hp, by simp⟩
  | cancelled hcall =>
      exact (live_setCall h).imp_right fun hk => absurd rfl hk.2.2
  | left hcall =>
      exact (live_setCall h).imp_right fun hk => absurd rfl hk.2.2
  | retried hcall =>
      rcases live_setCall h with hold | ⟨rfl, hp, -⟩
      · exact Or.inl hold
      · exact Or.inl ⟨_, hcall, hp, by simp⟩

/-- The labels admit the call `id` for provider `p`. -/
def Admitted (past : List PolicyLabel) (p : String) (id : Nat) : Prop :=
  ∃ now kind, ⟨now, .enter id kind p false⟩ ∈ past

/-- Every live call was admitted. -/
theorem admitted_of_live {past : List PolicyLabel} (h : Run (step cfg) initial past s) :
    ∀ id, Live s p id → Admitted past p id := by
  refine Run.history (I := fun past s => ∀ id, Live s p id → Admitted past p id) ?_ h [] ?_
  · intro past s l t hinv hstep id hlive
    obtain ⟨out, hout⟩ := stepOut_of_step hstep
    rcases live_of_effect (effect_of_stepOut hout) hlive with hold | ⟨kind, m, ha, -⟩
    · obtain ⟨now, kind, hmem⟩ := hinv id hold
      exact ⟨now, kind, List.mem_append_left _ hmem⟩
    · refine ⟨l.now, kind, List.mem_append_right _ (List.mem_singleton.mpr ?_)⟩
      rw [← ha]
  · rintro id ⟨call, hget, -⟩
    cases hget

/-! ## Inside the window -/

/-- The breaker of `p` is open, and every live call for `p` was admitted in `past`. -/
def OpenFor (p : String) (past : List PolicyLabel) (s : PolicySystem) : Prop :=
  s.circuitState.IsOpen p ∧ ∀ id, Live s p id → Admitted past p id

/-- A quiet step leaves an open breaker open. -/
theorem isOpen_of_effect (hopen : s.circuitState.IsOpen p) {l : PolicyLabel} (hquiet : Quiet cfg p s l)
    (he : Effect cfg s l.now l.action t out) : t.circuitState.IsOpen p := by
  obtain ⟨hsuccess, hnow⟩ := hquiet
  -- a check that passes is a check of another provider
  have hother : ∀ {q m}, CircuitMap.checkCircuitBreaker cfg l.now s.circuitState q = .ok m →
      m.IsOpen p := by
    intro q m hcheck
    by_cases hq : p = q
    · subst hq
      rw [CircuitMap.check_of_open hopen hnow] at hcheck
      cases hcheck
    · exact CircuitMap.isOpen_check_ne hcheck hq hopen
  generalize ha : l.action = action at he
  cases he with
  | rejected hfresh hcheck => exact hopen
  | turnedAway hfresh hcheck => exact hother hcheck
  | admitted hfresh hcheck => exact hother hcheck
  | yielded hcall => exact hopen
  | succeeded hcall =>
      exact CircuitMap.isOpen_recordSuccess_ne (Ne.symm (hsuccess _ _ ha hcall)) hopen
  | failed hcall => exact CircuitMap.isOpen_recordFailure hopen
  | cancelled hcall => exact hopen
  | left hcall => exact hopen
  | retried hcall => exact hopen

/-- **A quiet step keeps the window**: open, and no call has become live in it. -/
theorem openFor_step {past : List PolicyLabel} {l : PolicyLabel} (h : OpenFor p past s)
    (hquiet : Quiet cfg p s l) (hstep : step cfg s l = some t) : OpenFor p past t := by
  obtain ⟨out, hout⟩ := stepOut_of_step hstep
  have he := effect_of_stepOut hout
  refine ⟨isOpen_of_effect h.1 hquiet he, fun id hlive => ?_⟩
  rcases live_of_effect he hlive with hold | ⟨kind, m, -, hcheck⟩
  · exact h.2 id hold
  · rw [CircuitMap.check_of_open h.1 hquiet.2] at hcheck
    cases hcheck

/-- An invoked operation is a first attempt whose check passed, or a retry of a live call. -/
theorem invocation_of_effect {inv : Invocation} (he : Effect cfg s now a t (some inv)) :
    (∃ m, CircuitMap.checkCircuitBreaker cfg now s.circuitState inv.provider = .ok m) ∨
      (0 < inv.attempt ∧ Live s inv.provider inv.call) := by
  cases he with
  | admitted hfresh hcheck => exact Or.inl ⟨_, hcheck⟩
  | retried hcall => exact Or.inr ⟨Nat.succ_pos _, _, hcall, rfl, by simp⟩

/-- **While the breaker is open, only retries of calls admitted before it opened are invoked.** -/
theorem only_retries_while_open {before during : List PolicyLabel} {s₁ s₂ s₃ s₄ : PolicySystem}
    {opening l : PolicyLabel} {inv : Invocation} (hbefore : Run (step cfg) initial before s₁)
    (hopens : Opens cfg p s₁ opening s₂) (hduring : RunWhile (step cfg) (Quiet cfg p) s₂ during s₃)
    (hquiet : Quiet cfg p s₃ l) (hstep : stepOut cfg s₃ l = some (s₄, some inv))
    (hp : inv.provider = p) : 0 < inv.attempt ∧ Admitted before p inv.call := by
  obtain ⟨⟨id, call, hfail, -, -⟩, hopening, hopen⟩ := hopens
  have hstart : OpenFor p before s₂ := by
    refine ⟨hopen, fun k hlive => ?_⟩
    obtain ⟨now, kind, hmem⟩ := admitted_of_live (hbefore.concat hopening) k hlive
    rcases List.mem_append.mp hmem with hmem | hmem
    · exact ⟨now, kind, hmem⟩
    · rw [← List.mem_singleton.mp hmem] at hfail
      cases hfail
  have hwindow : OpenFor p before s₃ :=
    hduring.invariant (fun _ _ _ h hq hs => openFor_step h hq hs) hstart
  subst hp
  rcases invocation_of_effect (effect_of_stepOut hstep) with ⟨m, hcheck⟩ | ⟨hretry, hlive⟩
  · rw [CircuitMap.check_of_open hwindow.1 hquiet.2] at hcheck
    cases hcheck
  · exact ⟨hretry, hwindow.2 _ hlive⟩

/-! ## A retry through an open breaker -/

/-- The first failure opens the breaker, and one retry is left. -/
def oneStrike : PolicyConfig := { maxRetries := 1, circuitBreakerThreshold := 1 }

/-- The first attempt of call `0` is running. -/
def attemptRunning : PolicySystem := initial.setCall 0 ⟨"p", .plain, .attempting 0 false⟩

/-- Its failure at time `1` has opened the breaker, and the call waits for its retry. -/
def afterFailure : PolicySystem :=
  (⟨CircuitMap.recordFailure oneStrike 1 JsMap.empty "p", attemptRunning.calls⟩ :
    PolicySystem).setCall 0 ⟨"p", .plain, .backoff 0⟩

theorem afterFailure_opens : Opens oneStrike "p" attemptRunning ⟨1, .fail 0 false⟩ afterFailure :=
  ⟨⟨0, ⟨"p", .plain, .attempting 0 false⟩, rfl, rfl, rfl⟩, rfl, by decide⟩

theorem afterFailure_quiet : Quiet oneStrike "p" afterFailure ⟨2, .wake 0⟩ :=
  ⟨fun _ _ h => (nomatch h), by decide⟩

theorem only_retries_while_open_oneStrike :
    0 < 1 ∧ Admitted [⟨0, .enter 0 .plain "p" false⟩] "p" 0 :=
  @only_retries_while_open oneStrike "p" [⟨0, .enter 0 .plain "p" false⟩] [] attemptRunning afterFailure
    afterFailure _ _ ⟨2, .wake 0⟩ ⟨0, "p", 1⟩ (Run.cons (t := attemptRunning) rfl (Run.nil _))
    afterFailure_opens (RunWhile.nil _) afterFailure_quiet rfl rfl

/-- One millisecond after its own failure opened the breaker, the call invokes its operation again. -/
theorem retry_invoked_while_open :
    ¬ ∀ (cfg : PolicyConfig) (p : String) (before during : List PolicyLabel)
        (s₁ s₂ s₃ s₄ : PolicySystem) (opening l : PolicyLabel) (inv : Invocation),
      1 ≤ cfg.circuitBreakerThreshold → Run (step cfg) initial before s₁ →
      Opens cfg p s₁ opening s₂ → RunWhile (step cfg) (Quiet cfg p) s₂ during s₃ →
      Quiet cfg p s₃ l → stepOut cfg s₃ l = some (s₄, some inv) → inv.provider ≠ p := by
  intro h
  exact h oneStrike "p" [⟨0, .enter 0 .plain "p" false⟩] [] attemptRunning afterFailure afterFailure
    _ ⟨1, .fail 0 false⟩ ⟨2, .wake 0⟩ ⟨0, "p", 1⟩ (by decide)
    (Run.cons (t := attemptRunning) rfl (Run.nil _)) afterFailure_opens (RunWhile.nil _)
    afterFailure_quiet rfl rfl

end Sirius
