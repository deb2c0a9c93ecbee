import SiriusGateway.Correctness.Drained

/-!
# `Correctness.Accounting` — what stream attempts tell the circuit breaker

A drained run over native adapters counts one failure for an attempt whose stream throws, none for any other,
and a success only for one whose stream ends (`streamOverChain_ledger`). That agrees with what the upstream
did only where every failure of it is a throw: a refused request is reported as an event of a stream that
ends, and a stall fires the signal the policy takes for the client's (`accounted_iff`).

## Contents
- **Ledgers.** `Ledger`, `Apart`, `Ledger.append`.
- **The run.** `ActsFrom`, the ledger of one attempt, `streamAttempts_ledger`, `streamOverChain_ledger`.
- **Upstream.** `Accounted`, and when it holds.
-/

namespace Sirius

open Js

/-! ## Ledgers -/

/-- The attempt an action belongs to. -/
def Action.attemptId : Action → Option AttemptId
  | .invoke id _ _ _ => some id
  | .cancel id => some id
  | .deliver id _ => some id
  | .deliverError _ => none
  | .recordSuccess id _ => some id
  | .recordFailure id _ => some id
  | .recordLatency _ _ => none

/-- No attempt has actions in both lists. -/
def Apart (l r : List Action) : Prop :=
  ∀ a ∈ l, ∀ b ∈ r, ∀ id, a.attemptId = some id → b.attemptId ≠ some id

/-- One failure for every attempt that throws, none for the others; a success only for one that ends. -/
structure Ledger (env : Env) (actions : List Action) : Prop where
  failures : ∀ id p r, .invoke id p r true ∈ actions →
    actions.count (.recordFailure id p.name) = if (env.stream id p r true).breaks = true then 1 else 0
  successes : ∀ id name, .recordSuccess id name ∈ actions → ∃ p r, p.name = name ∧
    .invoke id p r true ∈ actions ∧ (env.stream id p r true).finishes = true

variable {env : Env} {position : Nat} {provider : AiProvider} {request : UnifiedAiRequest}

/-- Actions that neither invoke a live operation nor record a success. -/
theorem Ledger.of_none {actions : List Action} (hinvoke : ∀ id p r, .invoke id p r true ∉ actions)
    (hsuccess : ∀ id name, .recordSuccess id name ∉ actions) : Ledger env actions :=
  ⟨fun id p r h => absurd h (hinvoke id p r), fun id name h => absurd h (hsuccess id name)⟩

theorem Ledger.append {l r : List Action} (hl : Ledger env l) (hr : Ledger env r) (hapart : Apart l r) :
    Ledger env (l ++ r) := by
  refine ⟨fun id p req hmem => ?_, fun id name hmem => ?_⟩
  · rw [List.count_append]
    rcases List.mem_append.mp hmem with h | h
    · have hnone : r.count (.recordFailure id p.name) = 0 :=
        List.count_eq_zero.mpr fun hb => hapart _ h _ hb id rfl rfl
      rw [hl.failures id p req h, hnone, Nat.add_zero]
    · have hnone : l.count (.recordFailure id p.name) = 0 :=
        List.count_eq_zero.mpr fun ha => hapart _ ha _ h id rfl rfl
      rw [hr.failures id p req h, hnone, Nat.zero_add]
  · rcases List.mem_append.mp hmem with h | h
    · obtain ⟨p, req, hname, hinvoke, hends⟩ := hl.successes id name h
      exact ⟨p, req, hname, List.mem_append_left _ hinvoke, hends⟩
    · obtain ⟨p, req, hname, hinvoke, hends⟩ := hr.successes id name h
      exact ⟨p, req, hname, List.mem_append_right _ hinvoke, hends⟩

/-- The actions of one attempt keep the ledger when those after its events do. -/
theorem ledger_attempt {id : AttemptId} {shown : List UnifiedStreamEvent} {after : List Action}
    (hcount : after.count (.recordFailure id provider.name) =
      if (env.stream id provider request true).breaks = true then 1 else 0)
    (hinvoke : ∀ id' p r, .invoke id' p r true ∉ after)
    (hsuccess : ∀ id' name, .recordSuccess id' name ∈ after → id' = id ∧ name = provider.name ∧
      (env.stream id provider request true).finishes = true) :
    Ledger env (.invoke id provider request true :: (shown.map (.deliver id) ++ after)) := by
  refine ⟨fun id' p r hmem => ?_, fun id' name hmem => ?_⟩
  · have hown : id' = id ∧ p = provider ∧ r = request := by
      simpa [hinvoke] using hmem
    obtain ⟨rfl, rfl, rfl⟩ := hown
    have hshown : (shown.map (Action.deliver id')).count (.recordFailure id' p.name) = 0 :=
      List.count_eq_zero.mpr (by simp)
    rw [List.count_cons_of_ne (by simp), List.count_append, hshown, hcount, Nat.zero_add]
  · have hlast : .recordSuccess id' name ∈ after := by simpa using hmem
    obtain ⟨rfl, rfl, hends⟩ := hsuccess id' name hlast
    exact ⟨provider, request, rfl, List.mem_cons_self, hends⟩

/-! ## The run -/

/-- The events of an attempt are cut short exactly when one of them does not pass the observer. -/
theorem forwardedOf_eq_none_iff (hd : env.Drained) (position : Nat) (provider : AiProvider)
    (request : UnifiedAiRequest) (attempt : Nat) (w : World) :
    (forwardedOf env position provider request attempt w).result.1 = none ↔
      (attemptOf env position provider request attempt).typed = true := by
  unfold forwardedOf
  rw [upstreamOf_drained hd]
  cases htyped : (attemptOf env position provider request attempt).typed with
  | true => simp [(forwardEvents_of_typed hd htyped false w).2]
  | false =>
      obtain ⟨message, h⟩ := forwardEvents_of_untyped hd ⟨position, attempt⟩ htyped false w
      simp [h]

/-- The actions are those of an attempt of the position and of later ones. -/
def ActsFrom (position attempt : Nat) (actions : List Action) : Prop :=
  ∀ a ∈ actions, ∀ id, a.attemptId = some id → id.position = position ∧ attempt ≤ id.attempt

theorem ActsFrom.of_own {position attempt : Nat} {actions : List Action}
    (h : ∀ a ∈ actions, a.attemptId = some ⟨position, attempt⟩) : ActsFrom position attempt actions := by
  intro a ha id hid
  rw [h a ha] at hid
  cases hid
  exact ⟨rfl, le_rfl⟩

/-- What an attempt does is apart from what later attempts do, and together they act from it on. -/
theorem ActsFrom.follows {position attempt : Nat} {own later : List Action}
    (hown : ∀ a ∈ own, a.attemptId = some ⟨position, attempt⟩)
    (hlater : ActsFrom position (attempt + 1) later) :
    Apart own later ∧ ActsFrom position attempt (own ++ later) := by
  constructor
  · intro a ha b hb id hid hid'
    rw [hown a ha] at hid
    cases hid
    exact absurd (hlater b hb _ hid').2 (Nat.not_succ_le_self attempt)
  · intro a ha id hid
    rcases List.mem_append.mp ha with ha | ha
    · exact ActsFrom.of_own hown a ha id hid
    · obtain ⟨hposition, hle⟩ := hlater a ha id hid
      exact ⟨hposition, Nat.le_of_succ_le hle⟩

section Attempt
variable {position attempt : Nat} (hd : env.Drained) (w : World)
include hd

theorem startedOf_shown : ∃ shown : List UnifiedStreamEvent, startedOf env position provider request attempt w =
    .invoke ⟨position, attempt⟩ provider request true :: shown.map (.deliver ⟨position, attempt⟩) := by
  obtain ⟨shown, hacts, -⟩ := forwardEvents_shown env ⟨position, attempt⟩
    (upstreamOf env position provider request attempt w).events false w
  refine ⟨shown, ?_⟩
  unfold startedOf forwardedOf
  rw [hacts, aborted_of_drained hd]
  rfl

/-- What an attempt does is its own, if what ends it is. -/
theorem own_startedOf {after : List Action} (hafter : ∀ a ∈ after, a.attemptId = some ⟨position, attempt⟩) :
    ∀ a ∈ startedOf env position provider request attempt w ++ after,
      a.attemptId = some ⟨position, attempt⟩ := by
  obtain ⟨shown, hstarted⟩ := @startedOf_shown env provider request position attempt hd w
  intro a ha
  rw [hstarted] at ha
  rcases List.mem_append.mp ha with ha | ha
  · rcases List.mem_cons.mp ha with rfl | ha
    · rfl
    · obtain ⟨e, -, rfl⟩ := List.mem_map.mp ha
      rfl
  · exact hafter a ha

/-- An attempt that does not break off is only cancelled. -/
theorem ledger_quiet (hbreaks : (attemptOf env position provider request attempt).breaks = false) :
    Ledger env (startedOf env position provider request attempt w ++ [.cancel ⟨position, attempt⟩]) ∧
      ActsFrom position attempt
        (startedOf env position provider request attempt w ++ [.cancel ⟨position, attempt⟩]) := by
  obtain ⟨shown, hstarted⟩ := @startedOf_shown env provider request position attempt hd w
  constructor
  · rw [hstarted]
    exact ledger_attempt (by simp [hbreaks]) (by simp) (by simp)
  · exact ActsFrom.of_own (own_startedOf hd w (by simp [Action.attemptId]))

/-- An attempt that breaks off records its failure. -/
theorem ledger_failed (hbreaks : (attemptOf env position provider request attempt).breaks = true) :
    Ledger env (failedActions env position provider request attempt w) ∧
      ∀ a ∈ failedActions env position provider request attempt w,
        a.attemptId = some ⟨position, attempt⟩ := by
  obtain ⟨shown, hstarted⟩ := @startedOf_shown env provider request position attempt hd w
  refine ⟨?_, own_startedOf hd w (by simp [Action.attemptId])⟩
  unfold failedActions
  rw [hstarted]
  exact ledger_attempt (by simp [hbreaks]) (by simp) (by simp)

/-- A failed attempt and what follows it. -/
theorem ledger_followed {more : List Action}
    (hbreaks : (attemptOf env position provider request attempt).breaks = true) (hmore : Ledger env more)
    (hids : ActsFrom position (attempt + 1) more) :
    Ledger env (failedActions env position provider request attempt w ++ more) ∧
      ActsFrom position attempt (failedActions env position provider request attempt w ++ more) := by
  obtain ⟨hledger, hown⟩ := ledger_failed hd w hbreaks
  obtain ⟨hapart, hacts⟩ := ActsFrom.follows hown hids
  exact ⟨hledger.append hmore hapart, hacts⟩

end Attempt

/-- **The run of one adapter keeps the ledger**, and acts for its own attempts only. -/
theorem streamAttempts_ledger (hd : env.Drained) (position : Nat) (provider : AiProvider)
    (request : UnifiedAiRequest)
    (hdead : ∀ i, env.stream ⟨position, i⟩ provider request false ≠ ⟨[], .finished⟩)
    (remaining attempt : Nat) (w : World) :
    Ledger env (streamAttempts env position provider request remaining attempt w).actions ∧
      ActsFrom position attempt
        (streamAttempts env position provider request remaining attempt w).actions := by
  refine streamAttempts_rule (P := fun _ attempt _ o =>
    Ledger env o.actions ∧ ActsFrom position attempt o.actions) env position provider request ?_
    remaining attempt w
  intro remaining attempt w o hturn hretry
  have htyped := forwardedOf_eq_none_iff hd position provider request attempt w
  have hup := upstreamOf_drained hd position provider request attempt w
  have hbreaks : ∀ message, (forwardedOf env position provider request attempt w).result.1 = none →
      (upstreamOf env position provider request attempt w).ending = .threw message →
      (attemptOf env position provider request attempt).breaks = true := by
    intro message hall hend
    rw [hup] at hend
    simp [StreamAttempt.breaks, htyped.mp hall, hend]
  cases hturn with
  -- the observer threw: the policy sees its consumer leave, and records nothing
  | cut hcut =>
      refine ledger_quiet hd w ?_
      have h : ¬ (attemptOf env position provider request attempt).typed = true := by
        rw [← htyped, hcut]
        exact Option.some_ne_none _
      simp [StreamAttempt.breaks, h]
  | finished hall hend =>
      rw [hup] at hend
      have hends : (attemptOf env position provider request attempt).finishes = true := by
        simp [StreamAttempt.finishes, htyped.mp hall, hend]
      obtain ⟨shown, hstarted⟩ := @startedOf_shown env provider request position attempt hd w
      refine ⟨?_, ActsFrom.of_own (own_startedOf hd w (by simp [Action.attemptId]))⟩
      rw [hstarted]
      refine ledger_attempt (by simp [StreamAttempt.breaks, hend]) (by simp) ?_
      intro id' name h
      obtain ⟨rfl, rfl⟩ : id' = ⟨position, attempt⟩ ∧ name = provider.name := by simpa using h
      exact ⟨rfl, rfl, hends⟩
  | stalled hall hend =>
      rw [hup] at hend
      exact ledger_quiet hd w (by simp [StreamAttempt.breaks, hend])
  | aborted hall hend hgone =>
      rw [aborted_of_drained hd] at hgone
      cases hgone
  | failed hall hend hhere hlast =>
      obtain ⟨hledger, hown⟩ := ledger_failed hd w (hbreaks _ hall hend)
      exact ⟨hledger, ActsFrom.of_own hown⟩
  | abandoned hall hend hhere hsilent hmore hidle =>
      -- the attempt behind the back-off does not end normally under a fired signal, so it records nothing
      have hlate : (abandonedAttempt env ⟨position, attempt + 1⟩ provider request
            (failedWorld env position provider request attempt w).next).2 =
          [.invoke ⟨position, attempt + 1⟩ provider request false, .cancel ⟨position, attempt + 1⟩] := by
        unfold abandonedAttempt
        split
        · exact absurd ‹_› (hdead (attempt + 1))
        · rfl
      refine ledger_followed hd w (hbreaks _ hall hend) ?_ ?_
      · rw [hlate]
        exact Ledger.of_none (by simp) (by simp)
      · rw [hlate]
        refine ActsFrom.of_own fun a ha => ?_
        rcases List.mem_pair.mp ha with rfl | rfl <;> rfl
  | retried hall hend hhere hsilent hmore hidle =>
      obtain ⟨hledger, hids⟩ := hretry _ _ hmore
      exact ledger_followed hd w (hbreaks _ hall hend) hledger hids

/-- A policy call keeps the ledger: one that its breaker rejects does nothing. -/
theorem executeStreamWithPolicy_ledger (hd : env.Drained) (position : Nat) (provider : AiProvider)
    (request : UnifiedAiRequest)
    (hdead : ∀ i, env.stream ⟨position, i⟩ provider request false ≠ ⟨[], .finished⟩) (w : World) :
    Ledger env (executeStreamWithPolicy env position provider request w).actions ∧
      ActsFrom position 0 (executeStreamWithPolicy env position provider request w).actions := by
  rcases executeStreamWithPolicy_cases env position provider request w with
    ⟨w', message, heq, -⟩ | ⟨circuitState, -, heq⟩
  · rw [heq]
    exact ⟨Ledger.of_none (by simp) (by simp), fun a ha => absurd ha List.not_mem_nil⟩
  · rw [heq]
    exact streamAttempts_ledger hd position provider request hdead env.policy.maxRetries 0
      { w with circuitState := circuitState }

/-- **A drained run keeps the ledger**, if no adapter's stream ends without events when its signal has
    fired. -/
theorem streamOverChain_ledger (hd : env.Drained) (request : UnifiedAiRequest) {chain : List ChainEntry}
    (hdead : ∀ entry ∈ chain, ∀ id r, env.stream id entry.provider r false ≠ ⟨[], .finished⟩)
    (w : World) : Ledger env (streamOverChain env request chain w).actions := by
  refine (streamChain_rule (P := fun position chain _ o =>
    (∀ entry ∈ chain, ∀ id r, env.stream id entry.provider r false ≠ ⟨[], .finished⟩) →
      Ledger env o.actions ∧ ∀ a ∈ o.actions, ∀ id, a.attemptId = some id → position ≤ id.position)
    ?_ ?_ chain 0 none w hdead).1
  · intro position lastError w _
    refine ⟨Ledger.of_none (by simp) (by simp), fun a ha id hid => ?_⟩
    rw [List.mem_singleton.mp ha] at hid
    cases hid
  · intro position entry rest w o hturn hrest hdead
    obtain ⟨hledger, hids⟩ := executeStreamWithPolicy_ledger hd position entry.provider
      (enrichedRequest request entry) (fun i => hdead entry List.mem_cons_self _ _) w
    generalize executeStreamWithPolicy env position entry.provider (enrichedRequest request entry) w =
      tried at hturn hledger hids
    -- what the loop does after the call belongs to no attempt
    have hown : ∀ more, Ledger env more → (∀ a ∈ more, a.attemptId = none) →
        Ledger env (tried.actions ++ more) ∧
        ∀ a ∈ tried.actions ++ more, ∀ id, a.attemptId = some id → position ≤ id.position := by
      intro more hmore hnone
      refine ⟨hledger.append hmore fun a _ b hb id _ hid => ?_, fun a ha id hid => ?_⟩
      · rw [hnone b hb] at hid
        cases hid
      · rcases List.mem_append.mp ha with ha | ha
        · exact (hids a ha id hid).1.ge
        · rw [hnone a ha] at hid
          cases hid
    have hself := hown [] (Ledger.of_none (by simp) (by simp)) (by simp)
    rw [List.append_nil] at hself
    cases hturn with
    | served => exact hown _ (Ledger.of_none (by simp) (by simp)) (by simp [Action.attemptId])
    | stopped => exact hself
    | gone => exact hself
    | broken => exact hown _ (Ledger.of_none (by simp) (by simp)) (by simp [Action.attemptId])
    | replaced hend hhere hyield =>
        obtain ⟨hledger', hids'⟩ := hrest _ _ fun e he => hdead e (List.mem_cons_of_mem _ he)
        refine ⟨hledger.append hledger' fun a ha b hb id hid hid' => ?_, fun a ha id hid => ?_⟩
        · have h := (hids a ha id hid).1
          have h' := hids' b hb id hid'
          omega
        · rcases List.mem_append.mp ha with ha | ha
          · exact (hids a ha id hid).1.ge
          · exact Nat.le_of_succ_le (hids' a ha id hid)

/-! ## Upstream -/

/-- A native adapter whose signal has fired throws. -/
theorem streamResponse_dead (up : Upstream) {n : Native} (hn : Native.ofKind provider.kind = some n)
    (id : AttemptId) : up.streamResponse id provider request false ≠ ⟨[], .finished⟩ := by
  unfold Upstream.streamResponse
  cases mapRequest provider.kind request true with
  | error e => exact nofun
  | ok wire =>
      simp only [hn, Bool.false_eq_true, if_false]
      exact nofun

theorem not_breaks_of_finishes {a : StreamAttempt} (h : a.finishes = true) : a.breaks = false := by
  unfold StreamAttempt.finishes at h
  rw [Bool.and_eq_true, decide_eq_true_eq] at h
  unfold StreamAttempt.breaks
  rw [h.2, Bool.and_false]

/-- The breaker is told the truth: exactly one failure for every attempt sent upstream that did not complete
    normally, and a success only for one that did. -/
structure Accounted (up : Upstream) (actions : List Action) : Prop where
  failures : ∀ id p r, .invoke id p r true ∈ actions → ¬ up.Completes id p r →
    actions.count (.recordFailure id p.name) = 1
  successes : ∀ id name, .recordSuccess id name ∈ actions → ∃ p r, p.name = name ∧
    .invoke id p r true ∈ actions ∧ up.Completes id p r

/-- **When the breaker is told the truth.** In a drained run over native adapters it is, exactly when every
    attempt the run sends upstream completes normally or fails loudly. -/
theorem accounted_iff (up : Upstream) (base : Env) (request : UnifiedAiRequest) (chain : List ChainEntry)
    (w : World) (hnative : ∀ entry ∈ chain, ∃ n, Native.ofKind entry.provider.kind = some n) :
    Accounted up (streamOverChain (up.drained base) request chain w).actions ↔
      ∀ id p r, .invoke id p r true ∈ (streamOverChain (up.drained base) request chain w).actions →
        up.Completes id p r ∨ up.FailsLoudly id p r := by
  have hledger := streamOverChain_ledger (up.drained_drained base) request
    (fun entry he id r => streamResponse_dead up (hnative entry he).choose_spec id) w
  have hkind : InvokesOnly (fun p _ => ∃ n, Native.ofKind p.kind = some n)
      (streamOverChain (up.drained base) request chain w).actions :=
    invokesOnly_streamOverChain w hnative
  generalize (streamOverChain (up.drained base) request chain w).actions = actions at hledger hkind ⊢
  constructor
  · intro h id p r hmem
    by_cases hc : up.Completes id p r
    · exact Or.inl hc
    · refine Or.inr ((streamResponse_breaks_iff (hkind id p r true hmem).choose_spec).mp ?_)
      have hcount : (if (up.streamResponse id p r true).breaks = true then 1 else 0) = 1 :=
        (hledger.failures id p r hmem).symm.trans (h.failures id p r hmem hc)
      by_contra hbreaks
      rw [if_neg hbreaks] at hcount
      cases hcount
  · intro h
    refine ⟨fun id p r hmem hc => ?_, fun id name hmem => ?_⟩
    · have hbreaks := (streamResponse_breaks_iff (hkind id p r true hmem).choose_spec).mpr
        ((h id p r hmem).resolve_left hc)
      exact (hledger.failures id p r hmem).trans (if_pos hbreaks)
    · obtain ⟨p, r, hname, hinvoke, hends⟩ := hledger.successes id name hmem
      refine ⟨p, r, hname, hinvoke, (h id p r hinvoke).resolve_right fun hloud => ?_⟩
      have hbreaks := (streamResponse_breaks_iff (hkind id p r true hinvoke).choose_spec).mpr hloud
      exact Bool.false_ne_true ((not_breaks_of_finishes hends).symm.trans hbreaks)

/-- An upstream that cannot be reached. -/
theorem accounted_iff_unreachable :
    Accounted (steadyUpstream (.failed "ECONNREFUSED"))
        (streamOverChain ((steadyUpstream (.failed "ECONNREFUSED")).drained plainEnv) emptyRequest
          [openAiEntry] freshWorld).actions ↔
      ∀ id p r, .invoke id p r true ∈
          (streamOverChain ((steadyUpstream (.failed "ECONNREFUSED")).drained plainEnv) emptyRequest
            [openAiEntry] freshWorld).actions →
        (steadyUpstream (.failed "ECONNREFUSED")).Completes id p r ∨
          (steadyUpstream (.failed "ECONNREFUSED")).FailsLoudly id p r :=
  accounted_iff _ plainEnv emptyRequest [openAiEntry] freshWorld
    (fun entry he => ⟨.openai, by rw [List.mem_singleton.mp he]; rfl⟩)

/-- **A refusal counts as a success**: the adapter reports a 401 as an event of a stream that ends. -/
theorem refusal_recorded_as_success :
    ¬ ∀ (up : Upstream) (base : Env) (request : UnifiedAiRequest) (chain : List ChainEntry) (w : World),
      (∀ entry ∈ chain, ∃ n, Native.ofKind entry.provider.kind = some n) →
        Accounted up (streamOverChain (up.drained base) request chain w).actions := by
  intro h
  have hacc := h (steadyUpstream (.responded ⟨401, "Unauthorized", some ⟨[], .closed⟩⟩)) plainEnv
    emptyRequest [openAiEntry] freshWorld (fun entry he => ⟨.openai, by rw [List.mem_singleton.mp he]; rfl⟩)
  obtain ⟨p, r, -, -, n, body, -, ⟨wire, res, -, hfetch, hok, -⟩, -⟩ :=
    hacc.successes ⟨0, 0⟩ "openai" (by decide +kernel)
  cases hfetch
  cases hok

end Sirius
