import SiriusGateway.Gateway.Service

/-!
# `Correctness.CallBudget` — what a call may invoke

Facts about every run of `createResponse`, whatever the attempts do and whenever the client aborts: the
policy call of an entry invokes only the entry's own adapter, at most `maxRetries + 1` times, and after an
attempt that succeeds nothing is invoked any more.

## Contents
- **Actions.** Which of them are invocations, and `SuccessIsLast`.
- **The retry loop.** `CallFacts`, from one attempt (`callFacts_attempt`) to the loop
  (`callFacts_callAttempts`).
- **The gateway's loop.** `ChainFacts`, from one turn to the loop (`chainFacts_createChain`).
-/

namespace Sirius

open Js

variable {env : Env} {position : Nat} {provider : AiProvider} {request : UnifiedAiRequest}

/-! ## Actions -/

namespace Action

/-- An operation is invoked. -/
def isInvoke : Action → Bool
  | .invoke _ _ _ _ => true
  | _ => false

/-- An operation of the position is invoked. -/
def isInvokeAt (position : Nat) : Action → Bool
  | .invoke id _ _ _ => id.position == position
  | _ => false

/-- An operation of the provider is invoked. -/
def isInvokeOf (name : String) : Action → Bool
  | .invoke _ provider _ _ => provider.name == name
  | _ => false

/-- An operation is invoked and succeeds. -/
def Succeeds (env : Env) (action : Action) : Prop :=
  ∃ id provider request live response, action = .invoke id provider request live ∧
    env.call id provider request live = .returned response

theorem isInvoke_of_isInvokeAt {action : Action} {j : Nat} (h : action.isInvokeAt j = true) :
    action.isInvoke = true := by
  cases action with
  | invoke => rfl
  | _ => cases h

theorem isInvoke_of_isInvokeOf {action : Action} {name : String} (h : action.isInvokeOf name = true) :
    action.isInvoke = true := by
  cases action with
  | invoke => rfl
  | _ => cases h

end Action

/-- After an operation that succeeds none is invoked. -/
def SuccessIsLast (env : Env) (actions : List Action) : Prop :=
  actions.Pairwise fun earlier later => earlier.Succeeds env → later.isInvoke = false

/-- Two parts of a run, the second of which invokes nothing if anything in the first has succeeded. -/
theorem SuccessIsLast.append {l r : List Action} (hl : SuccessIsLast env l) (hr : SuccessIsLast env r)
    (hlr : (∃ a ∈ l, a.Succeeds env) → ∀ b ∈ r, b.isInvoke = false) : SuccessIsLast env (l ++ r) :=
  List.pairwise_append.mpr ⟨hl, hr, fun a ha b hb hsucceeds => hlr ⟨a, ha, hsucceeds⟩ b hb⟩

/-! ## The retry loop -/

/-- What holds of every run of a policy call. -/
structure CallFacts (env : Env) (position : Nat) (provider : AiProvider) (bound : Nat)
    (o : Outcome (Except String UnifiedAiResponse)) : Prop where
  own : ∀ id p r live, .invoke id p r live ∈ o.actions → id.position = position ∧ p = provider
  bounded : o.actions.countP Action.isInvoke ≤ bound
  successLast : SuccessIsLast env o.actions
  failed : ∀ message, o.result = .error message → ∀ action ∈ o.actions, ¬ action.Succeeds env

theorem callFacts_nil {bound : Nat} {w : World} {result : Except String UnifiedAiResponse} :
    CallFacts env position provider bound ⟨w, [], result⟩ where
  own := fun _ _ _ _ h => absurd h List.not_mem_nil
  bounded := Nat.zero_le _
  successLast := List.Pairwise.nil
  failed := fun _ _ _ h => absurd h List.not_mem_nil

/-- A failed attempt's invocation does not succeed. -/
theorem not_succeeds_of_failure {attempt : Nat} {w : World} {message : String}
    (h : (callOf env position provider request attempt w).failure env.policy = some message) :
    ¬ (Action.invoke ⟨position, attempt⟩ provider request (!w.aborted env)).Succeeds env := by
  rintro ⟨id, p, r, live, response, heq, hcall⟩
  cases heq
  rw [callOf, hcall] at h
  cases h

/-- An attempt by itself: one invocation, and what follows it. -/
theorem callFacts_attempt {attempt bound : Nat} {live : Bool} {rest : List Action} {w : World}
    {result : Except String UnifiedAiResponse} (hrest : ∀ a ∈ rest, a.isInvoke = false) (hbound : 1 ≤ bound)
    (hfailed : ∀ message, result = .error message →
      ¬ (Action.invoke ⟨position, attempt⟩ provider request live).Succeeds env) :
    CallFacts env position provider bound
      ⟨w, .invoke ⟨position, attempt⟩ provider request live :: rest, result⟩ := by
  refine ⟨?_, ?_, ?_, ?_⟩
  · intro id p r live' hmem
    rcases List.mem_cons.mp hmem with heq | hmem
    · cases heq
      exact ⟨rfl, rfl⟩
    · cases hrest _ hmem
  · have hnone : rest.countP Action.isInvoke = 0 :=
      List.countP_eq_zero.mpr fun a ha => by rw [hrest a ha]; exact Bool.false_ne_true
    show (Action.invoke ⟨position, attempt⟩ provider request live :: rest).countP Action.isInvoke ≤ bound
    rw [List.countP_cons_of_pos (by rfl), hnone]
    exact hbound
  · refine List.pairwise_cons.mpr ⟨fun b hb _ => hrest b hb, ?_⟩
    exact List.pairwise_of_forall_mem_list fun a _ b hb _ => hrest b hb
  · intro message hmessage action hmem
    rcases List.mem_cons.mp hmem with rfl | hmem
    · exact hfailed message hmessage
    · rintro ⟨id, p, r, live', response, rfl, -⟩
      cases hrest _ hmem

/-- A failed attempt, and what the retry loop does after it. -/
theorem CallFacts.after {bound : Nat} {w : World} {before : List Action} {message : String}
    {o : Outcome (Except String UnifiedAiResponse)}
    (hbefore : CallFacts env position provider 1 ⟨w, before, .error message⟩)
    (h : CallFacts env position provider bound o) :
    CallFacts env position provider (bound + 1) (o.after before) := by
  refine ⟨?_, ?_, ?_, ?_⟩
  · intro id p r live hmem
    rcases List.mem_append.mp hmem with hmem | hmem
    · exact hbefore.own id p r live hmem
    · exact h.own id p r live hmem
  · have hone : before.countP Action.isInvoke ≤ 1 := hbefore.bounded
    have hrest := h.bounded
    show (before ++ o.actions).countP Action.isInvoke ≤ bound + 1
    rw [List.countP_append]
    omega
  · refine hbefore.successLast.append h.successLast ?_
    rintro ⟨action, hmem, hsucceeds⟩
    exact absurd hsucceeds (hbefore.failed message rfl action hmem)
  · intro message' hresult action hmem
    rcases List.mem_append.mp hmem with hmem | hmem
    · exact hbefore.failed message rfl action hmem
    · exact h.failed message' hresult action hmem

/-- **Every retry loop** invokes its own provider, at most once for each attempt it has, and nothing after a
    success. -/
theorem callFacts_callAttempts (remaining attempt : Nat) (w : World) :
    CallFacts env position provider (remaining + 1)
      (callAttempts env position provider request remaining attempt w) := by
  refine callAttempts_rule (P := fun remaining _ _ o => CallFacts env position provider (remaining + 1) o)
    env position provider request ?_ remaining attempt w
  intro remaining attempt w o hturn hretry
  cases hturn with
  | returned hcall =>
      exact callFacts_attempt (by simp [Action.isInvoke]) (by omega) fun message hmessage => by cases hmessage
  | gone hcall hgone =>
      exact callFacts_attempt (by simp [Action.isInvoke]) (by omega) fun _ _ => not_succeeds_of_failure hcall
  | failed hcall hhere hlast =>
      exact callFacts_attempt (by simp [Action.isInvoke]) (by omega) fun _ _ => not_succeeds_of_failure hcall
  | @retried message more hcall hhere hmore =>
      have hattempt : CallFacts env position provider 1
          ⟨w, [.invoke ⟨position, attempt⟩ provider request (!w.aborted env), .cancel ⟨position, attempt⟩,
            .recordFailure ⟨position, attempt⟩ provider.name], .error message⟩ :=
        callFacts_attempt (by simp [Action.isInvoke]) (Nat.le_refl 1)
          fun _ _ => not_succeeds_of_failure hcall
      subst hmore
      exact hattempt.after (hretry more _ rfl)

theorem callFacts_executeWithPolicy (w : World) :
    CallFacts env position provider (env.policy.maxRetries + 1)
      (executeWithPolicy env position provider request w) := by
  rcases executeWithPolicy_cases env position provider request w with
    ⟨w', message, heq, -⟩ | ⟨circuitState, -, heq⟩
  · rw [heq]
    exact callFacts_nil
  · rw [heq]
    exact callFacts_callAttempts _ _ _

/-! ## The gateway's loop -/

/-- What holds of every run of the gateway's loop. -/
structure ChainFacts (env : Env) (position : Nat) (chain : List ChainEntry) (actions : List Action) :
    Prop where
  fromPosition : ∀ id p r live, .invoke id p r live ∈ actions → position ≤ id.position
  boundedAt : ∀ j, actions.countP (Action.isInvokeAt j) ≤ env.policy.maxRetries + 1
  boundedOf : ∀ name, actions.countP (Action.isInvokeOf name) ≤
    chain.countP (fun entry => entry.provider.name == name) * (env.policy.maxRetries + 1)
  successLast : SuccessIsLast env actions

/-- The turn of an entry invokes the entry's provider only, and each of its attempts at most once. -/
theorem CallFacts.chainFacts {bound : Nat} {o : Outcome (Except String UnifiedAiResponse)}
    {entry : ChainEntry} (rest : List ChainEntry) (h : CallFacts env position entry.provider bound o)
    (hbound : bound = env.policy.maxRetries + 1) : ChainFacts env position (entry :: rest) o.actions := by
  subst hbound
  refine ⟨fun id p r live hmem => (h.own id p r live hmem).1.ge, fun j => ?_, fun name => ?_, h.successLast⟩
  · exact (List.countP_mono_left fun a _ ha => Action.isInvoke_of_isInvokeAt ha).trans h.bounded
  · by_cases hname : entry.provider.name = name
    · have hle : o.actions.countP (Action.isInvokeOf name) ≤ env.policy.maxRetries + 1 :=
        (List.countP_mono_left fun a _ ha => Action.isInvoke_of_isInvokeOf ha).trans h.bounded
      rw [List.countP_cons_of_pos (by simpa using hname), Nat.succ_mul]
      omega
    · have hzero : o.actions.countP (Action.isInvokeOf name) = 0 := by
        rw [List.countP_eq_zero]
        intro a hmem ha
        cases a with
        | invoke id p r live =>
            obtain ⟨-, rfl⟩ := h.own id p r live hmem
            exact hname (by simpa [Action.isInvokeOf] using ha)
        | _ => cases ha
      omega

/-- Nothing counts for a position at which nothing is invoked. -/
theorem countP_isInvokeAt_eq_zero {actions : List Action} {j : Nat}
    (h : ∀ id p r live, .invoke id p r live ∈ actions → id.position ≠ j) :
    actions.countP (Action.isInvokeAt j) = 0 := by
  rw [List.countP_eq_zero]
  intro a hmem ha
  cases a with
  | invoke id p r live => exact h id p r live hmem (by simpa [Action.isInvokeAt] using ha)
  | _ => cases ha

/-- What is done for one entry, and then for the rest of the chain. -/
theorem ChainFacts.after {bound : Nat} {tried : Outcome (Except String UnifiedAiResponse)}
    {entry : ChainEntry} {rest : List ChainEntry} {later : List Action} {message : String}
    (h : CallFacts env position entry.provider bound tried) (hbound : bound = env.policy.maxRetries + 1)
    (herror : tried.result = .error message) (hrest : ChainFacts env (position + 1) rest later) :
    ChainFacts env position (entry :: rest) (tried.actions ++ later) := by
  have hfirst := h.chainFacts rest hbound
  refine ⟨?_, fun j => ?_, fun name => ?_, ?_⟩
  · intro id p r live hmem
    rcases List.mem_append.mp hmem with hmem | hmem
    · exact hfirst.fromPosition id p r live hmem
    · exact (Nat.le_succ position).trans (hrest.fromPosition id p r live hmem)
  · -- the turn of this entry invokes at its own position only, the rest at later ones
    rw [List.countP_append]
    by_cases hj : j = position
    · subst hj
      have hnone : later.countP (Action.isInvokeAt j) = 0 := by
        apply countP_isInvokeAt_eq_zero
        intro id p r live hmem
        have hlater := hrest.fromPosition id p r live hmem
        omega
      rw [hnone]
      exact hfirst.boundedAt j
    · have hnone : tried.actions.countP (Action.isInvokeAt j) = 0 := by
        apply countP_isInvokeAt_eq_zero
        intro id p r live hmem hhere
        exact hj (hhere.symm.trans (h.own id p r live hmem).1)
      rw [hnone, Nat.zero_add]
      exact hrest.boundedAt j
  · have hturn := (h.chainFacts [] hbound).boundedOf name
    have hlater := hrest.boundedOf name
    have hcount : (entry :: rest).countP (fun e => e.provider.name == name) =
        [entry].countP (fun e => e.provider.name == name) +
          rest.countP (fun e => e.provider.name == name) := by
      rw [← List.countP_append]
      rfl
    rw [List.countP_append, hcount, Nat.add_mul]
    omega
  · refine h.successLast.append hrest.successLast ?_
    rintro ⟨action, hmem, hsucceeds⟩
    exact absurd hsucceeds (h.failed message herror action hmem)

/-- **Every run of the gateway's loop** invokes the operations of each entry at most `maxRetries + 1` times,
    and none after a success. -/
theorem chainFacts_createChain (request : UnifiedAiRequest) (strategy : String) :
    ∀ chain position lastError w, ChainFacts env position chain
      (createChain env request strategy position chain lastError w).actions := by
  refine createChain_rule (P := fun position chain _ o => ChainFacts env position chain o.actions) ?_ ?_
  · intro position lastError w
    exact ⟨fun _ _ _ _ h => absurd h List.not_mem_nil, fun _ => Nat.zero_le _, fun _ => Nat.zero_le _,
      List.Pairwise.nil⟩
  · intro position entry rest w o hturn hrest
    have htried : CallFacts env position entry.provider (env.policy.maxRetries + 1)
        (executeWithPolicy env position entry.provider (enrichedRequest request entry) w) :=
      callFacts_executeWithPolicy w
    have hfacts := htried.chainFacts rest rfl
    cases hturn with
    | served hok hresponse hprovider =>
        -- the record of the latency invokes nothing
        refine ⟨?_, fun j => ?_, fun name => ?_, ?_⟩
        · intro id p r live hmem
          rcases List.mem_append.mp hmem with hmem | hmem
          · exact hfacts.fromPosition id p r live hmem
          · simp at hmem
        · rw [List.countP_append]
          exact hfacts.boundedAt j
        · rw [List.countP_append]
          exact hfacts.boundedOf name
        · refine hfacts.successLast.append (List.pairwise_singleton _ _) fun _ b hb => ?_
          rw [List.mem_singleton.mp hb]
          rfl
    | gone herror hgone => exact hfacts
    | replaced herror hhere => exact ChainFacts.after htried rfl herror (hrest _ _)

end Sirius
