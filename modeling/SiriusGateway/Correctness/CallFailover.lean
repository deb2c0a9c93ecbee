import SiriusGateway.Correctness.CallBudget

/-!
# `Correctness.CallFailover` — `createResponse` meets its reference

The reference says which adapter serves a request from the script of the attempts alone: the first position
of the chain whose breaker lets the call in and one of whose first `maxRetries + 1` attempts answers
(`Qualifies`, `Winner`). The breakers and the clock it is evaluated at are those the failed positions before
it leave behind (`worldAt`). The loops of the gateway and of the policy meet it
(`createOverChain_reference`).

## Contents
- **The reference.** `answer`, `worldAt`, `Qualifies`, `Winner`.
- **One policy call.** The first answer is returned (`executeWithPolicy_answers`), and without one the call
  fails into the next world (`executeWithPolicy_passes`).
- **The chain.** The two loops together.
- **The client's abort.** Where an attempt of the run begins (`AttemptAt`), and what follows when it fails
  after an abort.
-/

namespace Sirius

open Js

/-! ## The reference -/

section Reference

variable (env : Env) (request : UnifiedAiRequest)

/-- What an attempt answers while its signal is unfired, if it succeeds. -/
def answer (position : Nat) (provider : AiProvider) (request : UnifiedAiRequest) (attempt : Nat) :
    Option UnifiedAiResponse :=
  match env.call ⟨position, attempt⟩ provider request true with
  | .returned response => some response
  | _ => none

/-- The state after an attempt and its retries have all failed: each takes an await, is recorded, and is
    followed by the back-off. -/
def afterFailures (provider : String) : Nat → World → World
  | 0, w => w.next.recordFailure env provider
  | retries + 1, w => afterFailures provider retries (w.next.recordFailure env provider).next

/-- The state after a position has failed: nothing has changed when its breaker turned the call away. -/
def passedBy (provider : String) (w : World) : World :=
  match CircuitMap.checkCircuitBreaker env.policy (w.now env) w.circuitState provider with
  | .error _ => w
  | .ok m => afterFailures env provider env.policy.maxRetries { w with circuitState := m }

/-- The state in which a position is entered when all before it have failed. -/
def worldAt (chain : List ChainEntry) (w : World) (i : Nat) : World :=
  (chain.take i).foldl (fun w entry => passedBy env entry.provider.name w) w

/-- The position, entered in `w`, serves the request: its breaker lets the call in, and one of its first
    `maxRetries + 1` attempts succeeds. -/
def ServesAt (position : Nat) (entry : ChainEntry) (w : World) : Prop :=
  Admits env w entry.provider ∧ ∃ a ≤ env.policy.maxRetries, ∃ response,
    answer env position entry.provider (enrichedRequest request entry) a = some response

/-- The entry `i` of a chain that starts at `position` would serve the request. -/
def QualifiesFrom (position : Nat) (chain : List ChainEntry) (w : World) (i : Nat) : Prop :=
  ∃ entry, chain[i]? = some entry ∧ ServesAt env request (position + i) entry (worldAt env chain w i)

/-- The entry `i` of a chain that starts at `position` is the first that would serve the request, with the
    answer of its first successful attempt. -/
structure WinnerFrom (position : Nat) (chain : List ChainEntry) (w : World) (i a : Nat)
    (entry : ChainEntry) (response : UnifiedAiResponse) : Prop where
  entry_eq : chain[i]? = some entry
  admits : Admits env (worldAt env chain w i) entry.provider
  le_maxRetries : a ≤ env.policy.maxRetries
  answer_eq : answer env (position + i) entry.provider (enrichedRequest request entry) a = some response
  first_attempt : ∀ b < a,
    answer env (position + i) entry.provider (enrichedRequest request entry) b = none
  first_entry : ∀ j < i, ¬ QualifiesFrom env request position chain w j

/-- The entry `i` of the chain would serve the request. -/
abbrev Qualifies := QualifiesFrom env request 0

/-- The entry `i` of the chain is the first that would serve the request. -/
abbrev Winner := WinnerFrom env request 0

end Reference

variable {env : Env} {position : Nat} {provider : AiProvider} {request : UnifiedAiRequest}

theorem worldAt_zero (chain : List ChainEntry) (w : World) : worldAt env chain w 0 = w := by
  simp [worldAt]

theorem worldAt_succ (entry : ChainEntry) (rest : List ChainEntry) (w : World) (i : Nat) :
    worldAt env (entry :: rest) w (i + 1) = worldAt env rest (passedBy env entry.provider.name w) i := by
  simp [worldAt]

theorem qualifiesFrom_zero_iff {entry : ChainEntry} {rest : List ChainEntry} {w : World} :
    QualifiesFrom env request position (entry :: rest) w 0 ↔ ServesAt env request position entry w := by
  constructor
  · rintro ⟨entry', hentry, hserves⟩
    obtain rfl : entry = entry' := Option.some.inj hentry
    rwa [worldAt_zero] at hserves
  · intro hserves
    exact ⟨entry, rfl, by rwa [worldAt_zero]⟩

theorem qualifiesFrom_succ_iff {entry : ChainEntry} {rest : List ChainEntry} {w : World} {i : Nat} :
    QualifiesFrom env request position (entry :: rest) w (i + 1) ↔
      QualifiesFrom env request (position + 1) rest (passedBy env entry.provider.name w) i := by
  unfold QualifiesFrom
  rw [worldAt_succ, List.getElem?_cons_succ, show position + (i + 1) = position + 1 + i by omega]

/-- Where some entry would serve the request, there is a first one. -/
theorem exists_winnerFrom {chain : List ChainEntry} {w : World}
    (h : ∃ i, QualifiesFrom env request position chain w i) :
    ∃ i a entry response, WinnerFrom env request position chain w i a entry response := by
  classical
  obtain ⟨entry, hentry, hadmits, hanswers⟩ := Nat.find_spec h
  have hattempt : ∃ a, ∃ response, a ≤ env.policy.maxRetries ∧
      answer env (position + Nat.find h) entry.provider (enrichedRequest request entry) a =
        some response := by
    obtain ⟨a, hle, response, hanswer⟩ := hanswers
    exact ⟨a, response, hle, hanswer⟩
  obtain ⟨response, hle, hanswer⟩ := Nat.find_spec hattempt
  refine ⟨Nat.find h, Nat.find hattempt, entry, response, hentry, hadmits, hle, hanswer, ?_, ?_⟩
  · intro b hb
    by_contra hsome
    obtain ⟨r, hr⟩ := Option.ne_none_iff_exists'.mp hsome
    exact Nat.find_min hattempt hb ⟨r, hb.le.trans hle, hr⟩
  · intro j hj
    exact Nat.find_min h hj

/-! ## One policy call -/

section Present

variable (hpresent : env.abortedAt = none)
include hpresent

theorem not_aborted_of_present (w : World) : w.aborted env = false := by
  simp [World.aborted, hpresent]

/-- Without an abort every attempt gets a live signal. -/
theorem callOf_of_present (attempt : Nat) (w : World) :
    callOf env position provider request attempt w =
      env.call ⟨position, attempt⟩ provider request true := by
  rw [callOf, not_aborted_of_present hpresent w]
  rfl

/-- An attempt that fails gives no answer. -/
theorem answer_of_failure {attempt : Nat} {w : World} {message : String}
    (h : (callOf env position provider request attempt w).failure env.policy = some message) :
    answer env position provider request attempt = none := by
  rw [callOf_of_present hpresent] at h
  unfold answer
  cases hcall : env.call ⟨position, attempt⟩ provider request true with
  | returned response =>
      rw [hcall] at h
      cases h
  | threw message => rfl
  | timedOut => rfl

theorem answer_of_returned {attempt : Nat} {w : World} {response : UnifiedAiResponse}
    (h : callOf env position provider request attempt w = .returned response) :
    answer env position provider request attempt = some response := by
  rw [callOf_of_present hpresent] at h
  rw [answer, h]

/-- **The retry loop returns the first answer** among the attempts it has left. -/
theorem callAttempts_answers (a : Nat) (response : UnifiedAiResponse)
    (hanswer : answer env position provider request a = some response) :
    ∀ remaining attempt w, attempt ≤ a → a ≤ attempt + remaining →
      (∀ b, attempt ≤ b → b < a → answer env position provider request b = none) →
      (callAttempts env position provider request remaining attempt w).result = .ok response ∧
        (callAttempts env position provider request remaining attempt w).world.latencyTracker =
          w.latencyTracker := by
  refine callAttempts_rule (P := fun remaining attempt w o => attempt ≤ a → a ≤ attempt + remaining →
    (∀ b, attempt ≤ b → b < a → answer env position provider request b = none) →
      o.result = .ok response ∧ o.world.latencyTracker = w.latencyTracker) env position provider request ?_
  intro remaining attempt w o hturn hretry hfrom hto hnone
  -- an attempt that fails is not the one that answers
  have hlater : answer env position provider request attempt = none → attempt + 1 ≤ a := by
    intro hfailed
    rcases Nat.lt_or_eq_of_le hfrom with hlt | heq
    · exact hlt
    · subst heq
      rw [hanswer] at hfailed
      cases hfailed
  cases hturn with
  | returned hcall =>
      have hhere := answer_of_returned hpresent hcall
      have heq : attempt = a := by
        rcases Nat.lt_or_eq_of_le hfrom with hlt | heq
        · rw [hnone attempt (Nat.le_refl _) hlt] at hhere
          cases hhere
        · exact heq
      subst heq
      rw [hanswer] at hhere
      cases hhere
      exact ⟨rfl, rfl⟩
  | gone hcall hgone =>
      rw [not_aborted_of_present hpresent] at hgone
      cases hgone
  | failed hcall hhere hlast =>
      have hbeyond := hlater (answer_of_failure hpresent hcall)
      omega
  | @retried message more hcall hhere hmore =>
      have hbeyond := hlater (answer_of_failure hpresent hcall)
      obtain ⟨hresult, htracker⟩ := hretry more (w.next.recordFailure env provider.name).next hmore hbeyond
        (by omega) (fun b hb => hnone b (by omega))
      exact ⟨hresult, htracker⟩

/-- **Without an answer the retry loop fails**, after all its attempts. -/
theorem callAttempts_exhausted :
    ∀ remaining attempt w,
      (∀ b, attempt ≤ b → b ≤ attempt + remaining → answer env position provider request b = none) →
      (∃ message, (callAttempts env position provider request remaining attempt w).result =
        .error message) ∧
      (callAttempts env position provider request remaining attempt w).world =
        afterFailures env provider.name remaining w := by
  refine callAttempts_rule (P := fun remaining attempt w o =>
    (∀ b, attempt ≤ b → b ≤ attempt + remaining → answer env position provider request b = none) →
      (∃ message, o.result = .error message) ∧ o.world = afterFailures env provider.name remaining w)
    env position provider request ?_
  intro remaining attempt w o hturn hretry hnone
  cases hturn with
  | returned hcall =>
      have hhere := answer_of_returned hpresent hcall
      rw [hnone attempt (Nat.le_refl _) (Nat.le_add_right ..)] at hhere
      cases hhere
  | gone hcall hgone =>
      rw [not_aborted_of_present hpresent] at hgone
      cases hgone
  | failed hcall hhere hlast =>
      subst hlast
      exact ⟨⟨_, rfl⟩, rfl⟩
  | @retried message more hcall hhere hmore =>
      subst hmore
      exact hretry more _ rfl fun b hb hb' => hnone b (by omega) (by omega)

/-- A call the breaker lets in is its retry loop. -/
theorem executeWithPolicy_of_check {w : World} {m : CircuitMap}
    (h : CircuitMap.checkCircuitBreaker env.policy (w.now env) w.circuitState provider.name = .ok m) :
    executeWithPolicy env position provider request w =
      callAttempts env position provider request env.policy.maxRetries 0 { w with circuitState := m } := by
  unfold executeWithPolicy
  rw [h]
  simp only
  rw [not_aborted_of_present hpresent, if_neg Bool.false_ne_true]

/-- **The policy returns the first answer** among the first `maxRetries + 1` attempts. -/
theorem executeWithPolicy_answers {w : World} (hadmits : Admits env w provider) {a : Nat}
    (hle : a ≤ env.policy.maxRetries) {response : UnifiedAiResponse}
    (hanswer : answer env position provider request a = some response)
    (hfirst : ∀ b < a, answer env position provider request b = none) :
    (executeWithPolicy env position provider request w).result = .ok response ∧
      (executeWithPolicy env position provider request w).world.latencyTracker = w.latencyTracker := by
  obtain ⟨m, hcheck⟩ := hadmits
  rw [executeWithPolicy_of_check hpresent hcheck]
  have := @callAttempts_answers env position provider request hpresent a response hanswer
    env.policy.maxRetries 0 { w with circuitState := m } (Nat.zero_le a) (by omega)
    (fun b _ hb => hfirst b hb)
  exact this

/-- **A position that does not serve the request fails** into the next world of the reference. -/
theorem executeWithPolicy_passes {entry : ChainEntry} {w : World}
    (h : ¬ ServesAt env request position entry w) :
    (∃ message, (executeWithPolicy env position entry.provider (enrichedRequest request entry) w).result =
      .error message) ∧
    (executeWithPolicy env position entry.provider (enrichedRequest request entry) w).world =
      passedBy env entry.provider.name w := by
  cases hcheck : CircuitMap.checkCircuitBreaker env.policy (w.now env) w.circuitState
      entry.provider.name with
  | error e =>
      unfold executeWithPolicy passedBy
      rw [hcheck]
      exact ⟨⟨_, rfl⟩, rfl⟩
  | ok m =>
      rw [executeWithPolicy_of_check hpresent hcheck]
      unfold passedBy
      rw [hcheck]
      have hnone : ∀ b, 0 ≤ b → b ≤ 0 + env.policy.maxRetries →
          answer env position entry.provider (enrichedRequest request entry) b = none := by
        intro b _ hb
        by_contra hsome
        obtain ⟨response, hresponse⟩ := Option.ne_none_iff_exists'.mp hsome
        exact h ⟨⟨m, hcheck⟩, b, by omega, response, hresponse⟩
      exact @callAttempts_exhausted env position entry.provider (enrichedRequest request entry) hpresent
        env.policy.maxRetries 0 { w with circuitState := m } hnone

end Present

theorem latencyTracker_afterFailures (p : String) :
    ∀ retries w, (afterFailures env p retries w).latencyTracker = w.latencyTracker := by
  intro retries
  induction retries with
  | zero => exact fun w => rfl
  | succ n ih => exact fun w => ih (w.next.recordFailure env p).next

theorem latencyTracker_passedBy (p : String) (w : World) :
    (passedBy env p w).latencyTracker = w.latencyTracker := by
  unfold passedBy
  split
  · rfl
  · exact latencyTracker_afterFailures p _ _

/-! ## The chain -/

/-- The response the gateway returns when the entry at the position has answered. -/
def servedBy (strategy : String) (position : Nat) (entry : ChainEntry) (response : UnifiedAiResponse) :
    GatewayResponse where
  response := response
  gatewayMeta :=
    { provider := entry.provider.name
      model := entry.modelId
      strategy := strategy
      tokensUsed := response.usage.totalTokens
      providerLatencyMs := response.latencyMs
      fallbackUsed := position > 0 }

/-- The turn of an entry that fails without an abort leads to the rest of the chain. -/
theorem createChain_of_error {strategy : String} {entry : ChainEntry} {rest : List ChainEntry}
    {lastError : Option String} {w : World} {message : String}
    (herror : (executeWithPolicy env position entry.provider (enrichedRequest request entry) w).result =
      .error message)
    (hhere : (executeWithPolicy env position entry.provider (enrichedRequest request entry) w).world.aborted
      env = false) :
    createChain env request strategy position (entry :: rest) lastError w =
      (createChain env request strategy (position + 1) rest (some message)
        (executeWithPolicy env position entry.provider (enrichedRequest request entry) w).world).after
        (executeWithPolicy env position entry.provider (enrichedRequest request entry) w).actions := by
  simp only [createChain]
  rw [herror]
  simp only
  rw [hhere, if_neg Bool.false_ne_true]

/-- The turn of an entry that answers ends the loop. -/
theorem createChain_of_ok {strategy : String} {entry : ChainEntry} {rest : List ChainEntry}
    {lastError : Option String} {w : World} {response : UnifiedAiResponse}
    (hok : (executeWithPolicy env position entry.provider (enrichedRequest request entry) w).result =
      .ok response) :
    (createChain env request strategy position (entry :: rest) lastError w).result =
        .ok (servedBy strategy position entry response) ∧
      (createChain env request strategy position (entry :: rest) lastError w).world.latencyTracker =
        (executeWithPolicy env position entry.provider (enrichedRequest request
          entry) w).world.latencyTracker.record entry.provider.name response.latencyMs ∧
      (createChain env request strategy position (entry :: rest) lastError w).actions =
        (executeWithPolicy env position entry.provider (enrichedRequest request entry) w).actions ++
          [.recordLatency position entry.provider.name] := by
  simp only [createChain]
  rw [hok]
  exact ⟨rfl, rfl, rfl⟩

/-- A winner behind the first entry is the winner of the rest, met in the world that passing the entry
    leaves. -/
theorem WinnerFrom.tail {entry winner : ChainEntry} {rest : List ChainEntry} {i a : Nat}
    {response : UnifiedAiResponse}
    (h : WinnerFrom env request position (entry :: rest) w (i + 1) a winner response) :
    WinnerFrom env request (position + 1) rest (passedBy env entry.provider.name w) i a winner response := by
  have hshift : position + (i + 1) = position + 1 + i := by omega
  refine ⟨h.entry_eq, ?_, h.le_maxRetries, ?_, ?_, ?_⟩
  · rw [← worldAt_succ]
    exact h.admits
  · rw [← hshift]
    exact h.answer_eq
  · rw [← hshift]
    exact h.first_attempt
  · intro j hj hqualifies
    exact h.first_entry (j + 1) (Nat.succ_lt_succ hj) (qualifiesFrom_succ_iff.mpr hqualifies)

section Present

variable (hpresent : env.abortedAt = none)
include hpresent

/-- **The loop ends at the winner** with its answer: its latency is recorded, and no later position is
    invoked. -/
theorem createChain_of_winner {strategy : String} {a : Nat} {winner : ChainEntry}
    {response : UnifiedAiResponse} (chain : List ChainEntry) :
    ∀ position lastError w i, WinnerFrom env request position chain w i a winner response →
      (createChain env request strategy position chain lastError w).result =
        .ok (servedBy strategy (position + i) winner response) ∧
      (createChain env request strategy position chain lastError w).world.latencyTracker =
        w.latencyTracker.record winner.provider.name response.latencyMs ∧
      ∀ id p r live, .invoke id p r live ∈
        (createChain env request strategy position chain lastError w).actions →
        id.position ≤ position + i := by
  induction chain with
  | nil =>
      intro position lastError w i hwinner
      cases hwinner.entry_eq
  | cons entry rest ih =>
      intro position lastError w i hwinner
      have hown := (@callFacts_executeWithPolicy env position entry.provider (enrichedRequest request entry)
        w).own
      cases i with
      | zero =>
          obtain rfl : entry = winner := Option.some.inj hwinner.entry_eq
          have hadmits := hwinner.admits
          rw [worldAt_zero] at hadmits
          obtain ⟨hresult, htracker⟩ := executeWithPolicy_answers hpresent hadmits hwinner.le_maxRetries
            hwinner.answer_eq hwinner.first_attempt
          obtain ⟨hok, hlatency, hactions⟩ := @createChain_of_ok env position request strategy entry rest
            lastError w response hresult
          refine ⟨hok, by rw [hlatency, ← htracker]; rfl, ?_⟩
          intro id p r live hmem
          rw [hactions] at hmem
          rcases List.mem_append.mp hmem with hmem | hmem
          · exact (hown id p r live hmem).1.le
          · simp at hmem
      | succ i =>
          -- the winner is further down, so this entry does not serve
          have hpassed : ¬ ServesAt env request position entry w := fun hserves =>
            hwinner.first_entry 0 (Nat.zero_lt_succ i) (qualifiesFrom_zero_iff.mpr hserves)
          obtain ⟨⟨message, herror⟩, hworld⟩ := executeWithPolicy_passes hpresent hpassed
          have hshift : position + (i + 1) = position + 1 + i := by omega
          rw [createChain_of_error herror (not_aborted_of_present hpresent _), hworld, hshift]
          obtain ⟨hresult, hlatency, hlater⟩ := ih (position + 1) (some message) _ i hwinner.tail
          refine ⟨hresult, by rw [← latencyTracker_passedBy entry.provider.name w]; exact hlatency, ?_⟩
          intro id p r live hmem
          rcases List.mem_append.mp hmem with hmem | hmem
          · have := (hown id p r live hmem).1
            omega
          · exact hlater id p r live hmem

/-- **Without a winner the loop throws**, and no latency is recorded. -/
theorem createChain_exhausted {strategy : String} (chain : List ChainEntry) :
    ∀ position lastError w, (∀ i, ¬ QualifiesFrom env request position chain w i) →
      (∃ message, (createChain env request strategy position chain lastError w).result = .error message) ∧
      (createChain env request strategy position chain lastError w).world.latencyTracker =
        w.latencyTracker := by
  induction chain with
  | nil => exact fun position lastError w _ => ⟨⟨_, rfl⟩, rfl⟩
  | cons entry rest ih =>
      intro position lastError w hnone
      have hpassed : ¬ ServesAt env request position entry w := fun hserves =>
        hnone 0 (qualifiesFrom_zero_iff.mpr hserves)
      obtain ⟨⟨message, herror⟩, hworld⟩ := executeWithPolicy_passes hpresent hpassed
      rw [createChain_of_error herror (not_aborted_of_present hpresent _), hworld]
      obtain ⟨hresult, hlatency⟩ := ih (position + 1) (some message) (passedBy env entry.provider.name w)
        fun i hqualifies => hnone (i + 1) (qualifiesFrom_succ_iff.mpr hqualifies)
      exact ⟨hresult, hlatency.trans (latencyTracker_passedBy _ w)⟩

end Present

/-! ## The client's abort -/

/-- The chain from the position of an entry on begins with the entry. -/
theorem drop_of_getElem? {chain : List ChainEntry} {i : Nat} {entry : ChainEntry}
    (h : chain[i]? = some entry) : chain.drop i = entry :: chain.drop (i + 1) := by
  obtain ⟨hlt, hget⟩ := List.getElem?_eq_some_iff.mp h
  rw [List.drop_eq_getElem_cons hlt, hget]

section Abort

variable (env) (request) (chain : List ChainEntry) (w : World)

/-- In the run over the chain from `w`, the position is entered in this state. -/
inductive TurnAt : Nat → World → Prop
  | first : TurnAt 0 w
  | next {i : Nat} {entry : ChainEntry} {w' : World} {message : String} (before : TurnAt i w')
      (hentry : chain[i]? = some entry)
      (herror : (executeWithPolicy env i entry.provider (enrichedRequest request entry) w').result =
        .error message)
      (hhere : (executeWithPolicy env i entry.provider (enrichedRequest request entry) w').world.aborted
        env = false) :
      TurnAt (i + 1) (executeWithPolicy env i entry.provider (enrichedRequest request entry) w').world

/-- In the run over the chain from `w`, the attempt of the entry at the position begins in this state. -/
inductive AttemptAt : Nat → Nat → ChainEntry → World → Prop
  | entered {i : Nat} {entry : ChainEntry} {w' : World} {m : CircuitMap}
      (hturn : TurnAt env request chain w i w') (hentry : chain[i]? = some entry)
      (hcheck : CircuitMap.checkCircuitBreaker env.policy (w'.now env) w'.circuitState
        entry.provider.name = .ok m)
      (hhere : w'.aborted env = false) : AttemptAt i 0 entry { w' with circuitState := m }
  | retried {i a : Nat} {entry : ChainEntry} {w' : World} {message : String} (before : AttemptAt i a entry w')
      (hfailed : (callOf env i entry.provider (enrichedRequest request entry) a w').failure env.policy =
        some message)
      (hhere : w'.next.aborted env = false) (hmore : a < env.policy.maxRetries) :
      AttemptAt i (a + 1) entry (w'.next.recordFailure env entry.provider.name).next

end Abort

variable {chain : List ChainEntry} {w : World}

/-- What runs from the turn of a position on is the loop over the rest of the chain; before it only earlier
    positions are invoked. -/
theorem createChain_from_turn {strategy : String} {i : Nat} {w' : World}
    (h : TurnAt env request chain w i w') :
    ∃ before lastError,
      createOverChain env request strategy chain w =
        (createChain env request strategy i (chain.drop i) lastError w').after before ∧
      ∀ id p r live, .invoke id p r live ∈ before → id.position < i := by
  induction h with
  | first => exact ⟨[], none, rfl, fun _ _ _ _ h => absurd h List.not_mem_nil⟩
  | @next i entry w' message _ hentry herror hhere ih =>
      obtain ⟨before, lastError, hrun, hearlier⟩ := ih
      rw [drop_of_getElem? hentry, createChain_of_error herror hhere] at hrun
      refine ⟨before ++ (executeWithPolicy env i entry.provider (enrichedRequest request entry) w').actions,
        some message, ?_, ?_⟩
      · rw [hrun]
        simp [Outcome.after]
      · intro id p r live hmem
        rcases List.mem_append.mp hmem with hmem | hmem
        · exact (hearlier id p r live hmem).trans (Nat.lt_succ_self i)
        · rw [((callFacts_executeWithPolicy w').own id p r live hmem).1]
          exact Nat.lt_succ_self i

section Failed

variable {provider : AiProvider} {a : Nat} {w' : World} {message : String}

/-- A failed attempt that the signal has not overtaken is followed by the next one. -/
theorem callAttempts_of_retried (more : Nat)
    (hfailed : (callOf env position provider request a w').failure env.policy = some message)
    (hhere : w'.next.aborted env = false) :
    ∃ done, callAttempts env position provider request (more + 1) a w' =
      (callAttempts env position provider request more (a + 1)
        (w'.next.recordFailure env provider.name).next).after done := by
  generalize ho : callAttempts env position provider request (more + 1) a w' = o
  have hturn := callAttempts_turn env position provider request (more + 1) a w'
  rw [ho] at hturn
  cases hturn with
  | returned hcall =>
      rw [hcall] at hfailed
      cases hfailed
  | gone hcall hgone =>
      rw [hhere] at hgone
      cases hgone
  | failed hcall hhere' hlast => cases hlast
  | @retried _ more' hcall hhere' heq =>
      obtain rfl : more = more' := Nat.succ.inj heq
      exact ⟨_, rfl⟩

/-- A failed attempt that the signal has overtaken ends the loop. -/
theorem callAttempts_of_gone (remaining : Nat)
    (hfailed : (callOf env position provider request a w').failure env.policy = some message)
    (hgone : w'.next.aborted env = true) :
    ∃ error, (callAttempts env position provider request remaining a w').result = .error error ∧
      (callAttempts env position provider request remaining a w').world.aborted env = true := by
  generalize ho : callAttempts env position provider request remaining a w' = o
  have hturn := callAttempts_turn env position provider request remaining a w'
  rw [ho] at hturn
  cases hturn with
  | returned hcall =>
      rw [hcall] at hfailed
      cases hfailed
  | gone hcall hgone' => exact ⟨_, rfl, hgone'⟩
  | failed hcall hhere hlast =>
      rw [hgone] at hhere
      cases hhere
  | retried hcall hhere hmore =>
      rw [hgone] at hhere
      cases hhere

end Failed

/-- What runs from the start of an attempt on is the retry loop. -/
theorem executeWithPolicy_from_attempt {i a : Nat} {entry : ChainEntry} {w' : World}
    (h : AttemptAt env request chain w i a entry w') :
    ∃ wi before, TurnAt env request chain w i wi ∧ chain[i]? = some entry ∧ a ≤ env.policy.maxRetries ∧
      executeWithPolicy env i entry.provider (enrichedRequest request entry) wi =
        (callAttempts env i entry.provider (enrichedRequest request entry) (env.policy.maxRetries - a) a
          w').after before := by
  induction h with
  | @entered entry wi m hturn hentry hcheck hhere =>
      refine ⟨wi, [], hturn, hentry, Nat.zero_le _, ?_⟩
      have hhere' : World.aborted env { wi with circuitState := m } = false := hhere
      unfold executeWithPolicy
      rw [hcheck]
      simp only
      rw [hhere', if_neg Bool.false_ne_true]
      rfl
  | @retried a entry w' message _ hfailed hhere hmore ih =>
      -- one turn of the loop leads from the failed attempt to this one
      obtain ⟨wi, before, hturn, hentry, -, hrun⟩ := ih
      obtain ⟨more, hmore'⟩ : ∃ more, env.policy.maxRetries - a = more + 1 :=
        ⟨env.policy.maxRetries - a - 1, by omega⟩
      obtain ⟨done, hdone⟩ := callAttempts_of_retried more hfailed hhere
      refine ⟨wi, before ++ done, hturn, hentry, hmore, ?_⟩
      rw [hrun, hmore', hdone, show env.policy.maxRetries - (a + 1) = more by omega]
      simp [Outcome.after]

/-- **No later provider after an abort**: when an attempt of the run fails and the client's signal has fired
    by then, no later position is invoked. -/
theorem no_later_after_abort {strategy : String} {i a : Nat} {entry : ChainEntry} {w' : World}
    {message : String} (h : AttemptAt env request chain w i a entry w')
    (hfailed : (callOf env i entry.provider (enrichedRequest request entry) a w').failure env.policy =
      some message)
    (hgone : w'.next.aborted env = true) :
    ∀ id p r live, .invoke id p r live ∈ (createOverChain env request strategy chain w).actions →
      id.position ≤ i := by
  obtain ⟨wi, before, hturn, hentry, -, hcall⟩ := executeWithPolicy_from_attempt h
  obtain ⟨earlier, lastError, hrun, hearlier⟩ :=
    @createChain_from_turn env request chain w strategy i wi hturn
  obtain ⟨error, herror, hstill⟩ := callAttempts_of_gone (env.policy.maxRetries - a) hfailed hgone
  intro id p r live hmem
  rw [hrun, drop_of_getElem? hentry] at hmem
  rcases List.mem_append.mp hmem with hmem | hmem
  · exact (hearlier id p r live hmem).le
  · have hturn' := createChain_turn env request strategy i entry (chain.drop (i + 1)) lastError wi
    generalize createChain env request strategy i (entry :: chain.drop (i + 1)) lastError wi = o
      at hmem hturn'
    cases hturn' with
    | served hok hresponse hprovider =>
        rw [hcall] at hok
        cases herror.symm.trans hok
    | gone herror' hgone' => exact ((callFacts_executeWithPolicy wi).own id p r live hmem).1.le
    | replaced herror' hhere =>
        rw [hcall] at hhere
        cases hstill.symm.trans hhere

/-! ## The result -/

/-- **`createResponse` meets its reference**, for every chain, breaker state, clock and script. Without a
    client abort it returns the answer of the first position that would serve the request, marked as a
    fallback unless it is the first of the chain; only that latency is recorded, no later position is
    invoked, and it throws exactly when no position would serve. In every run each entry's operation is
    invoked at most `maxRetries + 1` times (a provider with several entries so many times for each), and
    nothing is invoked after a success. Where an attempt fails after the client has aborted, no later position
    is invoked. -/
theorem createOverChain_reference (env : Env) (request : UnifiedAiRequest) (strategy : String)
    (chain : List ChainEntry) (w : World) :
    (env.abortedAt = none →
      (∀ i a entry response, Winner env request chain w i a entry response →
        (∃ served, (createOverChain env request strategy chain w).result = .ok served ∧
          served.response = response ∧ served.gatewayMeta.provider = entry.provider.name ∧
          served.gatewayMeta.model = entry.modelId ∧
          (served.gatewayMeta.fallbackUsed = true ↔ i ≠ 0)) ∧
        (createOverChain env request strategy chain w).world.latencyTracker =
          w.latencyTracker.record entry.provider.name response.latencyMs ∧
        ∀ id p r live, .invoke id p r live ∈ (createOverChain env request strategy chain w).actions →
          id.position ≤ i) ∧
      ((∃ message, (createOverChain env request strategy chain w).result = .error message) ↔
        ∀ i, ¬ Qualifies env request chain w i) ∧
      ((∀ i, ¬ Qualifies env request chain w i) →
        (createOverChain env request strategy chain w).world.latencyTracker = w.latencyTracker)) ∧
    (∀ j, (createOverChain env request strategy chain w).actions.countP (Action.isInvokeAt j) ≤
      env.policy.maxRetries + 1) ∧
    (∀ name, (createOverChain env request strategy chain w).actions.countP (Action.isInvokeOf name) ≤
      chain.countP (fun entry => entry.provider.name == name) * (env.policy.maxRetries + 1)) ∧
    SuccessIsLast env (createOverChain env request strategy chain w).actions ∧
    (∀ i a entry w' message, AttemptAt env request chain w i a entry w' →
      (callOf env i entry.provider (enrichedRequest request entry) a w').failure env.policy = some message →
      w'.next.aborted env = true →
      ∀ id p r live, .invoke id p r live ∈ (createOverChain env request strategy chain w).actions →
        id.position ≤ i) := by
  have hfacts : ChainFacts env 0 chain (createOverChain env request strategy chain w).actions :=
    chainFacts_createChain request strategy chain 0 none w
  refine ⟨fun hpresent => ⟨?_, ?_, ?_⟩, hfacts.boundedAt, hfacts.boundedOf, hfacts.successLast, ?_⟩
  · intro i a entry response hwinner
    obtain ⟨hresult, hlatency, hlater⟩ :=
      @createChain_of_winner env request hpresent strategy a entry response chain 0 none w i hwinner
    rw [Nat.zero_add] at hresult hlater
    refine ⟨⟨_, hresult, rfl, rfl, rfl, ?_⟩, hlatency, hlater⟩
    simp [servedBy, Nat.pos_iff_ne_zero]
  · constructor
    · rintro ⟨message, hmessage⟩ i hqualifies
      obtain ⟨k, a, entry, response, hwinner⟩ := exists_winnerFrom ⟨i, hqualifies⟩
      have hresult := (@createChain_of_winner env request hpresent strategy a entry response chain 0 none w
        k hwinner).1
      cases hmessage.symm.trans hresult
    · intro hnone
      exact (createChain_exhausted hpresent chain 0 none w hnone).1
  · intro hnone
    exact (createChain_exhausted hpresent chain 0 none w hnone).2
  · intro i a entry w' message hattempt hfailed hgone
    exact no_later_after_abort hattempt hfailed hgone

/-! ### Two providers -/

/-- The first provider times out, the second one answers its second attempt. -/
def flakyEnv (abortedAt : Option Nat) : Env where
  policy := { maxRetries := 1 }
  clock := fun tick => tick
  abortedAt := abortedAt
  call := fun id _ _ _ =>
    if id = ⟨1, 1⟩ then
      .returned ⟨.json (.str "r"), .json (.str "m"), "anthropic", [], "stop",
        ⟨.undefined, .undefined, .undefined⟩, 20⟩
    else .timedOut
  stream := fun _ _ _ _ => ⟨[], .finished⟩

def flakyChain : List ChainEntry := [⟨⟨"openai", .openai⟩, "m"⟩, ⟨⟨"anthropic", .anthropic⟩, "m"⟩]

def flakyRequest : UnifiedAiRequest where
  requestId := "req-1"
  model := .str "m"
  messages := []
  stream := .bool false

def idleWorld : World where
  circuitState := JsMap.empty
  latencyTracker := LatencyTracker.empty

/-- The second provider serves as a fallback; and when the client leaves while the first attempt runs, it is
    never asked. -/
theorem createOverChain_reference_flaky :
    (∃ served, (createOverChain (flakyEnv none) flakyRequest "pinned" flakyChain idleWorld).result =
      .ok served ∧ served.gatewayMeta.provider = "anthropic" ∧ served.gatewayMeta.fallbackUsed = true) ∧
    ∀ id p r live, .invoke id p r live ∈
      (createOverChain (flakyEnv (some 1)) flakyRequest "pinned" flakyChain idleWorld).actions →
      id.position ≤ 0 := by
  constructor
  · have hwinner : Winner (flakyEnv none) flakyRequest flakyChain idleWorld 1 1
        ⟨⟨"anthropic", .anthropic⟩, "m"⟩
        ⟨.json (.str "r"), .json (.str "m"), "anthropic", [], "stop",
          ⟨.undefined, .undefined, .undefined⟩, 20⟩ := by
      refine ⟨rfl, ⟨_, rfl⟩, Nat.le_refl 1, rfl, ?_, ?_⟩
      · intro b hb
        obtain rfl : b = 0 := by omega
        rfl
      · rintro j hj ⟨entry, hentry, -, b, hb, response, hanswer⟩
        obtain rfl : j = 0 := by omega
        cases hanswer
    obtain ⟨served, hresult, -, hprovider, -, hfallback⟩ :=
      (((createOverChain_reference (flakyEnv none) flakyRequest "pinned" flakyChain idleWorld).1 rfl).1
        _ _ _ _ hwinner).1
    exact ⟨served, hresult, hprovider, hfallback.mpr Nat.one_ne_zero⟩
  · have hattempt : AttemptAt (flakyEnv (some 1)) flakyRequest flakyChain idleWorld 0 0
        ⟨⟨"openai", .openai⟩, "m"⟩ idleWorld :=
      AttemptAt.entered TurnAt.first rfl rfl rfl
    exact (createOverChain_reference (flakyEnv (some 1)) flakyRequest "pinned" flakyChain
      idleWorld).2.2.2.2 0 0 _ _ _ hattempt rfl rfl

end Sirius
