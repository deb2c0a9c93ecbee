import SiriusGateway.Compat.Service
import SiriusGateway.Correctness.Terminal
import SiriusGateway.Correctness.UsageLines

/-!
# `Correctness.UsageRuns` — usage as OpenAI streams it

The gateway passes on what it reads of usage, so a client that gets its chat stream through it gets usage as
its upstream reported it. Where the upstream's lines report it last (`UsageInOrder`) the frames follow OpenAI's
rule, over every run; where they do not, the frames of a run nobody disturbs break it
(`chat_usage_iff`).

## Contents
- **One attempt.** `StreamAttempt.Orderly`, and what it owes to the body that is sent.
- **The run.** `Heard`: what the consumer receives of orderly attempts.
- **Chat streams.** `chat_usage_iff`.
-/

namespace Sirius

open Js Compat

/-! ## One attempt -/

/-- The signs of what the consumer receives. -/
def signsOf (actions : List Action) : List Bool := (received actions).map fun e => e.2.isUsage

/-- The attempt reports no usage, or reports it last and does not break off. -/
def StreamAttempt.Orderly (asked : Bool) (a : StreamAttempt) : Prop :=
  true ∉ a.events.map (·.isUsage) ∨
    a.typed = true ∧ a.ending = .finished ∧ UsageLast asked (a.events.map (·.isUsage))

/-- The body reports no usage, or it reports it last in well-formed lines and closes. -/
def HttpBody.UsageInOrder (asked : Bool) (n : Native) (body : HttpBody) : Prop :=
  true ∉ n.signs body ∨
    (∀ line ∈ body.lines, n.WellFormed line) ∧ body.ending = .closed ∧ UsageLast asked (n.signs body)

/-- Every body sent to the attempt has its usage in order. -/
def SendsInOrder (up : Upstream) (asked : Bool) (n : Native) (id : AttemptId) (provider : AiProvider)
    (request : UnifiedAiRequest) : Prop :=
  ∀ body, up.Sends id provider request body → body.UsageInOrder asked n

variable {up : Upstream} {n : Native} {asked : Bool} {id : AttemptId} {position : Nat} {provider : AiProvider}
  {request : UnifiedAiRequest} {env : Env}

theorem StreamAttempt.Orderly.usageLast {a : StreamAttempt} (h : a.Orderly asked) :
    UsageLast asked (a.events.map (·.isUsage)) := by
  rcases h with hnone | ⟨-, -, hlast⟩
  · exact usageLast_of_not_mem hnone
  · exact hlast

/-- An attempt that breaks off reports no usage. -/
theorem StreamAttempt.Orderly.not_mem {a : StreamAttempt} (h : a.Orderly asked)
    (hbroken : a.typed = false ∨ a.ending ≠ .finished) : true ∉ a.events.map (·.isUsage) := by
  rcases h with hnone | ⟨htyped, hend, -⟩
  · exact hnone
  · rcases hbroken with huntyped | hopen
    · rw [htyped] at huntyped
      cases huntyped
    · exact absurd hend hopen

/-- **An attempt is orderly when its body is.** -/
theorem orderly_streamResponse (hn : Native.ofKind provider.kind = some n)
    {live : Bool} (h : live = true → SendsInOrder up asked n id provider request) :
    (up.streamResponse id provider request live).Orderly asked := by
  cases live with
  | false =>
      have hevents : (up.streamResponse id provider request false).events = [] := by
        unfold Upstream.streamResponse
        cases mapRequest provider.kind request true <;> simp [hn]
      left
      rw [hevents]
      exact List.not_mem_nil
  | true =>
      by_cases hsends : ∃ body, up.Sends id provider request body
      · obtain ⟨body, hsends⟩ := hsends
        obtain ⟨hshown, hwhole⟩ := n.signs_parseStream (up.freshId id) body
        rw [hsends.streamResponse_eq hn]
        rcases h rfl body hsends with hnone | ⟨hwell, hclosed, hlast⟩
        · left
          intro hmem
          exact hnone (hshown.subset hmem)
        · obtain ⟨hparsed, htyped⟩ := Native.parseStream_of_wellFormed (up.freshId id) hwell
          right
          refine ⟨List.all_eq_true.mpr htyped, ?_, ?_⟩
          · rw [hparsed.ending, hclosed]
            rfl
          · rw [hwhole hwell]
            exact hlast
      · -- nothing is sent: there are no events, or one error
        have hnone := not_exists.mp hsends
        left
        cases (streamResponse_end hn fun body hsends => absurd hsends (hnone body)).1 with
        | parsed hsends => exact absurd hsends (hnone _)
        | reported _ hevents =>
            rw [hevents]
            intro hmem
            cases List.mem_singleton.mp hmem
        | silent _ hevents =>
            rw [hevents]
            exact List.not_mem_nil

/-! ## The run -/

theorem signsOf_append (l r : List Action) : signsOf (l ++ r) = signsOf l ++ signsOf r := by
  unfold signsOf
  rw [received_append, List.map_append]

theorem signsOf_of_silent {actions : List Action} (h : received actions = []) : signsOf actions = [] := by
  unfold signsOf
  rw [h]
  rfl

/-- Every event the consumer receives has passed the observer. -/
def AllTyped (actions : List Action) : Prop := ∀ e ∈ received actions, e.2.wellTyped = true

theorem AllTyped.append {l r : List Action} (hl : AllTyped l) (hr : AllTyped r) : AllTyped (l ++ r) := by
  intro e he
  rw [received_append] at he
  rcases List.mem_append.mp he with he | he
  · exact hl e he
  · exact hr e he

theorem allTyped_of_silent {actions : List Action} (h : received actions = []) : AllTyped actions := by
  intro e he
  rw [h] at he
  exact absurd he List.not_mem_nil

theorem allTyped_forwardEvents (id : AttemptId) (events : List UnifiedStreamEvent) :
    ∀ (yielded : Bool) (w : World), AllTyped (forwardEvents env id events yielded w).actions := by
  induction events with
  | nil => exact fun _ _ => allTyped_of_silent rfl
  | cons event rest ih =>
      intro yielded w
      cases htype : event.wellTyped with
      | false => exact allTyped_of_silent (by simp [forwardEvents, observeEvent, htype, received])
      | true =>
          have hone : AllTyped [.deliver id event] := by
            intro e he
            rw [List.mem_singleton.mp he]
            exact htype
          by_cases hstop : env.stopAfter = some (w.sent + 1)
          · simpa [forwardEvents, observeEvent, htype, hstop] using hone
          · have h := hone.append (ih true { w.next with sent := w.sent + 1 })
            simpa [forwardEvents, observeEvent, htype, hstop, Outcome.after] using h

/-- Events are cut short by the consumer's stop, or by one that does not pass the observer. -/
theorem forwardEvents_cut {events : List UnifiedStreamEvent} {ending : StreamEnd} :
    ∀ (yielded : Bool) (w : World), (forwardEvents env id events yielded w).result.1 = some ending →
      ending = .stopped ∨ events.all (·.wellTyped) = false := by
  induction events with
  | nil =>
      intro yielded w h
      cases h
  | cons event rest ih =>
      intro yielded w h
      cases htype : event.wellTyped with
      | false =>
          right
          simp [htype]
      | true =>
          by_cases hstop : env.stopAfter = some (w.sent + 1)
          · left
            simp [forwardEvents, observeEvent, htype, hstop] at h
            exact h.symm
          · simp only [forwardEvents, observeEvent, htype, if_true, hstop, if_false, Outcome.after] at h
            rw [List.all_cons, htype, Bool.true_and]
            exact ih true _ h

/-- What the consumer hears of orderly attempts: well-typed events with usage last, and none at all of a run
    that fails. -/
structure Heard (asked : Bool) (actions : List Action) (failed : Bool) : Prop where
  typed : AllTyped actions
  last : UsageLast asked (signsOf actions)
  none : failed = true → true ∉ signsOf actions

theorem heard_of_silent {actions : List Action} (h : received actions = []) (failed : Bool) :
    Heard asked actions failed := by
  have hsigns := signsOf_of_silent h
  have hnone : true ∉ signsOf actions := hsigns ▸ List.not_mem_nil
  exact ⟨allTyped_of_silent h, usageLast_of_not_mem hnone, fun _ => hnone⟩

theorem Heard.append_silent {l r : List Action} {failed : Bool} (h : Heard asked l failed)
    (hr : received r = []) : Heard asked (l ++ r) failed := by
  have hsigns : signsOf (l ++ r) = signsOf l := by
    rw [signsOf_append, signsOf_of_silent hr, List.append_nil]
  exact ⟨h.typed.append (allTyped_of_silent hr), hsigns ▸ h.last, hsigns ▸ h.none⟩

theorem Heard.silent_append {l r : List Action} {failed : Bool} (hl : received l = [])
    (h : Heard asked r failed) : Heard asked (l ++ r) failed := by
  have hsigns : signsOf (l ++ r) = signsOf r := by rw [signsOf_append, signsOf_of_silent hl, List.nil_append]
  exact ⟨(allTyped_of_silent hl).append h.typed, hsigns ▸ h.last, hsigns ▸ h.none⟩

/-- Every attempt of the actions is orderly. -/
def AllOrderly (env : Env) (asked : Bool) (actions : List Action) : Prop :=
  ∀ id p r live, .invoke id p r live ∈ actions → (env.stream id p r live).Orderly asked

theorem AllOrderly.of_append {l r : List Action} (h : AllOrderly env asked (l ++ r)) :
    AllOrderly env asked l ∧ AllOrderly env asked r :=
  ⟨fun id p r live hmem => h id p r live (List.mem_append_left _ hmem),
    fun id p r live hmem => h id p r live (List.mem_append_right _ hmem)⟩

/-- **One attempt on its way to the consumer.** -/
theorem heard_startedOf {attempt : Nat} {w : World} (failed : Bool)
    (h : AllOrderly env asked (startedOf env position provider request attempt w))
    (hfailed : failed = true → (upstreamOf env position provider request attempt w).typed = false ∨
      (upstreamOf env position provider request attempt w).ending ≠ .finished) :
    Heard asked (startedOf env position provider request attempt w) failed := by
  have horderly : (upstreamOf env position provider request attempt w).Orderly asked :=
    h ⟨position, attempt⟩ provider request (!w.aborted env) List.mem_cons_self
  obtain ⟨shown, hacts, ⟨hstart, -⟩, -⟩ := forwardEvents_shown env ⟨position, attempt⟩
    (upstreamOf env position provider request attempt w).events false w
  have hsigns : signsOf (startedOf env position provider request attempt w) = shown.map (·.isUsage) := by
    unfold startedOf forwardedOf signsOf
    rw [hacts, received_invoke, received_deliver, List.map_map]
    rfl
  have hshown := hstart.map (·.isUsage)
  refine ⟨allTyped_forwardEvents _ _ _ _, ?_, ?_⟩
  · rw [hsigns]
    exact horderly.usageLast.of_prefix hshown
  · intro hfail hmem
    rw [hsigns] at hmem
    exact horderly.not_mem (hfailed hfail) (hshown.subset hmem)

/-- **The turn of one adapter.** -/
theorem heard_streamAttempts (remaining attempt : Nat) (w : World) :
    AllOrderly env asked (streamAttempts env position provider request remaining attempt w).actions →
    Heard asked (streamAttempts env position provider request remaining attempt w).actions
      (streamAttempts env position provider request remaining attempt w).result.ending.failure.isSome := by
  refine streamAttempts_rule (P := fun _ _ _ o =>
    AllOrderly env asked o.actions → Heard asked o.actions o.result.ending.failure.isSome) env position provider
    request ?_ remaining attempt w
  intro remaining attempt w o hturn hretry hall
  cases hturn with
  | @cut ending hcut =>
      refine (heard_startedOf _ hall.of_append.1 ?_).append_silent rfl
      intro hfail
      rcases forwardEvents_cut _ _ hcut with rfl | huntyped
      · cases hfail
      · exact Or.inl huntyped
  | finished hend =>
      refine (heard_startedOf _ hall.of_append.1 ?_).append_silent rfl
      intro hfail
      cases hfail
  | stalled hnone hend =>
      refine (heard_startedOf _ hall.of_append.1 ?_).append_silent rfl
      intro _
      exact Or.inr (hend ▸ stalled_ne_finished)
  | aborted hnone hend =>
      refine (heard_startedOf _ hall.of_append.1 ?_).append_silent rfl
      intro _
      exact Or.inr (hend ▸ threw_ne_finished _)
  | failed hnone hend =>
      refine (heard_startedOf _ hall.of_append.1 ?_).append_silent rfl
      intro _
      exact Or.inr (hend ▸ threw_ne_finished _)
  | abandoned hnone hend hhere hquiet =>
      apply heard_of_silent
      rw [received_append, received_failedActions hquiet, received_abandonedAttempt]
      rfl
  | retried hnone hend hhere hquiet hmore =>
      exact (hretry _ _ hmore hall.of_append.2).silent_append (received_failedActions hquiet)

theorem heard_executeStreamWithPolicy (w : World)
    (h : AllOrderly env asked (executeStreamWithPolicy env position provider request w).actions) :
    Heard asked (executeStreamWithPolicy env position provider request w).actions
      (executeStreamWithPolicy env position provider request w).result.ending.failure.isSome := by
  rcases executeStreamWithPolicy_cases env position provider request w with
    ⟨w', message, heq, -⟩ | ⟨circuitState, -, heq⟩
  · rw [heq]
    exact heard_of_silent rfl _
  · rw [heq] at h ⊢
    exact heard_streamAttempts _ _ _ h

/-- The gateway's error event comes after a run that has reported no usage. -/
theorem Heard.append_error {actions : List Action} (h : Heard asked actions true) (message : String) :
    Heard asked (actions ++ [.deliverError message]) true := by
  have hsigns : signsOf (actions ++ [.deliverError message]) = signsOf actions ++ [false] := signsOf_append _ _
  have hnone : true ∉ signsOf (actions ++ [.deliverError message]) := by
    rw [hsigns]
    simp [h.none rfl]
  refine ⟨h.typed.append ?_, usageLast_of_not_mem hnone, fun _ => hnone⟩
  intro e he
  rw [List.mem_singleton.mp he]
  rfl

/-- **The run over the chain.** -/
theorem heard_streamChain (chain : List ChainEntry) (lastError : Option String) (w : World) :
    AllOrderly env asked (streamChain env request position chain lastError w).actions →
    Heard asked (streamChain env request position chain lastError w).actions false := by
  refine streamChain_rule (P := fun _ _ _ o => AllOrderly env asked o.actions → Heard asked o.actions false)
    ?_ ?_ chain position lastError w
  · intro position lastError w _
    have h := (@heard_of_silent asked [] rfl true).append_error (allFailedMessage request lastError)
    exact ⟨h.typed, h.last, nofun⟩
  · intro position entry rest w o hturn hrest hall
    have hsilent := executeStreamWithPolicy_silent env position entry.provider
      (enrichedRequest request entry) w
    have hadapter := @heard_executeStreamWithPolicy asked position entry.provider
      (enrichedRequest request entry) env w
    generalize executeStreamWithPolicy env position entry.provider (enrichedRequest request entry) w =
      tried at hturn hsilent hadapter
    cases hturn with
    | served hend =>
        have h := hadapter hall.of_append.1
        exact ⟨(h.append_silent rfl).typed, (h.append_silent rfl).last, nofun⟩
    | stopped hend =>
        have h := hadapter hall
        exact ⟨h.typed, h.last, nofun⟩
    | gone hend hgone =>
        have h := hadapter hall
        exact ⟨h.typed, h.last, nofun⟩
    | @broken message hend hhere hyield =>
        have h := hadapter hall.of_append.1
        rw [hend] at h
        exact ⟨(h.append_error message).typed, (h.append_error message).last, nofun⟩
    | replaced hend hhere hyield =>
        exact (hrest _ _ hall.of_append.2).silent_append (hsilent hyield)

/-! ### Runs nobody disturbs -/

section Solo

variable (hwell : ∀ body, up.Sends id provider request body → ∀ line ∈ body.lines, n.WellFormed line)
include hwell

/-- An attempt that throws silently is sent no usage. -/
theorem sendsInOrder_of_silent (hn : Native.ofKind provider.kind = some n)
    (hsilent : (up.streamResponse id provider request true).events = []) :
    SendsInOrder up asked n id provider request := by
  intro body hsends
  have hsigns := (n.signs_parseStream (up.freshId id) body).2 (hwell body hsends)
  rw [hsends.streamResponse_eq hn] at hsilent
  rw [hsilent] at hsigns
  left
  rw [← hsigns]
  exact List.not_mem_nil

/-- **What a client that stays is shown of an attempt**: its events, and the gateway's error event when it
    breaks off. The usage among them is last exactly when the body has it in order. -/
theorem usageLast_attempt_iff (hn : Native.ofKind provider.kind = some n) (errors : List UnifiedStreamEvent)
    (herrors : if (up.streamResponse id provider request true).ending = .finished then errors = []
      else ∃ message, errors = [.error message]) :
    UsageLast asked ((handled (((up.streamResponse id provider request true).events ++ errors).map
      fun e => ⟨e, false⟩)).map (·.isUsage)) ↔ SendsInOrder up asked n id provider request := by
  have hone : ∀ message, UsageLast asked ([UnifiedStreamEvent.error message].map (·.isUsage)) :=
    fun _ => usageLast_of_not_mem (by simp [UnifiedStreamEvent.isUsage])
  cases (streamResponse_end hn hwell).1 with
  | @parsed body hsends hparsed =>
      have hsigns : (up.streamResponse id provider request true).events.map (·.isUsage) = n.signs body := by
        rw [hsends.streamResponse_eq hn]
        exact (n.signs_parseStream (up.freshId id) body).2 (hwell body hsends)
      have hrunning : ∀ e ∈ (up.streamResponse id provider request true).events,
          ∀ message code, e ≠ .error message code := by
        intro e he message code heq
        subst heq
        cases hparsed.done _ (List.mem_filter.mpr ⟨he, rfl⟩)
      have hbody : SendsInOrder up asked n id provider request ↔ body.UsageInOrder asked n :=
        ⟨fun h => h body hsends, fun h body' hsends' => hsends.unique hsends' ▸ h⟩
      have hclosed := @streamEnding_eq_finished_iff body
      rw [← hparsed.ending] at hclosed
      rw [handled_of_staying errors hrunning, List.map_append, hsigns, hbody]
      split at herrors
      · rename_i hfinished
        subst herrors
        have hnil : ((handled ([].map fun e => ⟨e, false⟩)).map (·.isUsage) : List Bool) = [] := rfl
        rw [hnil, List.append_nil]
        exact ⟨fun h => Or.inr ⟨hwell body hsends, hclosed.mp hfinished, h⟩, fun h =>
          h.elim usageLast_of_not_mem fun h => h.2.2⟩
      · rename_i hopen
        obtain ⟨message, rfl⟩ := herrors
        -- the error event comes after any usage
        have herror : ((handled ([.error message].map fun e => ⟨e, false⟩)).map (·.isUsage) : List Bool) =
            [false] := rfl
        rw [herror, usageLast_concat_iff]
        exact ⟨Or.inl, fun h => h.elim (fun h => h) fun h => absurd (hclosed.mpr h.2.1) hopen⟩
  | @reported message hnone hevents hfinished =>
      rw [if_pos hfinished] at herrors
      subst herrors
      rw [hevents]
      exact iff_of_true (hone message) fun body hsends => absurd hsends (hnone body)
  | silent hnone hevents hopen =>
      rw [if_neg hopen] at herrors
      obtain ⟨message, rfl⟩ := herrors
      rw [hevents]
      exact iff_of_true (hone message) fun body hsends => absurd hsends (hnone body)

end Solo

/-! ## Chat streams -/

/-- The body sets `stream_options.include_usage`. -/
def asksForUsage (body : Json) : Bool := (optProp (body.prop "stream_options") "include_usage").truthy

/-- What a client that stays pulls of a run. -/
def stayed (actions : List Action) : List Pulled := ((received actions).map Prod.snd).map fun e => ⟨e, false⟩

/-- **The usage a client is shown of a run with one adapter** is last exactly when every body has it in
    order. -/
theorem usageLast_solo_iff (base : Env) {entry : ChainEntry} (hn : Native.ofKind entry.provider.kind = some n)
    (hwell : ∀ id body, up.Sends id entry.provider (enrichedRequest request entry) body →
      ∀ line ∈ body.lines, n.WellFormed line) {actions : List Action}
    (hrun : SoloRun (up.drained base) request entry actions) :
    UsageLast asked ((handled (stayed actions)).map (·.isUsage)) ↔
      ∀ id p r, .invoke id p r true ∈ actions → SendsInOrder up asked n id p r := by
  have hsilent : ∀ i, (attemptOf (up.drained base) 0 entry.provider (enrichedRequest request entry) i).SilentThrow →
      SendsInOrder up asked n ⟨0, i⟩ entry.provider (enrichedRequest request entry) :=
    fun i hsilent => sendsInOrder_of_silent (hwell ⟨0, i⟩) hn hsilent.1
  cases hrun with
  | refused message =>
      refine iff_of_true (usageLast_of_not_mem (by simp [stayed, received, handled, UnifiedStreamEvent.isUsage])) ?_
      intro id p r hmem
      simp at hmem
  | @completed remaining last tried hlast hcompleted =>
      have hshown : (received (tried.actions ++ [.recordLatency 0 entry.provider.name])).map Prod.snd =
          (attemptOf (up.drained base) 0 entry.provider (enrichedRequest request entry) last).events ++ [] := by
        rw [received_append, List.map_append, hlast.shown]
        rfl
      have hfinished := hlast.finished_of_completed hcompleted
      unfold stayed
      rw [hlast.forall_invoked_iff hsilent (by simp), hshown]
      apply usageLast_attempt_iff (hwell ⟨0, last⟩) hn
      exact (if_pos hfinished).symm ▸ rfl
  | @failed remaining last tried failure message hlast hfail =>
      have hshown : (received (tried.actions ++ [.deliverError message])).map Prod.snd =
          (attemptOf (up.drained base) 0 entry.provider (enrichedRequest request entry) last).events ++
            [.error message] := by
        rw [received_append, List.map_append, hlast.shown]
        rfl
      have hopen := hlast.not_finished_of_failure hfail
      unfold stayed
      rw [hlast.forall_invoked_iff hsilent (by simp), hshown]
      apply usageLast_attempt_iff (hwell ⟨0, last⟩) hn
      exact (if_neg hopen).symm ▸ ⟨message, rfl⟩

/-- **The rule over every run**: what a client is sent of a run all of whose bodies have their usage in
    order. -/
theorem usageAsOpenAi_run (base : Env) {chain : List ChainEntry}
    (hnative : ∀ entry ∈ chain, Native.ofKind entry.provider.kind ≠ none) (w : World)
    (horder : ∀ id p r n, .invoke id p r true ∈ (streamOverChain (up.env base) request chain w).actions →
      Native.ofKind p.kind = some n → SendsInOrder up asked n id p r)
    {pulled : List Pulled}
    (hpulled : pulled.map (·.event) <+:
      (received (streamOverChain (up.env base) request chain w).actions).map Prod.snd)
    (clock : Nat → Nat) (responseId : String) (ending : LoopEnd) :
    UsageAsOpenAi asked (chatCompletionsStream clock responseId request.model pulled ending) := by
  have hinvokes : InvokesOnly (fun p _ => Native.ofKind p.kind ≠ none)
      (streamOverChain (up.env base) request chain w).actions := invokesOnly_streamOverChain w hnative
  have hall : AllOrderly (up.env base) asked (streamOverChain (up.env base) request chain w).actions := by
    intro id p r live hmem
    obtain ⟨n, hn⟩ := Option.ne_none_iff_exists'.mp (hinvokes id p r live hmem)
    apply orderly_streamResponse hn
    intro hlive
    subst hlive
    exact horder id p r n hmem hn
  obtain ⟨htyped, hlast, -⟩ := heard_streamChain chain none w hall
  have htyped' : ∀ p ∈ pulled, p.event.wellTyped = true := by
    intro p hp
    obtain ⟨e, he, heq⟩ := List.mem_map.mp (hpulled.subset (List.mem_map_of_mem hp))
    rw [← heq]
    exact htyped e he
  have hstart := ((handled_starts pulled).trans hpulled).map (·.isUsage)
  rw [List.map_map] at hstart
  rw [usageAsOpenAi_iff _ _ _ htyped']
  exact hlast.of_prefix hstart

theorem typed_stayed (base : Env) {entry : ChainEntry} {actions : List Action}
    (htyped : ∀ i, (attemptOf (up.drained base) 0 entry.provider (enrichedRequest request entry) i).typed = true)
    (hrun : SoloRun (up.drained base) request entry actions) : ∀ p ∈ stayed actions, p.event.wellTyped = true := by
  have hall : AllTyped actions := by
    have hattempt : ∀ {remaining last : Nat} {tried : Outcome StreamResult},
        LastAttempt (up.drained base) 0 entry.provider (enrichedRequest request entry) remaining 0 tried last →
        AllTyped tried.actions := by
      intro remaining last tried hlast e he
      apply List.all_eq_true.mp (htyped last)
      rw [← hlast.shown]
      exact List.mem_map_of_mem he
    have herror : ∀ message, AllTyped [.deliverError message] := by
      intro message e he
      rw [List.mem_singleton.mp he]
      rfl
    cases hrun with
    | refused message => exact herror message
    | completed hlast hcompleted => exact (hattempt hlast).append (allTyped_of_silent rfl)
    | failed message hlast hfail => exact (hattempt hlast).append (herror message)
  intro p hp
  obtain ⟨event, hevent, rfl⟩ := List.mem_map.mp hp
  obtain ⟨e, he, rfl⟩ := List.mem_map.mp hevent
  exact hall e he

/-- **Usage as OpenAI streams it.** The frames of a chat stream follow OpenAI's rule in every run, with any
    native adapters and a client that may leave at any time, whose bodies all have their usage in order: they
    report none, or it was asked for and they report it once, last, and close. And in a run nobody disturbs
    with one adapter, over well-formed lines, they follow it only then. -/
theorem chat_usage_iff (up : Upstream) (base : Env) (w : World) (body : Json) (request : UnifiedAiRequest)
    (clock : Nat → Nat) (responseId : String) (ending : LoopEnd) :
    (∀ chain : List ChainEntry, (∀ entry ∈ chain, Native.ofKind entry.provider.kind ≠ none) →
      ∀ pulled : List Pulled, pulled.map (·.event) <+:
          (received (streamOverChain (up.env base) request chain w).actions).map Prod.snd →
        (∀ id p r n, .invoke id p r true ∈ (streamOverChain (up.env base) request chain w).actions →
          Native.ofKind p.kind = some n → SendsInOrder up (asksForUsage body) n id p r) →
        UsageAsOpenAi (asksForUsage body)
          (chatCompletionsStream clock responseId request.model pulled ending)) ∧
    ∀ (entry : ChainEntry) (n : Native), Native.ofKind entry.provider.kind = some n →
      (∀ id sent, up.Sends id entry.provider (enrichedRequest request entry) sent →
        ∀ line ∈ sent.lines, n.WellFormed line) →
      (UsageAsOpenAi (asksForUsage body) (chatCompletionsStream clock responseId request.model
          (stayed (streamOverChain (up.drained base) request [entry] w).actions) ending) ↔
        ∀ id p r, .invoke id p r true ∈ (streamOverChain (up.drained base) request [entry] w).actions →
          SendsInOrder up (asksForUsage body) n id p r) := by
  constructor
  · intro chain hnative pulled hpulled horder
    exact usageAsOpenAi_run base hnative w horder hpulled clock responseId ending
  · intro entry n hn hwell
    have htyped : ∀ i,
        (attemptOf (up.drained base) 0 entry.provider (enrichedRequest request entry) i).typed = true :=
      fun i => (streamResponse_end hn (hwell ⟨0, i⟩)).2
    have hrun := soloRun (up.drained_drained base) htyped w
    rw [usageAsOpenAi_iff _ _ _ (typed_stayed base htyped hrun), usageLast_solo_iff base hn hwell hrun]

/-- A chat request for a stream, which does not ask for usage. -/
def plainChat : Json :=
  .obj [("model", .str "qwen"), ("messages", .arr [.obj [("role", .str "user"), ("content", .str "Hi")]]),
    ("stream", .bool true)]

/-- What it is parsed to. -/
def plainChatRequest : UnifiedAiRequest where
  requestId := "req-1"
  model := .str "qwen"
  messages := [{ role := .json (.str "user"), content := .json (.str "Hi") }]
  stream := .bool true

theorem parse_plainChat : parseChatCompletionRequest plainChat "req-1" = .ok plainChatRequest := by decide

/-- The same request, which asks for usage. -/
def askingChat : Json :=
  .obj [("model", .str "qwen"), ("messages", .arr [.obj [("role", .str "user"), ("content", .str "Hi")]]),
    ("stream", .bool true), ("stream_options", .obj [("include_usage", .bool true)])]

/-- What it is parsed to. -/
def askingRequest : UnifiedAiRequest := { plainChatRequest with streamOptions := some (.json (.bool true)) }

theorem parse_askingChat : parseChatCompletionRequest askingChat "req-1" = .ok askingRequest := by decide

/-- A chunk with a text and the finish reason. -/
def saidAll : Json :=
  .obj [("choices", .arr [.obj [("delta", .obj [("content", .str "Hi")]), ("finish_reason", .str "stop")]])]

/-- The chunk of the counts. -/
def lastCounts : Json :=
  .obj [("choices", .arr []), ("usage", .obj [("completion_tokens", .num 1)])]

/-- The stream of both, as OpenAI ends one with usage. -/
def reportingBody : HttpBody :=
  ⟨["data: \x7b\"choices\":[\x7b\"delta\":\x7b\"content\":\"Hi\"\x7d,\"finish_reason\":\"stop\"\x7d]\x7d\n",
    "data: \x7b\"choices\":[],\"usage\":\x7b\"completion_tokens\":1\x7d\x7d\n"], .closed⟩

theorem chunks_reportingBody : reportingBody.lines.filterMap OpenAi.chunkOf = [saidAll, lastCounts] := by
  decide +kernel

theorem wellFormed_reportingBody : ∀ line ∈ reportingBody.lines, Native.openai.WellFormed line := by
  intro line hline chunk hchunk
  have hmem : chunk ∈ [saidAll, lastCounts] := chunks_reportingBody ▸ List.mem_filterMap.mpr ⟨line, hline, hchunk⟩
  simp only [List.mem_cons, List.not_mem_nil, or_false] at hmem
  rcases hmem with rfl | rfl
  · exact ⟨by decide, fun _ => by decide, Or.inr ⟨"Hi", by decide⟩, Or.inl (by decide), Or.inr ⟨"stop", by decide⟩⟩
  · exact ⟨by decide, fun h => absurd h (by decide), Or.inl (by decide), Or.inl (by decide), Or.inl (by decide)⟩

/-- Usage that was asked for, and comes last. -/
theorem usageInOrder_reportingBody : reportingBody.UsageInOrder true .openai := by
  have hsigns : Native.openai.signs reportingBody = [false, false, true] := by
    unfold Native.signs
    rw [chunks_reportingBody]
    decide
  refine Or.inr ⟨wellFormed_reportingBody, rfl, ?_⟩
  rw [hsigns]
  intro before after heq
  refine ⟨rfl, ?_⟩
  match before, heq with
  | [_, _], heq => exact (List.cons.inj (List.cons.inj (List.cons.inj heq).2).2).2.symm
  | _ :: _ :: _ :: before, heq => simp at heq

/-- The client is shown the usage it asked for, behind everything else. -/
theorem chat_usage_iff_asked : ∃ request, parseChatCompletionRequest askingChat "req-1" = .ok request ∧
    stayed (streamOverChain ((answering reportingBody).drained plainEnv) request [openAiEntry] freshWorld).actions =
      [⟨.contentDelta (.json (.str "Hi")), false⟩, ⟨.done "stop", false⟩,
        ⟨.usage ⟨.undefined, .json (.num 1), .undefined⟩, false⟩] ∧
    UsageAsOpenAi (asksForUsage askingChat) (chatCompletionsStream (fun k => k) "chatcmpl-1" request.model
      (stayed (streamOverChain ((answering reportingBody).drained plainEnv) request [openAiEntry]
        freshWorld).actions) (.left false)) := by
  refine ⟨askingRequest, parse_askingChat, by decide +kernel, ?_⟩
  apply ((chat_usage_iff (answering reportingBody) plainEnv freshWorld askingChat askingRequest (fun k => k)
    "chatcmpl-1" (.left false)).2 openAiEntry .openai rfl fun _ _ h => sends_answering h ▸
      wellFormed_reportingBody).mpr
  intro id p r _ sent hsends
  rw [sends_answering hsends]
  exact usageInOrder_reportingBody

/-- A stream of one chunk, as Ollama ends every stream: with the counts and `done`. -/
def countedBody : HttpBody :=
  ⟨["\x7b\"message\":\x7b\"content\":\"Hi\"\x7d,\"done\":true,\"eval_count\":1\x7d\n"], .closed⟩

/-- An Ollama model. -/
def qwenEntry : ChainEntry := ⟨⟨"ollama", .ollama⟩, "qwen"⟩

/-- **Usage nobody asked for, in the middle of the stream.** -/
theorem usage_not_asked_for :
    ¬ ∀ (up : Upstream) (base : Env) (w : World) (body : Json) (requestId : String) (request : UnifiedAiRequest)
        (clock : Nat → Nat) (responseId : String) (entry : ChainEntry) (n : Native),
      parseChatCompletionRequest body requestId = .ok request → request.stream.truthy = true →
      Native.ofKind entry.provider.kind = some n →
      UsageAsOpenAi (asksForUsage body) (chatCompletionsStream clock responseId request.model
        (stayed (streamOverChain (up.drained base) request [entry] w).actions) (.left false)) := by
  intro h
  have hpulled : stayed (streamOverChain ((answering countedBody).drained plainEnv) plainChatRequest [qwenEntry]
      freshWorld).actions = [⟨.contentDelta (.json (.str "Hi")), false⟩,
        ⟨.usage ⟨.json (.num 0), .json (.num 1), .json (.num 1)⟩, false⟩, ⟨.done "stop", false⟩] := by
    decide +kernel
  have hrule := h (answering countedBody) plainEnv freshWorld plainChat "req-1" plainChatRequest (fun k => k)
    "chatcmpl-1" qwenEntry .ollama parse_plainChat rfl rfl
  rw [hpulled, usageAsOpenAi_iff _ _ _ (by decide)] at hrule
  exact absurd (hrule [false] [false] rfl).1 (by decide)

end Sirius
