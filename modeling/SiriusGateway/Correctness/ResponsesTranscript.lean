import SiriusGateway.Gateway.Sessions
import SiriusGateway.Correctness.StreamReference

/-!
# `Correctness.ResponsesTranscript` — what a streaming client of `/v1/responses` is sent

The frames of the texts and of the completion, in the order of the events, up to the first error; then one error
frame, if there was one, and `end()`. To a client that leaves nothing is sent from then on
(`responses_transcript`).

## Contents
- **The frames.** `shownFrames`, `failureOf`, and what the handler puts out (`outputs_eq`).
- **The transcript.**
- **Behind the gateway.** What the client of a run over a provider chain is sent
  (`responses_over_chain`).
-/

namespace Sirius

open Js

namespace ResponsesSession

open ChatSession (Sent)

/-! ## The frames -/

variable {responseId : String}

/-- The frames of the events before the first error. -/
def shownFrames (responseId : String) (events : List UnifiedStreamEvent) : List Sent :=
  ((events.takeWhile fun event => (errorMessage event).isNone).filterMap (responsesFrame responseId)).map frame

/-- The first error among the events. -/
def failureIn (events : List UnifiedStreamEvent) : Option String := events.findSome? errorMessage

/-- The frame of an error. -/
def errorFrames (failure : Option String) : List Sent :=
  failure.toList.map fun message => frame (responsesError message)

theorem framesOf_of_shown {event : UnifiedStreamEvent} (h : errorMessage event = none) :
    framesOf responseId event = ((responsesFrame responseId event).map frame).toList := by
  cases event with
  | error message code => cases h
  | _ => rfl

/-- **What the loop writes**: the frames up to the first error, and the error. -/
theorem outputs_eq (events : List UnifiedStreamEvent) :
    Relay.outputs (handler responseId) () events =
      shownFrames responseId events ++ errorFrames (failureIn events) := by
  induction events with
  | nil => rfl
  | cons event rest ih =>
      cases herror : errorMessage event with
      | some message =>
          cases event with
          | error message code => rfl
          | _ => cases herror
      | none =>
          have hfailure : failureIn (event :: rest) = failureIn rest := by
            unfold failureIn
            rw [List.findSome?_cons, herror]
          have hshown : shownFrames responseId (event :: rest) =
              framesOf responseId event ++ shownFrames responseId rest := by
            unfold shownFrames
            rw [List.takeWhile_cons_of_pos (by rw [herror]; rfl), List.filterMap_cons_eq_append, List.map_append,
              framesOf_of_shown herror]
            cases responsesFrame responseId event <;> rfl
          show framesOf responseId event ++ (if (errorMessage event).isSome then [] else _) = _
          rw [herror, hfailure, hshown, List.append_assoc]
          exact congrArg _ ih

/-! ## The transcript -/

variable {t : Session} {labels : List (Relay.Label UnifiedStreamEvent)}

/-- What went wrong: the error behind which the loop broke off, or what the stream threw. -/
def failureOf (labels : List (Relay.Label UnifiedStreamEvent)) : Option String :=
  (failureIn (Relay.events labels)).or (Relay.thrown labels)

theorem failureIn_eq_none_iff {events : List UnifiedStreamEvent} :
    failureIn events = none ↔ ∀ event ∈ events, errorMessage event = none := List.findSome?_eq_none_iff

/-- What a client that stays is sent. -/
theorem sent_of_returned (hrun : Lts.Run (step responseId) start labels t) (hreturned : t.phase = .returned)
    (hstays : .close ∉ labels) :
    t.sent = shownFrames responseId (Relay.events labels) ++ errorFrames (failureOf labels) ++ [.ended] := by
  have hsent := Relay.sent_of_staying hrun rfl hstays rfl
  rw [if_pos hreturned, outputs_eq] at hsent
  rw [hsent]
  show [] ++ _ ++ _ = _
  rw [List.nil_append]
  unfold failureOf Relay.ending
  cases hthrown : Relay.thrown labels with
  | none =>
      rw [Option.or_none]
      rfl
  | some message =>
      -- the stream that throws has sent no error event before
      have hquiet : failureIn (Relay.events labels) = none := failureIn_eq_none_iff.mpr fun event he =>
        Option.isNone_iff_eq_none.mp (Option.isSome_eq_false_iff.mp
          (Relay.not_breaks_of_thrown hrun rfl hstays rfl hthrown event he))
      rw [hquiet]
      simp [errorFrames, handler]

/-- **The transcript of a responses stream.** A client that stays is sent the frames of the texts and completions
    in front of the first error, one error frame if there was an error or the stream threw, and `end()`, once. A
    client that leaves is sent nothing from then on: it has the frames of what the handler had pulled before, and
    no `end()`. -/
theorem responses_transcript (responseId : String) {labels : List (Relay.Label UnifiedStreamEvent)} {t : Session}
    (hrun : Lts.Run (step responseId) start labels t) :
    (t.phase = .returned → .close ∉ labels →
      t.sent = shownFrames responseId (Relay.events labels) ++ errorFrames (failureOf labels) ++ [.ended]) ∧
    ∀ before after, labels = before ++ .close :: after →
      t.sent = shownFrames responseId (Relay.events before) ++ errorFrames (failureIn (Relay.events before)) := by
  constructor
  · exact sent_of_returned hrun
  · rintro before after rfl
    have hsent := Relay.sent_of_leaving hrun rfl rfl
    rw [outputs_eq] at hsent
    exact hsent

/-- A stream that throws behind a text, and a client that leaves behind it. -/
theorem responses_transcript_throwing_leaving :
    (∃ t, Lts.Run (step "resp_1") start [.event (.contentDelta (.json (.str "Hi"))), .threw "down"] t ∧
      t.sent = shownFrames "resp_1" [.contentDelta (.json (.str "Hi"))] ++ errorFrames (some "down") ++ [.ended]) ∧
    ∃ t, Lts.Run (step "resp_1") start [.event (.contentDelta (.json (.str "Hi"))), .close, .event (.done "stop"),
        .returned] t ∧
      t.sent = shownFrames "resp_1" [.contentDelta (.json (.str "Hi"))] ++ errorFrames none := by
  obtain ⟨t, ht, hreturned⟩ : ∃ t, Lts.Run (step "resp_1") start
      [.event (.contentDelta (.json (.str "Hi"))), .threw "down"] t ∧ t.phase = .returned :=
    ⟨_, Lts.run_iff_exec.mpr rfl, rfl⟩
  obtain ⟨u, hu⟩ : ∃ u, Lts.Run (step "resp_1") start
      [.event (.contentDelta (.json (.str "Hi"))), .close, .event (.done "stop"), .returned] u :=
    ⟨_, Lts.run_iff_exec.mpr rfl⟩
  refine ⟨⟨t, ht, ?_⟩, u, hu, ?_⟩
  · exact (responses_transcript "resp_1" ht).1 hreturned (by decide)
  · exact (responses_transcript "resp_1" hu).2 [.event (.contentDelta (.json (.str "Hi")))]
      [.event (.done "stop"), .returned] rfl

/-! ## Behind the gateway -/

/-- The handler pulls the events of a stream: those it has not pulled come behind those it has, and none is left
    when it has seen the end. -/
structure Pulls (labels : List (Relay.Label UnifiedStreamEvent)) (stream : List UnifiedStreamEvent) : Prop where
  prefix_eq : ∃ unread, stream = Relay.events labels ++ unread ∧ (.finished ∈ labels → unread = [])
  notThrown : Relay.thrown labels = none

/-- Behind an error nothing of a stream is looked at. -/
theorem shownFrames_of_failure {events : List UnifiedStreamEvent} (unread : List UnifiedStreamEvent)
    {message : String} (h : failureIn events = some message) :
    shownFrames responseId (events ++ unread) = shownFrames responseId events ∧
      failureIn (events ++ unread) = some message := by
  unfold failureIn at h ⊢
  constructor
  · unfold shownFrames
    congr 2
    rw [List.takeWhile_append, if_neg]
    intro hall
    have hnone : ∀ event ∈ events, errorMessage event = none := by
      have heq := List.takeWhile_prefix (fun event => (errorMessage event).isNone) |>.eq_of_length hall
      intro event he
      rw [← heq] at he
      have hquiet : (errorMessage event).isNone = true :=
        List.mem_takeWhile_imp (p := fun event => (errorMessage event).isNone) he
      exact Option.isNone_iff_eq_none.mp hquiet
    rw [List.findSome?_eq_none_iff.mpr hnone] at h
    cases h
  · rw [List.findSome?_append, h]
    rfl

/-- **What the client gets of a stream** that the handler pulls to where it leaves it. -/
theorem sent_of_pulls {stream : List UnifiedStreamEvent} (hrun : Lts.Run (step responseId) start labels t)
    (hpulls : Pulls labels stream) (hreturned : t.phase = .returned) (hstays : .close ∉ labels) :
    t.sent = shownFrames responseId stream ++ errorFrames (failureIn stream) ++ [.ended] := by
  rw [sent_of_returned hrun hreturned hstays, failureOf, hpulls.notThrown, Option.or_none]
  obtain ⟨unread, rfl, hall⟩ := hpulls.prefix_eq
  rcases Relay.returned_cases hrun rfl hstays rfl hreturned with hfinished | hthrown | ⟨event, he, hbroken⟩
  · rw [hall hfinished, List.append_nil]
  · rw [hpulls.notThrown] at hthrown
    cases hthrown
  · -- the loop was left behind an error, and the rest of the stream does not matter
    obtain ⟨message, hmessage⟩ : ∃ message, failureIn (Relay.events labels) = some message := by
      apply Option.ne_none_iff_exists'.mp
      intro hnone
      have hquiet := failureIn_eq_none_iff.mp hnone event he
      rw [show (handler responseId).breaks event = (errorMessage event).isSome from rfl, hquiet] at hbroken
      cases hbroken
    obtain ⟨hshown, hfailure⟩ := @shownFrames_of_failure responseId (Relay.events labels) unread message hmessage
    rw [hshown, hfailure, hmessage]

/-- An attempt's events and the error it breaks off with, as a stream. -/
theorem shownFrames_append_failure (shown : List UnifiedStreamEvent) (failure : Option String) :
    shownFrames responseId (shown ++ failure.toList.map fun message => .error message none) =
        shownFrames responseId shown ∧
      failureIn (shown ++ failure.toList.map fun message => .error message none) =
        (failureIn shown).or failure := by
  have herrors : failureIn (failure.toList.map fun message => .error message none) = failure := by
    cases failure <;> rfl
  constructor
  · cases hfailure : failureIn shown with
    | some message => exact (shownFrames_of_failure _ hfailure).1
    | none =>
        have hall : (shown.takeWhile fun event => (errorMessage event).isNone) = shown :=
          List.takeWhile_eq_self_iff.mpr fun event he =>
            Option.isNone_iff_eq_none.mpr (failureIn_eq_none_iff.mp hfailure event he)
        unfold shownFrames
        rw [List.takeWhile_append, hall, if_pos rfl]
        cases failure with
        | none => rw [Option.toList_none, List.map_nil, List.takeWhile_nil, List.append_nil]
        | some message =>
            rw [Option.toList_some, List.map_singleton, List.takeWhile_cons_of_neg (by simp [errorMessage]),
              List.append_nil]
  · show (shown ++ _).findSome? errorMessage = _
    rw [List.findSome?_append]
    exact congrArg _ herrors

/-- **What a streaming client of `/v1/responses` gets of a provider chain.** In a run nobody disturbs, the client
    gets the texts and the completion of the first provider that speaks, up to the first error, an error frame if
    there was one, in the stream or behind it, and `end()`. Without a speaker it gets one error frame and
    `end()`. -/
theorem responses_over_chain {env : Env} (hd : env.Drained) (hwakes : ∀ id, env.idleInBackoff id = false)
    (request : UnifiedAiRequest) (chain : List ChainEntry) (w : World) (responseId : String)
    {labels : List (Relay.Label UnifiedStreamEvent)} {t : Session}
    (hrun : Lts.Run (step responseId) start labels t)
    (hpulls : Pulls labels ((received (streamOverChain env request chain w).actions).map Prod.snd))
    (hreturned : t.phase = .returned) (hstays : .close ∉ labels) :
    (∀ i a entry, Speaker env request chain w i a entry →
      t.sent = shownFrames responseId (attemptOf env i entry.provider (enrichedRequest request entry) a).shown ++
        errorFrames ((failureIn (attemptOf env i entry.provider (enrichedRequest request entry) a).shown).or
          (attemptOf env i entry.provider (enrichedRequest request entry) a).failure) ++ [.ended]) ∧
    ((∀ i, ¬ Speaks env request chain w i) →
      t.sent = errorFrames (some (allFailedMessage request (lastFailure env request 0 chain none w))) ++
        [.ended]) := by
  rw [sent_of_pulls hrun hpulls hreturned hstays]
  constructor
  · intro i a entry hspeaker
    have hheard := streamChain_of_speaker hd hwakes chain 0 none w i hspeaker
    rw [Nat.zero_add] at hheard
    obtain ⟨hshown, hfailure⟩ := @shownFrames_append_failure responseId
      (attemptOf env i entry.provider (enrichedRequest request entry) a).shown
      (attemptOf env i entry.provider (enrichedRequest request entry) a).failure
    have hstream : (received (streamOverChain env request chain w).actions).map Prod.snd =
        (attemptOf env i entry.provider (enrichedRequest request entry) a).shown ++
          (attemptOf env i entry.provider (enrichedRequest request entry) a).failure.toList.map
            fun message => .error message none := by
      rw [streamOverChain, hheard.received, List.map_append, List.map_map, List.map_map]
      simp [Function.comp_def]
    rw [hstream, hshown, hfailure]
  · intro hnone
    rw [streamOverChain, (streamChain_exhausted hd hwakes chain 0 none w hnone).1]
    rfl

/-- The second provider's second attempt says something and breaks off. -/
theorem responses_over_chain_cutOff :
    ∃ t, Lts.Run (step "resp_1") start
        [.event (.contentDelta (.json (.str "Hel"))), .event (.error "terminated" none), .returned] t ∧
      t.sent = shownFrames "resp_1" [.contentDelta (.json (.str "Hel"))] ++ errorFrames (some "terminated") ++
        [.ended] := by
  obtain ⟨t, ht, hreturned⟩ : ∃ t, Lts.Run (step "resp_1") start
      [.event (.contentDelta (.json (.str "Hel"))), .event (.error "terminated" none), .returned] t ∧
      t.phase = .returned := ⟨_, Lts.run_iff_exec.mpr rfl, rfl⟩
  have hspeaker : Speaker cutOffEnv flakyRequest flakyChain idleWorld 1 1 ⟨⟨"anthropic", .anthropic⟩, "m"⟩ := by
    refine ⟨rfl, ⟨⟨_, rfl⟩, rfl, Or.inl (by decide)⟩, ?_⟩
    rintro j hj ⟨entry, a, hentry, -, hloud, -⟩
    obtain rfl : j = 0 := by omega
    obtain rfl := Option.some.inj hentry
    cases hloud
  have hreceived : received (streamOverChain cutOffEnv flakyRequest flakyChain idleWorld).actions =
      [(some ⟨1, 1⟩, .contentDelta (.json (.str "Hel"))), (none, .error "terminated" none)] :=
    (streamChain_of_speaker ⟨rfl, rfl⟩ (fun _ => rfl) flakyChain 0 none idleWorld 1 hspeaker).received
  exact ⟨t, ht, (responses_over_chain ⟨rfl, rfl⟩ (fun _ => rfl) flakyRequest flakyChain idleWorld "resp_1" ht
    ⟨⟨[], by rw [hreceived]; rfl, fun _ => rfl⟩, rfl⟩ hreturned (by decide)).1 _ _ _ hspeaker⟩

end ResponsesSession

end Sirius
