import SiriusGateway.Adapters.NovaStream

/-!
# `Correctness.NovaStreams` — the two nova adapters side by side

llamactl stops at the first terminal event of a nova stream and turns every truncation, and every throw, into
an error. The from-file shim runs to the end of the stream and takes each event as it is. They agree on the
streams that end well, and on no others.

## Contents
- **Events.** Terminal, silent and outcome events, and what either loop does at one of them
  (`Llamactl.streamEvents_eq`).
- **Streams.** `Stream.EndsOnce`, the streams both loops read alike.
- **Requests.** What the two mappers make of a request: llamactl's carries `stop` and `user`.
- **Results.** The adapters on all cores, and llamactl on its own.
-/

namespace Sirius

open Js

namespace Nova

/-! ## Events -/

/-- The event ends llamactl's loop: an `error`, a `done`, or a chunk that cannot be read. -/
def StreamEvent.isTerminal : StreamEvent → Bool
  | .chunk raw => !(deltaContent raw).isOk
  | .toolCall => false
  | .error _ _ => true
  | .done _ _ => true

/-- The event says how the answer ended: with an error, or with a completion upstream. -/
def StreamEvent.isOutcome : StreamEvent → Bool
  | .error _ _ => true
  | .done _ completion => completion = some "upstream"
  | _ => false

/-- Nothing is yielded for the event: a tool call, or a chunk without text. -/
def StreamEvent.isSilent (ev : StreamEvent) : Bool :=
  match novaStreamEventToSirius ev with
  | .ok none => true
  | _ => false

/-- The text delta of a chunk. -/
def StreamEvent.text : StreamEvent → Option UnifiedStreamEvent
  | .chunk raw =>
      match deltaContent raw with
      | .ok delta => contentDelta delta
      | .error _ => none
  | _ => none

theorem StreamEvent.isTerminal_of_isOutcome {ev : StreamEvent} (h : ev.isOutcome = true) : ev.isTerminal = true := by
  cases ev with
  | error message code => rfl
  | done finishReason completion => rfl
  | chunk raw => cases h
  | toolCall => cases h

theorem StreamEvent.isSilent_iff {ev : StreamEvent} :
    ev.isSilent = true ↔ novaStreamEventToSirius ev = .ok none := by
  unfold StreamEvent.isSilent
  split
  · rename_i h
    simp [h]
  · rename_i h
    simpa using h

/-- An event the loop goes on behind is translated to its text. -/
theorem novaStreamEventToSirius_of_open {ev : StreamEvent} (h : ev.isTerminal = false) :
    novaStreamEventToSirius ev = .ok ev.text := by
  cases ev with
  | error message code => cases h
  | done finishReason completion => cases h
  | toolCall => rfl
  | chunk raw =>
      simp only [novaStreamEventToSirius, StreamEvent.text]
      cases hdelta : deltaContent raw with
      | ok delta => rfl
      | error e => simp [StreamEvent.isTerminal, hdelta, Except.isOk, Except.toBool] at h

/-- A chunk that ends the loop is one whose text cannot be read. -/
theorem deltaContent_of_terminal {raw : JsValue} (h : (StreamEvent.chunk raw).isTerminal = true) :
    ∃ e, deltaContent raw = .error e := by
  cases hdelta : deltaContent raw with
  | ok delta => simp [StreamEvent.isTerminal, hdelta, Except.isOk, Except.toBool] at h
  | error e => exact ⟨e, rfl⟩

/-- A text is a content delta. -/
theorem StreamEvent.text_eq_some {ev : StreamEvent} {event : UnifiedStreamEvent} (h : ev.text = some event) :
    ∃ s, s ≠ "" ∧ event = .contentDelta (.json (.str s)) := by
  cases ev with
  | chunk raw =>
      simp only [StreamEvent.text] at h
      split at h
      · rename_i delta hdelta
        unfold contentDelta at h
        split at h
        · rename_i s
          by_cases hs : s = ""
          · simp [hs] at h
          · rw [if_neg hs] at h
            exact ⟨s, hs, (Option.some.inj h).symm⟩
        · cases h
      · cases h
  | error message code => cases h
  | done finishReason completion => cases h
  | toolCall => cases h

end Nova

/-! ### The shim's loop -/

namespace FromFile

/-- Any event that does not end llamactl's loop is translated, and the loop goes on. -/
theorem streamEvents_open {thrown : Option String} {ev : Nova.StreamEvent} {events : List Nova.StreamEvent}
    (h : ev.isTerminal = false) :
    streamEvents thrown (ev :: events) =
      ⟨ev.text.toList ++ (streamEvents thrown events).events, (streamEvents thrown events).ending⟩ := by
  simp only [streamEvents, Nova.novaStreamEventToSirius_of_open h]

/-- The loop yields nothing, and ends, on events nothing is yielded for. -/
theorem streamEvents_eq_nil_iff {events : List Nova.StreamEvent} :
    streamEvents none events = ⟨[], .finished⟩ ↔ ∀ ev ∈ events, ev.isSilent = true := by
  induction events with
  | nil => exact ⟨fun _ _ h => (List.not_mem_nil h).elim, fun _ => rfl⟩
  | cons ev events ih =>
      rw [List.forall_mem_cons, ← ih, Nova.StreamEvent.isSilent_iff]
      conv_lhs => unfold streamEvents
      split
      · rename_i e h
        simp [h]
      · rename_i translated h
        simp only [h, Except.ok.injEq, StreamAttempt.mk.injEq, List.append_eq_nil_iff, Option.toList_eq_nil_iff]
        constructor
        · rintro ⟨⟨htranslated, hevents⟩, hending⟩
          refine ⟨htranslated, ?_⟩
          cases hrest : streamEvents none events with
          | mk rest ending =>
              rw [hrest] at hevents hending
              exact StreamAttempt.mk.injEq .. ▸ ⟨hevents, hending⟩
        · rintro ⟨htranslated, hrest⟩
          rw [hrest]
          exact ⟨⟨htranslated, rfl⟩, rfl⟩

/-- A stream that throws is thrown on, wherever it gets to. -/
theorem ending_ne_finished (message : String) (events : List Nova.StreamEvent) :
    (streamEvents (some message) events).ending ≠ .finished := by
  induction events with
  | nil => simp [streamEvents]
  | cons ev events ih =>
      unfold streamEvents
      split
      · simp
      · exact ih

end FromFile

/-! ### The loop of llamactl -/

namespace Llamactl

theorem streamEvents_error (thrown : Option String) (message : String) (code : Option String)
    (events : List Nova.StreamEvent) :
    streamEvents thrown (.error message code :: events) = [Nova.errorEvent message code] := rfl

theorem streamEvents_upstream (thrown finishReason : Option String) (events : List Nova.StreamEvent) :
    streamEvents thrown (.done finishReason (some "upstream") :: events) =
      [.done (finishReason.getD "stop")] := rfl

/-- A completion that is not upstream's is an error. -/
theorem streamEvents_truncated {thrown finishReason completion : Option String} {events : List Nova.StreamEvent}
    (h : completion ≠ some "upstream") :
    streamEvents thrown (.done finishReason completion :: events) = [upstreamEof] := by
  show (if completion = some "upstream" then _ else _) = _
  rw [if_neg h]

/-- A chunk that cannot be read is an error. -/
theorem streamEvents_unreadable {thrown : Option String} {raw : JsValue} {e : JsError}
    {events : List Nova.StreamEvent} (h : Nova.deltaContent raw = .error e) :
    streamEvents thrown (.chunk raw :: events) = [caught e.message] := by
  simp [streamEvents, Nova.novaStreamEventToSirius, h, Except.map]

/-- Any other event is translated, and the loop goes on. -/
theorem streamEvents_open {thrown : Option String} {ev : Nova.StreamEvent} {events : List Nova.StreamEvent}
    (h : ev.isTerminal = false) :
    streamEvents thrown (ev :: events) = ev.text.toList ++ streamEvents thrown events := by
  have htranslated := Nova.novaStreamEventToSirius_of_open h
  cases ev with
  | error message code => cases h
  | done finishReason completion => cases h
  | chunk raw => simp only [streamEvents, htranslated]
  | toolCall => rfl

/-- At a terminal event the loop yields one event and ends; it is a `done` for a completion upstream only. -/
theorem streamEvents_terminal {thrown : Option String} {ev : Nova.StreamEvent} {events : List Nova.StreamEvent}
    (h : ev.isTerminal = true) :
    (∃ finishReason, ev = .done finishReason (some "upstream") ∧
        streamEvents thrown (ev :: events) = [.done (finishReason.getD "stop")]) ∨
      (∀ finishReason, ev ≠ .done finishReason (some "upstream")) ∧
        ∃ message code, streamEvents thrown (ev :: events) = [.error message code] := by
  cases ev with
  | error message code =>
      refine Or.inr ⟨fun _ => nofun, message, _, streamEvents_error thrown message code events⟩
  | done finishReason completion =>
      by_cases hcompletion : completion = some "upstream"
      · subst hcompletion
        exact Or.inl ⟨finishReason, rfl, rfl⟩
      · refine Or.inr ⟨?_, _, _, streamEvents_truncated hcompletion⟩
        intro reason heq
        exact hcompletion (Nova.StreamEvent.done.inj heq).2
  | chunk raw =>
      obtain ⟨e, he⟩ := Nova.deltaContent_of_terminal h
      exact Or.inr ⟨fun _ => nofun, _, _, streamEvents_unreadable he⟩
  | toolCall => cases h

/-- **The loop in one equation**: the texts before the first terminal event, and one terminal event. -/
theorem streamEvents_eq (thrown : Option String) (events : List Nova.StreamEvent) :
    ∃ last, streamEvents thrown events =
        (events.takeWhile fun ev => !ev.isTerminal).filterMap Nova.StreamEvent.text ++ [last] ∧
      ((∃ finishReason, last = .done (finishReason.getD "stop") ∧
          events.find? Nova.StreamEvent.isTerminal = some (.done finishReason (some "upstream"))) ∨
        (∃ message code, last = .error message code) ∧
          ∀ finishReason,
            events.find? Nova.StreamEvent.isTerminal ≠ some (.done finishReason (some "upstream"))) := by
  induction events with
  | nil =>
      refine ⟨thrown.elim upstreamEof caught, ?_, Or.inr ⟨?_, fun _ => nofun⟩⟩
      · cases thrown <;> rfl
      · cases thrown <;> exact ⟨_, _, rfl⟩
  | cons ev events ih =>
      cases hterminal : ev.isTerminal with
      | false =>
          obtain ⟨last, hevents, hlast⟩ := ih
          refine ⟨last, ?_, ?_⟩
          · rw [streamEvents_open hterminal, hevents, List.takeWhile_cons, hterminal]
            cases htext : ev.text <;> simp [htext]
          · rw [List.find?_cons, hterminal]
            exact hlast
      | true =>
          rw [List.takeWhile_cons, List.find?_cons, hterminal]
          obtain ⟨finishReason, rfl, hdone⟩ | ⟨hne, message, code, herror⟩ :=
            @streamEvents_terminal thrown ev events hterminal
          · exact ⟨_, hdone, Or.inl ⟨finishReason, rfl, rfl⟩⟩
          · refine ⟨_, herror, Or.inr ⟨⟨message, code, rfl⟩, ?_⟩⟩
            intro finishReason heq
            exact hne finishReason (Option.some.inj heq)

/-- The loop always yields something. -/
theorem streamEvents_ne_nil (thrown : Option String) (events : List Nova.StreamEvent) :
    streamEvents thrown events ≠ [] := by
  obtain ⟨last, hevents, -⟩ := streamEvents_eq thrown events
  rw [hevents]
  exact List.append_ne_nil_of_right_ne_nil _ (List.cons_ne_nil _ _)

/-- A `done` of llamactl is a completion upstream. -/
theorem done_mem_streamEvents {thrown : Option String} {events : List Nova.StreamEvent} {reason : String}
    (h : .done reason ∈ streamEvents thrown events) :
    ∃ finishReason, .done finishReason (some "upstream") ∈ events ∧ reason = finishReason.getD "stop" := by
  obtain ⟨last, hevents, hlast⟩ := streamEvents_eq thrown events
  rw [hevents, List.mem_append, List.mem_filterMap, List.mem_singleton] at h
  obtain ⟨ev, -, htext⟩ | rfl := h
  · obtain ⟨s, -, hdelta⟩ := Nova.StreamEvent.text_eq_some htext
    cases hdelta
  · obtain ⟨finishReason, hreason, hfind⟩ | ⟨⟨message, code, herror⟩, -⟩ := hlast
    · exact ⟨finishReason, List.mem_of_find?_eq_some hfind, UnifiedStreamEvent.done.inj hreason⟩
    · cases herror

end Llamactl

/-! ## Streams -/

namespace Nova

/-- There is one outcome: nothing terminal comes before it, and behind it nothing that is yielded. -/
def EndsOnce (events : List StreamEvent) : Prop :=
  ∃ before last after, events = before ++ last :: after ∧ (∀ ev ∈ before, ev.isTerminal = false) ∧
    last.isOutcome = true ∧ ∀ ev ∈ after, ev.isSilent = true

theorem not_endsOnce_nil : ¬ EndsOnce [] := by
  rintro ⟨before, last, after, h, -⟩
  exact List.cons_ne_nil _ _ (List.append_eq_nil_iff.mp h.symm).2

/-- A terminal event has to be the outcome. -/
theorem endsOnce_cons_terminal_iff {ev : StreamEvent} {events : List StreamEvent} (h : ev.isTerminal = true) :
    EndsOnce (ev :: events) ↔ ev.isOutcome = true ∧ ∀ ev' ∈ events, ev'.isSilent = true := by
  constructor
  · rintro ⟨before, last, after, hsplit, hbefore, hlast, hafter⟩
    cases before with
    | nil =>
        obtain ⟨rfl, rfl⟩ := List.cons.inj hsplit
        exact ⟨hlast, hafter⟩
    | cons first before =>
        obtain ⟨rfl, -⟩ := List.cons.inj hsplit
        rw [hbefore ev List.mem_cons_self] at h
        cases h
  · rintro ⟨hlast, hafter⟩
    exact ⟨[], ev, events, rfl, fun _ h => (List.not_mem_nil h).elim, hlast, hafter⟩

/-- Any other event makes no difference. -/
theorem endsOnce_cons_open_iff {ev : StreamEvent} {events : List StreamEvent} (h : ev.isTerminal = false) :
    EndsOnce (ev :: events) ↔ EndsOnce events := by
  constructor
  · rintro ⟨before, last, after, hsplit, hbefore, hlast, hafter⟩
    cases before with
    | nil =>
        obtain ⟨rfl, rfl⟩ := List.cons.inj hsplit
        rw [StreamEvent.isTerminal_of_isOutcome hlast] at h
        cases h
    | cons first before =>
        obtain ⟨rfl, rfl⟩ := List.cons.inj hsplit
        exact ⟨before, last, after, rfl, fun e he => hbefore e (List.mem_cons_of_mem _ he), hlast, hafter⟩
  · rintro ⟨before, last, after, rfl, hbefore, hlast, hafter⟩
    refine ⟨ev :: before, last, after, rfl, ?_, hlast, hafter⟩
    intro e he
    obtain rfl | he := List.mem_cons.mp he
    · exact h
    · exact hbefore e he

end Nova

/-- **Both loops yield the same** when the stream has one outcome, by induction on its events. -/
theorem streamEvents_alike_iff (events : List Nova.StreamEvent) :
    FromFile.streamEvents none events = ⟨Llamactl.streamEvents none events, .finished⟩ ↔ Nova.EndsOnce events := by
  induction events with
  | nil =>
      constructor
      · intro h
        exact absurd (congrArg StreamAttempt.events h).symm (Llamactl.streamEvents_ne_nil none [])
      · intro h
        exact absurd h Nova.not_endsOnce_nil
  | cons ev events ih =>
      cases hterminal : ev.isTerminal with
      | false =>
          rw [FromFile.streamEvents_open hterminal, Llamactl.streamEvents_open hterminal,
            Nova.endsOnce_cons_open_iff hterminal, ← ih]
          cases FromFile.streamEvents none events with
          | mk rest ending => simp
      | true =>
          rw [Nova.endsOnce_cons_terminal_iff hterminal, ← FromFile.streamEvents_eq_nil_iff]
          cases hrest : FromFile.streamEvents none events with
          | mk rest ending =>
              cases ev with
              | error message code =>
                  rw [Llamactl.streamEvents_error]
                  simp [FromFile.streamEvents, Nova.novaStreamEventToSirius, Nova.StreamEvent.isOutcome, hrest]
              | done finishReason completion =>
                  by_cases hcompletion : completion = some "upstream"
                  · subst hcompletion
                    rw [Llamactl.streamEvents_upstream]
                    simp [FromFile.streamEvents, Nova.novaStreamEventToSirius, Nova.StreamEvent.isOutcome, hrest]
                  · -- a `done` that upstream has not signalled
                    rw [Llamactl.streamEvents_truncated hcompletion]
                    simp [FromFile.streamEvents, Nova.novaStreamEventToSirius, Nova.StreamEvent.isOutcome,
                      Llamactl.upstreamEof, hcompletion]
              | chunk raw =>
                  obtain ⟨e, he⟩ := Nova.deltaContent_of_terminal hterminal
                  simp [FromFile.streamEvents, Nova.novaStreamEventToSirius, Nova.StreamEvent.isOutcome, he,
                    Except.map]
              | toolCall => cases hterminal

/-! ## Requests -/

/-- The two mappers throw the same, and on the same requests. -/
theorem nova_mappers_agree (request : UnifiedAiRequest) :
    (∃ e, Nova.toNovaRequest request (.bool true) = .error e ∧ Nova.siriusRequestToNova request = .error e) ∨
      ∃ novaReq novaReq', Nova.toNovaRequest request (.bool true) = .ok novaReq ∧
        Nova.siriusRequestToNova request = .ok novaReq' := by
  unfold Nova.toNovaRequest Nova.siriusRequestToNova
  cases request.messages.mapM Nova.mapMessage with
  | error e => exact Or.inl ⟨e, rfl, rfl⟩
  | ok messages => exact Or.inr ⟨_, _, rfl, rfl⟩

/-- **The from-file mapper mirrors llamactl's** exactly on the requests both refuse and on those without
    `stop` and `user`. -/
theorem nova_requests_mirror_iff (request : UnifiedAiRequest) :
    Nova.toNovaRequest request request.stream = Nova.siriusRequestToNova request ↔
      (∃ msg ∈ request.messages, ¬IsContent msg.content) ∨ (request.stop = none ∧ request.user = .undefined) := by
  have hcontent := @Nova.succeeds_mapMessages_iff request.messages
  unfold Nova.toNovaRequest Nova.siriusRequestToNova
  cases hmessages : request.messages.mapM Nova.mapMessage with
  | error e =>
      have hrefused : ∃ msg ∈ request.messages, ¬IsContent msg.content := by
        by_contra hall
        push Not at hall
        obtain ⟨messages, hok⟩ := hcontent.mpr hall
        rw [hmessages] at hok
        cases hok
      exact ⟨fun _ => Or.inl hrefused, fun _ => rfl⟩
  | ok messages =>
      have hall := hcontent.mp ⟨messages, hmessages⟩
      have hnone : ¬∃ msg ∈ request.messages, ¬IsContent msg.content := by
        push Not
        exact hall
      rw [or_iff_right hnone]
      constructor
      · intro h
        have heq := Except.ok.inj h
        exact ⟨(congrArg Nova.Request.stop heq).symm, (congrArg Nova.Request.user heq).symm⟩
      · rintro ⟨hstop, huser⟩
        rw [hstop, huser]

/-- A request with a stop sequence and a user. -/
def stoppedRequest : UnifiedAiRequest where
  requestId := "req-1"
  model := .str "m"
  messages := [{ role := .json (.str "user"), content := .json (.str "hi") }]
  stream := .bool false
  stop := some [.str "END"]
  user := .json (.str "ada")

/-- **The from-file mapper drops the stop sequences and the user.** -/
theorem stop_and_user_not_mirrored :
    (Nova.toNovaRequest stoppedRequest stoppedRequest.stream).map (fun req => (req.stop, req.user)) =
        .ok (none, .undefined) ∧
      (Nova.siriusRequestToNova stoppedRequest).map (fun req => (req.stop, req.user)) =
        .ok (some [.str "END"], .json (.str "ada")) ∧
      ¬∀ request : UnifiedAiRequest,
        Nova.toNovaRequest request request.stream = Nova.siriusRequestToNova request := by
  have hshim : (Nova.toNovaRequest stoppedRequest stoppedRequest.stream).map (fun req => (req.stop, req.user)) =
      .ok (none, .undefined) := by decide
  have hllamactl : (Nova.siriusRequestToNova stoppedRequest).map (fun req => (req.stop, req.user)) =
      .ok (some [.str "END"], .json (.str "ada")) := by decide
  refine ⟨hshim, hllamactl, ?_⟩
  intro h
  rw [h stoppedRequest, hllamactl] at hshim
  simp at hshim

/-! ## Results -/

/-- A core that plays `stream`, whatever it is asked; or one that does not stream. -/
def Nova.StreamMethod.playing (stream : Option Nova.Stream) : Nova.StreamMethod :=
  stream.map fun stream _ => stream

/-- What both adapters owe to their core: the same attempt, and no `done` of the shim without a completion
    upstream. -/
def NovaStreamsAlike (name : String) (stream : Option Nova.Stream) (request : UnifiedAiRequest) : Prop :=
  let shim := FromFile.streamResponse (.playing stream) request
  shim = Llamactl.streamResponse name (.playing stream) request ∧
    ∀ reason, .done reason ∈ shim.events → ∃ played finishReason, stream = some played ∧
      .done finishReason (some "upstream") ∈ played.events ∧ reason = finishReason.getD "stop"

/-- **The nova adapters translate a stream alike** exactly when the request is one both refuse, or the core
    streams, does not throw, and its stream has one outcome. -/
theorem nova_streams_alike_iff (name : String) (stream : Option Nova.Stream) (request : UnifiedAiRequest) :
    NovaStreamsAlike name stream request ↔
      (∃ msg ∈ request.messages, ¬IsContent msg.content) ∨
        ∃ played, stream = some played ∧ played.thrown = none ∧ Nova.EndsOnce played.events := by
  unfold NovaStreamsAlike FromFile.streamResponse Llamactl.streamResponse
  obtain ⟨e, hshim, hllamactl⟩ | ⟨novaReq, novaReq', hshim, hllamactl⟩ := nova_mappers_agree request
  · -- both throw before there is a stream
    have hrefused : ∃ msg ∈ request.messages, ¬IsContent msg.content := by
      by_contra hall
      push Not at hall
      obtain ⟨novaReq, hok⟩ := Nova.succeeds_toNovaRequest_iff.mpr hall
      rw [hshim] at hok
      cases hok
    simp only [hshim, hllamactl]
    constructor
    · intro _
      exact Or.inl hrefused
    · intro _
      refine ⟨trivial, ?_⟩
      intro reason hmem
      cases hmem
  · have hcontent : ¬∃ msg ∈ request.messages, ¬IsContent msg.content := by
      push Not
      exact Nova.succeeds_toNovaRequest_iff.mp ⟨novaReq, hshim⟩
    simp only [hshim, hllamactl, hcontent, false_or]
    cases stream with
    | none => simp [Nova.StreamMethod.playing]
    | some played =>
        obtain ⟨events, thrown⟩ := played
        cases thrown with
        | some message =>
            simp only [Nova.StreamMethod.playing, Option.map_some, Option.some.injEq, exists_eq_left', reduceCtorEq,
              false_and, iff_false, not_and]
            intro h
            exact absurd (congrArg StreamAttempt.ending h) (FromFile.ending_ne_finished message events)
        | none =>
            simp only [Nova.StreamMethod.playing, Option.map_some, Option.some.injEq, exists_eq_left', true_and]
            rw [streamEvents_alike_iff]
            constructor
            · intro h
              exact h.1
            · intro h
              refine ⟨h, ?_⟩
              intro reason hmem
              rw [(streamEvents_alike_iff events).mpr h] at hmem
              obtain ⟨finishReason, hupstream, hreason⟩ := Llamactl.done_mem_streamEvents hmem
              exact ⟨_, finishReason, rfl, hupstream, hreason⟩

/-- A chunk with one text delta. -/
def textChunk (text : String) : Nova.StreamEvent :=
  .chunk (.json (.obj [("choices", .arr [.obj [("delta", .obj [("content", .str text)])]])]))

/-- A stream that breaks off. -/
def brokenOff : Nova.Stream := ⟨[textChunk "Hel", .done none (some "eof")], none⟩

/-- A request with one message. -/
def askedOnce : UnifiedAiRequest where
  requestId := "req-1"
  model := .str "m"
  messages := [{ role := .json (.str "user"), content := .json (.str "hi") }]
  stream := .bool true

/-- **The shim takes a stream that breaks off for a finished one.** -/
theorem broken_off_streams_finish :
    FromFile.streamResponse (.playing (some brokenOff)) askedOnce =
        ⟨[.contentDelta (.json (.str "Hel")), .done "stop"], .finished⟩ ∧
      Llamactl.streamResponse "llamactl-node" (.playing (some brokenOff)) askedOnce =
        ⟨[.contentDelta (.json (.str "Hel")), .error "upstream stream ended without a completion signal"
          (some "upstream_eof")], .finished⟩ ∧
      ¬∀ name stream request, (∀ msg ∈ request.messages, IsContent msg.content) →
        NovaStreamsAlike name stream request := by
  have hshim : FromFile.streamResponse (.playing (some brokenOff)) askedOnce =
      ⟨[.contentDelta (.json (.str "Hel")), .done "stop"], .finished⟩ := by decide
  have hllamactl : Llamactl.streamResponse "llamactl-node" (.playing (some brokenOff)) askedOnce =
      ⟨[.contentDelta (.json (.str "Hel")), .error "upstream stream ended without a completion signal"
        (some "upstream_eof")], .finished⟩ := by decide
  refine ⟨hshim, hllamactl, ?_⟩
  intro h
  have hcontent : ∀ msg ∈ askedOnce.messages, IsContent msg.content := by
    intro msg hmsg
    rw [List.mem_singleton.mp hmsg]
    exact Or.inl ⟨"hi", rfl⟩
  have hsame := (h "llamactl-node" (some brokenOff) askedOnce hcontent).1
  rw [hshim, hllamactl] at hsame
  simp at hsame

/-- **llamactl ends every stream exactly once**: once the core has its stream, the adapter does not throw; it
    yields the texts before the first error, `done` or throw, and one terminal event behind them. -/
theorem llamactl_stream_ends_once (name : String) (method : Nova.Request → Nova.Stream) (request : UnifiedAiRequest)
    (novaReq : Nova.Request) (hmapped : Nova.siriusRequestToNova request = .ok novaReq) :
    let events := (method novaReq).events
    let texts := (events.takeWhile fun ev => !ev.isTerminal).filterMap Nova.StreamEvent.text
    ∃ last, Llamactl.streamResponse name (some method) request = ⟨texts ++ [last], .finished⟩ ∧
      (∀ event ∈ texts, event.isTerminal = false) ∧ last.isTerminal = true ∧
      (last.isDone = true ↔
        ∃ finishReason, events.find? Nova.StreamEvent.isTerminal = some (.done finishReason (some "upstream"))) := by
  intro events texts
  obtain ⟨last, hevents, hlast⟩ := Llamactl.streamEvents_eq (method novaReq).thrown events
  refine ⟨last, ?_, ?_, ?_⟩
  · unfold Llamactl.streamResponse
    rw [hmapped]
    exact congrArg (fun sent => (⟨sent, .finished⟩ : StreamAttempt)) hevents
  · intro event hmem
    obtain ⟨ev, -, htext⟩ := List.mem_filterMap.mp hmem
    obtain ⟨s, -, rfl⟩ := Nova.StreamEvent.text_eq_some htext
    rfl
  · obtain ⟨finishReason, rfl, hfind⟩ | ⟨⟨message, code, rfl⟩, hfind⟩ := hlast
    · exact ⟨rfl, fun _ => ⟨finishReason, hfind⟩, fun _ => rfl⟩
    · refine ⟨rfl, nofun, ?_⟩
      rintro ⟨finishReason, hdone⟩
      exact absurd hdone (hfind finishReason)

/-- A chunk without `choices` behind a text. -/
def unreadable : Nova.Stream := ⟨[textChunk "Hel", .chunk (.json (.obj [])), .done none (some "upstream")], none⟩

/-- A chunk without `choices` ends the stream with an error, although upstream completes. -/
theorem llamactl_stream_ends_once_unreadable :
    ∃ last, Llamactl.streamResponse "llamactl-node" (some fun _ => unreadable) askedOnce =
        ⟨[.contentDelta (.json (.str "Hel")), last], .finished⟩ ∧ last.isDone = false := by
  have hmapped : (Nova.siriusRequestToNova askedOnce).Succeeds := by
    refine Nova.succeeds_siriusRequestToNova_iff.mpr ?_
    intro msg hmsg
    rw [List.mem_singleton.mp hmsg]
    exact Or.inl ⟨"hi", rfl⟩
  obtain ⟨novaReq, hmapped⟩ := hmapped
  obtain ⟨last, hattempt, -, -, hdone⟩ :=
    llamactl_stream_ends_once "llamactl-node" (fun _ => unreadable) askedOnce novaReq hmapped
  refine ⟨last, hattempt, ?_⟩
  rw [← Bool.not_eq_true, hdone]
  rintro ⟨finishReason, hfind⟩
  have hfirst : unreadable.events.find? Nova.StreamEvent.isTerminal = some (.chunk (.json (.obj []))) := by decide
  rw [hfirst] at hfind
  cases hfind

end Sirius
