import Mathlib.Data.List.TakeWhile
import SiriusGateway.Correctness.ChatTranscript
import SiriusGateway.Correctness.Drained
import SiriusGateway.Correctness.SseRoundTrip

/-!
# `Correctness.Cascade` — what a gateway behind a gateway reads

An OpenAI upstream may itself be a gateway: its chat handler writes the frames that the outer gateway's
`parseOpenAiStream` reads. What the outer one reads is decided by what the inner handler was given
(`cascade_reads`): the events before the first error, less the empty strings, each `done` with the reason that
comes back of its own. An error event comes out as a `done` with reason `stop`, since the error chunk's finish
reason is in no table; a stream that throws comes out as one that just ends.

## Contents
- **Frames.** `Frame.Carries`: a frame and the events its line yields, for each kind of frame the handler writes.
- **The bytes.** `bytesOf`, and what the parser makes of them (`parse_of_frames`).
- **A gateway behind a gateway.** `relayed`, `cascade_reads`.
- **From the upstream to the client.** `relay_reads`: the same, from what one adapter's upstream sent on.
-/

namespace Sirius

open Js Compat ChatSession

/-! ## Frames -/

/-- The frame is a `data: ` line and a blank one, and the line yields these events. -/
def Frame.Carries (frame : Frame) (events : List UnifiedStreamEvent) : Prop :=
  ∃ text, frame.text = "data: " ++ text ++ "\n\n" ∧ '\n' ∉ ("data: " ++ text).toList ∧
    Yields ("data: " ++ text) events

variable {responseId model : String}

theorem carries_data {fields : List (String × Json)} (hplain : (Json.obj fields).Plain)
    {events : List UnifiedStreamEvent} (h : OpenAi.processChunk (.obj fields) = ⟨events, .ok ()⟩) :
    (Frame.data (.obj fields)).Carries events :=
  ⟨stringify (.obj fields), rfl, newline_not_mem_frame _, (processLine_frame hplain).trans h⟩

theorem carries_sentinel : Frame.sentinel.Carries [] := ⟨"[DONE]", rfl, by decide, yields_done⟩

theorem carries_first (created : Nat) :
    (Frame.data (formatFirstStreamChunk created responseId (.str model))).Carries [] :=
  ⟨_, rfl, newline_not_mem_frame _, yields_first created responseId model⟩

/-- The chunk of an event carries what comes back of the event. -/
theorem carries_isChunk {event : UnifiedStreamEvent} (h : AsDeclared event) {frame : Frame}
    (hframe : IsChunk responseId (.str model) event frame) : frame.Carries (reread event).toList := by
  obtain ⟨created, chunk, hchunk, rfl⟩ := hframe
  obtain ⟨fields, rfl, hplain, hprocess⟩ := processChunk_asDeclared h hchunk
  exact carries_data hplain hprocess

/-- The error chunk reads as a stream that stops: its finish reason is one the parser does not know. -/
theorem carries_errorChunk (created : Nat) :
    (Frame.data (errorChunk responseId (.str model) created)).Carries [.done "stop"] := by
  have hempty : (wireObject []).Plain := plain_wireObject List.nodup_nil (by simp)
  have hplain : (errorChunk responseId (.str model) created).Plain :=
    plain_choicesChunk (plain_choices hempty (plainValue_json.mpr (plain_str "error")))
  have hmap : OpenAi.mapFinishReason (.json (.str "error")) = .ok "stop" := by decide
  have htruthy : (JsValue.json (.str "error")).truthy = true := by decide
  refine carries_data hplain ((processChunk_choice created responseId _ _ JsValue.noConfusion).trans ?_)
  simp only [OpenAi.yieldContent, OpenAi.yieldToolCallDeltas, OpenAi.yieldDone, prop_wireObject_nil,
    truthy_undefined, Bool.false_eq_true, if_false, pure_bind, htruthy, if_true, hmap, Gen.lift_ok]
  rfl

/-- The error frame of a stream that threw has no choices: it is skipped. -/
theorem carries_formatError (message : String) : (Frame.data (formatError 500 message)).Carries [] := by
  have hnames : arrayIndex "error" = none ∧ arrayIndex "message" = none ∧ arrayIndex "type" = none ∧
      arrayIndex "param" = none ∧ arrayIndex "code" = none := by decide
  have hbody : (wireObject [("message", .json (.str message)), ("type", .json (.str (errorTypeOf 500))),
      ("param", .json .null), ("code", .json .null)]).Plain := by
    apply plain_wireObject
    · show ["message", "type", "param", "code"].Nodup
      decide
    · simp [hnames]
  have hplain : (formatError 500 message).Plain := plain_single hnames.1 (plainValue_json.mpr hbody)
  refine carries_data hplain ?_
  have husage : OpenAi.toUsageEvent (formatError 500 message) = .ok none := by
    simp [OpenAi.toUsageEvent, formatError]
    rfl
  have hchoice : (first ((formatError 500 message).prop "choices")).truthy = false := by
    simp [formatError, first]
  show OpenAi.processChunk (formatError 500 message) = _
  unfold OpenAi.processChunk
  rw [husage, Gen.lift_ok]
  simp [hchoice, OpenAi.yieldUsage]
  rfl

/-! ## The bytes -/

/-- The bytes the handler has put on the connection. -/
def bytesOf (sent : List Sent) : List UInt8 :=
  sent.flatMap fun
    | .frame frame => encodeUtf8 frame.text
    | .ended => []

theorem bytesOf_writes (frames : List Frame) :
    bytesOf (writes frames) = (frames.map Frame.text).flatMap encodeUtf8 := by
  unfold bytesOf writes
  rw [List.flatMap_map, List.flatMap_map]

theorem bytesOf_append (l r : List Sent) : bytesOf (l ++ r) = bytesOf l ++ bytesOf r := List.flatMap_append

/-- **What the parser makes of frames**: the events they carry, one frame after the other, however the bytes
    are cut. -/
theorem parse_of_frames {frames : List Frame} {groups : List (List UnifiedStreamEvent)}
    (h : List.Forall₂ Frame.Carries frames groups) {body : ByteBody}
    (hbytes : body.bytes = (frames.map Frame.text).flatMap encodeUtf8) (hclosed : body.ending = .closed) :
    OpenAi.parser.parseStream (body.decode utf8) = ⟨groups.flatten, .finished⟩ := by
  obtain ⟨lines, hlines, hyields, hgroups⟩ : ∃ lines : List (String × List UnifiedStreamEvent),
      frames.map Frame.text = (lines.map Prod.fst).map (· ++ "\n\n") ∧
      (∀ line ∈ lines, ('\n' ∉ line.1.toList ∧ line.1.toList.head? = some 'd') ∧ Yields line.1 line.2) ∧
      lines.flatMap Prod.snd = groups.flatten := by
    clear hbytes
    induction h with
    | nil => exact ⟨[], rfl, fun _ h => absurd h List.not_mem_nil, rfl⟩
    | @cons frame events frames groups hframe _ ih =>
        obtain ⟨text, htext, hnewline, hyield⟩ := hframe
        obtain ⟨lines, hlines, hyields, hgroups⟩ := ih
        refine ⟨("data: " ++ text, events) :: lines, ?_, ?_, ?_⟩
        · rw [List.map_cons, htext, hlines]
          rfl
        · have hhead : ("data: " ++ text).toList.head? = some 'd' := by
            rw [String.toList_append]
            rfl
          exact List.forall_mem_cons.mpr ⟨⟨⟨hnewline, hhead⟩, hyield⟩, hyields⟩
        · rw [List.flatMap_cons, hgroups, List.flatten_cons]
  have htext : (body.decode utf8).text =
      String.ofList (((lines.map Prod.fst).map (· ++ "\n\n")).flatMap String.toList) := by
    rw [text_decode, hbytes, hlines, flatMap_encodeUtf8]
    apply utf8_decode_encode
    rw [String.toList_ofList]
    cases lines with
    | nil => exact nofun
    | cons line lines =>
        have hhead := (hyields line List.mem_cons_self).1.2
        rw [List.map_cons, List.map_cons, List.flatMap_cons, String.toList_append, List.append_assoc,
          List.head?_append, hhead, Option.some_or]
        decide
  have hbody : (body.decode utf8).lines = lines.flatMap fun line => [line.1, ""] := by
    rw [lines_frames ?_ htext, List.flatMap_map]
    intro text hmem
    obtain ⟨line, hline, rfl⟩ := List.mem_map.mp hmem
    exact (hyields line hline).1.1
  have hrun : OpenAi.parser.processLines (body.decode utf8).lines OpenAi.parser.init =
      ⟨groups.flatten, .ok ()⟩ := by
    rw [hbody, ← hgroups]
    exact processLines_frames fun line hline => (hyields line hline).2
  rw [OpenAi.parser.parseStream_eq, hrun, ending_decode, hclosed]

/-! ## A gateway behind a gateway -/

/-- The frames of the events carry what comes back of them. -/
theorem carries_framed {events : List UnifiedStreamEvent} (h : ∀ e ∈ events, AsDeclared e) {frames : List Frame}
    (hframes : Framed responseId (.str model) events frames) :
    ∃ groups, List.Forall₂ Frame.Carries frames groups ∧ groups.flatten = events.filterMap reread := by
  have hchunks : ∀ {events : List UnifiedStreamEvent} {frames : List Frame}, (∀ e ∈ events, AsDeclared e) →
      List.Forall₂ (IsChunk responseId (.str model)) events frames →
      List.Forall₂ Frame.Carries frames (events.map fun e => (reread e).toList) := by
    intro events frames hall hframes
    induction hframes with
    | nil => exact .nil
    | cons hframe _ ih =>
        obtain ⟨hevent, hrest⟩ := List.forall_mem_cons.mp hall
        exact .cons (carries_isChunk hevent hframe) (ih hrest)
  have hflatten : ∀ events : List UnifiedStreamEvent,
      (events.map fun e => (reread e).toList).flatten = events.filterMap reread := by
    intro events
    rw [← List.flatMap_def, List.filterMap_eq_flatMap_toList]
  unfold Framed at hframes
  split at hframes
  · obtain ⟨quiet, first, rest, created, framesQuiet, framesRest, rfl, -, -, hquiet, hrest, rfl⟩ := hframes
    obtain ⟨hallQuiet, hallRest⟩ := List.forall_mem_append.mp h
    refine ⟨_, List.rel_append (hchunks hallQuiet hquiet) (.cons (carries_first created) (hchunks hallRest hrest)),
      ?_⟩
    rw [List.flatten_append, List.flatten_cons, hflatten, hflatten, List.nil_append, List.filterMap_append]
  · exact ⟨_, hchunks h hframes, hflatten events⟩

/-- A stream that throws has reported no error before. -/
theorem received_of_threw {labels : List Label} (h : Staying labels) {message : String}
    (hthrew : .threw message ∈ labels) : ∀ e ∈ ChatSession.received labels, e.isError = false := by
  induction h with
  | finished => exact nofun
  | threw message' => exact nofun
  | error message' code => simp at hthrew
  | event event herror _ ih =>
      refine List.forall_mem_cons.mpr ⟨herror, ih ?_⟩
      exact (List.mem_cons.mp hthrew).resolve_left nofun

/-- What a gateway in front of the handler reads. -/
def relayed (events : List UnifiedStreamEvent) : List UnifiedStreamEvent :=
  (events.takeWhile fun event => !event.isError).filterMap reread ++
    if events.any (·.isError) then [.done "stop"] else []

variable {clock : Nat → Nat} {labels : List Label} {t : Session}

/-- What the handler has written when it returns to a client that stayed carries what `relayed` says. -/
theorem carries_of_run (h : Lts.Run (Session.step clock responseId (.str model)) {} labels t)
    (hover : t.phase = .over) (hstays : .close ∉ labels)
    (hevents : ∀ e ∈ ChatSession.received labels, AsDeclared e) :
    ∃ frames groups, t.sent = writes frames ++ [.ended] ∧ List.Forall₂ Frame.Carries frames groups ∧
      groups.flatten = relayed (ChatSession.received labels) := by
  have hstaying := staying_of_run h hover rfl rfl hstays
  have hsends : t.sent = [] ++ writes (chatLoop clock responseId (.str model) false 0 (pulledOf false labels) ++
      chatEnding (endingOf false labels)) ++ endCall (endingOf false labels) := (sends_of_run h hover rfl).1 rfl
  obtain ⟨frames, created, hframes, hloop⟩ :=
    @chatLoop_framed responseId (.str model) clock (ChatSession.received labels) 0
  obtain ⟨errors, herrors, hending, hend⟩ := @ending_staying responseId (.str model) labels hstaying created
  obtain ⟨groups, hgroups, hflatten⟩ :=
    carries_framed (fun e he => hevents e ((List.takeWhile_prefix _).subset he)) hframes
  -- what the error frames carry
  obtain ⟨more, hmore, hshown⟩ : ∃ more, List.Forall₂ Frame.Carries errors more ∧
      more.flatten = if (ChatSession.received labels).any (·.isError) then [.done "stop"] else [] := by
    cases herrors with
    | none hreceived hthrew =>
        refine ⟨[], .nil, ?_⟩
        rw [if_neg (by simpa using hreceived)]
        rfl
    | event created' hreceived =>
        obtain ⟨e, hmem, he⟩ := hreceived
        refine ⟨[[.done "stop"]], .cons (carries_errorChunk created') .nil, ?_⟩
        rw [if_pos (List.any_eq_true.mpr ⟨e, hmem, he⟩)]
        rfl
    | threw message hthrew =>
        refine ⟨[[]], .cons (carries_formatError message) .nil, ?_⟩
        rw [if_neg (by simpa using received_of_threw hstaying hthrew)]
        rfl
  refine ⟨frames ++ (errors ++ [.sentinel]), groups ++ (more ++ [[]]), ?_,
    List.rel_append hgroups (List.rel_append hmore (.cons carries_sentinel .nil)), ?_⟩
  · rw [hsends, pulledOf_staying hstays, hloop, hend, List.append_assoc frames, hending, List.nil_append]
  · simp only [List.flatten_append, List.flatten_cons, List.flatten_nil, List.append_nil, hflatten, hshown, relayed]

theorem bytesOf_ended (frames : List Frame) :
    bytesOf (writes frames ++ [.ended]) = (frames.map Frame.text).flatMap encodeUtf8 := by
  rw [bytesOf_append, bytesOf_writes]
  exact List.append_nil _

/-- **What a gateway behind a gateway reads.** When the inner handler has returned to a client that stayed, the
    outer gateway's parser reads, from the bytes it wrote and however they are cut, what `relayed` makes of the
    events the inner handler was given, whatever reasons their `done`s carry; and its stream ends normally,
    whether the inner one ended, reported an error or threw. -/
theorem cascade_reads (h : Lts.Run (Session.step clock responseId (.str model)) {} labels t)
    (hover : t.phase = .over) (hstays : .close ∉ labels)
    (hevents : ∀ e ∈ ChatSession.received labels, AsDeclared e)
    {body : ByteBody} (hbytes : body.bytes = bytesOf t.sent) (hclosed : body.ending = .closed) :
    OpenAi.parser.parseStream (body.decode utf8) = ⟨relayed (ChatSession.received labels), .finished⟩ := by
  obtain ⟨frames, groups, hsent, hcarries, hflatten⟩ := carries_of_run h hover hstays hevents
  rw [hsent, bytesOf_ended] at hbytes
  rw [parse_of_frames hcarries hbytes hclosed, hflatten]

/-- A text, a `done` whose reason OpenAI has no word for, and a failure. -/
def misgivings : List Label :=
  [.event (.contentDelta (.json (.str "Hi"))), .event (.done "recitation"), .event (.error "overloaded" none),
    .returned]

/-- A stream that fails behind one text and an unknown reason, read by an outer gateway. -/
theorem cascade_reads_failing :
    ∃ t, Lts.Run (Session.step id "chatcmpl-1" (.str "m")) {} misgivings t ∧
      OpenAi.parser.parseStream (ByteBody.decode utf8 ⟨[bytesOf t.sent], .closed⟩) =
        ⟨[.contentDelta (.json (.str "Hi")), .done "stop", .done "stop"], .finished⟩ := by
  obtain ⟨t, ht, hover⟩ : ∃ t, Lts.Run (Session.step id "chatcmpl-1" (.str "m")) {} misgivings t ∧ t.phase = .over :=
    ⟨_, Lts.run_iff_exec.mpr rfl, rfl⟩
  have hevents : ∀ e ∈ ChatSession.received misgivings, AsDeclared e :=
    List.forall_mem_cons.mpr ⟨⟨"Hi", rfl⟩, List.forall_mem_cons.mpr ⟨trivial,
      List.forall_mem_cons.mpr ⟨trivial, fun e he => absurd he List.not_mem_nil⟩⟩⟩
  refine ⟨t, ht, ?_⟩
  exact (@cascade_reads "chatcmpl-1" "m" id misgivings t ht hover (by decide) hevents ⟨[bytesOf t.sent], .closed⟩
    (List.append_nil _) rfl).trans (by decide)

/-! ## From the upstream to the client -/

section Relay

variable {up : Upstream} {base : Env} {request : UnifiedAiRequest} {entry : ChainEntry} {n : Native} {w : World}

/-- What a drained run with one adapter delivers when its first attempt goes through: the events of the attempt. -/
theorem received_of_finished (hadmits : Admits (up.drained base) w entry.provider)
    (htyped : (attemptOf (up.drained base) 0 entry.provider (enrichedRequest request entry) 0).typed = true)
    (hfinished :
      (attemptOf (up.drained base) 0 entry.provider (enrichedRequest request entry) 0).ending = .finished) :
    (Sirius.received (streamOverChain (up.drained base) request [entry] w).actions).map Prod.snd =
      (attemptOf (up.drained base) 0 entry.provider (enrichedRequest request entry) 0).events := by
  have hd := up.drained_drained base
  obtain ⟨circuitState, hcheck⟩ := hadmits
  have hrun := @executeStreamWithPolicy_admitted (up.drained base) 0 entry.provider (enrichedRequest request entry)
    hd w circuitState hcheck
  have htried := streamAttempts_turn (up.drained base) 0 entry.provider (enrichedRequest request entry)
    (up.drained base).policy.maxRetries 0 { w with circuitState := circuitState }
  have hup := upstreamOf_drained hd 0 entry.provider (enrichedRequest request entry) 0
    { w with circuitState := circuitState }
  have hresult := (forwardedOf_drained hd htyped { w with circuitState := circuitState }).2
  have hturn := streamChain_turn (up.drained base) request 0 entry [] none w
  show (Sirius.received (streamChain (up.drained base) request 0 [entry] none w).actions).map Prod.snd = _
  generalize streamChain (up.drained base) request 0 [entry] none w = o at hturn ⊢
  rw [← hrun] at htried
  generalize executeStreamWithPolicy (up.drained base) 0 entry.provider (enrichedRequest request entry) w = tried
    at htried hturn
  have hnotThrew : ∀ message, (upstreamOf (up.drained base) 0 entry.provider (enrichedRequest request entry) 0
      { w with circuitState := circuitState }).ending ≠ .threw message := by
    intro message hend
    rw [hup, hfinished] at hend
    cases hend
  cases htried with
  | cut hcut =>
      rw [hresult] at hcut
      cases hcut
  | finished hall hend =>
      cases hturn with
      | served _ hcircuit =>
          rw [List.append_assoc, received_startedOf hd htyped _ rfl, List.map_map]
          exact List.map_id _
      | stopped hstop => cases hstop
      | gone hfail => cases hfail
      | broken hfail => cases hfail
      | replaced hfail => cases hfail
  | stalled hall hend =>
      rw [hup, hfinished] at hend
      cases hend
  | aborted hall hend => exact absurd hend (hnotThrew _)
  | failed hall hend => exact absurd hend (hnotThrew _)
  | abandoned hall hend => exact absurd hend (hnotThrew _)
  | retried hall hend => exact absurd hend (hnotThrew _)

/-- Encodable events pass the observer. -/
theorem wellTyped_of_encodable {event : UnifiedStreamEvent} (h : Encodable event) : event.wellTyped = true := by
  cases event with
  | contentDelta delta =>
      obtain ⟨s, rfl⟩ := h
      rfl
  | toolCallDelta index id name arguments => rfl
  | usage usage => rfl
  | done finishReason => rfl
  | error error code => rfl

theorem not_isError_of_encodable {event : UnifiedStreamEvent} (h : Encodable event) : event.isError = false := by
  cases event with
  | error error code => exact absurd h fun h => h
  | contentDelta delta => rfl
  | toolCallDelta index id name arguments => rfl
  | usage usage => rfl
  | done finishReason => rfl

/-- The first attempt is what the adapter's parser makes of the body. -/
theorem attemptOf_sends (hn : Native.ofKind entry.provider.kind = some n) {sent : ByteBody}
    (hsends : up.Sends ⟨0, 0⟩ entry.provider (enrichedRequest request entry) (sent.decode utf8))
    {attempt : StreamAttempt} (hparse : n.parseStream (up.freshId ⟨0, 0⟩) (sent.decode utf8) = attempt) :
    attemptOf (up.drained base) 0 entry.provider (enrichedRequest request entry) 0 = attempt :=
  (hsends.streamResponse_eq hn).trans hparse

/-- The handler is given the events of the attempt. -/
theorem received_of_relayed (hn : Native.ofKind entry.provider.kind = some n)
    (hadmits : Admits (up.drained base) w entry.provider) {sent : ByteBody}
    (hsends : up.Sends ⟨0, 0⟩ entry.provider (enrichedRequest request entry) (sent.decode utf8))
    {events : List UnifiedStreamEvent}
    (hparse : n.parseStream (up.freshId ⟨0, 0⟩) (sent.decode utf8) = ⟨events, .finished⟩)
    (hevents : ∀ e ∈ events, Encodable e)
    (hfed : ChatSession.received labels =
      (Sirius.received (streamOverChain (up.drained base) request [entry] w).actions).map Prod.snd) :
    ChatSession.received labels = events := by
  have hattempt := @attemptOf_sends up base request entry n hn sent hsends _ hparse
  have htyped : (attemptOf (up.drained base) 0 entry.provider (enrichedRequest request entry) 0).typed = true := by
    rw [hattempt]
    exact List.all_eq_true.mpr fun e he => wellTyped_of_encodable (hevents e he)
  rw [hfed, received_of_finished hadmits htyped (by rw [hattempt]), hattempt]

/-- What the handler writes of encodable events, read back. -/
theorem parse_of_received (h : Lts.Run (Session.step clock responseId (.str model)) {} labels t)
    (hover : t.phase = .over) (hstays : .close ∉ labels) {events : List UnifiedStreamEvent}
    (hreceived : ChatSession.received labels = events) (hevents : ∀ e ∈ events, Encodable e)
    {body : ByteBody} (hbytes : body.bytes = bytesOf t.sent) (hclosed : body.ending = .closed) :
    OpenAi.parser.parseStream (body.decode utf8) = ⟨events.filterMap decoded, .finished⟩ := by
  have herror : ∀ e ∈ events, (!e.isError) = true := fun e he => by rw [not_isError_of_encodable (hevents e he)]; rfl
  have hwhole : (events.takeWhile fun e => !e.isError) = events := List.takeWhile_eq_self_iff.mpr herror
  have hnone : events.any (·.isError) = false := by simpa using fun e he => not_isError_of_encodable (hevents e he)
  have hreread : events.filterMap reread = events.filterMap decoded :=
    List.filterMap_congr fun e he => (hevents e he).reread_eq
  obtain ⟨frames, groups, hsent, hcarries, hflatten⟩ :=
    carries_of_run h hover hstays (hreceived ▸ fun e he => (hevents e he).asDeclared)
  rw [hsent, bytesOf_ended] at hbytes
  rw [parse_of_frames hcarries hbytes hclosed, hflatten, hreceived, relayed, hwhole, hnone, hreread]
  simp

/-- **A stream is relayed as it is.** When the upstream of a native adapter answers the first attempt with a body
    that its parser reads to the end as `events`, and the breaker lets the request in, a client with an OpenAI
    parser reads the same events off what the chat handler writes, whichever of the three formats the upstream
    speaks and however either side's bytes are cut. -/
theorem relay_reads (hn : Native.ofKind entry.provider.kind = some n)
    (hadmits : Admits (up.drained base) w entry.provider) {sent : ByteBody}
    (hsends : up.Sends ⟨0, 0⟩ entry.provider (enrichedRequest request entry) (sent.decode utf8))
    {events : List UnifiedStreamEvent}
    (hparse : n.parseStream (up.freshId ⟨0, 0⟩) (sent.decode utf8) = ⟨events, .finished⟩)
    (hevents : ∀ e ∈ events, Encodable e)
    (h : Lts.Run (Session.step clock responseId (.str model)) {} labels t) (hover : t.phase = .over)
    (hstays : .close ∉ labels)
    (hfed : ChatSession.received labels =
      (Sirius.received (streamOverChain (up.drained base) request [entry] w).actions).map Prod.snd)
    {body : ByteBody} (hbytes : body.bytes = bytesOf t.sent) (hclosed : body.ending = .closed) :
    OpenAi.parser.parseStream (body.decode utf8) = ⟨events.filterMap decoded, .finished⟩ := by
  have hreceived := received_of_relayed hn hadmits hsends hparse hevents hfed
  exact parse_of_received h hover hstays hreceived hevents hbytes hclosed

end Relay

/-- An OpenAI upstream that says "Hi" and stops, its bytes cut inside a line. -/
def greetingBody : ByteBody :=
  ⟨[encodeUtf8 "data: \x7b\"choices\":[\x7b\"delta\":\x7b\"content\":\"Hi\"\x7d,",
    encodeUtf8 "\"finish_reason\":\"stop\"\x7d]\x7d\n\n"], .closed⟩

/-- An upstream that answers every request with it. -/
def greetingUpstream : Upstream := steadyUpstream (.responded ⟨200, "OK", some (greetingBody.decode utf8)⟩)

/-- What the handler is given. -/
def greetingLabels : List Label := [.event (.contentDelta (.json (.str "Hi"))), .event (.done "stop"), .finished]

theorem relay_reads_greeting :
    ∃ t, Lts.Run (Session.step id "chatcmpl-1" (.str "m")) {} greetingLabels t ∧
      OpenAi.parser.parseStream (ByteBody.decode utf8 ⟨[bytesOf t.sent], .closed⟩) =
        ⟨[.contentDelta (.json (.str "Hi")), .done "stop"], .finished⟩ := by
  obtain ⟨t, ht, hover⟩ : ∃ t, Lts.Run (Session.step id "chatcmpl-1" (.str "m")) {} greetingLabels t ∧
      t.phase = .over := ⟨_, Lts.run_iff_exec.mpr rfl, rfl⟩
  have hparse : Native.openai.parseStream (greetingUpstream.freshId ⟨0, 0⟩) (greetingBody.decode utf8) =
      ⟨[.contentDelta (.json (.str "Hi")), .done "stop"], .finished⟩ := by decide +kernel
  have hadmits : Admits (greetingUpstream.drained plainEnv) freshWorld openAiEntry.provider :=
    ⟨freshWorld.circuitState, rfl⟩
  have hsends : greetingUpstream.Sends ⟨0, 0⟩ openAiEntry.provider (enrichedRequest emptyRequest openAiEntry)
      (greetingBody.decode utf8) := ⟨_, _, rfl, rfl, rfl, rfl⟩
  have hattempt : attemptOf (greetingUpstream.drained plainEnv) 0 openAiEntry.provider
      (enrichedRequest emptyRequest openAiEntry) 0 = _ := (hsends.streamResponse_eq rfl).trans hparse
  have hevents : ∀ e ∈ [UnifiedStreamEvent.contentDelta (.json (.str "Hi")), .done "stop"], Encodable e := by
    simp [Encodable]
  refine ⟨t, ht, ?_⟩
  refine (@relay_reads "chatcmpl-1" "m" id greetingLabels t greetingUpstream plainEnv emptyRequest openAiEntry
    .openai freshWorld rfl hadmits greetingBody hsends _ hparse hevents ht hover (by decide) ?_
    ⟨[bytesOf t.sent], .closed⟩ (List.append_nil _) rfl).trans (by decide)
  rw [received_of_finished hadmits (by rw [hattempt]; decide) (by rw [hattempt]), hattempt]
  rfl

end Sirius
