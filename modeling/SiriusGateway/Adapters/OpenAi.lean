import SiriusGateway.Adapters.Content
import SiriusGateway.Adapters.EventStream

/-!
# `Adapters.OpenAi` — the OpenAI wire format

`toOpenAiRequest`, `fromOpenAiResponse` and the SSE parser of the OpenAI adapter.

## Contents
- **Requests.** `toOpenAiRequest`, and when it goes through (`succeeds_toOpenAiRequest_iff`).
- **Responses.** `mapFinishReason`, `fromOpenAiResponse`.
- **The stream.** `processLine`; the completion marker is a choice with a `finish_reason` (`IsMarker`), and a
  line yields a terminal event exactly when it carries one (`processLine_terminal`).
- **Well-formed lines.** `WellFormed`: no such line throws or yields an ill-typed delta.
-/

namespace Sirius

open Js

namespace OpenAi

/-! ## Requests -/

/-- `OpenAiContentPart`. -/
inductive ContentPart where
  | text (text : JsValue)
  | imageUrl (url : JsValue)
  deriving DecidableEq

/-- `OpenAiMessage`. -/
structure Message where
  role : JsValue
  content : String ⊕ List ContentPart
  name : JsValue
  toolCallId : JsValue
  toolCalls : Option (List UnifiedToolCall)
  deriving DecidableEq

/-- `OpenAiChatRequest`. -/
structure ChatRequest where
  model : Json
  messages : List Message
  stream : Json
  temperature : JsValue
  topP : JsValue
  maxTokens : JsValue
  stop : Option (List Json)
  tools : Option (List UnifiedTool)
  toolChoice : JsValue
  responseFormat : Option UnifiedResponseFormat
  /-- `stream_options.include_usage`. -/
  streamOptions : Option JsValue
  user : JsValue
  deriving DecidableEq

/-- `mapContentPart(part)`. -/
def mapContentPart (part : Json) : Throws ContentPart := do
  let type ← getProp part "type"
  if type.isStr "image_url" then
    return .imageUrl ((← getProp part "imageUrl").orElse (.json (.str "")))
  else
    return .text ((← getProp part "text").orElse (.json (.str "")))

/-- `mapMessage(msg)`. -/
def mapMessage (msg : UnifiedMessage) : Throws Message := do
  let content ← mapContent "msg.content" mapContentPart msg.content
  return {
    role := msg.role
    content := content
    name := msg.name.whenTruthy
    toolCallId := msg.toolCallId.whenTruthy
    toolCalls := msg.toolCalls }

/-- `toOpenAiRequest(unified)`. -/
def toOpenAiRequest (unified : UnifiedAiRequest) : Throws ChatRequest := do
  let messages ← unified.messages.mapM mapMessage
  return {
    model := unified.model
    messages := messages
    stream := unified.stream
    temperature := unified.temperature
    topP := unified.topP
    maxTokens := unified.maxTokens
    stop := unified.stop
    tools := unified.tools.filter (· ≠ [])
    toolChoice := unified.toolChoice
    responseFormat := unified.responseFormat
    streamOptions := unified.streamOptions
    user := unified.user.whenTruthy }

theorem succeeds_mapContentPart_iff (part : Json) : (mapContentPart part).Succeeds ↔ part ≠ .null := by
  unfold mapContentPart
  constructor
  · rintro h rfl
    obtain ⟨v, hv, -⟩ := Except.succeeds_bind_iff.mp h
    cases hv
  · intro h
    rw [getProp_json "type" h, getProp_json "imageUrl" h, getProp_json "text" h]
    refine Except.succeeds_bind_iff.mpr ⟨_, rfl, ?_⟩
    split <;> exact ⟨_, rfl⟩

/-- **The OpenAI mapper** goes through when every message has content. -/
theorem succeeds_toOpenAiRequest_iff {unified : UnifiedAiRequest} :
    (toOpenAiRequest unified).Succeeds ↔ ∀ msg ∈ unified.messages, IsContent msg.content := by
  unfold toOpenAiRequest
  rw [Except.succeeds_bind_pure_iff, Except.succeeds_mapM_iff]
  refine forall₂_congr fun msg _ => ?_
  unfold mapMessage
  rw [Except.succeeds_bind_pure_iff]
  exact succeeds_mapContent_iff succeeds_mapContentPart_iff

/-! ## Responses -/

/-- `FINISH_REASON_MAP`. -/
def FINISH_REASON_MAP : List (String × String) :=
  [("stop", "stop"), ("length", "length"), ("tool_calls", "tool_calls"),
    ("content_filter", "content_filter")]

/-- `mapFinishReason(raw)`. -/
def mapFinishReason (raw : JsValue) : Throws String :=
  if raw.truthy then readTable FINISH_REASON_MAP "stop" raw else .ok "stop"

/-- One tool call of a response message. -/
def responseToolCall (tc : Json) : Throws UnifiedContent := do
  let id ← getProp tc "id"
  let function ← getProp tc "function"
  return .toolCall ⟨id, ⟨← getProp function "name", ← getProp function "arguments"⟩⟩

/-- The text of a response message: a string, or the joined text parts. -/
def responseText (content : JsValue) : Throws JsValue :=
  match content with
  | .json (.str s) => .ok (.json (.str s))
  | content => do
      let parts ← arrayOf "choice.message.content" "filter" content
      let texts ← filterParts "text" parts
      return .json (.str (← join "" (texts.map fun part => (part.prop "text").orElse (.json (.str "")))))

/-- `fromOpenAiResponse(raw, provider, latencyMs)`. -/
def fromOpenAiResponse (raw : Json) (provider : String) (latencyMs : Rat) : Throws UnifiedAiResponse := do
  let choices ← getProp raw "choices"
  -- `choices[0]`, which throws where the stream parser's `choices?.[0]` does not
  let choice ← (getProp choices "0").map fun _ => first choices
  let message ← if choice.isNullish then pure .undefined else getProp choice "message"
  let content ← if choice.isNullish then pure .undefined else getProp message "content"
  let text ← if content.truthy then responseText content else pure .undefined
  let calls ← if choice.isNullish then pure .undefined else getProp message "tool_calls"
  let toolCalls ←
    if calls.truthy then (← iterate "choice.message.tool_calls" calls).mapM responseToolCall else pure []
  let finishReason ← mapFinishReason ((optProp choice "finish_reason").orElse (.json .null))
  let usage := raw.prop "usage"
  return {
    id := raw.prop "id"
    model := raw.prop "model"
    provider := provider
    content := (if text.truthy then [.text text] else []) ++ toolCalls
    finishReason := finishReason
    usage := {
      inputTokens := (optProp usage "prompt_tokens").orElse (.json (.num 0))
      outputTokens := (optProp usage "completion_tokens").orElse (.json (.num 0))
      totalTokens := (optProp usage "total_tokens").orElse (.json (.num 0)) }
    latencyMs := latencyMs }

/-! ## The stream -/

/-- `toUsageEvent(chunk)`. -/
def toUsageEvent (chunk : Json) : Throws (Option UnifiedStreamEvent) := do
  let usage ← getProp chunk "usage"
  if usage.truthy then
    return some (.usage {
      inputTokens := optProp usage "prompt_tokens"
      outputTokens := optProp usage "completion_tokens"
      totalTokens := optProp usage "total_tokens" })
  else return none

/-- `if (usageEvent) yield usageEvent`. -/
def yieldUsage (usageEvent : Option UnifiedStreamEvent) : Gen Unit :=
  match usageEvent with
  | some event => Gen.yield event
  | none => pure ()

/-- One tool call delta of a chunk. -/
def yieldToolCall (tc : Json) : Gen Unit := do
  let index ← Gen.lift (getProp tc "index")
  let function := tc.prop "function"
  Gen.yield (.toolCallDelta (index.orElse (.json (.num 0))) (tc.prop "id") (optProp function "name")
    (optProp function "arguments"))

/-- `for (const tc of delta.tool_calls)`. -/
def yieldToolCalls : List Json → Gen Unit
  | [] => pure ()
  | tc :: rest => do
      yieldToolCall tc
      yieldToolCalls rest

/-- `if (delta.content) yield …`. -/
def yieldContent (content : JsValue) : Gen Unit :=
  if content.truthy then Gen.yield (.contentDelta content) else pure ()

/-- `if (delta.tool_calls) for … yield …`. -/
def yieldToolCallDeltas (toolCalls : JsValue) : Gen Unit :=
  if toolCalls.truthy then Gen.lift (iterate "delta.tool_calls" toolCalls) >>= yieldToolCalls else pure ()

/-- `if (finish_reason) yield …`. -/
def yieldDone (finishReason : JsValue) : Gen Unit :=
  if finishReason.truthy then do
    let reason ← Gen.lift (mapFinishReason finishReason)
    Gen.yield (.done reason)
  else pure ()

/-- `processLine` from the chunk's first choice on. -/
def processChoice (choice : JsValue) (usageEvent : Option UnifiedStreamEvent) : Gen Unit := do
  let delta := optProp choice "delta"
  let content ← Gen.lift (getProp delta "content")
  yieldContent content
  yieldToolCallDeltas (optProp delta "tool_calls")
  yieldUsage usageEvent
  yieldDone (optProp choice "finish_reason")

/-- `processLine` from the parsed chunk on: the usage chunk and error payloads have no choice. -/
def processChunk (chunk : Json) : Gen Unit := do
  let usageEvent ← Gen.lift (toUsageEvent chunk)
  let choice := first (chunk.prop "choices")
  if choice.truthy then processChoice choice usageEvent else yieldUsage usageEvent

/-- `processLine(line)`. -/
def processLine (line : String) : Gen Unit :=
  match sseData line with
  | none => pure ()
  | some data =>
      if data = "[DONE]" then pure ()
      else
        match jsonParse data with
        | none => pure ()
        | some chunk => processChunk chunk

/-- `parseOpenAiStream`, as a line parser: it keeps no state. -/
def parser : LineParser Unit := ⟨(), fun line _ => processLine line⟩

/-! ### The completion marker -/

/-- The chunk a line carries. -/
def chunkOf (line : String) : Option Json :=
  (sseData line).bind fun data => if data = "[DONE]" then none else jsonParse data

/-- The line carries a `finish_reason`. -/
def isMarker (line : String) : Bool :=
  (chunkOf line).any fun chunk => (optProp (first (chunk.prop "choices")) "finish_reason").truthy

@[simp] theorem parser_processLine (line : String) (s : Unit) :
    parser.processLine line s = processLine line := rfl

theorem processLine_eq (line : String) :
    processLine line = (chunkOf line).elim (pure ()) processChunk := by
  unfold processLine chunkOf
  cases sseData line with
  | none => rfl
  | some data =>
      simp only [Option.bind_some]
      split
      · rfl
      · cases jsonParse data <;> rfl

/-- What the parser does with a line is what it does with the chunk on it. -/
theorem parser_processLine_eq (line : String) (s : Unit) :
    parser.processLine line s = (chunkOf line).elim (pure s) fun chunk => processChunk chunk := by
  rw [parser_processLine]
  exact processLine_eq line

theorem quiet_yieldUsage {chunk : Json} {usageEvent : Option UnifiedStreamEvent}
    (h : toUsageEvent chunk = .ok usageEvent) : (yieldUsage usageEvent).Quiet := by
  obtain ⟨usage, -, h⟩ := Except.bind_eq_ok_iff.mp h
  cases usageEvent with
  | none => exact Gen.quiet_pure ()
  | some event =>
      split at h
      · rw [← Option.some.inj (Except.ok.inj h)]
        exact Gen.quiet_yield rfl
      · cases Except.ok.inj h

theorem quiet_yieldToolCalls (calls : List Json) : (yieldToolCalls calls).Quiet := by
  induction calls with
  | nil => exact Gen.quiet_pure ()
  | cons tc rest ih =>
      have htc : (yieldToolCall tc).Quiet :=
        (Gen.quiet_lift _).bind fun index => Gen.quiet_yield rfl
      exact htc.bind fun _ => ih

/-- A choice ends the stream exactly when it has a finish reason. -/
theorem processChoice_terminals {choice : JsValue} {usageEvent : Option UnifiedStreamEvent}
    (hquiet : (yieldUsage usageEvent).Quiet) (h : (processChoice choice usageEvent).result = .ok ()) :
    if (optProp choice "finish_reason").truthy then
      ∃ reason, (processChoice choice usageEvent).terminals = [.done reason]
    else (processChoice choice usageEvent).terminals = [] := by
  have hcontent : ∀ content, (yieldContent content).Quiet := by
    intro content
    unfold yieldContent
    split
    · exact Gen.quiet_yield rfl
    · exact Gen.quiet_pure ()
  have hcalls : (yieldToolCallDeltas (optProp (optProp choice "delta") "tool_calls")).Quiet := by
    unfold yieldToolCallDeltas
    split
    · exact (Gen.quiet_lift _).bind quiet_yieldToolCalls
    · exact Gen.quiet_pure ()
  -- everything before `yieldDone` is quiet
  obtain ⟨content, -, h, hterm⟩ := (Gen.quiet_lift _).terminals_bind h
  obtain ⟨-, -, h, hterm₁⟩ := (hcontent content).terminals_bind h
  obtain ⟨-, -, h, hterm₂⟩ := hcalls.terminals_bind h
  obtain ⟨-, -, h, hterm₃⟩ := hquiet.terminals_bind h
  have hall : (processChoice choice usageEvent).terminals =
      (yieldDone (optProp choice "finish_reason")).terminals :=
    hterm.trans (hterm₁.trans (hterm₂.trans hterm₃))
  rw [hall]
  unfold yieldDone at h ⊢
  split
  · rename_i htruthy
    rw [if_pos htruthy] at h
    obtain ⟨reason, -, -, hterm⟩ := (Gen.quiet_lift _).terminals_bind h
    exact ⟨reason, hterm⟩
  · rfl

/-- **A chunk ends the stream exactly when its first choice has a finish reason.** -/
theorem processChunk_terminals {chunk : Json} (h : (processChunk chunk).result = .ok ()) :
    if (optProp (first (chunk.prop "choices")) "finish_reason").truthy then
      ∃ reason, (processChunk chunk).terminals = [.done reason]
    else (processChunk chunk).terminals = [] := by
  obtain ⟨usageEvent, husage, h, hterm⟩ := (Gen.quiet_lift _).terminals_bind h
  have hquiet := quiet_yieldUsage husage
  unfold processChunk
  rw [hterm]
  clear hterm
  generalize first (chunk.prop "choices") = choice at h ⊢
  cases hchoice : choice.truthy with
  | true =>
      simp only [hchoice, if_true] at h ⊢
      exact processChoice_terminals hquiet h
  | false =>
      rw [optProp_of_falsy hchoice (by decide)]
      simp only [hchoice, Bool.false_eq_true, if_false, truthy_undefined]
      exact hquiet

/-- **The completion marker of the OpenAI stream.** -/
theorem parser_marks : parser.Marks isMarker := by
  intro line s s' h
  rw [parser_processLine, processLine_eq] at h ⊢
  unfold isMarker
  cases hchunk : chunkOf line with
  | none => rfl
  | some chunk =>
      rw [hchunk] at h
      exact processChunk_terminals h

/-! ### Well-formed lines -/

/-- A chunk of the declared shape, as far as the parser looks: it may lack choices, as usage chunks and error
    payloads do. -/
structure WellFormedChunk (chunk : Json) : Prop where
  object : chunk ≠ .null
  delta : (first (chunk.prop "choices")).truthy = true →
    (optProp (first (chunk.prop "choices")) "delta").isNullish = false
  content : OptString (optProp (optProp (first (chunk.prop "choices")) "delta") "content")
  toolCalls : OptItems (optProp (optProp (first (chunk.prop "choices")) "delta") "tool_calls")
  finishReason : OptString (optProp (first (chunk.prop "choices")) "finish_reason")

/-- A well-formed line carries no chunk (a blank line, a comment, another field, the sentinel, or text cut
    short so that it does not parse) or a well-formed one. -/
def WellFormed (line : String) : Prop := ∀ chunk, chunkOf line = some chunk → WellFormedChunk chunk

theorem clean_yieldToolCalls {calls : List Json} (h : Json.null ∉ calls) :
    (yieldToolCalls calls).Clean := by
  induction calls with
  | nil => exact Gen.clean_pure ()
  | cons tc rest ih =>
      rw [List.mem_cons, not_or] at h
      have htc : (yieldToolCall tc).Clean :=
        (Gen.clean_lift (succeeds_getProp_iff.mpr (Ne.symm h.1))).bind fun index _ =>
          Gen.clean_yield rfl
      exact htc.bind fun _ _ => ih h.2

theorem clean_yieldContent {v : JsValue} (h : OptString v) : (yieldContent v).Clean := by
  unfold yieldContent
  split
  · obtain ⟨s, rfl⟩ := h.of_truthy ‹_›
    exact Gen.clean_yield rfl
  · exact Gen.clean_pure ()

theorem clean_yieldToolCallDeltas {v : JsValue} (h : OptItems v) : (yieldToolCallDeltas v).Clean := by
  unfold yieldToolCallDeltas
  split
  · obtain ⟨calls, rfl, hnull⟩ := h.of_truthy ‹_›
    refine (Gen.clean_lift ⟨calls, rfl⟩).bind fun calls' heq => ?_
    obtain rfl := Except.ok.inj heq
    exact clean_yieldToolCalls hnull
  · exact Gen.clean_pure ()

theorem clean_yieldDone {v : JsValue} (h : OptString v) : (yieldDone v).Clean := by
  unfold yieldDone
  split
  · rename_i htruthy
    obtain ⟨s, rfl⟩ := h.of_truthy htruthy
    refine (Gen.clean_lift ?_).bind fun reason _ => Gen.clean_yield rfl
    unfold mapFinishReason
    rw [if_pos htruthy]
    exact ⟨_, rfl⟩
  · exact Gen.clean_pure ()

theorem clean_yieldUsage {chunk : Json} {usageEvent : Option UnifiedStreamEvent}
    (h : toUsageEvent chunk = .ok usageEvent) : (yieldUsage usageEvent).Clean := by
  obtain ⟨usage, -, h⟩ := Except.bind_eq_ok_iff.mp h
  cases usageEvent with
  | none => exact Gen.clean_pure ()
  | some event =>
      split at h
      · rw [← Option.some.inj (Except.ok.inj h)]
        exact Gen.clean_yield rfl
      · cases Except.ok.inj h

/-- **A well-formed chunk** neither throws nor stops the observer. -/
theorem clean_processChunk {chunk : Json} (h : WellFormedChunk chunk) : (processChunk chunk).Clean := by
  have hread : (toUsageEvent chunk).Succeeds := by
    unfold toUsageEvent
    rw [getProp_json "usage" h.object]
    refine Except.succeeds_bind_iff.mpr ⟨_, rfl, ?_⟩
    split <;> exact ⟨_, rfl⟩
  refine (Gen.clean_lift hread).bind fun usageEvent hevent => ?_
  have husage := clean_yieldUsage hevent
  simp only
  split
  · rename_i hchoice
    have hcontent := getProp_eq "content" (h.delta hchoice)
    refine (Gen.clean_lift ⟨_, hcontent⟩).bind fun content heq => ?_
    obtain rfl := Except.ok.inj (hcontent.symm.trans heq)
    exact (clean_yieldContent h.content).bind fun _ _ =>
      (clean_yieldToolCallDeltas h.toolCalls).bind fun _ _ => husage.bind fun _ _ =>
        clean_yieldDone h.finishReason
  · exact husage

theorem clean_processLine {line : String} (h : WellFormed line) (s : Unit) :
    (parser.processLine line s).Clean := by
  rw [parser_processLine, processLine_eq]
  cases hchunk : chunkOf line with
  | none => exact Gen.clean_pure ()
  | some chunk => exact clean_processChunk (h chunk hchunk)

end OpenAi

end Sirius
