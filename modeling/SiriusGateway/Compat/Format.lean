import SiriusGateway.Adapters.Content
import SiriusGateway.Compat.Service
import SiriusGateway.Js.Parse

/-!
# `Compat.Format` — from unified answers to OpenAI-style bodies and frames

`OpenAiCompatService.formatChatCompletionResponse` and `formatResponsesResponse`, and for streams
`formatFirstStreamChunk`, `formatStreamChunk`, `formatSSE` and `formatSSEDone`. A result is the value as the client
parses it. `randomUUID()` and the clock are arguments: `uuid k` is the `k`-th identifier drawn, and `created` the
clock in seconds.

## Contents
- **The parts of a turn.** `turnText` and `turnCalls`: what both formats have to carry.
- **Chat completions.** `formatAssistantMessage`, `formatChatCompletionResponse`; the text a message ends up
  with (`foldlM_appendText`).
- **Responses.** `formatOutput`, `formatResponsesResponse`.
- **Streams.** The chunk of an event, and its frame.
-/

namespace Sirius

open Js

namespace Compat

/-! ## The parts of a turn -/

/-- The text of a content item, when its `text` is a string. -/
def itemText : UnifiedContent → Option String
  | .text (.json (.str s)) => some s
  | _ => none

/-- The tool call of a content item. -/
def itemCall : UnifiedContent → Option UnifiedToolCall
  | .toolCall call => some call
  | .text _ => none

/-- All text of a turn, in order. -/
def turnText (content : List UnifiedContent) : String := "".intercalate (content.filterMap itemText)

/-- All tool calls of a turn, in order. -/
def turnCalls (content : List UnifiedContent) : List UnifiedToolCall := content.filterMap itemCall

/-- The content has the types `UnifiedContent` declares: a text is a string or missing, and no field of a
    tool call is a `NaN`. -/
def Typed (content : List UnifiedContent) : Prop :=
  (∀ text, .text text ∈ content → text = .undefined ∨ text.isString = true) ∧
    ∀ call ∈ turnCalls content, call.id ≠ .nan ∧ call.function.name ≠ .nan ∧
      call.function.arguments ≠ .nan

/-- `toOpenAiFinishReason(reason)`: `FINISH_REASON_MAP[reason] ?? 'stop'`. A member every object inherits is
    found too; a function is left out on the wire, the prototype arrives as an empty object. -/
def toOpenAiFinishReason (reason : String) : JsValue :=
  if reason ∈ ["stop", "length", "tool_calls", "content_filter", "error"] then .json (.str reason)
  else if reason = "__proto__" then .json (.obj [])
  else if reason ∈ inheritedMembers.map Prod.fst then .undefined
  else .json (.str "stop")

/-! ## Chat completions -/

/-- One turn of the loop on `textContent`. -/
def appendText (textContent : JsValue) (item : UnifiedContent) : Throws JsValue :=
  match item with
  | .text text =>
      if text.truthy then if textContent.truthy then textContent.add text else .ok text
      else .ok textContent
  | .toolCall _ => .ok textContent

/-- An entry of `tool_calls`. -/
def formatToolCall (call : UnifiedToolCall) : Json :=
  wireObject [("id", call.id), ("type", .json (.str "function")),
    ("function", .json (wireObject [("name", call.function.name),
      ("arguments", call.function.arguments)]))]

/-- The assistant message with this text and these tool calls. -/
def assistantMessage (textContent : JsValue) (toolCalls : List Json) : Json :=
  wireObject ([("role", .json (.str "assistant")), ("content", textContent)] ++
    (if toolCalls.length > 0 then [("tool_calls", .json (.arr toolCalls))] else []))

/-- The assistant message of a chat completion. -/
def formatAssistantMessage (content : List UnifiedContent) : Throws Json := do
  let textContent ← content.foldlM appendText (.json .null)
  return assistantMessage textContent ((turnCalls content).map formatToolCall)

/-- `formatChatCompletionResponse(response)`. -/
def formatChatCompletionResponse (uuid : Nat → String) (created : Nat) (response : UnifiedAiResponse) :
    Throws Json := do
  let message ← formatAssistantMessage response.content
  return wireObject [
    ("id", .json (.str s!"chatcmpl-{uuid 0}")), ("object", .json (.str "chat.completion")),
    ("created", .json (.num created)), ("model", response.model),
    ("choices", .json (.arr [wireObject [("index", .json (.num 0)), ("message", .json message),
      ("finish_reason", toOpenAiFinishReason response.finishReason)]])),
    ("usage", .json (wireObject [("prompt_tokens", response.usage.inputTokens),
      ("completion_tokens", response.usage.outputTokens),
      ("total_tokens", response.usage.totalTokens)]))]

/-- `completion.choices[0].message`. -/
def choiceMessage (completion : Json) : JsValue :=
  match completion.prop "choices" with
  | .json (.arr (choice :: _)) => choice.prop "message"
  | _ => .undefined

/-! ## Responses -/

/-- An entry of the message's `content`. -/
def formatTextPart (text : JsValue) : Json :=
  wireObject [("type", .json (.str "output_text")), ("text", text)]

/-- The text parts: every text that is not empty. -/
def textParts (content : List UnifiedContent) : List Json :=
  content.filterMap fun item => match item with
    | .text text => if text.truthy then some (formatTextPart text) else none
    | .toolCall _ => none

/-- A `function_call` item. -/
def formatFunctionCall (uuid : String) (call : UnifiedToolCall) : Json :=
  wireObject [("type", .json (.str "function_call")), ("id", .json (.str s!"fc_{uuid}")),
    ("call_id", call.id), ("name", call.function.name), ("arguments", call.function.arguments),
    ("status", .json (.str "completed"))]

/-- The `message` item, put before the calls. -/
def formatMessageItem (uuid : String) (parts : List Json) : Json :=
  wireObject [("type", .json (.str "message")), ("id", .json (.str s!"msg_{uuid}")),
    ("role", .json (.str "assistant")), ("status", .json (.str "completed")),
    ("content", .json (.arr parts))]

/-- `output`; the identifiers of the calls are drawn first. -/
def formatOutput (uuid : Nat → String) (content : List UnifiedContent) : List Json :=
  let calls := (turnCalls content).zipIdx.map fun e => formatFunctionCall (uuid e.2) e.1
  let parts := textParts content
  if parts.length > 0 then formatMessageItem (uuid calls.length) parts :: calls else calls

/-- `formatResponsesResponse(response)`. -/
def formatResponsesResponse (uuid : Nat → String) (created : Nat) (response : UnifiedAiResponse) : Json :=
  let output := formatOutput uuid response.content
  let status :=
    if response.finishReason = "error" then "failed"
    else if response.finishReason = "length" then "incomplete"
    else "completed"
  wireObject [
    ("id", .json (.str s!"resp_{uuid output.length}")), ("object", .json (.str "response")),
    ("created_at", .json (.num created)), ("model", response.model), ("output", .json (.arr output)),
    ("status", .json (.str status)),
    ("usage", .json (wireObject [("input_tokens", response.usage.inputTokens),
      ("output_tokens", response.usage.outputTokens), ("total_tokens", response.usage.totalTokens)]))]

/-! ## What the formatters make of a typed turn -/

variable {content : List UnifiedContent}

/-- `textContent` after some text: `null` until the first character. -/
def textValue (text : String) : JsValue := if text = "" then .json .null else .json (.str text)

theorem intercalate_cons (s : String) (texts : List String) :
    "".intercalate (s :: texts) = s ++ "".intercalate texts := by
  cases texts with
  | nil => simp
  | cons t rest => rw [String.intercalate_cons_cons, String.append_empty]

theorem appendText_str (before s : String) :
    appendText (textValue before) (.text (.json (.str s))) = .ok (textValue (before ++ s)) := by
  unfold appendText textValue
  by_cases hs : s = ""
  · simp [hs, Json.truthy]
  · by_cases hb : before = ""
    · simp [hs, hb, Json.truthy]
    · have hboth : ¬ before ++ s = "" := by simp [hs]
      simp only [truthy_json, Json.truthy, ne_eq, hs, hb, hboth, not_false_eq_true, decide_true,
        if_true, if_false]
      rfl

/-- **The loop concatenates**: from the text so far to that text and all that follows. -/
theorem foldlM_appendText (htyped : Typed content) (before : String) :
    content.foldlM appendText (textValue before) = .ok (textValue (before ++ turnText content)) := by
  obtain ⟨htexts, hcalls⟩ := htyped
  clear hcalls
  induction content generalizing before with
  | nil => simp [turnText]; rfl
  | cons item rest ih =>
      have hrest : ∀ text, .text text ∈ rest → text = .undefined ∨ text.isString = true :=
        fun text h => htexts text (List.mem_cons_of_mem _ h)
      rw [List.foldlM_cons]
      cases item with
      | toolCall call =>
          show rest.foldlM appendText (textValue before) = _
          rw [ih _ hrest]
          rfl
      | text text =>
          rcases htexts text List.mem_cons_self with rfl | hstr
          · show rest.foldlM appendText (textValue before) = _
            rw [ih _ hrest]
            rfl
          · obtain ⟨s, rfl⟩ := isString_iff.mp hstr
            rw [appendText_str]
            show rest.foldlM appendText (textValue (before ++ s)) = _
            rw [ih _ hrest, String.append_assoc]
            rw [show turnText (.text (.json (.str s)) :: rest) = s ++ turnText rest from
              intercalate_cons _ _]

/-! ## Streams -/

/-- A chunk with these choices, and what follows them. -/
def streamChunk (created : Nat) (responseId : String) (model : Json) (rest : List (String × JsValue)) : Json :=
  wireObject ([("id", .json (.str responseId)), ("object", .json (.str "chat.completion.chunk")),
    ("created", .json (.num created)), ("model", .json model)] ++ rest)

/-- The single choice of a chunk. -/
def streamChoice (delta : Json) (finishReason : JsValue) : JsValue :=
  .json (.arr [wireObject [("index", .json (.num 0)), ("delta", .json delta),
    ("finish_reason", finishReason)]])

/-- `formatFirstStreamChunk(responseId, model)`. -/
def formatFirstStreamChunk (created : Nat) (responseId : String) (model : Json) : Json :=
  streamChunk created responseId model
    [("choices", streamChoice (wireObject [("role", .json (.str "assistant"))]) (.json .null))]

/-- The entry of `tool_calls`: a field with nothing to say is left out, and the type stands in the fragment
    that carries the id or the name. -/
def formatToolCallDelta (index id name argumentsDelta : JsValue) : Json :=
  wireObject [("index", index), ("id", id.whenTruthy),
    ("type", if name.truthy || id.truthy then .json (.str "function") else .undefined),
    ("function", .json (wireObject [("name", name.whenTruthy), ("arguments", argumentsDelta.whenTruthy)]))]

/-- `formatStreamChunk(event, responseId, model)`; `none` is its `null`. -/
def formatStreamChunk (created : Nat) (event : UnifiedStreamEvent) (responseId : String) (model : Json) :
    Option Json :=
  match event with
  | .contentDelta delta =>
      some (streamChunk created responseId model
        [("choices", streamChoice (wireObject [("content", delta)]) (.json .null))])
  | .toolCallDelta index id name argumentsDelta =>
      some (streamChunk created responseId model
        [("choices", streamChoice (wireObject
          [("tool_calls", .json (.arr [formatToolCallDelta index id name argumentsDelta]))]) (.json .null))])
  | .done finishReason =>
      some (streamChunk created responseId model
        [("choices", streamChoice (wireObject []) (toOpenAiFinishReason finishReason))])
  | .usage usage =>
      some (streamChunk created responseId model
        [("choices", .json (.arr [])), ("usage", .json (wireObject [("prompt_tokens", usage.inputTokens),
          ("completion_tokens", usage.outputTokens), ("total_tokens", usage.totalTokens)]))])
  | .error _ _ => none

/-- `formatSSE(data)`. -/
def formatSSE (data : Json) : String := "data: " ++ stringify data ++ "\n\n"

/-- `formatSSEDone()`. -/
def formatSSEDone : String := "data: [DONE]\n\n"

end Compat

end Sirius
