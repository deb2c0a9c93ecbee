import SiriusGateway.Core.Types
import SiriusGateway.Lib.Succeeds

/-!
# `Compat.Service` — from an OpenAI-style body to a unified request

`OpenAiCompatService.parseChatCompletionRequest`, `parseEmbeddingRequest` and `parseResponsesRequest`: the
checks on a client body, and the unified request it becomes. What a check does not look at passes through unchanged.

## Contents
- **Errors.** `createHttpError`, `require`.
- **Chat completions.** `mapOpenAiMessage`, `parseChatMessage`, `mapResponseFormat`,
  `parseChatCompletionRequest`.
- **Embeddings.** `parseEmbeddingRequest`.
- **Responses.** `appendResponsesFunctionCall`, `mapResponsesInputItem`, `parseInputItem`,
  `parseResponsesRequest`.
- **The messages of a request.** What an accepted body's messages come from.
-/

namespace Sirius

open Js

namespace Compat

/-! ## Errors -/

/-- `ERROR_TYPE_MAP[status] ?? 'api_error'`. -/
def errorTypeOf (status : Nat) : String :=
  match status with
  | 400 => "invalid_request_error"
  | 401 => "authentication_error"
  | 403 => "permission_error"
  | 404 => "not_found_error"
  | 429 => "rate_limit_error"
  | 500 => "server_error"
  | 503 => "service_unavailable_error"
  | _ => "api_error"

/-- `createHttpError(status, message, type, code)`, its body from `formatError`. -/
def createHttpError (status : Nat) (message : String) (type code : Option String) : JsError :=
  .http status message (type.getD (errorTypeOf status)) code

/-- A 400 with type `invalid_request_error`. -/
def badRequest (message : String) (code : Option String) : JsError :=
  createHttpError 400 message (some "invalid_request_error") code

/-- `if (!ok) throw error`. -/
def require (ok : Bool) (error : JsError) : Throws Unit := if ok then .ok () else .error error

@[simp] theorem require_eq_ok_iff {ok : Bool} {error : JsError} {u : Unit} :
    require ok error = .ok u ↔ ok = true := by
  unfold require
  cases ok <;> simp

/-! ## Parts both parsers share -/

/-- One tool of `body.tools`. -/
def mapTool (t : Json) : Throws UnifiedTool := do
  let type ← getProp t "type"
  let function ← getProp t "function"
  let name ← getProp function "name"
  return ⟨type, ⟨name, optProp function "description", optProp function "parameters",
    optProp function "strict"⟩⟩

/-- `if (body.tools?.length) request.tools = body.tools.map(...)`. -/
def mapTools (tools : JsValue) : Throws (Option (List UnifiedTool)) :=
  if (optProp tools "length").truthy then do
    let items ← arrayOf "body.tools" "map" tools
    return some (← items.mapM mapTool)
  else .ok none

/-- `if (body.stream_options) request.streamOptions = …`. -/
def mapStreamOptions (streamOptions : JsValue) : Option JsValue :=
  if streamOptions.truthy then some (optProp streamOptions "include_usage") else none

/-! ## Chat completions -/

/-- One part of a user message's content. -/
def mapUserPart (part : Json) : Throws Json := do
  let type ← getProp part "type"
  if type.isStr "image_url" then
    let image := part.prop "image_url"
    let url ← getProp image "url"
    return object [("type", .json (.str "image_url")), ("imageUrl", url), ("detail", optProp image "detail")]
  else return object [("type", .json (.str "text")), ("text", part.prop "text")]

/-- The content of a user message. -/
def mapUserContent (content : JsValue) : Throws JsValue :=
  match content with
  | .json (.str s) => .ok (.json (.str s))
  | content => do
      let parts ← arrayOf "msg.content" "map" content
      return .json (.arr (← parts.mapM mapUserPart))

/-- One tool call of an assistant message. -/
def mapToolCall (tc : Json) : Throws UnifiedToolCall := do
  let id ← getProp tc "id"
  let function ← getProp tc "function"
  let name ← getProp function "name"
  return ⟨id, ⟨name, optProp function "arguments"⟩⟩

/-- `if (msg.tool_calls?.length) unified.toolCalls = msg.tool_calls.map(...)`. -/
def mapToolCalls (toolCalls : JsValue) : Throws (Option (List UnifiedToolCall)) :=
  if (optProp toolCalls "length").truthy then do
    let items ← arrayOf "msg.tool_calls" "map" toolCalls
    return some (← items.mapM mapToolCall)
  else .ok none

/-- `mapOpenAiMessage(msg)`. -/
def mapOpenAiMessage (msg : Json) : Throws UnifiedMessage :=
  let role := msg.prop "role"
  let content := msg.prop "content"
  let name := (msg.prop "name").whenTruthy
  if role.isStr "system" then
    .ok { role := .json (.str "system"), content := content, name := name }
  else if role.isStr "user" then do
    let content ← mapUserContent content
    return { role := .json (.str "user"), content := content, name := name }
  else if role.isStr "assistant" then do
    let toolCalls ← mapToolCalls (msg.prop "tool_calls")
    return {
      role := .json (.str "assistant")
      content := content.orElse (.json (.str ""))
      name := name
      toolCalls := toolCalls }
  else if role.isStr "tool" then
    .ok { role := .json (.str "tool"), content := content, toolCallId := msg.prop "tool_call_id" }
  -- any other role loses its content
  else .ok { role := .json (.str "user"), content := .json (.str "") }

/-- The checks on `body.messages[index]`, and the message it becomes. -/
def parseChatMessage (msg : Json) (index : Nat) : Throws UnifiedMessage := do
  let role := msg.prop "role"
  let content := msg.prop "content"
  require msg.isObject (badRequest s!"Message at index {index} must be an object." none)
  require role.truthy (badRequest s!"Message at index {index} is missing 'role'." none)
  -- an assistant turn may be tool calls only; the source lets its content be missing in any case
  require (role.isStr "assistant" || !content.isNullish)
    (badRequest s!"Message at index {index} is missing 'content'." none)
  require (!role.isStr "user" || content.isString || content.isArray)
    (badRequest s!"Message at index {index} has invalid 'content'." none)
  mapOpenAiMessage msg

/-- `mapResponseFormat(format)`. -/
def mapResponseFormat (format : JsValue) : Throws UnifiedResponseFormat :=
  let type := optProp format "type"
  let schema := optProp format "json_schema"
  if type.isStr "json_schema" && schema.isDefined then do
    let name ← getProp schema "name"
    return ⟨.json (.str "json_schema"), some ⟨name, optProp schema "schema", optProp schema "strict"⟩⟩
  else .ok ⟨type, none⟩

/-- `if (body.response_format) request.responseFormat = …`. -/
def parseResponseFormat (format : JsValue) : Throws (Option UnifiedResponseFormat) :=
  if format.truthy then (mapResponseFormat format).map some else .ok none

/-- `v !== undefined && (v < 0 || v > hi)`. -/
def outOfRange (v : JsValue) (hi : Rat) : Throws Bool :=
  if v.isDefined then v.toNumber.map fun x => x.lt 0 || x.gt hi else .ok false

/-- `v !== undefined && v > 1`. -/
def moreThanOne (v : JsValue) : Throws Bool :=
  if v.isDefined then v.toNumber.map fun x => x.gt 1 else .ok false

/-- The elements of `body.messages`, when it is a non-empty array. -/
def messagesOf (body : Json) : Throws (List Json) :=
  match body.prop "messages" with
  | .json (.arr (msg :: rest)) => .ok (msg :: rest)
  | _ => .error (badRequest "The 'messages' field is required and must be a non-empty array."
      (some "messages_required"))

/-- `if (body.stop !== undefined) request.stop = Array.isArray(body.stop) ? body.stop : [body.stop]`. -/
def stopOf (stop : JsValue) : Option (List Json) :=
  match stop with
  | .json (.arr items) => some items
  | .json v => some [v]
  | _ => none

/-- `parseChatCompletionRequest(body, requestId)`. -/
def parseChatCompletionRequest (body : Json) (requestId : String) : Throws UnifiedAiRequest := do
  let model ← getProp body "model"
  require model.truthy (badRequest "The 'model' field is required." (some "model_required"))
  let items ← messagesOf body
  let temperature := body.prop "temperature"
  -- the comparisons coerce: a string of digits is in range, and `null` counts as 0
  let badTemperature ← outOfRange temperature 2
  require (!badTemperature)
    (badRequest "The 'temperature' must be between 0 and 2." (some "invalid_temperature"))
  let topP := body.prop "top_p"
  let badTopP ← outOfRange topP 1
  require (!badTopP) (badRequest "The 'top_p' must be between 0 and 1." (some "invalid_top_p"))
  let many ← moreThanOne (body.prop "n")
  require (!many) (badRequest "Multiple completions (n > 1) are not supported by this gateway."
    (some "unsupported_parameter"))
  let messages ← items.zipIdx.mapM fun e => parseChatMessage e.1 e.2
  let tools ← mapTools (body.prop "tools")
  let responseFormat ← parseResponseFormat (body.prop "response_format")
  return {
    requestId := requestId
    model := model.jsonD .null
    messages := messages
    stream := ((body.prop "stream").orElse (.json (.bool false))).jsonD .null
    temperature := temperature
    topP := topP
    maxTokens := (body.prop "max_completion_tokens").orElse (body.prop "max_tokens")
    stop := stopOf (body.prop "stop")
    tools := tools
    toolChoice := body.prop "tool_choice"
    responseFormat := responseFormat
    streamOptions := mapStreamOptions (body.prop "stream_options")
    user := (body.prop "user").whenTruthy }

/-! ## Embeddings -/

/-- `parseEmbeddingRequest(body, requestId)`. -/
def parseEmbeddingRequest (body : Json) (requestId : String) : Throws UnifiedEmbeddingRequest := do
  let model ← getProp body "model"
  require model.truthy (badRequest "The 'model' field is required." (some "model_required"))
  let input := body.prop "input"
  require input.truthy (badRequest "The 'input' field is required." (some "input_required"))
  return {
    requestId := requestId
    model := model.jsonD .null
    input := input.jsonD .null
    dimensions := body.prop "dimensions"
    user := (body.prop "user").whenTruthy }

/-! ## Responses -/

/-- The tool call of a `function_call` item. -/
def toolCallOf (item : Json) : UnifiedToolCall :=
  ⟨item.prop "call_id", ⟨item.prop "name", item.prop "arguments"⟩⟩

/-- The assistant turn a `function_call` item starts. -/
def toolCallMessage (item : Json) : UnifiedMessage where
  role := .json (.str "assistant")
  content := .json (.str "")
  toolCalls := some [toolCallOf item]

/-- `appendResponsesFunctionCall(messages, item)`: the call joins the assistant message right before it. -/
def appendResponsesFunctionCall (messages : List UnifiedMessage) (item : Json) : List UnifiedMessage :=
  match messages.getLast? with
  | some previous =>
      if previous.role.isStr "assistant" then
        messages.dropLast ++
          [{ previous with toolCalls := some (previous.toolCalls.getD [] ++ [toolCallOf item]) }]
      else messages ++ [toolCallMessage item]
  | none => [toolCallMessage item]

/-- The text of a content part, when it is an object with a non-empty one. -/
def partText (part : Json) : Option String :=
  match part.prop "text" with
  | .json (.str s) => if part.isObject ∧ s ≠ "" then some s else none
  | _ => none

/-- `mapResponsesInputItem(item, index)`. -/
def mapResponsesInputItem (item : Json) (index : Nat) : Throws UnifiedMessage :=
  if (item.prop "type").isStr "function_call_output" then
    .ok { role := .json (.str "tool"), content := item.prop "output", toolCallId := item.prop "call_id" }
  else
    -- Responses knows the system role by a second name
    let role := if (item.prop "role").isStr "developer" then .json (.str "system") else item.prop "role"
    match item.prop "content" with
    | .json (.str s) => .ok { role := role, content := .json (.str s) }
    | .json (.arr parts) =>
        .ok { role := role, content := .json (.str ("".intercalate (parts.filterMap partText))) }
    | _ => .error (badRequest s!"Input item at index {index} has no content" none)

/-- One turn of the loop over `body.input`. -/
def parseInputItem (messages : List UnifiedMessage) (item : Json) (index : Nat) :
    Throws (List UnifiedMessage) := do
  require item.isObject (badRequest s!"Input item at index {index} must be an object." none)
  if (item.prop "type").isStr "function_call" then return appendResponsesFunctionCall messages item
  else
    let message ← mapResponsesInputItem item index
    return messages ++ [message]

/-- The loop, from item `index` on. -/
def parseInputItems : List UnifiedMessage → List Json → Nat → Throws (List UnifiedMessage)
  | messages, [], _ => .ok messages
  | messages, item :: rest, index => do
      let messages ← parseInputItem messages item index
      parseInputItems messages rest (index + 1)

/-- The system message of `body.instructions`. -/
def instructionMessages (instructions : JsValue) : List UnifiedMessage :=
  if instructions.truthy then [{ role := .json (.str "system"), content := instructions }] else []

/-- The messages of `body.input`, behind `before`. -/
def parseInput (before : List UnifiedMessage) (input : JsValue) : Throws (List UnifiedMessage) :=
  match input with
  | .json (.str s) => .ok (before ++ [{ role := .json (.str "user"), content := .json (.str s) }])
  | .json (.arr items) => parseInputItems before items 0
  | _ => .error (badRequest "The 'input' field must be a string or an array." none)

/-- `parseResponsesRequest(body, requestId)`. -/
def parseResponsesRequest (body : Json) (requestId : String) : Throws UnifiedAiRequest := do
  let model ← getProp body "model"
  require model.truthy (badRequest "The 'model' field is required." (some "model_required"))
  let input := body.prop "input"
  require input.truthy (badRequest "The 'input' field is required." (some "input_required"))
  let messages ← parseInput (instructionMessages (body.prop "instructions")) input
  let tools ← mapTools (body.prop "tools")
  return {
    requestId := requestId
    model := model.jsonD .null
    messages := messages
    stream := ((body.prop "stream").orElse (.json (.bool false))).jsonD .null
    temperature := body.prop "temperature"
    topP := body.prop "top_p"
    maxTokens := body.prop "max_output_tokens"
    tools := tools
    toolChoice := body.prop "tool_choice"
    streamOptions := mapStreamOptions (body.prop "stream_options")
    user := (body.prop "user").whenTruthy
    metadata := (body.prop "metadata").whenTruthy }

/-! ## The messages of a request -/

variable {body : Json} {requestId : String} {request : UnifiedAiRequest}

/-- The messages of an accepted chat body are its parsed messages; its tool choice is passed on. -/
theorem of_parseChatCompletionRequest
    (h : parseChatCompletionRequest body requestId = .ok request) :
    ∃ items, body.prop "messages" = .json (.arr items) ∧
      (items.zipIdx.mapM fun e => parseChatMessage e.1 e.2) = .ok request.messages ∧
      request.toolChoice = body.prop "tool_choice" := by
  unfold parseChatCompletionRequest at h
  simp only [Except.bind_eq_ok_iff, require_eq_ok_iff] at h
  obtain ⟨model, -, -, -, items, hitems, -, -, -, -, -, -, -, -, -, -, -, -, messages, hmessages,
    tools, -, format, -, h⟩ := h
  obtain rfl := Except.ok.inj h
  refine ⟨items, ?_, hmessages, rfl⟩
  unfold messagesOf at hitems
  split at hitems
  · rename_i msg rest heq
    obtain rfl := Except.ok.inj hitems
    exact heq
  · cases hitems

/-- The messages of an accepted Responses body are its instructions and its parsed input; its tool choice
    is passed on. -/
theorem of_parseResponsesRequest (h : parseResponsesRequest body requestId = .ok request) :
    parseInput (instructionMessages (body.prop "instructions")) (body.prop "input") =
        .ok request.messages ∧
      request.toolChoice = body.prop "tool_choice" := by
  unfold parseResponsesRequest at h
  simp only [Except.bind_eq_ok_iff, require_eq_ok_iff] at h
  obtain ⟨model, -, -, -, -, -, messages, hmessages, tools, -, h⟩ := h
  obtain rfl := Except.ok.inj h
  exact ⟨hmessages, rfl⟩

end Compat

end Sirius
