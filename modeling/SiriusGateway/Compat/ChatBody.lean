import SiriusGateway.Adapters.Content
import SiriusGateway.Compat.Service

/-!
# `Compat.ChatBody` — valid chat bodies

What `OpenAiChatCompletionRequest` promises of a chat body, and what the checks of the parser ask on top of it.
Content parts may stand in a message of any role.

## Contents
- **Fields.** Required and optional fields of a type.
- **Bodies.** `IsMessage`, `IsTool`, `IsResponseFormat`, `IsChatBody`.
- **The body, passed on.** `passed`: the body with `max_completion_tokens` in the place of `max_tokens`, a list
  of stops, content for `null`, a stream flag, and without what is empty.
-/

namespace Sirius

open Js

namespace Compat

/-! ## Fields -/

/-- The field is there, with a value of the type. -/
def Required (P : Json → Prop) (v : JsValue) : Prop := ∃ j, v = .json j ∧ P j

/-- The field is left out, or has a value of the type. -/
def Optional (P : Json → Prop) (v : JsValue) : Prop := v = .undefined ∨ Required P v

/-- `string`. -/
def IsString (j : Json) : Prop := ∃ s, j = .str s

/-- `boolean`. -/
def IsBool (j : Json) : Prop := ∃ b, j = .bool b

/-- `number`. -/
def IsNumber (j : Json) : Prop := ∃ q, j = .num q

/-- A number from `0` to `hi`. -/
def IsUpTo (hi : Rat) (j : Json) : Prop := ∃ q, j = .num q ∧ 0 ≤ q ∧ q ≤ hi

/-- `Record<string, unknown>`. -/
def IsRecord (j : Json) : Prop := ∃ fields, j = .obj fields

/-- An array of the type. -/
def IsArrayOf (P : Json → Prop) (j : Json) : Prop := ∃ items, j = .arr items ∧ ∀ item ∈ items, P item

/-! ## Bodies -/

/-- `OpenAiContentPart`. -/
inductive IsPart (part : Json) : Prop where
  | text (type : HasType part "text") (text : Required IsString (part.prop "text"))
  | image (type : HasType part "image_url")
      (image : Required (fun j => Required IsString (j.prop "url") ∧ Optional IsString (j.prop "detail"))
        (part.prop "image_url"))
      (only : part.prop "imageUrl" = .undefined)

/-- A string, or content parts. -/
def IsMessageContent (j : Json) : Prop := IsString j ∨ IsArrayOf IsPart j

/-- `OpenAiToolCallMsg`. -/
structure IsToolCall (call : Json) : Prop where
  id : Required IsString (call.prop "id")
  type : HasType call "function"
  function : Required (fun j => Required IsString (j.prop "name") ∧ Required IsString (j.prop "arguments"))
    (call.prop "function")

/-- The role of a message. -/
def HasRole (msg : Json) (role : String) : Prop := msg.prop "role" = .json (.str role)

theorem HasRole.eq {msg : Json} {role role' : String} (h : HasRole msg role) (h' : HasRole msg role') :
    role = role' :=
  Json.str.inj (JsValue.json.inj (h.symm.trans h'))

/-- Roles exclude each other. -/
theorem HasRole.ne {msg : Json} {role role' : String} (h : HasRole msg role) (hne : role ≠ role') :
    ¬HasRole msg role' := fun h' => hne (h.eq h')

/-- **What a message becomes**, by its role: one of four, or any other. -/
theorem mapOpenAiMessage_kind (msg : Json) :
    (HasRole msg "system" ∧ mapOpenAiMessage msg =
        .ok { role := .json (.str "system"), content := msg.prop "content", name := (msg.prop "name").whenTruthy }) ∨
      (HasRole msg "user" ∧ mapOpenAiMessage msg = do
        let content ← mapUserContent (msg.prop "content")
        return { role := .json (.str "user"), content := content, name := (msg.prop "name").whenTruthy }) ∨
      (HasRole msg "assistant" ∧ mapOpenAiMessage msg = do
        let toolCalls ← mapToolCalls (msg.prop "tool_calls")
        return {
          role := .json (.str "assistant")
          content := (msg.prop "content").orElse (.json (.str ""))
          name := (msg.prop "name").whenTruthy
          toolCalls := toolCalls }) ∨
      (HasRole msg "tool" ∧ mapOpenAiMessage msg =
        .ok { role := .json (.str "tool"), content := msg.prop "content", toolCallId := msg.prop "tool_call_id" }) ∨
      ¬HasRole msg "system" ∧ ¬HasRole msg "user" ∧ ¬HasRole msg "assistant" ∧ ¬HasRole msg "tool" ∧
        mapOpenAiMessage msg = .ok { role := .json (.str "user"), content := .json (.str "") } := by
  unfold mapOpenAiMessage
  by_cases hsystem : HasRole msg "system"
  · exact Or.inl ⟨hsystem, if_pos (isStr_iff.mpr hsystem)⟩
  rw [if_neg (mt isStr_iff.mp hsystem)]
  by_cases huser : HasRole msg "user"
  · exact Or.inr (Or.inl ⟨huser, if_pos (isStr_iff.mpr huser)⟩)
  rw [if_neg (mt isStr_iff.mp huser)]
  by_cases hassistant : HasRole msg "assistant"
  · exact Or.inr (Or.inr (Or.inl ⟨hassistant, if_pos (isStr_iff.mpr hassistant)⟩))
  rw [if_neg (mt isStr_iff.mp hassistant)]
  by_cases htool : HasRole msg "tool"
  · exact Or.inr (Or.inr (Or.inr (Or.inl ⟨htool, if_pos (isStr_iff.mpr htool)⟩)))
  · exact Or.inr (Or.inr (Or.inr (Or.inr ⟨hsystem, huser, hassistant, htool, if_neg (mt isStr_iff.mp htool)⟩)))

/-- `OpenAiMessage`: a name may be given to every role. -/
inductive IsMessage (msg : Json) : Prop where
  | plain (role : HasRole msg "system" ∨ HasRole msg "user")
      (content : Required IsMessageContent (msg.prop "content")) (name : Optional IsString (msg.prop "name"))
      (toolCalls : msg.prop "tool_calls" = .undefined) (toolCallId : msg.prop "tool_call_id" = .undefined)
  | assistant (role : HasRole msg "assistant")
      (content : (msg.prop "content").isNullish = true ∨ Required IsMessageContent (msg.prop "content"))
      (name : Optional IsString (msg.prop "name"))
      (toolCalls : Optional (IsArrayOf IsToolCall) (msg.prop "tool_calls"))
      (toolCallId : msg.prop "tool_call_id" = .undefined)
  | tool (role : HasRole msg "tool") (content : Required IsMessageContent (msg.prop "content"))
      (name : Optional IsString (msg.prop "name")) (toolCalls : msg.prop "tool_calls" = .undefined)
      (toolCallId : Required IsString (msg.prop "tool_call_id"))

/-- `OpenAiTool`. -/
structure IsTool (tool : Json) : Prop where
  type : HasType tool "function"
  function : Required (fun j => Required IsString (j.prop "name") ∧ Optional IsString (j.prop "description") ∧
    Optional IsRecord (j.prop "parameters") ∧ Optional IsBool (j.prop "strict")) (tool.prop "function")

/-- `OpenAiResponseFormat`. -/
inductive IsResponseFormat (format : Json) : Prop where
  | plain (type : HasType format "text" ∨ HasType format "json_object")
  | schema (type : HasType format "json_schema")
      (schema : Required (fun j => Required IsString (j.prop "name") ∧ Required IsRecord (j.prop "schema") ∧
        Optional IsBool (j.prop "strict")) (format.prop "json_schema"))

/-- `OpenAiChatCompletionRequest`, without the fields a unified request does not carry. -/
structure IsChatBody (body : Json) : Prop where
  model : Required (fun j => IsString j ∧ j ≠ .str "") (body.prop "model")
  messages : Required (fun j => IsArrayOf IsMessage j ∧ j ≠ .arr []) (body.prop "messages")
  stream : Optional IsBool (body.prop "stream")
  streamOptions : Optional (fun j => IsRecord j ∧ Optional IsBool (j.prop "include_usage"))
    (body.prop "stream_options")
  temperature : Optional (IsUpTo 2) (body.prop "temperature")
  topP : Optional (IsUpTo 1) (body.prop "top_p")
  n : body.prop "n" = .undefined
  maxTokens : Optional IsNumber (body.prop "max_tokens")
  maxCompletionTokens : Optional IsNumber (body.prop "max_completion_tokens")
  stop : Optional (fun j => IsString j ∨ IsArrayOf IsString j) (body.prop "stop")
  tools : Optional (IsArrayOf IsTool) (body.prop "tools")
  responseFormat : Optional IsResponseFormat (body.prop "response_format")
  user : Optional IsString (body.prop "user")

/-! ## The body, passed on -/

/-- The elements of an array, each passed on; what is no array passes. -/
def passedEach (f : Json → Json) : JsValue → JsValue
  | .json (.arr items) => .json (.arr (items.map f))
  | v => v

/-- An empty array is left out. -/
def unlessEmpty : JsValue → JsValue
  | .json (.arr []) => .undefined
  | v => v

/-- The named fields of an object, in this order; `undefined` passes. -/
def passedFields (keys : List String) : JsValue → JsValue
  | .undefined => .undefined
  | v => .json (wireObject (keys.map fun key => (key, optProp v key)))

/-- A content part. -/
def passedPart (part : Json) : Json :=
  if (part.prop "type").isStr "image_url" then
    wireObject [("type", part.prop "type"), ("image_url", passedFields ["url", "detail"] (part.prop "image_url"))]
  else wireObject [("type", part.prop "type"), ("text", part.prop "text")]

/-- A tool call. -/
def passedToolCall (call : Json) : Json :=
  wireObject [("id", call.prop "id"), ("type", call.prop "type"),
    ("function", passedFields ["name", "arguments"] (call.prop "function"))]

/-- A message. -/
def passedMessage (msg : Json) : Json :=
  wireObject [("role", msg.prop "role"),
    ("content", passedEach passedPart ((msg.prop "content").orElse (.json (.str "")))),
    ("name", (msg.prop "name").whenTruthy), ("tool_call_id", msg.prop "tool_call_id"),
    ("tool_calls", unlessEmpty (passedEach passedToolCall (msg.prop "tool_calls")))]

/-- A tool. -/
def passedTool (tool : Json) : Json :=
  wireObject [("type", tool.prop "type"),
    ("function", passedFields ["name", "description", "parameters", "strict"] (tool.prop "function"))]

/-- The stops: a string is a list of one. -/
def passedStop : JsValue → JsValue
  | .json (.str s) => .json (.arr [.str s])
  | v => v

/-- A response format; the schema belongs to `json_schema`. -/
def passedFormat : JsValue → JsValue
  | .json format =>
      .json (wireObject [("type", format.prop "type"),
        ("json_schema", if (format.prop "type").isStr "json_schema" then
            passedFields ["name", "schema", "strict"] (format.prop "json_schema") else .undefined)])
  | v => v

/-- **The body, as it is to reach OpenAI.** -/
def passed (body : Json) : Json :=
  wireObject [("model", body.prop "model"), ("messages", passedEach passedMessage (body.prop "messages")),
    ("stream", (body.prop "stream").orElse (.json (.bool false))), ("temperature", body.prop "temperature"),
    ("top_p", body.prop "top_p"),
    ("max_tokens", (body.prop "max_completion_tokens").orElse (body.prop "max_tokens")),
    ("stop", passedStop (body.prop "stop")), ("user", (body.prop "user").whenTruthy),
    ("tools", unlessEmpty (passedEach passedTool (body.prop "tools"))), ("tool_choice", body.prop "tool_choice"),
    ("stream_options", passedFields ["include_usage"] (body.prop "stream_options")),
    ("response_format", passedFormat (body.prop "response_format"))]

/-- The part is carried: it has no `detail`, and its url is read in user messages only. -/
def PartPasses (inUser : Prop) (part : Json) : Prop :=
  HasType part "image_url" → optProp (part.prop "image_url") "detail" = .undefined ∧
    (inUser ∨ optProp (part.prop "image_url") "url" = .json (.str ""))

/-- The message is carried: its parts are, and a tool message has an id and no name. -/
def MessagePasses (msg : Json) : Prop :=
  (∀ parts, msg.prop "content" = .json (.arr parts) → ∀ part ∈ parts, PartPasses (HasRole msg "user") part) ∧
    (HasRole msg "tool" → msg.prop "tool_call_id" ≠ .json (.str "") ∧ (msg.prop "name").truthy = false)

end Compat

end Sirius
