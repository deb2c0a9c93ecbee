import SiriusGateway.Adapters.Content

/-!
# `Adapters.Nova` — requests for a nova provider

The from-file shim's `toNovaRequest` and the llamactl adapter's `siriusRequestToNova`. The two agree on
messages and sampling parameters; llamactl also carries `stop` and `user`, and takes `stream` from the
request.
-/

namespace Sirius

open Js

namespace Nova

/-- `nova.ContentBlock`. -/
inductive ContentBlock where
  | text (text : JsValue)
  | imageUrl (url detail : JsValue)
  deriving DecidableEq

/-- A message of a nova request. -/
structure Message where
  role : JsValue
  content : String ⊕ List ContentBlock
  name : JsValue
  toolCallId : JsValue
  toolCalls : Option (List UnifiedToolCall)
  deriving DecidableEq

/-- `nova.UnifiedAiRequest`. -/
structure Request where
  model : Json
  messages : List Message
  stream : Json
  temperature : JsValue
  topP : JsValue
  maxTokens : JsValue
  stop : Option (List Json) := none
  user : JsValue := .undefined
  deriving DecidableEq

/-- One part of `toNovaContent(parts)`, which `translateContent(parts)` repeats. -/
def mapPart (part : Json) : Throws ContentBlock := do
  let type ← getProp part "type"
  if type.isStr "text" then return .text ((part.prop "text").orElse (.json (.str "")))
  else return .imageUrl ((part.prop "imageUrl").orElse (.json (.str ""))) (part.prop "detail").whenTruthy

/-- One message of either function. -/
def mapMessage (msg : UnifiedMessage) : Throws Message := do
  let content ← mapContent "parts" mapPart msg.content
  return {
    role := msg.role
    content := content
    name := msg.name
    toolCallId := msg.toolCallId
    toolCalls := msg.toolCalls }

/-- `toNovaRequest(req, stream)`. -/
def toNovaRequest (req : UnifiedAiRequest) (stream : Json) : Throws Request := do
  let messages ← req.messages.mapM mapMessage
  return {
    model := req.model
    messages := messages
    stream := stream
    temperature := req.temperature
    topP := req.topP
    maxTokens := req.maxTokens }

/-- `siriusRequestToNova(req)`. -/
def siriusRequestToNova (req : UnifiedAiRequest) : Throws Request := do
  let messages ← req.messages.mapM mapMessage
  return {
    model := req.model
    messages := messages
    stream := req.stream
    temperature := req.temperature
    topP := req.topP
    maxTokens := req.maxTokens
    stop := req.stop
    user := req.user }

theorem succeeds_mapPart_iff (part : Json) : (mapPart part).Succeeds ↔ part ≠ .null := by
  unfold mapPart
  constructor
  · rintro h rfl
    obtain ⟨v, hv, -⟩ := Except.succeeds_bind_iff.mp h
    cases hv
  · intro h
    rw [getProp_json "type" h]
    refine Except.succeeds_bind_iff.mpr ⟨_, rfl, ?_⟩
    split <;> exact ⟨_, rfl⟩

theorem succeeds_mapMessages_iff {messages : List UnifiedMessage} :
    (messages.mapM mapMessage).Succeeds ↔ ∀ msg ∈ messages, IsContent msg.content := by
  rw [Except.succeeds_mapM_iff]
  refine forall₂_congr fun msg _ => ?_
  unfold mapMessage
  rw [Except.succeeds_bind_pure_iff]
  exact succeeds_mapContent_iff succeeds_mapPart_iff

/-- **The nova mappers** go through when every message has content. -/
theorem succeeds_toNovaRequest_iff {req : UnifiedAiRequest} {stream : Json} :
    (toNovaRequest req stream).Succeeds ↔ ∀ msg ∈ req.messages, IsContent msg.content := by
  unfold toNovaRequest
  rw [Except.succeeds_bind_pure_iff]
  exact succeeds_mapMessages_iff

theorem succeeds_siriusRequestToNova_iff {req : UnifiedAiRequest} :
    (siriusRequestToNova req).Succeeds ↔ ∀ msg ∈ req.messages, IsContent msg.content := by
  unfold siriusRequestToNova
  rw [Except.succeeds_bind_pure_iff]
  exact succeeds_mapMessages_iff

end Nova

end Sirius
