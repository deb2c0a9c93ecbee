import SiriusGateway.Adapters.Content
import SiriusGateway.Adapters.EventStream
import SiriusGateway.Lib.JsMap

/-!
# `Adapters.Ollama` — the Ollama wire format

`toOllamaRequest`, `fromOllamaResponse` and the NDJSON parser of the Ollama adapter. Ollama gives its tool
calls no ids: `freshId` is the supply the adapter draws them from.

## Contents
- **Requests.** `toOllamaRequest`, and when it goes through (`succeeds_toOllamaRequest_iff`).
- **Responses.** `mapOllamaFinishReason`, `fromOllamaResponse`.
- **The stream.** `processLine`; the completion marker is a chunk with `done` (`isMarker`, `parser_marks`).
- **Well-formed lines.** `WellFormed`: no such line throws or yields an ill-typed delta.
-/

namespace Sirius

open Js

namespace Ollama

/-! ## Requests -/

/-- The `function` of an Ollama tool call. -/
structure FunctionCall where
  name : JsValue
  arguments : Json
  deriving DecidableEq

/-- `OllamaMessage`. -/
structure Message where
  role : JsValue
  content : String
  images : Option (List JsValue)
  toolCalls : Option (List FunctionCall)
  deriving DecidableEq

/-- One of `OllamaChatRequest['tools']`, of type `function`. -/
structure Tool where
  name : JsValue
  description : JsValue
  parameters : JsValue
  deriving DecidableEq

/-- `OllamaChatRequest['options']`. -/
structure Options where
  temperature : JsValue
  topP : JsValue
  numPredict : JsValue
  stop : Option (List Json)
  deriving DecidableEq

/-- `OllamaChatRequest`. -/
structure ChatRequest where
  model : Json
  messages : List Message
  stream : Json
  options : Option Options
  tools : Option (List Tool)
  deriving DecidableEq

/-- `parseToolArguments(raw)`: anything but the text of an object becomes `{}`. -/
def parseToolArguments (raw : JsValue) : Json :=
  match parseJson raw with
  | .ok (.obj fields) => .obj fields
  | _ => .obj []

/-- The images of multi-part content. -/
def imagesOf (content : JsValue) : Throws (List JsValue) := do
  let parts ← arrayOf "msg.content" "filter" content
  let images ← filterParts "image_url" parts
  return (images.map fun part => part.prop "imageUrl").filter (·.truthy)

/-- The text and the images of a message. -/
def contentOf (content : JsValue) : Throws (String × List JsValue) :=
  match content with
  | .json (.str s) => .ok (s, [])
  | content => do
      let text ← joinTexts "" content
      let images ← imagesOf content
      return (text, images)

/-- `mapMessage(msg)`. -/
def mapMessage (msg : UnifiedMessage) : Throws Message := do
  let textAndImages ← contentOf msg.content
  return {
    role := msg.role
    content := textAndImages.1
    images := if textAndImages.2 = [] then none else some textAndImages.2
    toolCalls :=
      if msg.role.isStr "assistant" then
        (msg.toolCalls.filter (· ≠ [])).map (·.map fun tc =>
          ⟨tc.function.name, parseToolArguments tc.function.arguments⟩)
      else none }

/-- The generation options, when there is one. -/
def optionsOf (unified : UnifiedAiRequest) : Option Options :=
  if unified.temperature.isDefined || unified.topP.isDefined || unified.maxTokens.isDefined ||
      unified.stop.isSome then
    some ⟨unified.temperature, unified.topP, unified.maxTokens, unified.stop⟩
  else none

/-- `toOllamaRequest(unified)`. -/
def toOllamaRequest (unified : UnifiedAiRequest) : Throws ChatRequest := do
  let messages ← unified.messages.mapM mapMessage
  return {
    model := unified.model
    messages := messages
    stream := unified.stream
    options := optionsOf unified
    tools := (unified.tools.filter (· ≠ [])).map (·.map fun t =>
      ⟨t.function.name, t.function.description.orElse (.json (.str "")),
        t.function.parameters.orElse (.json (.obj []))⟩) }

theorem succeeds_contentOf_iff {content : JsValue} :
    (contentOf content).Succeeds ↔ IsContent content ∧ TextsPrint content := by
  unfold contentOf
  split
  · rename_i s
    refine ⟨fun _ => ⟨Or.inl ⟨s, rfl⟩, ?_⟩, fun _ => ⟨_, rfl⟩⟩
    intro parts heq
    cases heq
  · rename_i hstr
    have himages : ∀ parts, Parts content parts → (imagesOf content).Succeeds := by
      rintro parts ⟨rfl, hnull⟩
      refine Except.succeeds_bind_iff.mpr ⟨parts, rfl, Except.succeeds_bind_pure_iff.mpr ?_⟩
      exact ⟨_, filterParts_eq_ok_iff.mpr ⟨hnull, rfl⟩⟩
    constructor
    · intro h
      obtain ⟨text, htext, -⟩ := Except.succeeds_bind_iff.mp h
      obtain ⟨hparts, hprint⟩ := succeeds_joinTexts_iff.mp ⟨text, htext⟩
      exact ⟨Or.inr hparts, hprint⟩
    · rintro ⟨⟨s, rfl⟩ | ⟨parts, hparts⟩, hprint⟩
      · exact absurd rfl (hstr s)
      · obtain ⟨text, htext⟩ := succeeds_joinTexts_iff.mpr ⟨⟨parts, hparts⟩, hprint⟩
        exact Except.succeeds_bind_iff.mpr
          ⟨text, htext, Except.succeeds_bind_pure_iff.mpr (himages parts hparts)⟩

/-- **The Ollama mapper** goes through when every message has content whose texts print. -/
theorem succeeds_toOllamaRequest_iff {unified : UnifiedAiRequest} :
    (toOllamaRequest unified).Succeeds ↔
      ∀ msg ∈ unified.messages, IsContent msg.content ∧ TextsPrint msg.content := by
  unfold toOllamaRequest
  rw [Except.succeeds_bind_pure_iff, Except.succeeds_mapM_iff]
  refine forall₂_congr fun msg _ => ?_
  unfold mapMessage
  rw [Except.succeeds_bind_pure_iff]
  exact succeeds_contentOf_iff

/-! ## Responses -/

/-- `mapOllamaFinishReason(hasToolCalls, doneReason)`. -/
def mapOllamaFinishReason (hasToolCalls : Bool) (doneReason : JsValue) : String :=
  if hasToolCalls then "tool_calls" else if doneReason.isStr "length" then "length" else "stop"

/-- `v.length` is truthy: a non-empty array or string, or an object with such a property. -/
def hasLength (v : JsValue) : Bool := (optProp v "length").truthy

/-- One tool call of a response, under the id drawn for it. -/
def responseToolCall (id : String) (tc : Json) : Throws UnifiedContent := do
  let function ← getProp tc "function"
  let name ← getProp function "name"
  return .toolCall ⟨.json (.str id), ⟨name, stringifyValue (optProp function "arguments")⟩⟩

/-- `fromOllamaResponse(raw, provider, latencyMs)`, at the time `now`. -/
def fromOllamaResponse (freshId : Nat → String) (now : Nat) (raw : Json) (provider : String)
    (latencyMs : Rat) : Throws UnifiedAiResponse := do
  let message ← getProp raw "message"
  let text ← getProp message "content"
  let calls := optProp message "tool_calls"
  let toolCalls ←
    if calls.truthy then do
      let calls ← iterate "raw.message.tool_calls" calls
      calls.zipIdx.mapM fun (tc, i) => responseToolCall (freshId i) tc
    else pure []
  let inputTokens := (raw.prop "prompt_eval_count").orElse (.json (.num 0))
  let outputTokens := (raw.prop "eval_count").orElse (.json (.num 0))
  let totalTokens ← inputTokens.add outputTokens
  return {
    id := .json (.str s!"ollama-{now}")
    model := raw.prop "model"
    provider := provider
    content := (if text.truthy then [.text text] else []) ++ toolCalls
    finishReason := mapOllamaFinishReason (hasLength calls) (raw.prop "done_reason")
    usage := ⟨inputTokens, outputTokens, totalTokens⟩
    latencyMs := latencyMs }

/-! ## The stream -/

/-- The state the parser keeps: `seenToolCalls`, `toolCallIds`, and how many ids have been drawn. -/
structure State where
  seenToolCalls : Bool
  toolCallIds : JsMap Nat String
  drawn : Nat

/-- The elements `for (let i = 0; i < v.length; i++)` reads. An array-like object may lack some; the first
    missing one ends the loop with a `TypeError`, so no more than one is listed. -/
def indexed (v : JsValue) : Throws (List JsValue) :=
  match v with
  | .json (.arr items) => .ok (items.map .json)
  | .json (.str s) => .ok (s.toList.map fun c => .json (.str (String.ofList [c])))
  | .json (.obj fields) =>
      (lookup "length" fields).toNumber.map fun length =>
        ((List.range (fields.length + 1)).takeWhile fun i => length.gt i).map fun i =>
          lookup (toString i) fields
  | _ => .ok []

section Stream

variable (freshId : Nat → String)

/-- `toolCallIds.get(i)`, or a fresh id filed under `i`. -/
def idAt (i : Nat) (s : State) : String × State :=
  match s.toolCallIds.get i with
  | some id =>
      if id = "" then
        (freshId s.drawn, { s with toolCallIds := s.toolCallIds.set i (freshId s.drawn), drawn := s.drawn + 1 })
      else (id, s)
  | none =>
      (freshId s.drawn, { s with toolCallIds := s.toolCallIds.set i (freshId s.drawn), drawn := s.drawn + 1 })

/-- The tool call deltas of a chunk, from position `i` on. -/
def yieldToolCalls : Nat → List JsValue → State → Gen State
  | _, [], s => pure s
  | i, tc :: rest, s => do
      let function ← Gen.lift (getProp tc "function")
      let name ← Gen.lift (getProp function "name")
      Gen.yield (.toolCallDelta (.json (.num i)) (.json (.str (idAt freshId i s).1)) name
        (stringifyValue (optProp function "arguments")))
      yieldToolCalls (i + 1) rest { (idAt freshId i s).2 with seenToolCalls := true }

/-- `if (chunk.message?.content) yield …`. -/
def yieldContent (content : JsValue) : Gen Unit :=
  if content.truthy then Gen.yield (.contentDelta content) else pure ()

/-- `if (chunk.message?.tool_calls) for … yield …`. -/
def yieldToolCallDeltas (toolCalls : JsValue) (s : State) : Gen State :=
  if toolCalls.truthy then
    Gen.lift (indexed toolCalls) >>= fun items => yieldToolCalls freshId 0 items s
  else pure s

/-- The usage event of the final chunk. -/
def yieldUsage (chunk : Json) : Gen Unit :=
  if (chunk.prop "prompt_eval_count").isDefined || (chunk.prop "eval_count").isDefined then do
    let inputTokens := (chunk.prop "prompt_eval_count").orElse (.json (.num 0))
    let outputTokens := (chunk.prop "eval_count").orElse (.json (.num 0))
    let totalTokens ← Gen.lift (inputTokens.add outputTokens)
    Gen.yield (.usage ⟨inputTokens, outputTokens, totalTokens⟩)
  else pure ()

/-- `if (chunk.done) …`, where `hasToolCalls` says whether the stream has had tool calls. -/
def yieldDone (hasToolCalls : Bool) (chunk : Json) : Gen Unit :=
  if (chunk.prop "done").truthy then do
    yieldUsage chunk
    Gen.yield (.done (mapOllamaFinishReason hasToolCalls (chunk.prop "done_reason")))
  else pure ()

/-- `processLine` from the parsed chunk on. -/
def processChunk (chunk : Json) (s : State) : Gen State := do
  let message ← Gen.lift (getProp chunk "message")
  let toolCalls := optProp message "tool_calls"
  yieldContent (optProp message "content")
  let s' ← yieldToolCallDeltas freshId toolCalls s
  yieldDone (s.seenToolCalls || hasLength toolCalls) chunk
  return s'

/-- `processLine(line, seenToolCalls, toolCallIds)`. -/
def processLine (line : String) (s : State) : Gen State :=
  let trimmed := trim line
  if trimmed = "" then pure s
  else
    match jsonParse trimmed with
    | none => pure s
    | some chunk => processChunk freshId chunk s

/-- `parseOllamaStream`, as a line parser. -/
def parser : LineParser State := ⟨⟨false, JsMap.empty, 0⟩, processLine freshId⟩

end Stream

/-! ### The completion marker -/

/-- The chunk a line carries. -/
def chunkOf (line : String) : Option Json := if trim line = "" then none else jsonParse (trim line)

/-- The line carries a chunk with `done`. -/
def isMarker (line : String) : Bool := (chunkOf line).any fun chunk => (chunk.prop "done").truthy

variable {freshId : Nat → String}

@[simp] theorem parser_processLine : (parser freshId).processLine = processLine freshId := rfl

theorem processLine_eq (line : String) (s : State) :
    processLine freshId line s = (chunkOf line).elim (pure s) fun chunk => processChunk freshId chunk s := by
  unfold processLine chunkOf
  simp only
  split
  · rfl
  · cases jsonParse (trim line) <;> rfl

/-- What the parser does with a line is what it does with the chunk on it. -/
theorem parser_processLine_eq (line : String) (s : State) :
    (parser freshId).processLine line s = (chunkOf line).elim (pure s) fun chunk => processChunk freshId chunk s := by
  rw [parser_processLine]
  exact processLine_eq line s

theorem quiet_yieldToolCalls (items : List JsValue) :
    ∀ (i : Nat) (s : State), (yieldToolCalls freshId i items s).Quiet := by
  induction items with
  | nil => exact fun _ s => Gen.quiet_pure s
  | cons tc rest ih =>
      intro i s
      exact (Gen.quiet_lift _).bind fun function => (Gen.quiet_lift _).bind fun name =>
        (Gen.quiet_yield rfl).bind fun _ => ih (i + 1) _

theorem quiet_yieldContent (content : JsValue) : (yieldContent content).Quiet := by
  unfold yieldContent
  split
  · exact Gen.quiet_yield rfl
  · exact Gen.quiet_pure ()

theorem quiet_yieldToolCallDeltas (toolCalls : JsValue) (s : State) :
    (yieldToolCallDeltas freshId toolCalls s).Quiet := by
  unfold yieldToolCallDeltas
  split
  · exact (Gen.quiet_lift _).bind fun items => quiet_yieldToolCalls items 0 s
  · exact Gen.quiet_pure s

theorem quiet_yieldUsage (chunk : Json) : (yieldUsage chunk).Quiet := by
  unfold yieldUsage
  split
  · exact (Gen.quiet_lift _).bind fun _ => Gen.quiet_yield rfl
  · exact Gen.quiet_pure ()

/-- **A chunk ends the stream exactly when it is `done`.** -/
theorem processChunk_terminals {chunk : Json} {s s' : State}
    (h : (processChunk freshId chunk s).result = .ok s') :
    if (chunk.prop "done").truthy then ∃ reason, (processChunk freshId chunk s).terminals = [.done reason]
    else (processChunk freshId chunk s).terminals = [] := by
  obtain ⟨message, -, h, hterm⟩ := (Gen.quiet_lift _).terminals_bind h
  obtain ⟨-, -, h, hterm₁⟩ := (quiet_yieldContent _).terminals_bind h
  obtain ⟨s₁, -, h, hterm₂⟩ := (quiet_yieldToolCallDeltas _ s).terminals_bind h
  have hall : (processChunk freshId chunk s).terminals =
      (yieldDone (s.seenToolCalls || hasLength (optProp message "tool_calls")) chunk >>= fun _ =>
        (pure s₁ : Gen State)).terminals := hterm.trans (hterm₁.trans hterm₂)
  rw [hall]
  unfold yieldDone at h ⊢
  cases hdone : (chunk.prop "done").truthy with
  | false => rfl
  | true =>
      simp only [hdone, if_true, bind_assoc] at h ⊢
      obtain ⟨-, -, -, hterm⟩ := (quiet_yieldUsage chunk).terminals_bind h
      exact ⟨_, hterm⟩

/-- **The completion marker of the Ollama stream.** -/
theorem parser_marks : (parser freshId).Marks isMarker := by
  intro line s s' h
  rw [parser_processLine, processLine_eq] at h ⊢
  unfold isMarker
  cases hchunk : chunkOf line with
  | none => rfl
  | some chunk =>
      rw [hchunk] at h
      exact processChunk_terminals h

/-! ### Well-formed lines -/

/-- A tool call of the declared shape. -/
def IsToolCall (tc : Json) : Prop := tc ≠ .null ∧ (tc.prop "function").isNullish = false

/-- A chunk of the declared shape, as far as the parser looks: error payloads have no message. -/
structure WellFormedChunk (chunk : Json) : Prop where
  object : chunk ≠ .null
  content : OptString (optProp (chunk.prop "message") "content")
  toolCalls : (optProp (chunk.prop "message") "tool_calls").isNullish = true ∨
    ∃ calls, optProp (chunk.prop "message") "tool_calls" = .json (.arr calls) ∧
      ∀ tc ∈ calls, IsToolCall tc
  inputCount : OptNumber (chunk.prop "prompt_eval_count")
  outputCount : OptNumber (chunk.prop "eval_count")

/-- A well-formed line carries no chunk (a blank line, or text cut short so that it does not parse) or a
    well-formed one. -/
def WellFormed (line : String) : Prop := ∀ chunk, chunkOf line = some chunk → WellFormedChunk chunk

theorem clean_yieldToolCalls {calls : List Json} (h : ∀ tc ∈ calls, IsToolCall tc) :
    ∀ (i : Nat) (s : State), (yieldToolCalls freshId i (calls.map .json) s).Clean := by
  induction calls with
  | nil => exact fun _ s => Gen.clean_pure s
  | cons tc rest ih =>
      intro i s
      obtain ⟨⟨hnull, hfunction⟩, hrest⟩ := List.forall_mem_cons.mp h
      have hread := getProp_json "function" hnull
      refine (Gen.clean_lift ⟨_, hread⟩).bind fun function heq => ?_
      obtain rfl := Except.ok.inj (hread.symm.trans heq)
      exact (Gen.clean_lift ⟨_, getProp_eq "name" hfunction⟩).bind fun name _ =>
        (Gen.clean_yield rfl).bind fun _ _ => ih hrest (i + 1) _

/-- **A well-formed chunk** neither throws nor stops the observer. -/
theorem clean_processChunk {chunk : Json} (h : WellFormedChunk chunk) (s : State) :
    (processChunk freshId chunk s).Clean := by
  have hread := getProp_json "message" h.object
  refine (Gen.clean_lift ⟨_, hread⟩).bind fun message heq => ?_
  obtain rfl := Except.ok.inj (hread.symm.trans heq)
  have hcontent : (yieldContent (optProp (chunk.prop "message") "content")).Clean := by
    unfold yieldContent
    split
    · obtain ⟨text, htext⟩ := h.content.of_truthy ‹_›
      rw [htext]
      exact Gen.clean_yield rfl
    · exact Gen.clean_pure ()
  have hcalls : (yieldToolCallDeltas freshId (optProp (chunk.prop "message") "tool_calls") s).Clean := by
    unfold yieldToolCallDeltas
    split
    · rename_i htruthy
      rcases h.toolCalls with hnull | ⟨calls, hcalls, hall⟩
      · rw [isNullish_of_truthy htruthy] at hnull
        cases hnull
      · rw [hcalls]
        refine (Gen.clean_lift ⟨calls.map JsValue.json, rfl⟩).bind fun items heq => ?_
        obtain rfl := Except.ok.inj heq
        exact clean_yieldToolCalls hall 0 s
    · exact Gen.clean_pure s
  have hdone : ∀ hasToolCalls, (yieldDone hasToolCalls chunk).Clean := by
    intro hasToolCalls
    unfold yieldDone yieldUsage
    split
    · refine Gen.Clean.bind ?_ fun _ _ => Gen.clean_yield rfl
      split
      · refine (Gen.clean_lift ?_).bind fun _ _ => Gen.clean_yield rfl
        have hzero : OptNumber (.json (.num 0)) := Or.inr ⟨0, rfl⟩
        exact (h.inputCount.orElse hzero).succeeds_add (h.outputCount.orElse hzero)
      · exact Gen.clean_pure ()
    · exact Gen.clean_pure ()
  exact hcontent.bind fun _ _ => hcalls.bind fun s' _ => (hdone _).bind fun _ _ => Gen.clean_pure s'

theorem clean_processLine {line : String} (h : WellFormed line) (s : State) :
    ((parser freshId).processLine line s).Clean := by
  rw [parser_processLine, processLine_eq]
  cases hchunk : chunkOf line with
  | none => exact Gen.clean_pure s
  | some chunk => exact clean_processChunk (h chunk hchunk) s

end Ollama

end Sirius
