import SiriusGateway.Adapters.Content
import SiriusGateway.Adapters.EventStream
import SiriusGateway.Lib.JsMap

/-!
# `Adapters.Anthropic` — the Anthropic wire format

`toAnthropicRequest`, `fromAnthropicResponse` and the SSE parser of the Anthropic adapter.

## Contents
- **Requests.** `toAnthropicRequest`, and when it goes through (`succeeds_toAnthropicRequest_iff`).
- **Responses.** `mapStopReason`, `fromAnthropicResponse`.
- **The stream.** `processLine`; the completion marker is a `message_delta` with a `stop_reason`
  (`isMarker`, `parser_marks`).
- **Well-formed lines.** `WellFormed`: no such line throws or yields an ill-typed delta.
-/

namespace Sirius

open Js

namespace Anthropic

/-! ## Requests -/

/-- `AnthropicContentBlock`. -/
inductive ContentBlock where
  | text (text : JsValue)
  | toolUse (id name : JsValue) (input : Json)
  | toolResult (toolUseId : JsValue) (content : String)
  deriving DecidableEq

/-- `AnthropicMessage`, its content a text or blocks. -/
structure Message where
  role : String
  content : JsValue ⊕ List ContentBlock
  deriving DecidableEq

/-- `AnthropicToolChoice`. -/
inductive ToolChoice where
  | none
  | auto
  | any
  | tool (name : JsValue)
  deriving DecidableEq

/-- One of `AnthropicRequest['tools']`. -/
structure Tool where
  name : JsValue
  description : JsValue
  inputSchema : JsValue
  deriving DecidableEq

/-- `AnthropicRequest`. -/
structure Request where
  model : Json
  maxTokens : JsValue
  messages : List Message
  system : Option String
  stream : Json
  temperature : JsValue
  topP : JsValue
  stopSequences : Option (List Json)
  /-- `metadata.user_id`. -/
  userId : JsValue
  tools : Option (List Tool)
  toolChoice : Option ToolChoice
  deriving DecidableEq

/-- `JSON.parse(args || '{}')`. -/
def parseArguments (args : JsValue) : Throws Json :=
  parseJson (if args.truthy then args else .json (.str "\x7b\x7d"))

/-- The `tool_use` block of one tool call. -/
def toolUseBlock (tc : UnifiedToolCall) : Throws ContentBlock :=
  (parseArguments tc.function.arguments).map fun input => .toolUse tc.id tc.function.name input

/-- The block one part of multi-part content becomes, if any. An image goes in as text. -/
def partBlock (part : Json) : Throws (Option ContentBlock) := do
  let type ← getProp part "type"
  let text := part.prop "text"
  let imageUrl := part.prop "imageUrl"
  if type.isStr "text" && text.truthy then return some (.text text)
  else if type.isStr "image_url" && imageUrl.truthy then
    return some (.text (.json (.str s!"[image: {← imageUrl.toStr}]")))
  else return none

/-- The message is an assistant turn with tool calls. -/
def hasToolCalls (msg : UnifiedMessage) : Bool :=
  msg.role.isStr "assistant" && msg.toolCalls.any (· ≠ [])

/-- The content of multi-part blocks: a single text stands by itself. -/
def ofBlocks : List ContentBlock → JsValue ⊕ List ContentBlock
  | [.text text] => .inl text
  | blocks => .inr blocks

/-- The blocks of multi-part content. -/
def partBlocks (content : JsValue) : Throws (List ContentBlock) := do
  let parts ← iterate "msg.content" content
  let blocks ← parts.mapM partBlock
  return blocks.filterMap id

/-- `toAnthropicContent(msg)`. -/
def toAnthropicContent (msg : UnifiedMessage) : Throws (JsValue ⊕ List ContentBlock) :=
  if msg.role.isStr "tool" then
    let content := match msg.content with
      | .json (.str s) => s
      | _ => ""
    .ok (.inr [.toolResult (msg.toolCallId.orElse (.json (.str ""))) content])
  else if hasToolCalls msg then do
    let text := match msg.content with
      | .json (.str s) => if s = "" then [] else [.text (.json (.str s))]
      | _ => []
    let calls ← (msg.toolCalls.getD []).mapM toolUseBlock
    return .inr (text ++ calls)
  else
    match msg.content with
    | .json (.str s) => .ok (.inl (.json (.str s)))
    | content => (partBlocks content).map ofBlocks

/-- `mapToolChoice(choice)`. -/
def mapToolChoice (choice : JsValue) : Throws (Option ToolChoice) :=
  if !choice.truthy then .ok none
  else if choice.isStr "none" then .ok (some .none)
  else if choice.isStr "auto" then .ok (some .auto)
  else if choice.isStr "required" then .ok (some .any)
  -- only an object has a `type`
  else if (optProp choice "type").isStr "function" then do
    let name ← getProp (optProp choice "function") "name"
    return some (.tool name)
  else .ok none

/-- What one message becomes: a part of the system prompt or a message. -/
def mapMessage (msg : UnifiedMessage) : Throws (String ⊕ Message) :=
  if msg.role.isStr "system" then
    match msg.content with
    | .json (.str s) => .ok (.inl s)
    | content => (joinTexts "\n" content).map .inl
  else
    (toAnthropicContent msg).map fun content =>
      .inr ⟨if msg.role.isStr "assistant" then "assistant" else "user", content⟩

/-- The wire form of one tool. -/
def mapTool (t : UnifiedTool) : Tool where
  name := t.function.name
  description := t.function.description
  inputSchema := t.function.parameters.orElse (.json (.obj []))

/-- `toAnthropicRequest(unified)`. -/
def toAnthropicRequest (unified : UnifiedAiRequest) : Throws Request := do
  let mapped ← unified.messages.mapM mapMessage
  let systemParts := mapped.filterMap Sum.getLeft?
  let tools := (unified.tools.filter (· ≠ [])).map (·.map mapTool)
  let toolChoice ← mapToolChoice unified.toolChoice
  return {
    model := unified.model
    maxTokens := unified.maxTokens.orElse (.json (.num 4096))
    messages := mapped.filterMap Sum.getRight?
    system := if systemParts = [] then none else some ("\n\n".intercalate systemParts)
    stream := unified.stream
    temperature := unified.temperature
    topP := unified.topP
    stopSequences := unified.stop
    userId := unified.user.whenTruthy
    tools := tools
    -- without tools there is nothing to forbid, so 'none' stays off the wire
    toolChoice := toolChoice.filter fun choice => choice ≠ .none ∨ tools.isSome }

/-- The images of the content's image parts print. -/
def ImagesPrint (content : JsValue) : Prop :=
  ∀ parts, content = .json (.arr parts) → ∀ part ∈ parts, HasType part "image_url" →
    (part.prop "imageUrl").truthy = true → Printable (part.prop "imageUrl")

/-- What the mapper asks of a message. -/
def Maps (msg : UnifiedMessage) : Prop :=
  if msg.role.isStr "system" then IsContent msg.content ∧ TextsPrint msg.content
  else if msg.role.isStr "tool" then True
  else if hasToolCalls msg then
    ∀ tc ∈ msg.toolCalls.getD [], (parseArguments tc.function.arguments).Succeeds
  else IsContent msg.content ∧ ImagesPrint msg.content

/-- What the mapper asks of a tool choice. -/
def ChoiceMaps (choice : JsValue) : Prop :=
  optProp choice "type" = .json (.str "function") → (optProp choice "function").isNullish = false

/-- A part maps unless it is null or an image whose URL has no text form. -/
theorem succeeds_partBlock_iff {part : Json} :
    (partBlock part).Succeeds ↔ part ≠ .null ∧ (HasType part "image_url" →
      (part.prop "imageUrl").truthy = true → Printable (part.prop "imageUrl")) := by
  unfold partBlock
  by_cases hnull : part = .null
  · subst hnull
    simp [getProp]
  · rw [getProp_json "type" hnull]
    have hok : ∀ (v : JsValue) (f : JsValue → Throws (Option ContentBlock)),
        ((.ok v : Throws JsValue) >>= f) = f v := fun _ _ => rfl
    simp only [hok, HasType, ne_eq, hnull, not_false_eq_true, true_and, Bool.and_eq_true, isStr_iff]
    split
    · rename_i htext
      refine ⟨fun _ himage _ => ?_, fun _ => ⟨_, rfl⟩⟩
      rw [htext.1] at himage
      exact absurd himage (by decide)
    · split
      · rename_i himage
        rw [Except.succeeds_bind_pure_iff]
        exact ⟨fun h _ _ => h, fun h => h himage.1 himage.2⟩
      · rename_i himage
        exact ⟨fun _ h₁ h₂ => absurd ⟨h₁, h₂⟩ himage, fun _ => ⟨_, rfl⟩⟩

/-- A content array maps when it is one and its images print. -/
theorem succeeds_partBlocks_iff {content : JsValue} (hstr : ∀ s, content ≠ .json (.str s)) :
    (partBlocks content).Succeeds ↔ IsContent content ∧ ImagesPrint content := by
  unfold partBlocks
  simp only [Except.succeeds_bind_iff, iterate_eq_ok_iff hstr]
  constructor
  · rintro ⟨parts, rfl, blocks, hblocks, -⟩
    have hall := Except.succeeds_mapM_iff.mp ⟨blocks, hblocks⟩
    refine ⟨Or.inr ⟨parts, rfl, fun hnull => ?_⟩, ?_⟩
    · exact (succeeds_partBlock_iff.mp (hall _ hnull)).1 rfl
    · intro parts' heq part hmem
      cases heq
      exact (succeeds_partBlock_iff.mp (hall part hmem)).2
  · rintro ⟨⟨s, rfl⟩ | ⟨parts, rfl, hnull⟩, himages⟩
    · exact absurd rfl (hstr s)
    · obtain ⟨blocks, hblocks⟩ := Except.succeeds_mapM_iff.mpr fun part hmem =>
        succeeds_partBlock_iff.mpr ⟨fun h => hnull (h ▸ hmem), himages parts rfl part hmem⟩
      exact ⟨parts, rfl, blocks, hblocks, ⟨_, rfl⟩⟩

/-- The content of a turn other than a system turn maps under `Maps`. -/
theorem succeeds_toAnthropicContent_iff {msg : UnifiedMessage} (hsystem : ¬ msg.role.isStr "system" = true) :
    (toAnthropicContent msg).Succeeds ↔ Maps msg := by
  unfold toAnthropicContent Maps
  rw [if_neg hsystem]
  split
  · exact ⟨fun _ => trivial, fun _ => ⟨_, rfl⟩⟩
  · split
    · rw [Except.succeeds_bind_pure_iff, Except.succeeds_mapM_iff]
      exact forall₂_congr fun tc _ => Except.succeeds_map_iff
    · split
      · rename_i s hs
        refine ⟨fun _ => ⟨Or.inl ⟨s, hs⟩, ?_⟩, fun _ => ⟨_, rfl⟩⟩
        intro parts heq
        rw [hs] at heq
        cases heq
      · rename_i hstr
        rw [Except.succeeds_map_iff]
        exact succeeds_partBlocks_iff hstr

/-- A whole turn maps exactly when its content does. -/
theorem succeeds_mapMessage_iff {msg : UnifiedMessage} : (mapMessage msg).Succeeds ↔ Maps msg := by
  by_cases hsystem : msg.role.isStr "system" = true
  · unfold mapMessage Maps
    rw [if_pos hsystem, if_pos hsystem]
    split
    · rename_i s hs
      refine ⟨fun _ => ⟨Or.inl ⟨s, hs⟩, ?_⟩, fun _ => ⟨_, rfl⟩⟩
      intro parts heq
      rw [hs] at heq
      cases heq
    · rename_i hstr
      rw [Except.succeeds_map_iff, succeeds_joinTexts_iff]
      refine and_congr_left fun _ => ⟨Or.inr, fun h => h.resolve_left ?_⟩
      rintro ⟨s, hs⟩
      exact hstr s hs
  · rw [← succeeds_toAnthropicContent_iff hsystem]
    unfold mapMessage
    rw [if_neg hsystem, Except.succeeds_map_iff]

/-- A tool choice maps unless reading its function's name throws. -/
theorem succeeds_mapToolChoice_iff {choice : JsValue} :
    (mapToolChoice choice).Succeeds ↔ ChoiceMaps choice := by
  have hnot : optProp choice "type" ≠ .json (.str "function") → ChoiceMaps choice :=
    fun h h' => absurd h' h
  have hstr : ∀ s, choice = .json (.str s) → optProp choice "type" ≠ .json (.str "function") := by
    rintro s rfl h
    cases h
  unfold mapToolChoice
  split
  · rename_i hfalsy
    refine ⟨fun _ => hnot ?_, fun _ => ⟨_, rfl⟩⟩
    rw [optProp_of_falsy (by simpa using hfalsy) (by decide)]
    exact JsValue.noConfusion
  · split
    · exact ⟨fun _ => hnot (hstr _ (isStr_iff.mp ‹_›)), fun _ => ⟨_, rfl⟩⟩
    · split
      · exact ⟨fun _ => hnot (hstr _ (isStr_iff.mp ‹_›)), fun _ => ⟨_, rfl⟩⟩
      · split
        · exact ⟨fun _ => hnot (hstr _ (isStr_iff.mp ‹_›)), fun _ => ⟨_, rfl⟩⟩
        · split
          · rename_i hfunction
            rw [Except.succeeds_bind_pure_iff]
            unfold ChoiceMaps
            rw [isStr_iff.mp hfunction]
            exact ⟨fun h _ => getProp_ok_iff.mp h, fun h => getProp_ok_iff.mpr (h rfl)⟩
          · rename_i hfunction
            exact ⟨fun _ => hnot fun h => hfunction (isStr_iff.mpr h), fun _ => ⟨_, rfl⟩⟩

/-- **The Anthropic mapper** goes through when every message and the tool choice do. -/
theorem succeeds_toAnthropicRequest_iff {unified : UnifiedAiRequest} :
    (toAnthropicRequest unified).Succeeds ↔
      (∀ msg ∈ unified.messages, Maps msg) ∧ ChoiceMaps unified.toolChoice := by
  unfold toAnthropicRequest
  rw [← succeeds_mapToolChoice_iff]
  constructor
  · intro h
    obtain ⟨mapped, hmapped, h⟩ := Except.succeeds_bind_iff.mp h
    rw [Except.succeeds_bind_pure_iff] at h
    exact ⟨fun msg hmem => succeeds_mapMessage_iff.mp
      (Except.succeeds_mapM_iff.mp ⟨mapped, hmapped⟩ msg hmem), h⟩
  · rintro ⟨hmsgs, hchoice⟩
    obtain ⟨mapped, hmapped⟩ := Except.succeeds_mapM_iff.mpr fun msg hmem =>
      succeeds_mapMessage_iff.mpr (hmsgs msg hmem)
    exact Except.succeeds_bind_iff.mpr ⟨mapped, hmapped, Except.succeeds_bind_pure_iff.mpr hchoice⟩

/-! ## Responses -/

/-- `STOP_REASON_MAP`. -/
def STOP_REASON_MAP : List (String × String) :=
  [("end_turn", "stop"), ("max_tokens", "length"), ("tool_use", "tool_calls"), ("stop_sequence", "stop")]

/-- `mapStopReason(raw)`. -/
def mapStopReason (raw : JsValue) : Throws String :=
  if raw.truthy then readTable STOP_REASON_MAP "stop" raw else .ok "stop"

/-- The content one response block becomes, if any. -/
def responseBlock (block : Json) : Throws (Option UnifiedContent) := do
  let type ← getProp block "type"
  if type.isStr "text" then return some (.text (block.prop "text"))
  else if type.isStr "tool_use" then
    return some (.toolCall ⟨block.prop "id", ⟨block.prop "name", stringifyValue (block.prop "input")⟩⟩)
  else return none

/-- `fromAnthropicResponse(raw, provider, latencyMs)`. -/
def fromAnthropicResponse (raw : Json) (provider : String) (latencyMs : Rat) :
    Throws UnifiedAiResponse := do
  let blocks ← iterate "raw.content" (← getProp raw "content")
  let content ← blocks.mapM responseBlock
  let finishReason ← mapStopReason (raw.prop "stop_reason")
  let usage := raw.prop "usage"
  let inputTokens := (optProp usage "input_tokens").orElse (.json (.num 0))
  let outputTokens := (optProp usage "output_tokens").orElse (.json (.num 0))
  let totalTokens ← inputTokens.add outputTokens
  return {
    id := raw.prop "id"
    model := raw.prop "model"
    provider := provider
    content := content.filterMap id
    finishReason := finishReason
    usage := ⟨inputTokens, outputTokens, totalTokens⟩
    latencyMs := latencyMs }

/-! ## The stream -/

/-- `toolOrdinals`: the ordinal of each content block that started as a tool call. An object or array is
    never equal to another, so an ordinal filed under one is not found again. -/
structure ToolOrdinals where
  byIndex : JsMap JsValue Nat
  unreachable : Nat

/-- The state the parser keeps: `toolOrdinals` and `usageState.inputTokens`. -/
structure State where
  toolOrdinals : ToolOrdinals
  inputTokens : JsValue

namespace ToolOrdinals

/-- An empty map. -/
def empty : ToolOrdinals := ⟨JsMap.empty, 0⟩

/-- The value is an object or an array. -/
def isReference : JsValue → Bool
  | .json v => v.isObject
  | _ => false

/-- `toolOrdinals.size`. -/
def size (m : ToolOrdinals) : Nat := m.byIndex.keys.length + m.unreachable

/-- `toolOrdinals.set(index, ordinal)`. -/
def set (m : ToolOrdinals) (index : JsValue) (ordinal : Nat) : ToolOrdinals :=
  if isReference index then { m with unreachable := m.unreachable + 1 }
  else { m with byIndex := m.byIndex.set index ordinal }

/-- `toolOrdinals.get(index)`. -/
def get (m : ToolOrdinals) (index : JsValue) : Option Nat :=
  if isReference index then none else m.byIndex.get index

end ToolOrdinals

/-- The case `message_start`. -/
def messageStart (event : Json) (s : State) : Gen State := do
  let usage := optProp (event.prop "message") "usage"
  if usage.truthy then
    let inputTokens := optProp usage "input_tokens"
    let outputTokens := optProp usage "output_tokens"
    let shownInput := inputTokens.orElse (.json (.num 0))
    let shownOutput := outputTokens.orElse (.json (.num 0))
    let totalTokens ← Gen.lift (shownInput.add shownOutput)
    Gen.yield (.usage ⟨shownInput, shownOutput, totalTokens⟩)
    return { s with inputTokens := inputTokens }
  else return s

/-- The case `content_block_start`. -/
def contentBlockStart (event : Json) (s : State) : Gen State := do
  let block := event.prop "content_block"
  let type ← Gen.lift (getProp block "type")
  if type.isStr "tool_use" then
    let ordinal := s.toolOrdinals.size
    Gen.yield (.toolCallDelta (.json (.num ordinal)) (optProp block "id") (optProp block "name")
      (.json (.str "")))
    return { s with toolOrdinals := s.toolOrdinals.set (event.prop "index") ordinal }
  else return s

/-- The case `content_block_delta`. -/
def contentBlockDelta (event : Json) (s : State) : Gen State := do
  let delta := event.prop "delta"
  let type ← Gen.lift (getProp delta "type")
  if type.isStr "text_delta" then
    Gen.yield (.contentDelta (optProp delta "text"))
    return s
  else if type.isStr "input_json_delta" then
    match s.toolOrdinals.get (event.prop "index") with
    | some ordinal =>
        Gen.yield (.toolCallDelta (.json (.num ordinal)) .undefined .undefined
          (optProp delta "partial_json"))
        return s
    | none => return s
  else return s

/-- The usage event of `message_delta`. -/
def deltaUsage (usage : JsValue) (s : State) : Gen Unit :=
  if usage.truthy then do
    let inputTokens :=
      ((optProp usage "input_tokens").orElse s.inputTokens).orElse (.json (.num 0))
    let outputTokens := optProp usage "output_tokens"
    let totalTokens ← Gen.lift (inputTokens.add outputTokens)
    Gen.yield (.usage ⟨inputTokens, outputTokens, totalTokens⟩)
  else pure ()

/-- `if (event.delta?.stop_reason) yield …`. -/
def yieldDone (stopReason : JsValue) : Gen Unit :=
  if stopReason.truthy then do
    let reason ← Gen.lift (mapStopReason stopReason)
    Gen.yield (.done reason)
  else pure ()

/-- The case `message_delta`. -/
def messageDelta (event : Json) (s : State) : Gen State := do
  deltaUsage (event.prop "usage") s
  yieldDone (optProp (event.prop "delta") "stop_reason")
  return s

/-- `processLine` from the parsed event on. -/
def processEvent (event : Json) (s : State) : Gen State := do
  let type ← Gen.lift (getProp event "type")
  if type.isStr "message_start" then messageStart event s
  else if type.isStr "content_block_start" then contentBlockStart event s
  else if type.isStr "content_block_delta" then contentBlockDelta event s
  else if type.isStr "message_delta" then messageDelta event s
  else return s

/-- `processLine(line, toolOrdinals, usageState)`. -/
def processLine (line : String) (s : State) : Gen State :=
  match sseData line with
  | none => pure s
  | some data =>
      match jsonParse data with
      | none => pure s
      | some event => processEvent event s

/-- `parseAnthropicStream`, as a line parser. -/
def parser : LineParser State := ⟨⟨ToolOrdinals.empty, .undefined⟩, processLine⟩

/-! ### The completion marker -/

/-- The event a line carries. -/
def eventOf (line : String) : Option Json := (sseData line).bind jsonParse

/-- The event is a `message_delta` with a stop reason. -/
def isStop (event : Json) : Bool :=
  (event.prop "type").isStr "message_delta" && (optProp (event.prop "delta") "stop_reason").truthy

/-- The line carries the completion marker. -/
def isMarker (line : String) : Bool := (eventOf line).any isStop

@[simp] theorem parser_processLine : parser.processLine = processLine := rfl

/-- A line is the event it carries, or nothing. -/
theorem processLine_eq (line : String) (s : State) :
    processLine line s = (eventOf line).elim (pure s) fun event => processEvent event s := by
  unfold processLine eventOf
  cases sseData line with
  | none => rfl
  | some data =>
      simp only [Option.bind_some]
      cases jsonParse data <;> rfl

/-- What the parser does with a line is what it does with the event on it. -/
theorem parser_processLine_eq (line : String) (s : State) :
    parser.processLine line s = (eventOf line).elim (pure s) fun event => processEvent event s := by
  rw [parser_processLine]
  exact processLine_eq line s

/-- An event other than null is dispatched on its `type`. -/
theorem processEvent_eq {event : Json} (hnull : event ≠ .null) (s : State) :
    processEvent event s =
      if (event.prop "type").isStr "message_start" then messageStart event s
      else if (event.prop "type").isStr "content_block_start" then contentBlockStart event s
      else if (event.prop "type").isStr "content_block_delta" then contentBlockDelta event s
      else if (event.prop "type").isStr "message_delta" then messageDelta event s
      else pure s := by
  unfold processEvent
  rw [getProp_json "type" hnull]
  rfl

/-- **What an event is taken for**: by its type one of four kinds, or nothing. -/
theorem processEvent_kind {event : Json} (hnull : event ≠ .null) (s : State) :
    (HasType event "message_start" ∧ processEvent event s = messageStart event s) ∨
      (HasType event "content_block_start" ∧ processEvent event s = contentBlockStart event s) ∨
      (HasType event "content_block_delta" ∧ processEvent event s = contentBlockDelta event s) ∨
      (HasType event "message_delta" ∧ processEvent event s = messageDelta event s) ∨
      (∀ type ∈ ["message_start", "content_block_start", "content_block_delta", "message_delta"],
          ¬HasType event type) ∧ processEvent event s = pure s := by
  rw [processEvent_eq hnull]
  by_cases hstart : HasType event "message_start"
  · exact Or.inl ⟨hstart, if_pos (isStr_iff.mpr hstart)⟩
  rw [if_neg (mt isStr_iff.mp hstart)]
  by_cases hblock : HasType event "content_block_start"
  · exact Or.inr (Or.inl ⟨hblock, if_pos (isStr_iff.mpr hblock)⟩)
  rw [if_neg (mt isStr_iff.mp hblock)]
  by_cases hdelta : HasType event "content_block_delta"
  · exact Or.inr (Or.inr (Or.inl ⟨hdelta, if_pos (isStr_iff.mpr hdelta)⟩))
  rw [if_neg (mt isStr_iff.mp hdelta)]
  by_cases hmessage : HasType event "message_delta"
  · exact Or.inr (Or.inr (Or.inr (Or.inl ⟨hmessage, if_pos (isStr_iff.mpr hmessage)⟩)))
  rw [if_neg (mt isStr_iff.mp hmessage)]
  refine Or.inr (Or.inr (Or.inr (Or.inr ⟨fun type htype => ?_, rfl⟩)))
  simp only [List.mem_cons, List.not_mem_nil, or_false] at htype
  rcases htype with rfl | rfl | rfl | rfl
  · exact hstart
  · exact hblock
  · exact hdelta
  · exact hmessage

/-- A `message_start` never ends the stream. -/
theorem quiet_messageStart (event : Json) (s : State) : (messageStart event s).Quiet := by
  unfold messageStart
  simp only
  split
  · exact (Gen.quiet_lift _).bind fun _ => (Gen.quiet_yield rfl).bind fun _ => Gen.quiet_pure _
  · exact Gen.quiet_pure s

/-- Nor does the start of a block. -/
theorem quiet_contentBlockStart (event : Json) (s : State) : (contentBlockStart event s).Quiet := by
  refine (Gen.quiet_lift _).bind fun type => ?_
  split
  · exact (Gen.quiet_yield rfl).bind fun _ => Gen.quiet_pure _
  · exact Gen.quiet_pure s

/-- Nor does a fragment of one. -/
theorem quiet_contentBlockDelta (event : Json) (s : State) : (contentBlockDelta event s).Quiet := by
  refine (Gen.quiet_lift _).bind fun type => ?_
  split
  · exact (Gen.quiet_yield rfl).bind fun _ => Gen.quiet_pure _
  · split
    · split
      · exact (Gen.quiet_yield rfl).bind fun _ => Gen.quiet_pure _
      · exact Gen.quiet_pure s
    · exact Gen.quiet_pure s

/-- Nor do the counts of a `message_delta`. -/
theorem quiet_deltaUsage (usage : JsValue) (s : State) : (deltaUsage usage s).Quiet := by
  unfold deltaUsage
  split
  · exact (Gen.quiet_lift _).bind fun _ => Gen.quiet_yield rfl
  · exact Gen.quiet_pure ()

/-- A `message_delta` ends the stream exactly when it has a stop reason. -/
theorem messageDelta_terminals {event : Json} {s s' : State}
    (h : (messageDelta event s).result = .ok s') :
    if (optProp (event.prop "delta") "stop_reason").truthy then
      ∃ reason, (messageDelta event s).terminals = [.done reason]
    else (messageDelta event s).terminals = [] := by
  obtain ⟨-, -, h, hterm⟩ := (quiet_deltaUsage (event.prop "usage") s).terminals_bind h
  have hterm' : (messageDelta event s).terminals =
      (yieldDone (optProp (event.prop "delta") "stop_reason") >>= fun _ => pure s).terminals := hterm
  rw [hterm']
  generalize optProp (event.prop "delta") "stop_reason" = stopReason at h ⊢
  unfold yieldDone at h ⊢
  cases hs : stopReason.truthy with
  | false => rfl
  | true =>
      simp only [hs, if_true, bind_assoc] at h ⊢
      obtain ⟨reason, -, -, hterm⟩ := (Gen.quiet_lift _).terminals_bind h
      exact ⟨reason, hterm⟩

/-- **An event ends the stream exactly when it is a `message_delta` with a stop reason.** -/
theorem processEvent_terminals {event : Json} {s s' : State}
    (h : (processEvent event s).result = .ok s') :
    if isStop event then ∃ reason, (processEvent event s).terminals = [.done reason]
    else (processEvent event s).terminals = [] := by
  have hnull : event ≠ .null := by
    rintro rfl
    cases h
  have hquiet : ¬HasType event "message_delta" → (processEvent event s).Quiet →
      if isStop event then ∃ reason, (processEvent event s).terminals = [.done reason]
      else (processEvent event s).terminals = [] := by
    intro hother hquiet
    have hstop : ¬isStop event = true := fun hstop =>
      hother (isStr_iff.mp (Bool.and_eq_true_iff.mp hstop).1)
    rw [if_neg hstop]
    exact hquiet
  rcases processEvent_kind hnull s with ⟨htype, heq⟩ | ⟨htype, heq⟩ | ⟨htype, heq⟩ | ⟨htype, heq⟩ | ⟨hnone, heq⟩
  · exact hquiet (htype.ne (by decide)) (heq ▸ quiet_messageStart event s)
  · exact hquiet (htype.ne (by decide)) (heq ▸ quiet_contentBlockStart event s)
  · exact hquiet (htype.ne (by decide)) (heq ▸ quiet_contentBlockDelta event s)
  · rw [heq] at h ⊢
    unfold isStop
    rw [isStr_iff.mpr htype, Bool.true_and]
    exact messageDelta_terminals h
  · exact hquiet (hnone "message_delta" (by decide)) (heq ▸ Gen.quiet_pure s)

/-- **The completion marker of the Anthropic stream.** -/
theorem parser_marks : parser.Marks isMarker := by
  intro line s s' h
  rw [parser_processLine, processLine_eq] at h ⊢
  unfold isMarker
  cases hevent : eventOf line with
  | none => rfl
  | some event =>
      rw [hevent] at h
      exact processEvent_terminals h

/-! ### Well-formed lines -/

/-- An event of the declared shape, as far as the parser looks: error payloads and unknown events need have
    nothing but a `type`. -/
structure WellFormedEvent (event : Json) : Prop where
  object : event ≠ .null
  startUsage : HasType event "message_start" →
    OptNumber (optProp (optProp (event.prop "message") "usage") "input_tokens") ∧
      OptNumber (optProp (optProp (event.prop "message") "usage") "output_tokens")
  block : HasType event "content_block_start" → (event.prop "content_block").isNullish = false
  delta : HasType event "content_block_delta" → (event.prop "delta").isNullish = false
  text : HasType event "content_block_delta" →
    optProp (event.prop "delta") "type" = .json (.str "text_delta") →
    ∃ s, optProp (event.prop "delta") "text" = .json (.str s)
  deltaUsage : HasType event "message_delta" →
    OptNumber (optProp (event.prop "usage") "input_tokens") ∧
      OptNumber (optProp (event.prop "usage") "output_tokens")
  stopReason : OptString (optProp (event.prop "delta") "stop_reason")

/-- A well-formed line carries no event (a blank line, a comment, an `event:` field, or text cut short so that
    it does not parse) or a well-formed one. -/
def WellFormed (line : String) : Prop := ∀ event, eventOf line = some event → WellFormedEvent event

/-- The state between well-formed lines: the input count is a number, if there is one. -/
def State.Counts (s : State) : Prop := OptNumber s.inputTokens

/-- A clean generator that leaves a counting state. -/
def Steps (g : Gen State) : Prop := g.Clean ∧ ∀ s', g.result = .ok s' → s'.Counts

theorem steps_pure {s : State} (hs : s.Counts) : Steps (pure s : Gen State) :=
  ⟨Gen.clean_pure s, fun _ h => Except.ok.inj h ▸ hs⟩

/-- A step run behind a clean part is a step when each of its continuations is. -/
theorem Steps.bind {α : Type} {g : Gen α} {f : α → Gen State} (hg : g.Clean)
    (hf : ∀ a, g.result = .ok a → Steps (f a)) : Steps (g >>= f) := by
  refine ⟨hg.bind fun a ha => (hf a ha).1, fun s' hs' => ?_⟩
  obtain ⟨a, ha⟩ := hg.1
  rw [Gen.bind_of_ok ha] at hs'
  exact (hf a ha).2 s' hs'

theorem optNumber_zero : OptNumber (.json (.num 0)) := Or.inr ⟨0, rfl⟩

/-- A well-formed `message_start` is a step. -/
theorem steps_messageStart {event : Json} {s : State} (h : WellFormedEvent event)
    (htype : HasType event "message_start") (hs : s.Counts) : Steps (messageStart event s) := by
  obtain ⟨hinput, houtput⟩ := h.startUsage htype
  unfold messageStart
  simp only
  split
  · refine Steps.bind (Gen.clean_lift ?_) fun total _ => Steps.bind (Gen.clean_yield rfl) fun _ _ =>
      steps_pure hinput
    exact (hinput.orElse optNumber_zero).succeeds_add (houtput.orElse optNumber_zero)
  · exact steps_pure hs

/-- A well-formed `content_block_start` is a step. -/
theorem steps_contentBlockStart {event : Json} {s : State} (h : WellFormedEvent event)
    (htype : HasType event "content_block_start") (hs : s.Counts) :
    Steps (contentBlockStart event s) := by
  refine Steps.bind (Gen.clean_lift ⟨_, getProp_eq "type" (h.block htype)⟩) fun type _ => ?_
  split
  · exact Steps.bind (Gen.clean_yield rfl) fun _ _ => steps_pure hs
  · exact steps_pure hs

/-- A well-formed `content_block_delta` is a step. -/
theorem steps_contentBlockDelta {event : Json} {s : State} (h : WellFormedEvent event)
    (htype : HasType event "content_block_delta") (hs : s.Counts) :
    Steps (contentBlockDelta event s) := by
  have hread := getProp_eq "type" (h.delta htype)
  refine Steps.bind (Gen.clean_lift ⟨_, hread⟩) fun type heq => ?_
  obtain rfl := Except.ok.inj (hread.symm.trans heq)
  split
  · rename_i htext
    obtain ⟨text, htext⟩ := h.text htype (isStr_iff.mp htext)
    rw [htext]
    exact Steps.bind (Gen.clean_yield rfl) fun _ _ => steps_pure hs
  · split
    · split
      · exact Steps.bind (Gen.clean_yield rfl) fun _ _ => steps_pure hs
      · exact steps_pure hs
    · exact steps_pure hs

/-- A done event is yielded cleanly whatever optional string its reason is. -/
theorem clean_yieldDone {v : JsValue} (h : OptString v) : (yieldDone v).Clean := by
  unfold yieldDone
  split
  · rename_i htruthy
    obtain ⟨s, rfl⟩ := h.of_truthy htruthy
    refine (Gen.clean_lift ?_).bind fun reason _ => Gen.clean_yield rfl
    unfold mapStopReason
    rw [if_pos htruthy]
    exact ⟨_, rfl⟩
  · exact Gen.clean_pure ()

/-- A well-formed `message_delta` is a step. -/
theorem steps_messageDelta {event : Json} {s : State} (h : WellFormedEvent event)
    (htype : HasType event "message_delta") (hs : s.Counts) : Steps (messageDelta event s) := by
  obtain ⟨hinput, houtput⟩ := h.deltaUsage htype
  refine Steps.bind ?_ fun _ _ => Steps.bind (clean_yieldDone h.stopReason) fun _ _ => steps_pure hs
  unfold deltaUsage
  split
  · refine (Gen.clean_lift ?_).bind fun total _ => Gen.clean_yield rfl
    exact ((hinput.orElse hs).orElse optNumber_zero).succeeds_add houtput
  · exact Gen.clean_pure ()

/-- **A well-formed line** neither throws nor stops the observer, and leaves a state like it found. -/
theorem steps_processLine {line : String} {s : State} (h : WellFormed line) (hs : s.Counts) :
    Steps (parser.processLine line s) := by
  rw [parser_processLine, processLine_eq]
  cases hevent : eventOf line with
  | none => exact steps_pure hs
  | some event =>
      have hform := h event hevent
      show Steps (processEvent event s)
      rcases processEvent_kind hform.object s with ⟨htype, heq⟩ | ⟨htype, heq⟩ | ⟨htype, heq⟩ | ⟨htype, heq⟩ |
        ⟨-, heq⟩
      all_goals rw [heq]
      · exact steps_messageStart hform htype hs
      · exact steps_contentBlockStart hform htype hs
      · exact steps_contentBlockDelta hform htype hs
      · exact steps_messageDelta hform htype hs
      · exact steps_pure hs

end Anthropic

end Sirius
