import SiriusGateway.Adapters.Anthropic
import SiriusGateway.Adapters.Ollama
import SiriusGateway.Compat.Format
import SiriusGateway.Js.RoundTrip

/-!
# `Adapters.Answers` — the messages an upstream answers with

The part of an Anthropic message and of an Ollama chat response that reaches the client: text and tool calls.
An answer is given by its blocks or calls; the JSON value that carries them may have any further properties.

## Contents
- **Anthropic.** `AnthropicBlock`, `AnthropicMessage`, and what `fromAnthropicResponse` makes of it.
- **Ollama.** `OllamaCall`, `OllamaMessage`, and what `fromOllamaResponse` makes of it.
- **Arguments.** Printed and parsed again, they are the same object.
-/

namespace Sirius

open Js

/-! ## Anthropic -/

/-- A tool call of an upstream: its id, its name and its argument object. -/
structure ToolUse where
  id : String
  name : String
  input : List (String × Json)

/-- A content block of an Anthropic message. -/
inductive AnthropicBlock where
  | text (text : String)
  | toolUse (call : ToolUse)

namespace AnthropicBlock

/-- The value is this block. -/
def Shows : AnthropicBlock → Json → Prop
  | .text s, block => HasType block "text" ∧ block.prop "text" = .json (.str s)
  | .toolUse call, block =>
      HasType block "tool_use" ∧ block.prop "id" = .json (.str call.id) ∧
        block.prop "name" = .json (.str call.name) ∧ block.prop "input" = .json (.obj call.input)

/-- The content item of a block. -/
def item : AnthropicBlock → UnifiedContent
  | .text s => .text (.json (.str s))
  | .toolUse call => .toolCall
      ⟨.json (.str call.id), ⟨.json (.str call.name), .json (.str (stringify (.obj call.input)))⟩⟩

/-- The tool call of a block. -/
def call? : AnthropicBlock → Option ToolUse
  | .text _ => none
  | .toolUse call => some call

/-- All text of a message. -/
def textOf (blocks : List AnthropicBlock) : String :=
  "".intercalate (blocks.filterMap fun block => match block with
    | .text s => some s
    | .toolUse _ => none)

/-- All tool calls of a message. -/
def callsOf (blocks : List AnthropicBlock) : List ToolUse := blocks.filterMap call?

end AnthropicBlock

/-- The value is an Anthropic message with these blocks; its stop reason and token counts have their types. -/
structure AnthropicMessage (blocks : List AnthropicBlock) (raw : Json) : Prop where
  content : ∃ items, raw.prop "content" = .json (.arr items) ∧ List.Forall₂ AnthropicBlock.Shows blocks items
  stopReason : OptString (raw.prop "stop_reason")
  inputTokens : OptNumber (optProp (raw.prop "usage") "input_tokens")
  outputTokens : OptNumber (optProp (raw.prop "usage") "output_tokens")

theorem responseBlock_shows {block : AnthropicBlock} {value : Json} (h : block.Shows value) :
    Anthropic.responseBlock value = .ok (some block.item) := by
  cases block with
  | text text =>
      obtain ⟨htype, htext⟩ := h
      have hnull : value ≠ .null := by
        rintro rfl
        cases htype
      unfold Anthropic.responseBlock
      rw [getProp_json "type" hnull, htype, htext]
      rfl
  | toolUse call =>
      obtain ⟨htype, hid, hname, hinput⟩ := h
      have hnull : value ≠ .null := by
        rintro rfl
        cases htype
      unfold Anthropic.responseBlock
      rw [getProp_json "type" hnull, htype, hid, hname, hinput]
      rfl

/-- The blocks of a message are mapped one by one. -/
theorem mapM_responseBlock {blocks : List AnthropicBlock} {items : List Json}
    (h : List.Forall₂ AnthropicBlock.Shows blocks items) :
    items.mapM Anthropic.responseBlock = .ok (blocks.map fun block => some block.item) := by
  induction h with
  | nil => rfl
  | cons hblock _ ih =>
      rw [List.mapM_cons, responseBlock_shows hblock, ih]
      rfl

/-- **The content of a mapped Anthropic message**, and its finish reason. -/
theorem fromAnthropicResponse_message {blocks : List AnthropicBlock} {raw : Json}
    (h : AnthropicMessage blocks raw) (provider : String) (latencyMs : Rat) :
    ∃ response, Anthropic.fromAnthropicResponse raw provider latencyMs = .ok response ∧
      response.content = blocks.map AnthropicBlock.item ∧
      Anthropic.mapStopReason (raw.prop "stop_reason") = .ok response.finishReason ∧
      response.usage.inputTokens = (optProp (raw.prop "usage") "input_tokens").orElse (.json (.num 0)) ∧
      response.usage.outputTokens = (optProp (raw.prop "usage") "output_tokens").orElse (.json (.num 0)) ∧
      response.usage.inputTokens.add response.usage.outputTokens = .ok response.usage.totalTokens := by
  obtain ⟨items, hitems, hblocks⟩ := h.content
  have hnull : raw ≠ .null := by
    rintro rfl
    cases hitems
  have hzero : OptNumber (.json (.num 0)) := Or.inr ⟨0, rfl⟩
  have hsucceeds : (Anthropic.mapStopReason (raw.prop "stop_reason")).Succeeds := by
    unfold Anthropic.mapStopReason
    split
    · obtain ⟨s, hs⟩ := h.stopReason.of_truthy ‹_›
      rw [hs]
      exact ⟨_, rfl⟩
    · exact ⟨_, rfl⟩
  obtain ⟨reason, hreason⟩ := hsucceeds
  obtain ⟨total, htotal⟩ := (h.inputTokens.orElse hzero).succeeds_add (h.outputTokens.orElse hzero)
  have hresponse : Anthropic.fromAnthropicResponse raw provider latencyMs = .ok {
      id := raw.prop "id"
      model := raw.prop "model"
      provider := provider
      content := (blocks.map fun block => some block.item).filterMap id
      finishReason := reason
      usage := ⟨(optProp (raw.prop "usage") "input_tokens").orElse (.json (.num 0)),
        (optProp (raw.prop "usage") "output_tokens").orElse (.json (.num 0)), total⟩
      latencyMs := latencyMs } := by
    unfold Anthropic.fromAnthropicResponse
    rw [getProp_json "content" hnull, hitems]
    show (items.mapM Anthropic.responseBlock).bind _ = _
    rw [mapM_responseBlock hblocks]
    show (Anthropic.mapStopReason (raw.prop "stop_reason")).bind _ = _
    rw [hreason]
    show (JsValue.add _ _).bind _ = _
    rw [htotal]
    rfl
  have hitem : (blocks.map fun block => some block.item).filterMap id = blocks.map AnthropicBlock.item := by
    rw [List.filterMap_map]
    show blocks.filterMap (some ∘ AnthropicBlock.item) = _
    rw [List.filterMap_eq_map]
  exact ⟨_, hresponse, hitem, hreason, rfl, rfl, htotal⟩

/-! ## Ollama -/

/-- A tool call of an Ollama chat message: its name and its argument object. -/
structure OllamaCall where
  name : String
  arguments : List (String × Json)

/-- The value is this tool call. -/
def OllamaCall.Shows (call : OllamaCall) (tc : Json) : Prop :=
  ∃ function, tc.prop "function" = .json function ∧ function.prop "name" = .json (.str call.name) ∧
    function.prop "arguments" = .json (.obj call.arguments)

/-- The value is a list of these tool calls; without any it may be missing. -/
def ShowsCalls (calls : List OllamaCall) (toolCalls : JsValue) : Prop :=
  (calls = [] ∧ toolCalls.isNullish = true) ∨
    ∃ items, toolCalls = .json (.arr items) ∧ List.Forall₂ OllamaCall.Shows calls items

/-- The value is an Ollama chat response with this text and these tool calls; its token counts have their
    types. -/
structure OllamaMessage (text : String) (calls : List OllamaCall) (raw : Json) : Prop where
  message : ∃ message, raw.prop "message" = .json message ∧ message.prop "content" = .json (.str text) ∧
    ShowsCalls calls (message.prop "tool_calls")
  inputTokens : OptNumber (raw.prop "prompt_eval_count")
  outputTokens : OptNumber (raw.prop "eval_count")

/-- The content item of a tool call, under the id drawn for it. -/
def OllamaCall.item (call : OllamaCall) (id : String) : UnifiedContent :=
  .toolCall ⟨.json (.str id), ⟨.json (.str call.name), .json (.str (stringify (.obj call.arguments)))⟩⟩

theorem responseToolCall_shows {call : OllamaCall} {tc : Json} (h : call.Shows tc) (id : String) :
    Ollama.responseToolCall id tc = .ok (call.item id) := by
  obtain ⟨function, hfunction, hname, harguments⟩ := h
  have hnull : tc ≠ .null := by
    rintro rfl
    cases hfunction
  have hnull' : function ≠ .null := by
    rintro rfl
    cases hname
  unfold Ollama.responseToolCall
  rw [getProp_json "function" hnull, hfunction]
  show (getProp (.json function) "name").bind _ = _
  rw [getProp_json "name" hnull', hname]
  show Except.ok (UnifiedContent.toolCall ⟨_, ⟨_, stringifyValue (function.prop "arguments")⟩⟩) = _
  rw [harguments]
  rfl

/-- The tool calls of a message are mapped one by one, each under an id of its own. -/
theorem mapM_responseToolCall (freshId : Nat → String) {calls : List OllamaCall} {items : List Json}
    (h : List.Forall₂ OllamaCall.Shows calls items) (k : Nat) :
    (items.zipIdx k).mapM (fun e => Ollama.responseToolCall (freshId e.2) e.1) =
      .ok ((calls.zipIdx k).map fun e => e.1.item (freshId e.2)) := by
  induction h generalizing k with
  | nil => rfl
  | cons hcall _ ih =>
      rw [List.zipIdx_cons, List.zipIdx_cons, List.mapM_cons, responseToolCall_shows hcall, ih (k + 1)]
      rfl

/-- What the mapper reads of the tool calls of a message. -/
theorem toolCalls_shows {calls : List OllamaCall} {toolCalls : JsValue} (h : ShowsCalls calls toolCalls)
    (freshId : Nat → String) :
    ((toolCalls.truthy = false ∧ calls = []) ∨ ∃ items, toolCalls = .json (.arr items) ∧
      items.zipIdx.mapM (fun e => Ollama.responseToolCall (freshId e.2) e.1) =
        .ok (calls.zipIdx.map fun e => e.1.item (freshId e.2))) ∧
      Ollama.hasLength toolCalls = !calls.isEmpty := by
  rcases h with ⟨rfl, hnull⟩ | ⟨items, rfl, hitems⟩
  · have hlength : optProp toolCalls "length" = .undefined := by
      unfold JsValue.isNullish at hnull
      split at hnull
      · rfl
      · rfl
      · cases hnull
    unfold Ollama.hasLength
    rw [hlength]
    exact ⟨Or.inl ⟨truthy_of_isNullish hnull, rfl⟩, rfl⟩
  · refine ⟨Or.inr ⟨items, rfl, mapM_responseToolCall freshId hitems 0⟩, ?_⟩
    have hlength := hitems.length_eq
    unfold Ollama.hasLength
    cases calls with
    | nil =>
        obtain rfl : items = [] := List.length_eq_zero_iff.mp hlength.symm
        rfl
    | cons call calls =>
        obtain ⟨item, rest, rfl⟩ := List.exists_cons_of_length_pos (by rw [← hlength]; exact Nat.succ_pos _)
        have hpos : (((item :: rest).length : Nat) : Rat) ≠ 0 :=
          Nat.cast_ne_zero.mpr (Nat.succ_ne_zero rest.length)
        show decide ((((item :: rest).length : Nat) : Rat) ≠ 0) = true
        exact decide_eq_true hpos

/-- **The content of a mapped Ollama response**, and its finish reason. -/
theorem fromOllamaResponse_message {text : String} {calls : List OllamaCall} {raw : Json}
    (h : OllamaMessage text calls raw) (freshId : Nat → String) (now : Nat) (provider : String)
    (latencyMs : Rat) :
    ∃ response, Ollama.fromOllamaResponse freshId now raw provider latencyMs = .ok response ∧
      response.content = (if text = "" then [] else [.text (.json (.str text))]) ++
        calls.zipIdx.map (fun e => e.1.item (freshId e.2)) ∧
      response.finishReason =
        Ollama.mapOllamaFinishReason (!calls.isEmpty) (raw.prop "done_reason") := by
  obtain ⟨message, hmessage, hcontent, hcalls⟩ := h.message
  obtain ⟨hitems, hlength⟩ := toolCalls_shows hcalls freshId
  have hnull : raw ≠ .null := by
    rintro rfl
    cases hmessage
  have hnull' : message ≠ .null := by
    rintro rfl
    cases hcontent
  have hzero : OptNumber (.json (.num 0)) := Or.inr ⟨0, rfl⟩
  obtain ⟨total, htotal⟩ := (h.inputTokens.orElse hzero).succeeds_add (h.outputTokens.orElse hzero)
  have htext : (if (JsValue.json (.str text)).truthy then [UnifiedContent.text (.json (.str text))] else []) =
      if text = "" then [] else [.text (.json (.str text))] := by
    by_cases hempty : text = ""
    · rw [if_pos hempty, hempty]
      rfl
    · rw [if_neg hempty, if_pos (by simpa [Json.truthy] using hempty)]
  have hresponse : Ollama.fromOllamaResponse freshId now raw provider latencyMs = .ok {
      id := .json (.str s!"ollama-{now}")
      model := raw.prop "model"
      provider := provider
      content := (if (JsValue.json (.str text)).truthy then [UnifiedContent.text (.json (.str text))] else []) ++
        calls.zipIdx.map fun e => e.1.item (freshId e.2)
      finishReason := Ollama.mapOllamaFinishReason (Ollama.hasLength (message.prop "tool_calls"))
        (raw.prop "done_reason")
      usage := ⟨(raw.prop "prompt_eval_count").orElse (.json (.num 0)),
        (raw.prop "eval_count").orElse (.json (.num 0)), total⟩
      latencyMs := latencyMs } := by
    unfold Ollama.fromOllamaResponse
    rw [getProp_json "message" hnull, hmessage]
    show (getProp (.json message) "content").bind _ = _
    rw [getProp_json "content" hnull', hcontent]
    -- without `tool_calls` there is nothing to iterate over
    rcases hitems with ⟨hfalsy, rfl⟩ | ⟨items, harr, hmapped⟩
    · show (if (message.prop "tool_calls").truthy then _ else _) = _
      rw [if_neg (by rw [hfalsy]; exact Bool.false_ne_true)]
      show (JsValue.add _ _).bind _ = _
      rw [htotal]
      rfl
    · show (if (message.prop "tool_calls").truthy then
        (iterate "raw.message.tool_calls" (message.prop "tool_calls")).bind _ else _) = _
      have htruthy : (message.prop "tool_calls").truthy = true := by
        rw [harr]
        rfl
      have hiterate : iterate "raw.message.tool_calls" (message.prop "tool_calls") = .ok items := by
        rw [harr]
        rfl
      rw [if_pos htruthy, hiterate]
      show (items.zipIdx.mapM fun e => Ollama.responseToolCall (freshId e.2) e.1).bind _ = _
      rw [hmapped]
      show (JsValue.add _ _).bind _ = _
      rw [htotal]
      rfl
  exact ⟨_, hresponse, by rw [htext], by rw [hlength]⟩

/-! ## Arguments -/

/-- The arguments of a message that came over the wire are values `JSON.parse` returned. -/
theorem AnthropicMessage.valid_input {blocks : List AnthropicBlock} {raw : Json}
    (h : AnthropicMessage blocks raw) (hraw : raw.Valid) :
    ∀ call ∈ AnthropicBlock.callsOf blocks, (Json.obj call.input).Valid := by
  obtain ⟨items, hitems, hblocks⟩ := h.content
  have hvalid : ∀ item ∈ items, item.Valid := validItems_iff.mp (hraw.prop hitems)
  clear hitems h
  induction hblocks with
  | nil =>
      intro call hcall
      exact absurd hcall List.not_mem_nil
  | @cons block item blocks items hblock _ ih =>
      have hrest := ih fun i hi => hvalid i (List.mem_cons_of_mem item hi)
      intro call hcall
      cases block with
      | text s => exact hrest call hcall
      | toolUse use =>
          rcases List.mem_cons.mp hcall with rfl | hcall
          · exact (hvalid item List.mem_cons_self).prop hblock.2.2.2
          · exact hrest call hcall

theorem OllamaMessage.valid_arguments {text : String} {calls : List OllamaCall} {raw : Json}
    (h : OllamaMessage text calls raw) (hraw : raw.Valid) :
    ∀ call ∈ calls, (Json.obj call.arguments).Valid := by
  obtain ⟨message, hmessage, -, ⟨rfl, -⟩ | ⟨items, hitems, hcalls⟩⟩ := h.message
  · intro call hcall
    exact absurd hcall List.not_mem_nil
  · have hvalid : ∀ item ∈ items, item.Valid := validItems_iff.mp ((hraw.prop hmessage).prop hitems)
    clear hitems hmessage h
    induction hcalls with
    | nil =>
        intro call hcall
        exact absurd hcall List.not_mem_nil
    | @cons call tc calls items hcall _ ih =>
        obtain ⟨function, hfunction, -, harguments⟩ := hcall
        intro c hc
        rcases List.mem_cons.mp hc with rfl | hc
        · exact ((hvalid tc List.mem_cons_self).prop hfunction).prop harguments
        · exact ih (fun i hi => hvalid i (List.mem_cons_of_mem tc hi)) c hc

end Sirius
