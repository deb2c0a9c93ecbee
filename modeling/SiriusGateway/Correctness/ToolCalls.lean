import SiriusGateway.Adapters.Answers
import SiriusGateway.Correctness.Replay

/-!
# `Correctness.ToolCalls` — tool calls survive a round trip through the client

An upstream's tool calls reach the client as strings of arguments, and come back with the next request. The
provider gets the very calls it made: the same names and argument objects, in the same order, and from
Anthropic the same ids (`toolCalls_roundTrip`).

## Contents
- **Replaying a message.** `ReplaysAs`, and when a mapper replays (`replaysAs_of_parse`).
- **The two providers.** `anthropicTurn` and `ollamaTurn`, and the messages mapped to them.
- **The round trip.**
-/

namespace Sirius

open Js Compat

/-! ## Replaying a message -/

section Replay

variable {R M : Type}

/-- Sent back in a chat body, the message becomes the one message `turn` of the provider's request: wherever
    it stands in a body that is accepted and mapped, and in the body that holds nothing else. -/
def ReplaysAs (toRequest : UnifiedAiRequest → Throws R) (messages : R → List M) (message : Json) (turn : M) :
    Prop :=
  (∀ body requestId request req before after,
    body.prop "messages" = .json (.arr (before ++ message :: after)) →
    parseChatCompletionRequest body requestId = .ok request → toRequest request = .ok req →
    ∃ ms ms', messages req = ms ++ turn :: ms' ∧ ms.length ≤ before.length ∧ ms'.length ≤ after.length) ∧
  ∀ model requestId, model ≠ "" →
    ∃ request req,
      parseChatCompletionRequest (wireObject [("model", .json (.str model)),
        ("messages", .json (.arr [message]))]) requestId = .ok request ∧
      toRequest request = .ok req ∧ messages req = [turn]

/-- **A message in a body.** What a parsed message becomes stands between the messages before and after it. -/
theorem parsed_in_body {message : Json} {parsed : UnifiedMessage}
    (hparse : ∀ index, parseChatMessage message index = .ok parsed) {body : Json} {requestId : String}
    {request : UnifiedAiRequest} {before after : List Json}
    (hbody : body.prop "messages" = .json (.arr (before ++ message :: after)))
    (haccepted : parseChatCompletionRequest body requestId = .ok request) :
    ∃ ms ms', request.messages = ms ++ parsed :: ms' ∧ ms.length = before.length ∧
      ms'.length = after.length := by
  obtain ⟨items, hitems, hmessages, -⟩ := of_parseChatCompletionRequest haccepted
  obtain rfl : before ++ message :: after = items := by simpa using hbody.symm.trans hitems
  rw [List.zipIdx_append, List.zipIdx_cons] at hmessages
  obtain ⟨ms, rest, hbefore, hrest, heq⟩ := Except.mapM_append_eq_ok_iff.mp hmessages
  obtain ⟨turn, ms', hmessage, hafter, rfl⟩ := Except.mapM_cons_eq_ok_iff.mp hrest
  obtain rfl : parsed = turn := Except.ok.inj ((hparse _).symm.trans hmessage)
  refine ⟨ms, ms', heq, ?_, ?_⟩
  · rw [Except.length_of_mapM_eq_ok hbefore, List.length_zipIdx]
  · rw [Except.length_of_mapM_eq_ok hafter, List.length_zipIdx]

/-- The body with a single message is accepted. -/
theorem parse_single {message : Json} {parsed : UnifiedMessage}
    (hparse : ∀ index, parseChatMessage message index = .ok parsed) {model : String} (hmodel : model ≠ "")
    (requestId : String) :
    parseChatCompletionRequest (wireObject [("model", .json (.str model)),
        ("messages", .json (.arr [message]))]) requestId =
      .ok { requestId := requestId, model := .str model, messages := [parsed], stream := .bool false } := by
  have htruthy : (JsValue.json (.str model)).truthy = true := by simpa [Json.truthy] using hmodel
  have hmessages : messagesOf (wireObject [("model", .json (.str model)),
      ("messages", .json (.arr [message]))]) = .ok [message] := by
    simp [messagesOf]
  have hone : [message].zipIdx.mapM (fun e => parseChatMessage e.1 e.2) = .ok [parsed] := by
    show [(message, 0)].mapM _ = _
    rw [List.mapM_cons, hparse]
    rfl
  unfold parseChatCompletionRequest
  simp only [getProp_wireObject, prop_wireObject_cons, prop_wireObject_nil, onWire_json, Option.elim_some,
    if_true, String.reduceEq, if_false, hmessages, outOfRange, moreThanOne, mapTools, parseResponseFormat,
    stopOf, mapStreamOptions, optProp, JsValue.isDefined, truthy_undefined, Bool.false_eq_true]
  simp only [bind, Except.bind, require, htruthy, Bool.not_false, if_true]
  rw [hone]
  rfl

/-- **A mapper replays a message** when it maps messages one by one and takes every parsed form of it. -/
theorem replaysAs_of_parse {toRequest : UnifiedAiRequest → Throws R} {messages : R → List M}
    (mapMessage : UnifiedMessage → Throws (List M)) {message : Json} {parsed : UnifiedMessage} {turn : M}
    (hparse : ∀ index, parseChatMessage message index = .ok parsed)
    (hmaps : ∀ request req, toRequest request = .ok req →
      ∃ parts, request.messages.mapM mapMessage = .ok parts ∧ messages req = parts.flatten)
    (hone : ∀ msg part, mapMessage msg = .ok part → part.length ≤ 1)
    (hturn : mapMessage parsed = .ok [turn])
    (hsingle : ∀ requestId model, (toRequest
      { requestId := requestId, model := .str model, messages := [parsed], stream := .bool false }).Succeeds) :
    ReplaysAs toRequest messages message turn := by
  have hlength : ∀ (msgs : List UnifiedMessage) (parts : List (List M)),
      msgs.mapM mapMessage = .ok parts → parts.flatten.length ≤ msgs.length := by
    intro msgs
    induction msgs with
    | nil =>
        intro parts h
        obtain rfl := Except.ok.inj h
        exact Nat.le_refl 0
    | cons msg msgs ih =>
        intro parts h
        obtain ⟨part, rest, hpart, hrest, rfl⟩ := Except.mapM_cons_eq_ok_iff.mp h
        have hle := hone msg part hpart
        have hrestLe := ih rest hrest
        rw [List.flatten_cons, List.length_append, List.length_cons]
        omega
  constructor
  · intro body requestId request req before after hbody haccepted hreq
    obtain ⟨ms, ms', hmessages, hbefore, hafter⟩ := parsed_in_body hparse hbody haccepted
    obtain ⟨parts, hparts, hall⟩ := hmaps request req hreq
    rw [hmessages] at hparts
    obtain ⟨ps, rest, hps, hrest, rfl⟩ := Except.mapM_append_eq_ok_iff.mp hparts
    obtain ⟨part, ps', hpart, hps', rfl⟩ := Except.mapM_cons_eq_ok_iff.mp hrest
    obtain rfl : [turn] = part := Except.ok.inj (hturn.symm.trans hpart)
    refine ⟨ps.flatten, ps'.flatten, ?_, ?_, ?_⟩
    · rw [hall, List.flatten_append, List.flatten_cons]
      rfl
    · exact hbefore ▸ hlength ms ps hps
    · exact hafter ▸ hlength ms' ps' hps'
  · intro model requestId hmodel
    obtain ⟨req, hreq⟩ := hsingle requestId model
    obtain ⟨parts, hparts, hall⟩ := hmaps _ req hreq
    obtain ⟨part, rest, hpart, hrest, rfl⟩ := Except.mapM_cons_eq_ok_iff.mp hparts
    obtain rfl : [turn] = part := Except.ok.inj (hturn.symm.trans hpart)
    obtain rfl : [] = rest := Except.ok.inj hrest
    exact ⟨_, req, parse_single hparse hmodel requestId, hreq, hall⟩

end Replay

/-! ## The two providers -/

/-- The assistant message an Anthropic request has for these blocks. An argument object lists its properties in
    JavaScript's order. -/
def anthropicTurn (blocks : List AnthropicBlock) : Anthropic.Message where
  role := "assistant"
  content :=
    let text := AnthropicBlock.textOf blocks
    let calls := AnthropicBlock.callsOf blocks
    if calls = [] then .inl (.json (.str text))
    else .inr ((if text = "" then [] else [.text (.json (.str text))]) ++ calls.map fun call =>
      .toolUse (.json (.str call.id)) (.json (.str call.name)) (Json.obj call.input).canon)

/-- The assistant message an Ollama request has for this text and these calls. -/
def ollamaTurn (text : String) (calls : List OllamaCall) : Ollama.Message where
  role := .json (.str "assistant")
  content := text
  images := none
  toolCalls := if calls = [] then none else
    some (calls.map fun call => ⟨.json (.str call.name), (Json.obj call.arguments).canon⟩)

/-- Mapped content has the types its interface declares. -/
theorem typed_anthropic (blocks : List AnthropicBlock) : Typed (blocks.map AnthropicBlock.item) := by
  constructor
  · intro text htext
    obtain ⟨block, -, hblock⟩ := List.mem_map.mp htext
    cases block with
    | text s =>
        obtain rfl : JsValue.json (.str s) = text := by simpa [AnthropicBlock.item] using hblock
        exact Or.inr rfl
    | toolUse call => cases hblock
  · intro call hcall
    obtain ⟨item, hitem, hsome⟩ := List.mem_filterMap.mp hcall
    obtain ⟨block, -, rfl⟩ := List.mem_map.mp hitem
    cases block with
    | text s => cases hsome
    | toolUse use =>
        cases hsome
        exact ⟨JsValue.noConfusion, JsValue.noConfusion, JsValue.noConfusion⟩

theorem turnText_anthropic (blocks : List AnthropicBlock) :
    turnText (blocks.map AnthropicBlock.item) = AnthropicBlock.textOf blocks := by
  unfold turnText AnthropicBlock.textOf
  rw [List.filterMap_map]
  congr 2
  funext block
  cases block <;> rfl

theorem turnCalls_anthropic (blocks : List AnthropicBlock) :
    turnCalls (blocks.map AnthropicBlock.item) = (AnthropicBlock.callsOf blocks).map fun call =>
      ⟨.json (.str call.id), ⟨.json (.str call.name), .json (.str (stringify (.obj call.input)))⟩⟩ := by
  unfold turnCalls AnthropicBlock.callsOf
  rw [List.filterMap_map, List.map_filterMap]
  congr 1
  funext block
  cases block <;> rfl

theorem parseJson_stringify {v : Json} (h : v.Valid) : parseJson (.json (.str (stringify v))) = .ok v.canon :=
  parseJson_of_jsonParse (jsonParse_stringify h)

/-- **A printed argument object is parsed back**, as `JSON.parse(args || '{}')` does it. -/
theorem parseArguments_stringify {input : List (String × Json)} (h : (Json.obj input).Valid) :
    Anthropic.parseArguments (.json (.str (stringify (.obj input)))) = .ok (Json.obj input).canon := by
  have htruthy : (JsValue.json (.str (stringify (.obj input)))).truthy = true := by
    obtain ⟨c, text, htext, -⟩ := stringify_head (.obj input)
    have hne : stringify (.obj input) ≠ "" := by
      intro hempty
      rw [hempty] at htext
      simp at htext
    simpa [Json.truthy] using hne
  unfold Anthropic.parseArguments
  rw [if_pos htruthy]
  exact parseJson_stringify h

theorem parseToolArguments_stringify {arguments : List (String × Json)} (h : (Json.obj arguments).Valid) :
    Ollama.parseToolArguments (.json (.str (stringify (.obj arguments)))) = (Json.obj arguments).canon := by
  unfold Ollama.parseToolArguments
  rw [parseJson_stringify h]
  rfl

/-- **The Anthropic mapper** on the turn of a message. -/
theorem mapMessage_anthropicTurn {blocks : List AnthropicBlock}
    (hvalid : ∀ call ∈ AnthropicBlock.callsOf blocks, (Json.obj call.input).Valid) :
    Anthropic.mapMessage (turnMessage (blocks.map AnthropicBlock.item)) = .ok (.inr (anthropicTurn blocks)) := by
  unfold turnMessage anthropicTurn
  rw [turnText_anthropic, turnCalls_anthropic]
  generalize AnthropicBlock.callsOf blocks = calls at hvalid ⊢
  generalize AnthropicBlock.textOf blocks = text
  cases calls with
  | nil => rfl
  | cons call rest =>
      have hblocks : ((call :: rest).map fun call => (⟨.json (.str call.id), ⟨.json (.str call.name),
          .json (.str (stringify (.obj call.input)))⟩⟩ : UnifiedToolCall)).mapM Anthropic.toolUseBlock =
          .ok ((call :: rest).map fun call =>
            .toolUse (.json (.str call.id)) (.json (.str call.name)) (Json.obj call.input).canon) := by
        apply Except.mapM_map_eq
        intro c hc
        unfold Anthropic.toolUseBlock
        rw [parseArguments_stringify (hvalid c hc)]
        rfl
      have hcontent : Anthropic.toAnthropicContent (assistantTurn (.json (.str text))
          (someCalls ((call :: rest).map fun call => ⟨.json (.str call.id), ⟨.json (.str call.name),
            .json (.str (stringify (.obj call.input)))⟩⟩))) =
          .ok (.inr ((if text = "" then [] else [.text (.json (.str text))]) ++ (call :: rest).map fun call =>
            .toolUse (.json (.str call.id)) (.json (.str call.name)) (Json.obj call.input).canon)) := by
        show (List.mapM Anthropic.toolUseBlock ((call :: rest).map fun call =>
          (⟨.json (.str call.id), ⟨.json (.str call.name),
            .json (.str (stringify (.obj call.input)))⟩⟩ : UnifiedToolCall))).bind _ = _
        rw [hblocks]
        rfl
      show (Anthropic.toAnthropicContent _).map _ = _
      rw [hcontent]
      rfl

/-- The content items of an Ollama message. -/
def ollamaContent (freshId : Nat → String) (text : String) (calls : List OllamaCall) : List UnifiedContent :=
  (if text = "" then [] else [.text (.json (.str text))]) ++ calls.zipIdx.map fun e => e.1.item (freshId e.2)

section Ollama

variable (freshId : Nat → String) (text : String) (calls : List OllamaCall)

theorem turnCalls_ollama :
    turnCalls (ollamaContent freshId text calls) =
      calls.zipIdx.map fun e => ⟨.json (.str (freshId e.2)),
        ⟨.json (.str e.1.name), .json (.str (stringify (.obj e.1.arguments)))⟩⟩ := by
  have htext : turnCalls (if text = "" then [] else [.text (.json (.str text))]) = [] := by
    split <;> rfl
  unfold turnCalls ollamaContent at *
  rw [List.filterMap_append, htext, List.nil_append, List.filterMap_map]
  exact congrFun List.filterMap_eq_map _

theorem turnText_ollama : turnText (ollamaContent freshId text calls) = text := by
  have hcalls : (calls.zipIdx.map fun e => e.1.item (freshId e.2)).filterMap itemText = [] := by
    rw [List.filterMap_map, List.filterMap_eq_nil_iff]
    intro e _
    rfl
  unfold turnText ollamaContent
  rw [List.filterMap_append, hcalls, List.append_nil]
  by_cases hempty : text = ""
  · rw [if_pos hempty, hempty]
    rfl
  · rw [if_neg hempty]
    rfl

theorem typed_ollama : Typed (ollamaContent freshId text calls) := by
  constructor
  · intro t ht
    rcases List.mem_append.mp ht with ht | ht
    · split at ht
      · cases ht
      · obtain rfl : t = .json (.str text) := by simpa using ht
        exact Or.inr rfl
    · obtain ⟨e, -, he⟩ := List.mem_map.mp ht
      cases he
  · intro call hcall
    rw [turnCalls_ollama] at hcall
    obtain ⟨e, -, rfl⟩ := List.mem_map.mp hcall
    exact ⟨JsValue.noConfusion, JsValue.noConfusion, JsValue.noConfusion⟩

variable {calls}

/-- **The Ollama mapper** on the turn of a message. -/
theorem mapMessage_ollamaTurn (hvalid : ∀ call ∈ calls, (Json.obj call.arguments).Valid) :
    Ollama.mapMessage (turnMessage (ollamaContent freshId text calls)) = .ok (ollamaTurn text calls) := by
  unfold turnMessage
  rw [turnText_ollama, turnCalls_ollama]
  cases calls with
  | nil => rfl
  | cons call rest =>
      have harguments : ((call :: rest).zipIdx.map fun e => (⟨.json (.str (freshId e.2)),
          ⟨.json (.str e.1.name), .json (.str (stringify (.obj e.1.arguments)))⟩⟩ : UnifiedToolCall)).map
            (fun tc => (⟨tc.function.name, Ollama.parseToolArguments tc.function.arguments⟩ :
              Ollama.FunctionCall)) =
          (call :: rest).map fun call => ⟨.json (.str call.name), (Json.obj call.arguments).canon⟩ := by
        rw [List.map_map]
        nth_rewrite 2 [← List.zipIdx_map_fst 0 (call :: rest)]
        rw [List.map_map]
        apply List.map_congr_left
        intro e he
        have hparse := parseToolArguments_stringify (hvalid e.1 (List.fst_mem_of_mem_zipIdx he))
        show (⟨_, Ollama.parseToolArguments _⟩ : Ollama.FunctionCall) = _
        rw [hparse]
        rfl
      show Except.ok (⟨_, _, _, some (((call :: rest).zipIdx.map _).map _)⟩ : Ollama.Message) = _
      rw [harguments]
      rfl

end Ollama

/-! ## The round trip -/

/-- A pass that keeps some of its results, as a pass to lists of at most one. -/
theorem mapM_toList {A B M : Type} {f : A → Throws B} {g : B → Option M} {items : List A} {mapped : List B}
    (h : items.mapM f = .ok mapped) :
    ∃ parts : List (List M), items.mapM (fun a => (f a).map fun b => (g b).toList) = .ok parts ∧
      mapped.filterMap g = parts.flatten := by
  induction items generalizing mapped with
  | nil =>
      obtain rfl := Except.ok.inj h
      exact ⟨[], rfl, rfl⟩
  | cons a items ih =>
      obtain ⟨b, rest, hb, hrest, rfl⟩ := Except.mapM_cons_eq_ok_iff.mp h
      obtain ⟨parts, hparts, hflat⟩ := ih hrest
      refine ⟨(g b).toList :: parts, ?_, ?_⟩
      · refine Except.mapM_cons_eq_ok_iff.mpr ⟨_, parts, ?_, hparts, rfl⟩
        rw [hb]
        rfl
      · rw [List.flatten_cons, ← hflat]
        cases hg : g b with
        | none => exact List.filterMap_cons_none hg
        | some m => exact List.filterMap_cons_some hg

/-- Such a pass keeps at most one result of each element. -/
theorem length_toList_le_one {A B M : Type} {f : A → Throws B} {g : B → Option M} {a : A} {part : List M}
    (h : ((f a).map fun b => (g b).toList) = .ok part) : part.length ≤ 1 := by
  cases hf : f a with
  | error e =>
      rw [hf] at h
      cases h
  | ok b =>
      rw [hf] at h
      obtain rfl : (g b).toList = part := Except.ok.inj h
      cases g b with
      | none => exact Nat.zero_le 1
      | some m => exact Nat.le_refl 1

theorem replaysAs_anthropic {blocks : List AnthropicBlock} {message : Json}
    (hparse : ∀ index, parseChatMessage message index = .ok (turnMessage (blocks.map AnthropicBlock.item)))
    (hvalid : ∀ call ∈ AnthropicBlock.callsOf blocks, (Json.obj call.input).Valid) :
    ReplaysAs Anthropic.toAnthropicRequest (·.messages) message (anthropicTurn blocks) := by
  have hturn := mapMessage_anthropicTurn hvalid
  apply replaysAs_of_parse (fun msg => (Anthropic.mapMessage msg).map fun mapped => mapped.getRight?.toList)
    hparse
  · intro request req hreq
    obtain ⟨mapped, hmapped, h⟩ := Except.bind_eq_ok_iff.mp hreq
    obtain ⟨choice, -, h⟩ := Except.bind_eq_ok_iff.mp h
    obtain rfl := Except.ok.inj h
    exact mapM_toList hmapped
  · intro msg part hpart
    exact length_toList_le_one hpart
  · rw [hturn]
    rfl
  · intro requestId model
    apply Anthropic.succeeds_toAnthropicRequest_iff.mpr
    constructor
    · intro msg hmsg
      obtain rfl := List.mem_singleton.mp hmsg
      exact Anthropic.succeeds_mapMessage_iff.mp ⟨_, hturn⟩
    · intro htype
      cases htype

theorem replaysAs_ollama {freshId : Nat → String} {text : String} {calls : List OllamaCall} {message : Json}
    (hparse : ∀ index, parseChatMessage message index = .ok (turnMessage (ollamaContent freshId text calls)))
    (hvalid : ∀ call ∈ calls, (Json.obj call.arguments).Valid) :
    ReplaysAs Ollama.toOllamaRequest (·.messages) message (ollamaTurn text calls) := by
  have hturn := mapMessage_ollamaTurn freshId text hvalid
  apply replaysAs_of_parse (fun msg => (Ollama.mapMessage msg).map fun mapped => (some mapped).toList) hparse
  · intro request req hreq
    obtain ⟨mapped, hmapped, h⟩ := Except.bind_eq_ok_iff.mp hreq
    obtain rfl := Except.ok.inj h
    obtain ⟨parts, hparts, hflat⟩ := mapM_toList (g := some) hmapped
    rw [List.filterMap_some] at hflat
    exact ⟨parts, hparts, hflat⟩
  · intro msg part hpart
    exact length_toList_le_one hpart
  · rw [hturn]
    rfl
  · intro requestId model
    apply Ollama.succeeds_toOllamaRequest_iff.mpr
    intro msg hmsg
    obtain rfl := List.mem_singleton.mp hmsg
    exact ⟨Or.inl ⟨_, rfl⟩, fun _ h => nomatch h⟩

/-- The message of a formatted response is parsed back to its turn. -/
theorem completion_message {response : UnifiedAiResponse} (htyped : Typed response.content)
    (uuid : Nat → String) (created : Nat) :
    ∃ completion message, formatChatCompletionResponse uuid created response = .ok completion ∧
      choiceMessage completion = .json message ∧
      ∀ index, parseChatMessage message index = .ok (turnMessage response.content) := by
  obtain ⟨message, hformat, hparse⟩ := parseChatMessage_formatAssistantMessage htyped
  exact ⟨_, message, by rw [formatChatCompletionResponse, hformat]; rfl, by simp [choiceMessage], hparse⟩

/-- **Tool calls survive a full client round trip.** The answer came over the wire; mapped, formatted and
    replayed, its message becomes the provider's own turn. -/
theorem toolCalls_roundTrip (text : String) (raw : Json) (hraw : jsonParse text = some raw)
    (provider : String) (latencyMs : Rat) (uuid : Nat → String) (created : Nat) :
    (∀ blocks, AnthropicMessage blocks raw →
      ∃ response completion message,
        Anthropic.fromAnthropicResponse raw provider latencyMs = .ok response ∧
        formatChatCompletionResponse uuid created response = .ok completion ∧
        choiceMessage completion = .json message ∧
        ReplaysAs Anthropic.toAnthropicRequest (·.messages) message (anthropicTurn blocks)) ∧
    (∀ content calls (freshId : Nat → String) (now : Nat), OllamaMessage content calls raw →
      ∃ response completion message,
        Ollama.fromOllamaResponse freshId now raw provider latencyMs = .ok response ∧
        formatChatCompletionResponse uuid created response = .ok completion ∧
        choiceMessage completion = .json message ∧
        ReplaysAs Ollama.toOllamaRequest (·.messages) message (ollamaTurn content calls)) := by
  have hvalid := valid_of_jsonParse hraw
  constructor
  · intro blocks hmessage
    obtain ⟨response, hresponse, hcontent, -⟩ := fromAnthropicResponse_message hmessage provider latencyMs
    have htyped : Typed response.content := by
      rw [hcontent]
      exact typed_anthropic blocks
    obtain ⟨completion, message, hformat, hmsg, hparse⟩ := completion_message htyped uuid created
    rw [hcontent] at hparse
    exact ⟨response, completion, message, hresponse, hformat, hmsg,
      replaysAs_anthropic hparse (hmessage.valid_input hvalid)⟩
  · intro content calls freshId now hmessage
    obtain ⟨response, hresponse, hcontent, -⟩ :=
      fromOllamaResponse_message hmessage freshId now provider latencyMs
    have htyped : Typed response.content := by
      rw [hcontent]
      exact typed_ollama freshId content calls
    obtain ⟨completion, message, hformat, hmsg, hparse⟩ := completion_message htyped uuid created
    rw [hcontent] at hparse
    exact ⟨response, completion, message, hresponse, hformat, hmsg,
      replaysAs_ollama hparse (hmessage.valid_arguments hvalid)⟩

/-- The body of an Anthropic message with two tool calls around a text. -/
def anthropicToolBody : String :=
  "\x7b\"content\":[\x7b\"type\":\"tool_use\",\"id\":\"a\",\"name\":\"f\",\"input\":\x7b\"x\":1,\"0\":[]\x7d\x7d," ++
    "\x7b\"type\":\"text\",\"text\":\"ok\"\x7d," ++
    "\x7b\"type\":\"tool_use\",\"id\":\"b\",\"name\":\"g\",\"input\":\x7b\x7d\x7d]\x7d"

/-- The body of an Ollama chat response with a tool call. -/
def ollamaToolBody : String :=
  "\x7b\"message\":\x7b\"content\":\"\",\"tool_calls\":" ++
    "[\x7b\"function\":\x7b\"name\":\"f\",\"arguments\":\x7b\"city\":\"Oslo\"\x7d\x7d\x7d]\x7d\x7d"

theorem toolCalls_roundTrip_answers :
    (∃ raw response completion message, jsonParse anthropicToolBody = some raw ∧
      Anthropic.fromAnthropicResponse raw "anthropic" 1 = .ok response ∧
      formatChatCompletionResponse (fun _ => "u") 0 response = .ok completion ∧
      choiceMessage completion = .json message ∧
      ReplaysAs Anthropic.toAnthropicRequest (·.messages) message
        ⟨"assistant", .inr [.text (.json (.str "ok")),
          .toolUse (.json (.str "a")) (.json (.str "f")) (.obj [("0", .arr []), ("x", .num 1)]),
          .toolUse (.json (.str "b")) (.json (.str "g")) (.obj [])]⟩) ∧
    (∃ raw response completion message, jsonParse ollamaToolBody = some raw ∧
      Ollama.fromOllamaResponse (fun _ => "id") 0 raw "ollama" 1 = .ok response ∧
      formatChatCompletionResponse (fun _ => "u") 0 response = .ok completion ∧
      choiceMessage completion = .json message ∧
      ReplaysAs Ollama.toOllamaRequest (·.messages) message
        ⟨.json (.str "assistant"), "", none,
          some [⟨.json (.str "f"), .obj [("city", .str "Oslo")]⟩]⟩) := by
  constructor
  · have hraw : jsonParse anthropicToolBody = some (.obj [("content", .arr [
        .obj [("type", .str "tool_use"), ("id", .str "a"), ("name", .str "f"),
          ("input", .obj [("x", .num 1), ("0", .arr [])])],
        .obj [("type", .str "text"), ("text", .str "ok")],
        .obj [("type", .str "tool_use"), ("id", .str "b"), ("name", .str "g"), ("input", .obj [])]])]) := by
      decide +kernel
    obtain ⟨response, completion, message, hresponse, hformat, hmessage, hreplay⟩ :=
      (toolCalls_roundTrip anthropicToolBody _ hraw "anthropic" 1 (fun _ => "u") 0).1
        [.toolUse ⟨"a", "f", [("x", .num 1), ("0", .arr [])]⟩, .text "ok", .toolUse ⟨"b", "g", []⟩]
        ⟨⟨_, rfl, .cons ⟨rfl, rfl, rfl, rfl⟩ (.cons ⟨rfl, rfl⟩ (.cons ⟨rfl, rfl, rfl, rfl⟩ .nil))⟩,
          Or.inl rfl, Or.inl rfl, Or.inl rfl⟩
    exact ⟨_, response, completion, message, hraw, hresponse, hformat, hmessage, hreplay⟩
  · have hraw : jsonParse ollamaToolBody = some (.obj [("message", .obj [("content", .str ""),
        ("tool_calls", .arr [.obj [("function", .obj [("name", .str "f"),
          ("arguments", .obj [("city", .str "Oslo")])])]])])]) := by
      decide +kernel
    obtain ⟨response, completion, message, hresponse, hformat, hmessage, hreplay⟩ :=
      (toolCalls_roundTrip ollamaToolBody _ hraw "ollama" 1 (fun _ => "u") 0).2 "" [⟨"f", [("city", .str "Oslo")]⟩]
        (fun _ => "id") 0
        ⟨⟨_, rfl, rfl, Or.inr ⟨_, rfl, .cons ⟨_, rfl, rfl, rfl⟩ .nil⟩⟩, Or.inl rfl, Or.inl rfl⟩
    exact ⟨_, response, completion, message, hraw, hresponse, hformat, hmessage, hreplay⟩

end Sirius
