import SiriusGateway.Correctness.Accumulated
import SiriusGateway.Correctness.SseRoundTrip
import SiriusGateway.Lib.Groups

/-!
# `Correctness.OpenAiStream` — an OpenAI completion is the same streamed or at once

A completion is a text, tool calls, a finish reason and counts (`ChatCompletion`). OpenAI sends it as one body
(`ChatCompletion.Shows`) or as chunks, the text in pieces and the parts of each tool call under its index, also with
the parts of different calls interleaved (`ChatCompletion.Streams`). What the parsed stream adds up to is what
`fromOpenAiResponse` makes of the body (`completion_same_answer`), and what a client of the non-streaming endpoint
gets is the upstream's completion again (`completion_passes_through`).

## Contents
- **Completions.** `ChatCompletion`, and when a body shows one.
- **The body.** What `fromOpenAiResponse` makes of it, and `formatChatCompletionResponse` of that.
- **Chunks.** `StreamedChunk`, and what the parser yields for one.
- **The same answer.**
-/

namespace Sirius

open Js Compat

/-! ## Completions -/

/-- A tool call of a completion. -/
structure CompletionCall where
  id : String
  name : String
  arguments : String
  deriving DecidableEq

/-- The first choice of a chat completion, and its counts. -/
structure ChatCompletion where
  text : String
  calls : List CompletionCall
  reason : String
  promptTokens : Rat
  completionTokens : Rat
  totalTokens : Rat
  deriving DecidableEq

/-- The entry of `tool_calls` is the call. -/
structure CompletionCall.Shows (call : CompletionCall) (tc : Json) : Prop where
  object : tc ≠ .null
  id : tc.prop "id" = .json (.str call.id)
  name : optProp (tc.prop "function") "name" = .json (.str call.name)
  arguments : optProp (tc.prop "function") "arguments" = .json (.str call.arguments)

/-- The usage has these counts. -/
structure ChatCompletion.Counts (c : ChatCompletion) (usage : JsValue) : Prop where
  promptTokens : optProp usage "prompt_tokens" = .json (.num c.promptTokens)
  completionTokens : optProp usage "completion_tokens" = .json (.num c.completionTokens)
  totalTokens : optProp usage "total_tokens" = .json (.num c.totalTokens)

/-- The message of a choice has this text and these tool calls. An empty text may be left out or `null`, and so
    may an empty list of calls. -/
structure ChatCompletion.Says (c : ChatCompletion) (message : Json) : Prop where
  object : message ≠ .null
  text : message.prop "content" = .json (.str c.text) ∨
    (c.text = "" ∧ (message.prop "content").isNullish = true)
  calls : (∃ items, message.prop "tool_calls" = .json (.arr items) ∧
      List.Forall₂ CompletionCall.Shows c.calls items) ∨
    (c.calls = [] ∧ (message.prop "tool_calls").isNullish = true)

/-- The body is the completion. -/
structure ChatCompletion.Shows (c : ChatCompletion) (raw : Json) : Prop where
  choice : ∃ choice more message, raw.prop "choices" = .json (.arr (choice :: more)) ∧ choice ≠ .null ∧
    choice.prop "message" = .json message ∧ c.Says message ∧
    choice.prop "finish_reason" = .json (.str c.reason)
  usage : c.Counts (raw.prop "usage")

/-- What the finish reason is mapped to. -/
def OpenAi.reasonOf (reason : String) : String :=
  ((OpenAi.FINISH_REASON_MAP ++ inheritedMembers).find? fun e => e.1 = reason).elim "stop" (·.2)

theorem OpenAi.mapFinishReason_str (reason : String) :
    OpenAi.mapFinishReason (.json (.str reason)) = .ok (OpenAi.reasonOf reason) := by
  unfold OpenAi.mapFinishReason OpenAi.reasonOf
  by_cases hempty : reason = ""
  · subst hempty
    decide
  · rw [if_pos (by simpa [Json.truthy] using hempty)]
    rfl

/-- The content item of a call. -/
def CompletionCall.item (call : CompletionCall) : UnifiedContent :=
  .toolCall ⟨.json (.str call.id), ⟨.json (.str call.name), .json (.str call.arguments)⟩⟩

/-- The content of a completion's unified response. -/
def ChatCompletion.content (c : ChatCompletion) : List UnifiedContent :=
  (if c.text = "" then [] else [.text (.json (.str c.text))]) ++ c.calls.map CompletionCall.item

/-- The counts as unified usage. -/
def ChatCompletion.usageMetrics (c : ChatCompletion) : UsageMetrics :=
  ⟨.json (.num c.promptTokens), .json (.num c.completionTokens), .json (.num c.totalTokens)⟩

/-! ## The body -/

theorem OpenAi.responseToolCall_shows {call : CompletionCall} {tc : Json} (h : call.Shows tc) :
    OpenAi.responseToolCall tc = .ok call.item := by
  have hfunction : (tc.prop "function").isNullish = false := by
    cases hfn : tc.prop "function" with
    | json fn =>
        cases fn with
        | null => have hname := h.name; rw [hfn] at hname; cases hname
        | _ => rfl
    | nan => rfl
    | undefined => have hname := h.name; rw [hfn] at hname; cases hname
  unfold OpenAi.responseToolCall
  rw [getProp_json "id" h.object, getProp_json "function" h.object, h.id]
  show (do
    let name ← getProp (tc.prop "function") "name"
    let arguments ← getProp (tc.prop "function") "arguments"
    return UnifiedContent.toolCall ⟨_, ⟨name, arguments⟩⟩) = _
  rw [getProp_eq "name" hfunction, getProp_eq "arguments" hfunction, h.name, h.arguments]
  rfl

/-- The entries of `tool_calls`, or none. -/
theorem toolCalls_says {c : ChatCompletion} {message : Json} (h : c.Says message) :
    (∃ items, message.prop "tool_calls" = .json (.arr items) ∧
      items.mapM OpenAi.responseToolCall = .ok (c.calls.map CompletionCall.item)) ∨
    ((message.prop "tool_calls").truthy = false ∧ c.calls = []) := by
  rcases h.calls with ⟨items, hitems, hshows⟩ | ⟨hnone, hnullish⟩
  · refine Or.inl ⟨items, hitems, ?_⟩
    generalize c.calls = calls at hshows
    clear hitems
    induction hshows with
    | nil => rfl
    | cons hcall _ ih => exact Except.mapM_cons_eq_ok_iff.mpr ⟨_, _, OpenAi.responseToolCall_shows hcall, ih, rfl⟩
  · exact Or.inr ⟨truthy_of_isNullish hnullish, hnone⟩

/-- The text of the message, or none. -/
theorem content_says {c : ChatCompletion} {message : Json} (h : c.Says message) :
    (message.prop "content" = .json (.str c.text) ∧ c.text ≠ "") ∨
      ((message.prop "content").truthy = false ∧ c.text = "") := by
  rcases h.text with hcontent | ⟨hempty, hnullish⟩
  · by_cases hempty : c.text = ""
    · refine Or.inr ⟨?_, hempty⟩
      rw [hcontent, hempty]
      rfl
    · exact Or.inl ⟨hcontent, hempty⟩
  · exact Or.inr ⟨truthy_of_isNullish hnullish, hempty⟩

/-- **The unified response of a completion.** -/
theorem fromOpenAiResponse_shows {c : ChatCompletion} {raw : Json} (h : c.Shows raw) (provider : String)
    (latencyMs : Rat) :
    OpenAi.fromOpenAiResponse raw provider latencyMs = .ok {
      id := raw.prop "id"
      model := raw.prop "model"
      provider := provider
      content := c.content
      finishReason := OpenAi.reasonOf c.reason
      usage := c.usageMetrics
      latencyMs := latencyMs } := by
  obtain ⟨choice, more, message, hchoices, hchoice, hmessage, hsaid, hreason⟩ := h.choice
  have hraw : raw ≠ .null := by
    rintro rfl
    cases hchoices
  have hnot : (JsValue.json choice).isNullish = false := by
    cases choice <;> first | rfl | exact absurd rfl hchoice
  have hfirst : (Except.map (fun _ => first (JsValue.json (.arr (choice :: more))))
      (getProp (.json (.arr (choice :: more))) "0") : Throws JsValue) = .ok (.json choice) := rfl
  have hfinish : OpenAi.mapFinishReason ((optProp (.json choice) "finish_reason").orElse (.json .null)) =
      .ok (OpenAi.reasonOf c.reason) := by
    show OpenAi.mapFinishReason ((choice.prop "finish_reason").orElse (.json .null)) = _
    rw [hreason]
    exact OpenAi.mapFinishReason_str c.reason
  unfold OpenAi.fromOpenAiResponse ChatCompletion.content ChatCompletion.usageMetrics
  simp only [getProp_json "choices" hraw, hchoices, Except.ok_bind, hfirst, hnot, Bool.false_eq_true, if_false,
    getProp_json "message" hchoice, hmessage, getProp_json "content" hsaid.object,
    getProp_json "tool_calls" hsaid.object, hfinish, h.usage.promptTokens, h.usage.completionTokens,
    h.usage.totalTokens]
  have htruthy : ∀ items, (JsValue.json (.arr items)).truthy = true := fun _ => rfl
  rcases content_says hsaid with ⟨htext, hne⟩ | ⟨htext, hempty⟩
  · have hstr : (JsValue.json (.str c.text)).truthy = true := by simpa [Json.truthy] using hne
    have hread : OpenAi.responseText (.json (.str c.text)) = .ok (.json (.str c.text)) := rfl
    simp only [htext, hstr, if_true, hread, Except.ok_bind, hne, if_false]
    rcases toolCalls_says hsaid with ⟨items, hitems, hmap⟩ | ⟨hitems, hnone⟩
    · simp only [hitems, htruthy, if_true, iterate, Except.ok_bind, hmap]
      rfl
    · simp only [hitems, Bool.false_eq_true, if_false, hnone]
      rfl
  · simp only [htext, Bool.false_eq_true, if_false, hempty, if_true, pure_bind, truthy_undefined]
    rcases toolCalls_says hsaid with ⟨items, hitems, hmap⟩ | ⟨hitems, hnone⟩
    · simp only [hitems, htruthy, if_true, iterate, Except.ok_bind, hmap]
      rfl
    · simp only [hitems, Bool.false_eq_true, if_false, hnone]
      rfl

/-! ### The same body again -/

/-- The completion as a client is told it: a finish reason the tables do not have is `stop`. -/
def ChatCompletion.told (c : ChatCompletion) : ChatCompletion where
  text := c.text
  calls := c.calls
  reason := if c.reason ∈ OpenAi.FINISH_REASON_MAP.map Prod.fst then c.reason else "stop"
  promptTokens := c.promptTokens
  completionTokens := c.completionTokens
  totalTokens := c.totalTokens

theorem reason_told (c : ChatCompletion) : c.told.reason ∈ OpenAi.FINISH_REASON_MAP.map Prod.fst := by
  unfold ChatCompletion.told
  by_cases hknown : c.reason ∈ OpenAi.FINISH_REASON_MAP.map Prod.fst
  · rwa [if_pos hknown]
  · rw [if_neg hknown]
    exact List.mem_cons_self

theorem told_of_known {c : ChatCompletion} (h : c.reason ∈ OpenAi.FINISH_REASON_MAP.map Prod.fst) : c.told = c := by
  unfold ChatCompletion.told
  rw [if_pos h]

theorem finishReason_told {c : ChatCompletion} (h : c.reason ∉ inheritedMembers.map Prod.fst) :
    toOpenAiFinishReason (OpenAi.reasonOf c.reason) = .json (.str c.told.reason) := by
  have hfind : ∀ {table : List (String × String)}, c.reason ∉ table.map Prod.fst →
      table.find? (fun e => e.1 = c.reason) = none := by
    intro table hnot
    rw [List.find?_eq_none]
    intro e he heq
    exact hnot (of_decide_eq_true heq ▸ List.mem_map_of_mem he)
  unfold ChatCompletion.told
  by_cases hknown : c.reason ∈ OpenAi.FINISH_REASON_MAP.map Prod.fst
  · rw [if_pos hknown]
    have hall : ∀ reason ∈ OpenAi.FINISH_REASON_MAP.map Prod.fst,
        toOpenAiFinishReason (OpenAi.reasonOf reason) = .json (.str reason) := by decide
    exact hall _ hknown
  · have hstop : OpenAi.reasonOf c.reason = "stop" := by
      unfold OpenAi.reasonOf
      rw [List.find?_append, hfind hknown, hfind h]
      rfl
    have htold : toOpenAiFinishReason "stop" = .json (.str "stop") := by decide
    rw [if_neg hknown, hstop]
    exact htold

theorem turnText_content (c : ChatCompletion) : turnText c.content = c.text := by
  have hcalls : (c.calls.map CompletionCall.item).filterMap itemText = [] := by
    rw [List.filterMap_map, List.filterMap_eq_nil_iff]
    exact fun call _ => rfl
  unfold turnText ChatCompletion.content
  rw [List.filterMap_append, hcalls, List.append_nil]
  by_cases hempty : c.text = ""
  · rw [if_pos hempty, hempty]
    rfl
  · rw [if_neg hempty]
    exact String.intercalate_singleton

theorem turnCalls_content (c : ChatCompletion) :
    turnCalls c.content = c.calls.map fun call =>
      ⟨.json (.str call.id), ⟨.json (.str call.name), .json (.str call.arguments)⟩⟩ := by
  have htext : turnCalls (if c.text = "" then [] else [.text (.json (.str c.text))]) = [] := by
    split <;> rfl
  unfold turnCalls ChatCompletion.content at *
  rw [List.filterMap_append, htext, List.nil_append, List.filterMap_map]
  exact congrFun List.filterMap_eq_map _

theorem typed_content (c : ChatCompletion) : Typed c.content := by
  constructor
  · intro text htext
    unfold ChatCompletion.content at htext
    rcases List.mem_append.mp htext with htext | htext
    · split at htext
      · cases htext
      · cases List.mem_singleton.mp htext
        exact Or.inr rfl
    · obtain ⟨call, -, hitem⟩ := List.mem_map.mp htext
      cases hitem
  · intro call hcall
    rw [turnCalls_content] at hcall
    obtain ⟨call, -, rfl⟩ := List.mem_map.mp hcall
    exact ⟨nofun, nofun, nofun⟩

theorem shows_formatToolCall (call : CompletionCall) :
    call.Shows (formatToolCall ⟨.json (.str call.id), ⟨.json (.str call.name), .json (.str call.arguments)⟩⟩) := by
  unfold formatToolCall
  exact ⟨nofun, by simp, by simp, by simp⟩

/-- The message of a completion says what the completion does. -/
theorem says_formatAssistantMessage (c : ChatCompletion) :
    ∃ message, formatAssistantMessage c.content = .ok message ∧ c.Says message := by
  have htext : c.content.foldlM appendText (.json .null) = .ok (textValue c.text) := by
    have hfold := foldlM_appendText (typed_content c) ""
    rwa [String.empty_append, turnText_content] at hfold
  refine ⟨assistantMessage (textValue c.text) ((turnCalls c.content).map formatToolCall), ?_, ?_⟩
  · unfold formatAssistantMessage
    rw [htext]
    rfl
  rw [turnCalls_content, List.map_map]
  refine ⟨nofun, ?_, ?_⟩
  · unfold assistantMessage textValue
    by_cases hempty : c.text = ""
    · refine Or.inr ⟨hempty, ?_⟩
      simp [hempty]
      rfl
    · exact Or.inl (by simp [hempty])
  · have hall : List.Forall₂ CompletionCall.Shows c.calls (c.calls.map fun call =>
        formatToolCall ⟨.json (.str call.id), ⟨.json (.str call.name), .json (.str call.arguments)⟩⟩) :=
      List.forall₂_map_right_iff.mpr (List.forall₂_same.mpr fun call _ => shows_formatToolCall call)
    by_cases hnone : c.calls = []
    · exact Or.inr ⟨hnone, by simp [assistantMessage, hnone]⟩
    · have hlength : 0 < c.calls.length := List.length_pos_of_ne_nil hnone
      exact Or.inl ⟨_, by simp [assistantMessage, hlength], hall⟩

/-- A gateway on the way of a completion: the provider's name, the clocks and the identifiers it draws. -/
structure Hop where
  provider : String
  latencyMs : Rat
  uuid : Nat → String
  created : Nat

/-- The body a client of the gateway gets for the body its OpenAI upstream sent. -/
def Hop.relay (hop : Hop) (raw : Json) : Throws Json := do
  let response ← OpenAi.fromOpenAiResponse raw hop.provider hop.latencyMs
  formatChatCompletionResponse hop.uuid hop.created response

theorem told_shows_relay {c : ChatCompletion} {raw : Json} (h : c.Shows raw)
    (hreason : c.reason ∉ inheritedMembers.map Prod.fst) (hop : Hop) :
    ∃ body, hop.relay raw = .ok body ∧ c.told.Shows body ∧ body.prop "model" = raw.prop "model" := by
  obtain ⟨message, hformat, hsaid⟩ := says_formatAssistantMessage c
  have hmodel := elim_onWire (prop_ne_nan raw "model")
  unfold Hop.relay
  rw [fromOpenAiResponse_shows h, Except.ok_bind]
  unfold formatChatCompletionResponse
  dsimp only
  rw [hformat, Except.ok_bind, finishReason_told hreason]
  refine ⟨_, rfl, ⟨⟨wireObject [("index", .json (.num 0)), ("message", .json message),
    ("finish_reason", .json (.str c.told.reason))], [], message, ?_, nofun, ?_, ?_, ?_⟩, ?_⟩, ?_⟩
  · simp
  · simp
  · exact ⟨hsaid.object, hsaid.text, hsaid.calls⟩
  · simp
  · unfold ChatCompletion.usageMetrics ChatCompletion.told
    exact ⟨by simp, by simp, by simp⟩
  · simpa using hmodel

/-- **A completion passes through.** Behind any number of gateways, each of which speaks to the one before it as
    to an OpenAI provider, a client is told the completion the upstream sent: the same text, the same tool calls
    with the same argument texts, the same counts, and the finish reason if it is one of the four known ones. -/
theorem completion_passes_through {c : ChatCompletion} {raw : Json} (h : c.Shows raw)
    (hreason : c.reason ∉ inheritedMembers.map Prod.fst) (hop : Hop) (hops : List Hop) :
    ∃ body, (hop :: hops).foldlM (fun body hop => hop.relay body) raw = .ok body ∧ c.told.Shows body ∧
      body.prop "model" = raw.prop "model" := by
  induction hops using List.reverseRecOn with
  | nil =>
      obtain ⟨body, hbody, hshows, hmodel⟩ := told_shows_relay h hreason hop
      refine ⟨body, ?_, hshows, hmodel⟩
      rw [List.foldlM_cons, hbody]
      rfl
  | append_singleton hops last ih =>
      obtain ⟨body, hbody, hshows, hmodel⟩ := ih
      have hown : ∀ reason ∈ OpenAi.FINISH_REASON_MAP.map Prod.fst, reason ∉ inheritedMembers.map Prod.fst := by
        decide
      obtain ⟨body', hbody', hshows', hmodel'⟩ := told_shows_relay hshows (hown _ (reason_told c)) last
      rw [told_of_known (reason_told c)] at hshows'
      refine ⟨body', ?_, hshows', hmodel'.trans hmodel⟩
      rw [← List.cons_append, List.foldlM_append, hbody, Except.ok_bind, List.foldlM_cons, hbody']
      rfl

/-- A completion with a text and two tool calls. -/
def checkingCompletion : ChatCompletion where
  text := "Hi"
  calls := [⟨"a", "f", "\x7b\"x\":1\x7d"⟩, ⟨"b", "g", "\x7b\x7d"⟩]
  reason := "tool_calls"
  promptTokens := 5
  completionTokens := 7
  totalTokens := 12

/-- The body OpenAI sends for it. -/
def checkingCompletionBody : Json :=
  .obj [("id", .str "c"), ("model", .str "m"), ("choices", .arr [.obj [("index", .num 0),
      ("message", .obj [("role", .str "assistant"), ("content", .str "Hi"), ("tool_calls", .arr [
        .obj [("id", .str "a"), ("type", .str "function"),
          ("function", .obj [("name", .str "f"), ("arguments", .str "\x7b\"x\":1\x7d")])],
        .obj [("id", .str "b"), ("type", .str "function"),
          ("function", .obj [("name", .str "g"), ("arguments", .str "\x7b\x7d")])]])]),
      ("finish_reason", .str "tool_calls")]]),
    ("usage", .obj [("prompt_tokens", .num 5), ("completion_tokens", .num 7), ("total_tokens", .num 12)])]

theorem shows_checking : checkingCompletion.Shows checkingCompletionBody :=
  ⟨⟨_, [], _, rfl, nofun, rfl, ⟨nofun, Or.inl rfl,
    Or.inl ⟨_, rfl, .cons ⟨nofun, rfl, rfl, rfl⟩ (.cons ⟨nofun, rfl, rfl, rfl⟩ .nil)⟩⟩, rfl⟩, ⟨rfl, rfl, rfl⟩⟩

theorem completion_passes_through_checking :
    ∃ body, [(⟨"inner", 1, fun _ => "u", 0⟩ : Hop), ⟨"outer", 2, fun _ => "v", 1⟩].foldlM
        (fun body hop => hop.relay body) checkingCompletionBody = .ok body ∧
      checkingCompletion.told.Shows body ∧ body.prop "model" = checkingCompletionBody.prop "model" :=
  completion_passes_through shows_checking (by decide) _ _

/-! ## Chunks -/

/-- A part of a tool call, as a chunk carries it: what is not sent is left out. -/
structure CallPart where
  index : Nat
  id : Option String
  name : Option String
  arguments : Option String
  deriving DecidableEq

/-- What a chunk carries. -/
structure StreamedChunk where
  text : String
  parts : List CallPart
  usage : Option UsageMetrics
  reason : Option String
  deriving DecidableEq

/-- An optional string, left out when there is none. -/
def optStr (s : Option String) : JsValue := s.elim .undefined fun s => .json (.str s)

/-- The entry of `delta.tool_calls` is the part. -/
structure CallPart.Shows (part : CallPart) (tc : Json) : Prop where
  object : tc ≠ .null
  index : (tc.prop "index").orElse (.json (.num 0)) = .json (.num part.index)
  id : tc.prop "id" = optStr part.id
  name : optProp (tc.prop "function") "name" = optStr part.name
  arguments : optProp (tc.prop "function") "arguments" = optStr part.arguments

/-- The choice carries what the chunk does. -/
structure StreamedChunk.InChoice (c : StreamedChunk) (choice : JsValue) : Prop where
  object : choice.truthy = true
  delta : (optProp choice "delta").isNullish = false
  text : optProp (optProp choice "delta") "content" = .json (.str c.text) ∨
    (c.text = "" ∧ (optProp (optProp choice "delta") "content").isNullish = true)
  parts : (∃ items, optProp (optProp choice "delta") "tool_calls" = .json (.arr items) ∧
      List.Forall₂ CallPart.Shows c.parts items) ∨
    (c.parts = [] ∧ (optProp (optProp choice "delta") "tool_calls").isNullish = true)
  reason : (∃ reason, c.reason = some reason ∧ reason ≠ "" ∧ optProp choice "finish_reason" = .json (.str reason)) ∨
    (c.reason = none ∧ (optProp choice "finish_reason").isNullish = true)

/-- The value is the chunk. A chunk may have no choice, as the one with the usage has none. -/
structure StreamedChunk.Shows (c : StreamedChunk) (chunk : Json) : Prop where
  object : chunk ≠ .null
  usage : (∃ usage, c.usage = some usage ∧ (chunk.prop "usage").truthy = true ∧
      optProp (chunk.prop "usage") "prompt_tokens" = usage.inputTokens ∧
      optProp (chunk.prop "usage") "completion_tokens" = usage.outputTokens ∧
      optProp (chunk.prop "usage") "total_tokens" = usage.totalTokens) ∨
    (c.usage = none ∧ (chunk.prop "usage").truthy = false)
  choice : c.InChoice (first (chunk.prop "choices")) ∨
    (c.text = "" ∧ c.parts = [] ∧ c.reason = none ∧ (first (chunk.prop "choices")).truthy = false)

/-- The event of a part. -/
def CallPart.event (part : CallPart) : UnifiedStreamEvent :=
  .toolCallDelta (.json (.num part.index)) (optStr part.id) (optStr part.name) (optStr part.arguments)

/-- The events of a chunk. -/
def StreamedChunk.events (c : StreamedChunk) : List UnifiedStreamEvent :=
  (if c.text = "" then [] else [.contentDelta (.json (.str c.text))]) ++ c.parts.map CallPart.event ++
    (c.usage.map UnifiedStreamEvent.usage).toList ++
    (c.reason.map fun reason => UnifiedStreamEvent.done (OpenAi.reasonOf reason)).toList

theorem yieldToolCalls_parts {parts : List CallPart} {items : List Json}
    (h : List.Forall₂ CallPart.Shows parts items) :
    OpenAi.yieldToolCalls items = ⟨parts.map CallPart.event, .ok ()⟩ := by
  induction h with
  | nil => rfl
  | @cons part tc parts items hpart _ ih =>
      have hone : OpenAi.yieldToolCall tc = ⟨[part.event], .ok ()⟩ := by
        unfold OpenAi.yieldToolCall
        rw [getProp_json "index" hpart.object, Gen.lift_ok, pure_bind]
        dsimp only
        rw [hpart.index, hpart.id, hpart.name, hpart.arguments]
        rfl
      show OpenAi.yieldToolCall tc >>= (fun _ => OpenAi.yieldToolCalls items) = _
      rw [hone, Gen.bind_of_ok rfl, ih]
      rfl

theorem toUsageEvent_shows {c : StreamedChunk} {chunk : Json} (h : c.Shows chunk) :
    OpenAi.toUsageEvent chunk = .ok (c.usage.map UnifiedStreamEvent.usage) := by
  unfold OpenAi.toUsageEvent
  rw [getProp_json "usage" h.object, Except.ok_bind]
  rcases h.usage with ⟨usage, hsome, htruthy, hprompt, hcompletion, htotal⟩ | ⟨hnone, hfalsy⟩
  · rw [if_pos htruthy, hprompt, hcompletion, htotal, hsome]
    rfl
  · rw [hfalsy, hnone]
    rfl

theorem processChoice_shows {c : StreamedChunk} {choice : JsValue} (h : c.InChoice choice) :
    OpenAi.processChoice choice (c.usage.map UnifiedStreamEvent.usage) = ⟨c.events, .ok ()⟩ := by
  have hcontent : OpenAi.yieldContent (optProp (optProp choice "delta") "content") =
      ⟨if c.text = "" then [] else [.contentDelta (.json (.str c.text))], .ok ()⟩ := by
    unfold OpenAi.yieldContent
    rcases h.text with htext | ⟨hempty, hnullish⟩
    · rw [htext]
      by_cases hempty : c.text = ""
      · rw [if_pos hempty, hempty]
        rfl
      · rw [if_pos (by simpa [Json.truthy] using hempty), if_neg hempty]
        rfl
    · rw [truthy_of_isNullish hnullish, if_pos hempty]
      rfl
  have hparts : OpenAi.yieldToolCallDeltas (optProp (optProp choice "delta") "tool_calls") =
      ⟨c.parts.map CallPart.event, .ok ()⟩ := by
    unfold OpenAi.yieldToolCallDeltas
    rcases h.parts with ⟨items, hitems, hshows⟩ | ⟨hnone, hnullish⟩
    · rw [hitems]
      exact yieldToolCalls_parts hshows
    · rw [truthy_of_isNullish hnullish, hnone]
      rfl
  have husage : OpenAi.yieldUsage (c.usage.map UnifiedStreamEvent.usage) =
      ⟨(c.usage.map UnifiedStreamEvent.usage).toList, .ok ()⟩ := by
    cases c.usage <;> rfl
  have hdone : OpenAi.yieldDone (optProp choice "finish_reason") =
      ⟨(c.reason.map fun reason => UnifiedStreamEvent.done (OpenAi.reasonOf reason)).toList, .ok ()⟩ := by
    unfold OpenAi.yieldDone
    rcases h.reason with ⟨reason, hsome, hne, hreason⟩ | ⟨hnone, hnullish⟩
    · rw [hreason, if_pos (by simpa [Json.truthy] using hne), OpenAi.mapFinishReason_str, hsome]
      rfl
    · rw [truthy_of_isNullish hnullish, hnone]
      rfl
  unfold OpenAi.processChoice
  dsimp only
  rw [getProp_eq "content" h.delta, Gen.lift_ok, pure_bind, hcontent, hparts, husage, hdone]
  unfold StreamedChunk.events
  rw [Gen.bind_of_ok rfl, Gen.bind_of_ok rfl, Gen.bind_of_ok rfl, List.append_assoc, List.append_assoc]

/-- **What the parser yields for a chunk.** -/
theorem OpenAi.processChunk_shows {c : StreamedChunk} {chunk : Json} (h : c.Shows chunk) :
    OpenAi.processChunk chunk = ⟨c.events, .ok ()⟩ := by
  unfold OpenAi.processChunk
  rw [toUsageEvent_shows h, Gen.lift_ok, pure_bind]
  dsimp only
  rcases h.choice with hchoice | ⟨htext, hparts, hreason, hfalsy⟩
  · rw [if_pos hchoice.object]
    exact processChoice_shows hchoice
  · rw [hfalsy]
    unfold StreamedChunk.events
    rw [htext, hparts, hreason]
    cases c.usage <;> rfl

/-- A run over chunks yields their events. -/
theorem processLines_streamed {chunks : List StreamedChunk} {lines : List String}
    (h : List.Forall₂ StreamedChunk.Shows chunks (lines.filterMap OpenAi.chunkOf)) (s : Unit) :
    OpenAi.parser.processLines lines s = ⟨chunks.flatMap StreamedChunk.events, .ok s⟩ := by
  rw [OpenAi.parser.processLines_filterMap OpenAi.parser_processLine_eq]
  generalize lines.filterMap OpenAi.chunkOf = values at h
  induction h with
  | nil => rfl
  | @cons c chunk chunks values hc _ ih =>
      show OpenAi.processChunk chunk >>= LineParser.processAll (fun chunk _ => OpenAi.processChunk chunk) values = _
      rw [OpenAi.processChunk_shows hc, Gen.bind_of_ok rfl, ih, List.flatMap_cons]

/-! ### What the chunks add up to -/

/-- The call with one more part. -/
def MergedCall.addPart (call : MergedCall) (part : CallPart) : MergedCall :=
  call.extend (optStr part.id) (optStr part.name) (optStr part.arguments)

/-- The calls after one more part. -/
def gatherPart : List MergedCall → CallPart → List MergedCall :=
  List.gather (fun part => .json (.num part.index)) MergedCall.index (fun k => ⟨k, [], [], ""⟩) MergedCall.addPart

/-- The answer with one more chunk. -/
def Answer.addChunk (answer : Answer) (c : StreamedChunk) : Answer where
  text := answer.text ++ c.text
  calls := c.parts.foldl gatherPart answer.calls
  finishReason := (c.reason.map OpenAi.reasonOf).or answer.finishReason
  usage := c.usage.or answer.usage

theorem foldl_parts (parts : List CallPart) (answer : Answer) :
    (parts.map CallPart.event).foldl Answer.add answer =
      { answer with calls := parts.foldl gatherPart answer.calls } := by
  induction parts generalizing answer with
  | nil => rfl
  | cons part rest ih =>
      rw [List.map_cons, List.foldl_cons, ih]
      rfl

theorem foldl_chunk (c : StreamedChunk) (answer : Answer) :
    c.events.foldl Answer.add answer = answer.addChunk c := by
  have htext : (if c.text = "" then [] else [.contentDelta (.json (.str c.text))]).foldl Answer.add answer =
      { answer with text := answer.text ++ c.text } := by
    by_cases hempty : c.text = ""
    · rw [if_pos hempty, hempty, String.append_empty]
      rfl
    · rw [if_neg hempty]
      rfl
  unfold StreamedChunk.events Answer.addChunk
  rw [List.foldl_append, List.foldl_append, List.foldl_append, htext, foldl_parts]
  cases c.usage <;> cases c.reason <;> rfl

/-- **What the chunks add up to**, part by part. -/
theorem foldl_chunks (chunks : List StreamedChunk) (answer : Answer) :
    (chunks.flatMap StreamedChunk.events).foldl Answer.add answer = {
      text := answer.text ++ "".intercalate (chunks.map StreamedChunk.text)
      calls := (chunks.flatMap StreamedChunk.parts).foldl gatherPart answer.calls
      finishReason := ((chunks.filterMap StreamedChunk.reason).getLast?.map OpenAi.reasonOf).or answer.finishReason
      usage := (chunks.filterMap StreamedChunk.usage).getLast?.or answer.usage } := by
  induction chunks generalizing answer with
  | nil =>
      show answer = { answer with text := answer.text ++ "" }
      rw [String.append_empty]
  | cons c rest ih =>
      rw [List.flatMap_cons, List.foldl_append, foldl_chunk, ih, List.map_cons, intercalate_cons, List.flatMap_cons,
        List.foldl_append, List.filterMap_cons, List.filterMap_cons]
      unfold Answer.addChunk
      congr 1
      · exact String.append_assoc ..
      · cases c.reason with
        | none => rfl
        | some reason =>
            rw [List.getLast?_cons]
            cases (rest.filterMap StreamedChunk.reason).getLast? <;> rfl
      · cases c.usage with
        | none => rfl
        | some usage =>
            rw [List.getLast?_cons]
            cases (rest.filterMap StreamedChunk.usage).getLast? <;> rfl

/-- The parts of one call, put together. -/
theorem foldl_addPart (parts : List CallPart) (call : MergedCall) :
    parts.foldl MergedCall.addPart call = {
      index := call.index
      ids := call.ids ++ (parts.filterMap CallPart.id).map fun s => .json (.str s)
      names := call.names ++ (parts.filterMap CallPart.name).map fun s => .json (.str s)
      arguments := call.arguments ++ "".intercalate (parts.filterMap CallPart.arguments) } := by
  have hcarried : ∀ s : Option String, carried (optStr s) = s.toList.map fun s => .json (.str s) := by
    intro s
    cases s <;> rfl
  have hdelta : ∀ s : Option String, deltaText (optStr s) = s.getD "" := by
    intro s
    cases s <;> rfl
  induction parts generalizing call with
  | nil =>
      show call = { call with
        ids := call.ids ++ [], names := call.names ++ [], arguments := call.arguments ++ "" }
      rw [List.append_nil, List.append_nil, String.append_empty]
  | cons part rest ih =>
      rw [List.foldl_cons, ih]
      unfold MergedCall.addPart MergedCall.extend
      rw [hcarried, hcarried, hdelta]
      congr 1
      · rw [List.append_assoc, List.filterMap_cons]
        cases part.id <;> rfl
      · rw [List.append_assoc, List.filterMap_cons]
        cases part.name <;> rfl
      · rw [List.filterMap_cons]
        cases part.arguments with
        | none => exact congrArg (· ++ _) String.append_empty
        | some s =>
            dsimp only
            rw [intercalate_cons, ← String.append_assoc]
            rfl

/-! ## The same answer -/

/-- The parts with this index, put together, are the call: one id, one name, and its arguments. -/
structure CompletionCall.SpelledBy (call : CompletionCall) (parts : List CallPart) : Prop where
  id : parts.filterMap CallPart.id = [call.id]
  name : parts.filterMap CallPart.name = [call.name]
  arguments : "".intercalate (parts.filterMap CallPart.arguments) = call.arguments

/-- The chunks are the completion cut up: the calls are numbered in the order in which they first appear, and the
    last usage is the one of the completion. -/
structure ChatCompletion.CutInto (c : ChatCompletion) (chunks : List StreamedChunk) : Prop where
  text : "".intercalate (chunks.map StreamedChunk.text) = c.text
  indices : ((chunks.flatMap StreamedChunk.parts).map CallPart.index).eraseDups = List.range c.calls.length
  calls : ∀ e ∈ c.calls.zipIdx,
    e.1.SpelledBy ((chunks.flatMap StreamedChunk.parts).filter fun part => part.index = e.2)
  reason : chunks.filterMap StreamedChunk.reason = [c.reason]
  usage : (chunks.filterMap StreamedChunk.usage).getLast? = some c.usageMetrics

/-- The lines are a stream OpenAI sends for the completion. Blank lines, comments, other fields and the sentinel
    may stand anywhere. -/
def ChatCompletion.Streams (c : ChatCompletion) (lines : List String) : Prop :=
  ∃ chunks, List.Forall₂ StreamedChunk.Shows chunks (lines.filterMap OpenAi.chunkOf) ∧ c.CutInto chunks

/-- The answer a response is. -/
def answerOf (response : UnifiedAiResponse) : Answer where
  text := turnText response.content
  calls := (turnCalls response.content).zipIdx.map fun e =>
    ⟨.json (.num e.2), [e.1.id], [e.1.function.name], deltaText e.1.function.arguments⟩
  finishReason := some response.finishReason
  usage := some response.usage

/-- The calls the parts make up. -/
theorem foldl_gatherPart {c : ChatCompletion} {chunks : List StreamedChunk} (h : c.CutInto chunks) :
    (chunks.flatMap StreamedChunk.parts).foldl gatherPart [] =
      c.calls.zipIdx.map fun e =>
        ⟨.json (.num e.2), [.json (.str e.1.id)], [.json (.str e.1.name)], e.1.arguments⟩ := by
  have hsame : ∀ i j : Nat, (JsValue.json (.num i) = .json (.num j)) ↔ i = j := by
    intro i j
    constructor
    · intro heq
      have hnum : (i : Rat) = j := by simpa using heq
      exact_mod_cast hnum
    · rintro rfl
      rfl
  have hindices : c.calls.zipIdx.map Prod.snd = List.range c.calls.length := by
    rw [List.zipIdx_map_snd, List.range_eq_range']
  have hkeys : ((chunks.flatMap StreamedChunk.parts).map fun part => JsValue.json (.num part.index)).eraseDups =
      c.calls.zipIdx.map fun e => JsValue.json (.num e.2) := by
    have hinj := List.eraseDups_map_of_injOn (f := fun i : Nat => JsValue.json (.num i))
      (l := (chunks.flatMap StreamedChunk.parts).map CallPart.index) fun i _ j _ heq => (hsame i j).mp heq
    rw [List.map_map, h.indices, ← hindices, List.map_map] at hinj
    exact hinj
  have hgather := @List.foldl_gather _ _ _ _ (fun part : CallPart => JsValue.json (.num part.index)) MergedCall.index
    (fun k => ⟨k, [], [], ""⟩) MergedCall.addPart (fun _ => rfl) (fun _ _ => rfl)
  unfold gatherPart
  rw [hgather, hkeys, List.map_map]
  refine List.map_congr_left fun e he => ?_
  have hspelled := h.calls e he
  simp only [Function.comp_apply, foldl_addPart, hsame, hspelled.id, hspelled.name, hspelled.arguments,
    List.nil_append, String.empty_append, List.map_cons, List.map_nil]

/-- The answer a completion is. -/
def ChatCompletion.answer (c : ChatCompletion) : Answer where
  text := c.text
  calls := c.calls.zipIdx.map fun e =>
    ⟨.json (.num e.2), [.json (.str e.1.id)], [.json (.str e.1.name)], e.1.arguments⟩
  finishReason := some (OpenAi.reasonOf c.reason)
  usage := some c.usageMetrics

/-- The chunks of a completion add up to it. -/
theorem accumulate_cutInto {c : ChatCompletion} {chunks : List StreamedChunk} (h : c.CutInto chunks) :
    accumulate (chunks.flatMap StreamedChunk.events) = c.answer := by
  unfold accumulate
  rw [foldl_chunks, h.text, h.reason, h.usage]
  show (⟨"" ++ c.text, (chunks.flatMap StreamedChunk.parts).foldl gatherPart [], some (OpenAi.reasonOf c.reason),
    some c.usageMetrics⟩ : Answer) = _
  rw [foldl_gatherPart h, String.empty_append]
  rfl

/-- The body of a completion is read as it. -/
theorem answerOf_shows {c : ChatCompletion} {raw : Json} (h : c.Shows raw) (provider : String) (latencyMs : Rat) :
    ∃ response, OpenAi.fromOpenAiResponse raw provider latencyMs = .ok response ∧ answerOf response = c.answer := by
  refine ⟨_, fromOpenAiResponse_shows h provider latencyMs, ?_⟩
  unfold answerOf
  dsimp only
  rw [turnText_content, turnCalls_content, List.zipIdx_map, List.map_map]
  rfl

/-- **Streamed or at once, an OpenAI completion is the same answer**, however its text is cut, its calls are
    interleaved, and the body is cut into chunks. -/
theorem completion_same_answer {c : ChatCompletion} {raw : Json} (h : c.Shows raw) {body : HttpBody}
    (hclosed : body.ending = .closed) (hstream : c.Streams body.lines) (provider : String) (latencyMs : Rat) :
    ∃ events response, OpenAi.parser.parseStream body = ⟨events, .finished⟩ ∧
      OpenAi.fromOpenAiResponse raw provider latencyMs = .ok response ∧
      accumulate events = answerOf response := by
  obtain ⟨chunks, hshows, hcut⟩ := hstream
  obtain ⟨response, hresponse, hanswer⟩ := answerOf_shows h provider latencyMs
  refine ⟨chunks.flatMap StreamedChunk.events, response, ?_, hresponse, ?_⟩
  · rw [OpenAi.parser.parseStream_eq, processLines_streamed hshows, hclosed]
  · rw [accumulate_cutInto hcut, hanswer]

/-- Chunks sent as frames are the chunks of the body. -/
theorem chunks_frameBody {chunks : List Json} (h : ∀ chunk ∈ chunks, ∃ fields, chunk = .obj fields ∧ chunk.Plain) :
    (frameBody chunks).lines.filterMap OpenAi.chunkOf = chunks := by
  rw [lines_frameBody]
  induction chunks with
  | nil => rfl
  | cons chunk rest ih =>
      obtain ⟨⟨fields, rfl, hplain⟩, hrest⟩ := List.forall_mem_cons.mp h
      have hchunk : OpenAi.chunkOf ("data: " ++ stringify (.obj fields)) = some (.obj fields) := by
        obtain ⟨inner, hinner⟩ := stringify_obj_braces fields
        have hdone : stringify (.obj fields) ≠ "[DONE]" := by
          intro heq
          rw [heq] at hinner
          simp at hinner
        unfold OpenAi.chunkOf
        rw [sseData_object, Option.bind_some, if_neg hdone, jsonParse_stringify_plain hplain]
      have hblank : OpenAi.chunkOf "" = none := by decide
      rw [List.flatMap_cons, List.cons_append, List.filterMap_cons_some hchunk, List.cons_append,
        List.filterMap_cons_none hblank, List.nil_append, ih hrest]

/-- A stream for it: the text in two pieces, the parts of the two calls interleaved, the usage in a chunk of its
    own. -/
def checkingChunks : List Json :=
  [.obj [("choices", .arr [.obj [("delta", .obj [("role", .str "assistant"), ("content", .str "H")])]])],
    .obj [("choices", .arr [.obj [("delta", .obj [("content", .str "i")])]])],
    .obj [("choices", .arr [.obj [("delta", .obj [("tool_calls", .arr [
      .obj [("index", .num 0), ("id", .str "a"),
        ("function", .obj [("name", .str "f"), ("arguments", .str "")])],
      .obj [("index", .num 1), ("id", .str "b"),
        ("function", .obj [("name", .str "g"), ("arguments", .str "")])]])])]])],
    .obj [("choices", .arr [.obj [("delta", .obj [("tool_calls", .arr [
      .obj [("index", .num 1), ("function", .obj [("arguments", .str "\x7b\x7d")])],
      .obj [("index", .num 0), ("function", .obj [("arguments", .str "\x7b\"x\":")])]])])]])],
    .obj [("choices", .arr [.obj [("delta", .obj [("tool_calls", .arr [
      .obj [("index", .num 0), ("function", .obj [("arguments", .str "1\x7d")])]])]),
      ("finish_reason", .str "tool_calls")]])],
    .obj [("choices", .arr []),
      ("usage", .obj [("prompt_tokens", .num 5), ("completion_tokens", .num 7), ("total_tokens", .num 12)])]]

theorem completion_same_answer_checking :
    ∃ events response,
      OpenAi.parser.parseStream (frameBody checkingChunks) = ⟨events, .finished⟩ ∧
      OpenAi.fromOpenAiResponse checkingCompletionBody "openai" 1 = .ok response ∧
      accumulate events = answerOf response := by
  have hplain : ∀ chunk ∈ checkingChunks, ∃ fields, chunk = .obj fields ∧ chunk.Plain := by
    have hdecimal : Decimal 0 ∧ Decimal 1 ∧ Decimal 5 ∧ Decimal 7 ∧ Decimal 12 :=
      ⟨decimal_natCast 0, decimal_natCast 1, decimal_natCast 5, decimal_natCast 7, decimal_natCast 12⟩
    have hcanon : ∀ chunk ∈ checkingChunks, chunk.canon = chunk := by decide
    have hvalid : ∀ chunk ∈ checkingChunks, ∃ fields, chunk = .obj fields ∧ chunk.Valid := by
      simp [checkingChunks, Json.Valid, ValidFields, ValidItems, hdecimal]
    intro chunk hchunk
    obtain ⟨fields, heq, hv⟩ := hvalid chunk hchunk
    exact ⟨fields, heq, hv, hcanon chunk hchunk⟩
  have hstream : checkingCompletion.Streams (frameBody checkingChunks).lines := by
    rw [ChatCompletion.Streams, chunks_frameBody hplain]
    refine ⟨[⟨"H", [], none, none⟩, ⟨"i", [], none, none⟩,
      ⟨"", [⟨0, some "a", some "f", some ""⟩, ⟨1, some "b", some "g", some ""⟩], none, none⟩,
      ⟨"", [⟨1, none, none, some "\x7b\x7d"⟩, ⟨0, none, none, some "\x7b\"x\":"⟩], none, none⟩,
      ⟨"", [⟨0, none, none, some "1\x7d"⟩], none, some "tool_calls"⟩,
      ⟨"", [], some checkingCompletion.usageMetrics, none⟩], ?_, ?_⟩
    · refine .cons ?_ (.cons ?_ (.cons ?_ (.cons ?_ (.cons ?_ (.cons ?_ .nil)))))
      · exact ⟨by decide, Or.inr ⟨rfl, rfl⟩, Or.inl ⟨rfl, rfl, Or.inl rfl, Or.inr ⟨rfl, rfl⟩, Or.inr ⟨rfl, rfl⟩⟩⟩
      · exact ⟨by decide, Or.inr ⟨rfl, rfl⟩, Or.inl ⟨rfl, rfl, Or.inl rfl, Or.inr ⟨rfl, rfl⟩, Or.inr ⟨rfl, rfl⟩⟩⟩
      · exact ⟨by decide, Or.inr ⟨rfl, rfl⟩, Or.inl ⟨rfl, rfl, Or.inr ⟨rfl, rfl⟩, Or.inl ⟨_, rfl,
          .cons ⟨by decide, rfl, rfl, rfl, rfl⟩ (.cons ⟨by decide, rfl, rfl, rfl, rfl⟩ .nil)⟩, Or.inr ⟨rfl, rfl⟩⟩⟩
      · exact ⟨by decide, Or.inr ⟨rfl, rfl⟩, Or.inl ⟨rfl, rfl, Or.inr ⟨rfl, rfl⟩, Or.inl ⟨_, rfl,
          .cons ⟨by decide, rfl, rfl, rfl, rfl⟩ (.cons ⟨by decide, rfl, rfl, rfl, rfl⟩ .nil)⟩, Or.inr ⟨rfl, rfl⟩⟩⟩
      · exact ⟨by decide, Or.inr ⟨rfl, rfl⟩, Or.inl ⟨rfl, rfl, Or.inr ⟨rfl, rfl⟩, Or.inl ⟨_, rfl,
          .cons ⟨by decide, rfl, rfl, rfl, rfl⟩ .nil⟩, Or.inl ⟨"tool_calls", rfl, by decide, rfl⟩⟩⟩
      · exact ⟨by decide, Or.inl ⟨_, rfl, rfl, rfl, rfl, rfl⟩, Or.inr ⟨rfl, rfl, rfl, rfl⟩⟩
    · refine ⟨by decide, by decide, ?_, by decide, by decide⟩
      intro e he
      have hcases : e = (⟨"a", "f", "\x7b\"x\":1\x7d"⟩, 0) ∨ e = (⟨"b", "g", "\x7b\x7d"⟩, 1) := by
        simpa [checkingCompletion] using he
      rcases hcases with rfl | rfl
      · exact ⟨by decide, by decide, by decide⟩
      · exact ⟨by decide, by decide, by decide⟩
  exact completion_same_answer shows_checking rfl hstream "openai" 1

end Sirius
