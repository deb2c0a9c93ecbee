import SiriusGateway.Compat.Format

/-!
# `Correctness.Replay` — an assistant turn comes back the same through both formats

A client replays an assistant turn by sending it back: the message of a chat completion as a message, the
output items of a response as input items. Both become one and the same unified message, the turn's text and
its tool calls (`replay_same_turn`).

## Contents
- **The turn.** `turnMessage`, what both formats have to give back.
- **Chat completions.** `parseChatMessage_formatAssistantMessage`.
- **Responses.** The message item and the call items are folded back into one message
  (`parseInputItems_formatOutput`).
-/

namespace Sirius

open Js Compat

/-! ## The turn -/

/-- An assistant message with this content and these calls. -/
def assistantTurn (content : JsValue) (calls : Option (List UnifiedToolCall)) : UnifiedMessage where
  role := .json (.str "assistant")
  content := content
  toolCalls := calls

/-- The calls of a turn, absent when there are none. -/
def someCalls (calls : List UnifiedToolCall) : Option (List UnifiedToolCall) :=
  if calls = [] then none else some calls

/-- The unified message of an assistant turn: all its text, and its tool calls when there are any. -/
def turnMessage (content : List UnifiedContent) : UnifiedMessage :=
  assistantTurn (.json (.str (turnText content))) (someCalls (turnCalls content))

variable {content : List UnifiedContent}

/-! ## Chat completions -/

/-- A formatted tool call is parsed back. -/
theorem mapToolCall_formatToolCall {call : UnifiedToolCall} (hid : call.id ≠ .nan)
    (hname : call.function.name ≠ .nan) (hargs : call.function.arguments ≠ .nan) :
    mapToolCall (formatToolCall call) = .ok call := by
  unfold mapToolCall formatToolCall
  simp [elim_onWire hid, elim_onWire hname, elim_onWire hargs, bind, Except.bind, pure, Except.pure]

/-- The formatted tool calls of a turn are parsed back. -/
theorem mapToolCalls_formatted (htyped : Typed content) (hcalls : turnCalls content ≠ []) :
    mapToolCalls (.json (.arr ((turnCalls content).map formatToolCall))) =
      .ok (some (turnCalls content)) := by
  have hall : ((turnCalls content).map formatToolCall).mapM mapToolCall = .ok (turnCalls content) := by
    refine Except.mapM_map_eq_ok fun call hcall => ?_
    obtain ⟨hid, hname, hargs⟩ := htyped.2 call hcall
    exact mapToolCall_formatToolCall hid hname hargs
  have hlength := truthy_length_iff.mpr
    (mt List.map_eq_nil_iff.mp hcalls : (turnCalls content).map formatToolCall ≠ [])
  unfold mapToolCalls
  rw [if_pos hlength]
  show Except.bind (Except.ok ((turnCalls content).map formatToolCall)) _ = _
  simp [Except.bind, hall, bind, pure, Except.pure]

/-- An assistant message passes every check of the parser. -/
theorem parseChatMessage_assistant {message : Json} {index : Nat} (hobject : message.isObject = true)
    (hrole : message.prop "role" = .json (.str "assistant")) :
    parseChatMessage message index = mapOpenAiMessage message := by
  unfold parseChatMessage
  simp [hobject, hrole, require, JsValue.isStr, Json.truthy, bind, Except.bind]

/-- What the parser reads of an assistant message. -/
theorem mapOpenAiMessage_assistantMessage {textContent : JsValue} {toolCalls : List Json}
    {calls : Option (List UnifiedToolCall)} (hcontent : textContent ≠ .nan)
    (hcalls : mapToolCalls (if toolCalls.length > 0 then .json (.arr toolCalls) else .undefined) =
      .ok calls) :
    mapOpenAiMessage (assistantMessage textContent toolCalls) =
      .ok (assistantTurn (textContent.orElse (.json (.str ""))) calls) := by
  have htools : (assistantMessage textContent toolCalls).prop "tool_calls" =
      if toolCalls.length > 0 then .json (.arr toolCalls) else .undefined := by
    unfold assistantMessage
    split
    · simp
    · simp
  have htext : (assistantMessage textContent toolCalls).prop "content" = textContent := by
    unfold assistantMessage
    split <;> simp [elim_onWire hcontent]
  have hname : (assistantMessage textContent toolCalls).prop "name" = .undefined := by
    unfold assistantMessage
    split <;> simp
  have hrole : (assistantMessage textContent toolCalls).prop "role" = .json (.str "assistant") := by
    simp [assistantMessage]
  unfold mapOpenAiMessage
  rw [hrole, htext, hname, htools, hcalls]
  rfl

/-- **The message of a chat completion is parsed back to the turn**, at any place of a conversation. -/
theorem parseChatMessage_formatAssistantMessage (htyped : Typed content) :
    ∃ message, formatAssistantMessage content = .ok message ∧
      ∀ index, parseChatMessage message index = .ok (turnMessage content) := by
  have htext : content.foldlM appendText (.json .null) = .ok (textValue (turnText content)) := by
    have h := foldlM_appendText htyped ""
    rwa [String.empty_append] at h
  -- an empty text is sent as `null`, which is read back as the empty string
  have hcontent : (textValue (turnText content)).orElse (.json (.str "")) =
      .json (.str (turnText content)) := by
    unfold textValue
    by_cases hempty : turnText content = ""
    · rw [if_pos hempty, hempty]
      rfl
    · rw [if_neg hempty]
      rfl
  have hformat : formatAssistantMessage content = .ok (assistantMessage (textValue (turnText content))
      ((turnCalls content).map formatToolCall)) := by
    unfold formatAssistantMessage
    rw [htext]
    rfl
  refine ⟨_, hformat, fun index => ?_⟩
  have hnan : textValue (turnText content) ≠ .nan := by
    unfold textValue
    split <;> exact fun h => (nomatch h)
  have hcalls : mapToolCalls (if ((turnCalls content).map formatToolCall).length > 0 then
      .json (.arr ((turnCalls content).map formatToolCall)) else .undefined) =
      .ok (someCalls (turnCalls content)) := by
    unfold someCalls
    by_cases hnone : turnCalls content = []
    · rw [if_pos hnone, hnone]
      rfl
    · rw [if_neg hnone, if_pos (by simpa [List.length_pos_iff] using hnone)]
      exact mapToolCalls_formatted htyped hnone
  rw [parseChatMessage_assistant rfl (by simp [assistantMessage]),
    mapOpenAiMessage_assistantMessage hnan hcalls, hcontent]
  rfl

/-! ## Responses -/

/-- The loop over a joined input goes on where the first part stopped. -/
theorem parseInputItems_append_eq_ok_iff {messages after : List UnifiedMessage} {items rest : List Json}
    {index : Nat} :
    parseInputItems messages (items ++ rest) index = .ok after ↔
      ∃ ms, parseInputItems messages items index = .ok ms ∧
        parseInputItems ms rest (index + items.length) = .ok after := by
  induction items generalizing messages index with
  | nil => exact ⟨fun h => ⟨messages, rfl, h⟩, fun ⟨ms, hms, h⟩ => Except.ok.inj hms ▸ h⟩
  | cons item more ih =>
      have hindex : index + (item :: more).length = index + 1 + more.length := by
        rw [List.length_cons, Nat.add_right_comm, Nat.add_assoc]
      rw [List.cons_append, parseInputItems, parseInputItems, Except.bind_eq_ok_iff, hindex]
      constructor
      · rintro ⟨next, hitem, h⟩
        obtain ⟨ms, hmore, hrest⟩ := ih.mp h
        exact ⟨ms, Except.bind_eq_ok_iff.mpr ⟨next, hitem, hmore⟩, hrest⟩
      · rintro ⟨ms, h, hrest⟩
        obtain ⟨next, hitem, hmore⟩ := Except.bind_eq_ok_iff.mp h
        exact ⟨next, hitem, ih.mpr ⟨ms, hmore, hrest⟩⟩

/-- A call item joins the assistant message before it. -/
theorem appendResponsesFunctionCall_assistant (messages : List UnifiedMessage) (content : JsValue)
    (calls : Option (List UnifiedToolCall)) (item : Json) :
    appendResponsesFunctionCall (messages ++ [assistantTurn content calls]) item =
      messages ++ [assistantTurn content (some (calls.getD [] ++ [toolCallOf item]))] := by
  unfold appendResponsesFunctionCall
  rw [List.getLast?_concat]
  simp [assistantTurn]

/-- A call item after no assistant message starts one. -/
theorem appendResponsesFunctionCall_other {messages : List UnifiedMessage} {item : Json}
    (hlast : ∀ m ∈ messages.getLast?, m.role ≠ .json (.str "assistant")) :
    appendResponsesFunctionCall messages item =
      messages ++ [assistantTurn (.json (.str "")) (some [toolCallOf item])] := by
  unfold appendResponsesFunctionCall
  cases h : messages.getLast? with
  | none =>
      rw [List.getLast?_eq_none_iff] at h
      rw [h]
      rfl
  | some m =>
      have hm : m.role ≠ .json (.str "assistant") := hlast m h
      simp [hm, toolCallMessage, assistantTurn]

/-- A formatted call item is a call item of the call. -/
theorem parseInputItem_formatFunctionCall (messages : List UnifiedMessage) {call : UnifiedToolCall}
    (uuid : String) (index : Nat) (hid : call.id ≠ .nan) (hname : call.function.name ≠ .nan)
    (hargs : call.function.arguments ≠ .nan) :
    parseInputItem messages (formatFunctionCall uuid call) index =
        .ok (appendResponsesFunctionCall messages (formatFunctionCall uuid call)) ∧
      toolCallOf (formatFunctionCall uuid call) = call := by
  obtain ⟨id, name, arguments⟩ := call
  constructor
  · unfold parseInputItem formatFunctionCall
    simp [require, bind, Except.bind, pure, Except.pure]
  · unfold toolCallOf formatFunctionCall
    simp [elim_onWire hid, elim_onWire hname, elim_onWire hargs]

/-- Further call items extend the calls of the turn. -/
theorem parseInputItems_moreCalls (messages : List UnifiedMessage) (content : JsValue)
    (uuid : Nat → String) {es : List (UnifiedToolCall × Nat)}
    (hes : ∀ e ∈ es, e.1.id ≠ .nan ∧ e.1.function.name ≠ .nan ∧ e.1.function.arguments ≠ .nan)
    (calls : List UnifiedToolCall) (index : Nat) :
    parseInputItems (messages ++ [assistantTurn content (some calls)])
        (es.map fun e => formatFunctionCall (uuid e.2) e.1) index =
      .ok (messages ++ [assistantTurn content (some (calls ++ es.map Prod.fst))]) := by
  -- the turn stays the last message, so every item joins it
  induction es generalizing calls index with
  | nil => simp [parseInputItems]
  | cons e rest ih =>
      obtain ⟨hid, hname, hargs⟩ := hes e List.mem_cons_self
      obtain ⟨hitem, hcall⟩ := parseInputItem_formatFunctionCall
        (messages ++ [assistantTurn content (some calls)]) (uuid e.2) index hid hname hargs
      rw [List.map_cons, parseInputItems, hitem]
      show parseInputItems (appendResponsesFunctionCall _ _) _ (index + 1) = _
      rw [appendResponsesFunctionCall_assistant, hcall, Option.getD_some,
        ih (fun e' h => hes e' (List.mem_cons_of_mem _ h)), List.append_assoc]
      rfl

/-- The call items after a message without calls give it its calls. -/
theorem parseInputItems_calls (messages : List UnifiedMessage) (content : JsValue)
    (uuid : Nat → String) {es : List (UnifiedToolCall × Nat)}
    (hes : ∀ e ∈ es, e.1.id ≠ .nan ∧ e.1.function.name ≠ .nan ∧ e.1.function.arguments ≠ .nan)
    (index : Nat) :
    parseInputItems (messages ++ [assistantTurn content none])
        (es.map fun e => formatFunctionCall (uuid e.2) e.1) index =
      .ok (messages ++ [assistantTurn content (someCalls (es.map Prod.fst))]) := by
  cases es with
  | nil => rfl
  | cons e rest =>
      obtain ⟨hid, hname, hargs⟩ := hes e List.mem_cons_self
      obtain ⟨hitem, hcall⟩ := parseInputItem_formatFunctionCall
        (messages ++ [assistantTurn content none]) (uuid e.2) index hid hname hargs
      rw [List.map_cons, parseInputItems, hitem]
      show parseInputItems (appendResponsesFunctionCall _ _) _ (index + 1) = _
      rw [appendResponsesFunctionCall_assistant, hcall]
      exact parseInputItems_moreCalls messages content uuid
        (fun e' h => hes e' (List.mem_cons_of_mem _ h)) [e.1] (index + 1)

/-- A formatted text part is read back as its text. -/
theorem partText_formatTextPart {s : String} (hs : s ≠ "") :
    partText (formatTextPart (.json (.str s))) = some s := by
  unfold partText formatTextPart
  simp [hs]

theorem Compat.Typed.tail {item : UnifiedContent} (htyped : Typed (item :: content)) : Typed content := by
  refine ⟨fun text h => htyped.1 text (List.mem_cons_of_mem _ h), fun call h => htyped.2 call ?_⟩
  unfold turnCalls at h ⊢
  exact (List.sublist_cons_self item content).filterMap itemCall |>.subset h

/-- **The text parts carry all the text**, and there are some exactly when there is any. -/
theorem textParts_spec (htyped : Typed content) :
    "".intercalate ((textParts content).filterMap partText) = turnText content ∧
      (textParts content = [] ↔ turnText content = "") := by
  induction content with
  | nil => exact ⟨rfl, by simp [textParts, turnText]⟩
  | cons item rest ih =>
      obtain ⟨htext, hnil⟩ := ih htyped.tail
      cases item with
      | toolCall call => exact ⟨htext, hnil⟩
      | text text =>
          rcases htyped.1 text List.mem_cons_self with rfl | hstr
          · exact ⟨htext, hnil⟩
          · obtain ⟨s, rfl⟩ := isString_iff.mp hstr
            have hturn : turnText (.text (.json (.str s)) :: rest) = s ++ turnText rest :=
              intercalate_cons _ _
            rw [hturn]
            by_cases hs : s = ""
            -- an empty text becomes no part
            · subst hs
              rw [String.empty_append]
              exact ⟨htext, hnil⟩
            · have hparts : textParts (.text (.json (.str s)) :: rest) =
                  formatTextPart (.json (.str s)) :: textParts rest := by
                unfold textParts
                rw [List.filterMap_cons_some]
                simp [Json.truthy, hs]
              rw [hparts, List.filterMap_cons_some (partText_formatTextPart hs), intercalate_cons, htext]
              exact ⟨rfl, by simp [hs]⟩

/-- The formatted message item is an assistant message with the text of its parts. -/
theorem parseInputItem_formatMessageItem (messages : List UnifiedMessage) (uuid : String)
    (parts : List Json) (index : Nat) :
    parseInputItem messages (formatMessageItem uuid parts) index =
      .ok (messages ++
        [assistantTurn (.json (.str ("".intercalate (parts.filterMap partText)))) none]) := by
  unfold parseInputItem formatMessageItem assistantTurn
  simp [require, mapResponsesInputItem, bind, Except.bind, pure, Except.pure]

/-- **The output items are folded back into the turn**, after any message that is not an assistant's. -/
theorem parseInputItems_formatOutput (htyped : Typed content)
    (hsome : turnText content ≠ "" ∨ turnCalls content ≠ []) {messages : List UnifiedMessage}
    (hlast : ∀ m ∈ messages.getLast?, m.role ≠ .json (.str "assistant")) (uuid : Nat → String)
    (index : Nat) :
    parseInputItems messages (formatOutput uuid content) index =
      .ok (messages ++ [turnMessage content]) := by
  obtain ⟨htext, hnil⟩ := textParts_spec htyped
  have hfields : ∀ e ∈ (turnCalls content).zipIdx, e.1.id ≠ .nan ∧ e.1.function.name ≠ .nan ∧
      e.1.function.arguments ≠ .nan :=
    fun e he => htyped.2 e.1 (List.fst_mem_of_mem_zipIdx he)
  have hcalls : (turnCalls content).zipIdx.map Prod.fst = turnCalls content := List.zipIdx_map_fst ..
  unfold formatOutput turnMessage
  generalize (turnCalls content).zipIdx = es at hfields hcalls ⊢
  by_cases hempty : turnText content = ""
  · -- no message item: the first call starts the turn
    rw [if_neg (by rw [hnil.mpr hempty]; exact Nat.not_lt_zero 0), hempty]
    have hne : turnCalls content ≠ [] := hsome.resolve_left fun h => h hempty
    cases es with
    | nil => exact absurd hcalls.symm hne
    | cons e rest =>
        obtain ⟨hid, hname, hargs⟩ := hfields e List.mem_cons_self
        obtain ⟨hitem, hcall⟩ :=
          parseInputItem_formatFunctionCall messages (uuid e.2) index hid hname hargs
        rw [List.map_cons, parseInputItems, hitem]
        show parseInputItems (appendResponsesFunctionCall _ _) _ (index + 1) = _
        rw [appendResponsesFunctionCall_other hlast, hcall, ← hcalls]
        exact parseInputItems_moreCalls messages (.json (.str "")) uuid
          (fun e' h => hfields e' (List.mem_cons_of_mem _ h)) [e.1] (index + 1)
  · -- the message item starts the turn, and every call joins it
    rw [if_pos (List.length_pos_iff.mpr fun h => hempty (hnil.mp h)), parseInputItems,
      parseInputItem_formatMessageItem, htext, ← hcalls]
    exact parseInputItems_calls messages _ uuid hfields (index + 1)

/-! ## Replaying the turn -/

/-- The input item is an assistant's: a tool call, or a message in that role. -/
def IsAssistantItem (item : Json) : Prop :=
  item.prop "type" = .json (.str "function_call") ∨
    (item.prop "type" ≠ .json (.str "function_call_output") ∧
      item.prop "role" = .json (.str "assistant"))

/-- The message of an item that is no assistant's is no assistant's. -/
theorem last_of_not_isAssistantItem {messages after : List UnifiedMessage} {item : Json} {index : Nat}
    (hother : ¬ IsAssistantItem item) (h : parseInputItem messages item index = .ok after) :
    ∀ m ∈ after.getLast?, m.role ≠ .json (.str "assistant") := by
  obtain ⟨hcall, hmessage⟩ := not_or.mp hother
  unfold parseInputItem at h
  simp only [Except.bind_eq_ok_iff, require_eq_ok_iff] at h
  obtain ⟨-, -, h⟩ := h
  rw [if_neg (fun hstr => hcall (isStr_iff.mp hstr))] at h
  obtain ⟨message, hmap, h⟩ := Except.bind_eq_ok_iff.mp h
  obtain rfl := Except.ok.inj h
  intro m hm
  rw [List.getLast?_concat, Option.mem_some_iff] at hm
  subst hm
  unfold mapResponsesInputItem at hmap
  split at hmap
  · obtain rfl := Except.ok.inj hmap
    exact fun hrole => by simp at hrole
  · rename_i houtput
    have hrole : item.prop "role" ≠ .json (.str "assistant") := fun hrole =>
      hmessage ⟨fun htype => houtput (isStr_iff.mpr htype), hrole⟩
    -- `developer` is renamed to `system`, every other role is kept
    have hkept : (if (item.prop "role").isStr "developer" then .json (.str "system")
        else item.prop "role") ≠ JsValue.json (.str "assistant") := by
      split
      · exact fun h => by simp at h
      · exact hrole
    simp only at hmap
    split at hmap
    · obtain rfl := Except.ok.inj hmap
      exact hkept
    · obtain rfl := Except.ok.inj hmap
      exact hkept
    · cases hmap

/-- **An assistant turn comes back the same through both formats.** Its message is accepted anywhere in a
    chat body, its output items after any item of a Responses body that is no assistant's, and both become
    `turnMessage` and nothing else. -/
theorem replay_same_turn {response : UnifiedAiResponse} (htyped : Typed response.content)
    (hsome : turnText response.content ≠ "" ∨ turnCalls response.content ≠ []) (uuid : Nat → String)
    (created : Nat) (requestId : String) :
    ∃ completion message output,
      formatChatCompletionResponse uuid created response = .ok completion ∧
      choiceMessage completion = .json message ∧
      (formatResponsesResponse uuid created response).prop "output" = .json (.arr output) ∧
      (∀ index, parseChatMessage message index = .ok (turnMessage response.content)) ∧
      (∀ body request before after, body.prop "messages" = .json (.arr (before ++ message :: after)) →
        parseChatCompletionRequest body requestId = .ok request →
        ∃ ms ms', request.messages = ms ++ turnMessage response.content :: ms' ∧
          ms.length = before.length ∧ ms'.length = after.length) ∧
      (∀ messages messages' item index, ¬ IsAssistantItem item →
        parseInputItem messages item index = .ok messages' →
        parseInputItems messages' output (index + 1) = .ok (messages' ++ [turnMessage response.content])) ∧
      (∀ body request before item after,
        body.prop "input" = .json (.arr (before ++ item :: output ++ after)) → ¬ IsAssistantItem item →
        parseResponsesRequest body requestId = .ok request →
        ∃ ms, parseInputItems (instructionMessages (body.prop "instructions")) (before ++ [item]) 0 = .ok ms ∧
          parseInputItems (ms ++ [turnMessage response.content]) after
            (before.length + 1 + output.length) = .ok request.messages) := by
  obtain ⟨message, hformat, hparse⟩ := parseChatMessage_formatAssistantMessage htyped
  have hturn : ∀ (messages messages' : List UnifiedMessage) (item : Json) (index : Nat),
      ¬ IsAssistantItem item → parseInputItem messages item index = .ok messages' →
      parseInputItems messages' (formatOutput uuid response.content) (index + 1) =
        .ok (messages' ++ [turnMessage response.content]) :=
    fun messages messages' item index hother hitem =>
      parseInputItems_formatOutput htyped hsome (last_of_not_isAssistantItem hother hitem) uuid _
  refine ⟨_, message, formatOutput uuid response.content,
    by rw [formatChatCompletionResponse, hformat]; rfl, by simp [choiceMessage],
    by simp [formatResponsesResponse], hparse, ?_, hturn, ?_⟩
  · intro body request before after hbody haccepted
    obtain ⟨items, hitems, hmessages, -⟩ := of_parseChatCompletionRequest haccepted
    obtain rfl : before ++ message :: after = items := by simpa using hbody.symm.trans hitems
    rw [List.zipIdx_append, List.zipIdx_cons] at hmessages
    obtain ⟨ms, rest, hbefore, hrest, heq⟩ := Except.mapM_append_eq_ok_iff.mp hmessages
    obtain ⟨turn, ms', hmessage, hafter, rfl⟩ := Except.mapM_cons_eq_ok_iff.mp hrest
    obtain rfl : turnMessage response.content = turn := Except.ok.inj ((hparse _).symm.trans hmessage)
    refine ⟨ms, ms', heq, ?_, ?_⟩
    · rw [Except.length_of_mapM_eq_ok hbefore, List.length_zipIdx]
    · rw [Except.length_of_mapM_eq_ok hafter, List.length_zipIdx]
  · intro body request before item after hbody hother haccepted
    obtain ⟨hinput, -⟩ := of_parseResponsesRequest haccepted
    rw [hbody] at hinput
    have hitems : parseInputItems (instructionMessages (body.prop "instructions"))
        ((before ++ [item]) ++ (formatOutput uuid response.content ++ after)) 0 = .ok request.messages := by
      rw [← hinput, List.append_assoc, List.append_assoc, List.cons_append]
      rfl
    obtain ⟨ms, hms, hreplay⟩ := parseInputItems_append_eq_ok_iff.mp hitems
    obtain ⟨ms', houtput, hafter⟩ := parseInputItems_append_eq_ok_iff.mp hreplay
    -- the message before the turn is that of `item`
    obtain ⟨ms₀, -, hlast⟩ := parseInputItems_append_eq_ok_iff.mp hms
    obtain ⟨ms₁, hitem, hone⟩ := Except.bind_eq_ok_iff.mp hlast
    obtain rfl : ms₁ = ms := Except.ok.inj hone
    rw [List.length_append, List.length_singleton, Nat.zero_add] at houtput hafter
    have hsame := hturn ms₀ ms₁ item before.length hother (by rwa [Nat.zero_add] at hitem)
    obtain rfl : ms₁ ++ [turnMessage response.content] = ms' :=
      Except.ok.inj (hsame.symm.trans houtput)
    exact ⟨ms₁, hms, hafter⟩

/-- A turn with a tool call between two pieces of text. -/
def toolTurn : UnifiedAiResponse where
  id := .json (.str "r")
  model := .json (.str "m")
  provider := "p"
  content := [.text (.json (.str "a")),
    .toolCall ⟨.json (.str "c"), ⟨.json (.str "f"), .json (.str "\x7b\x7d")⟩⟩, .text (.json (.str "b"))]
  finishReason := "tool_calls"
  usage := ⟨.json (.num 1), .json (.num 1), .json (.num 2)⟩
  latencyMs := 0

theorem toolTurn_typed : Typed toolTurn.content := by
  constructor
  · intro text h
    rcases List.mem_cons.mp h with h | h
    · cases h
      exact Or.inr rfl
    · simp at h
      subst h
      exact Or.inr rfl
  · intro call h
    obtain rfl := List.mem_singleton.mp h
    exact ⟨fun h => (nomatch h), fun h => (nomatch h), fun h => (nomatch h)⟩

theorem replay_same_turn_toolTurn :
    ∃ completion message, formatChatCompletionResponse (fun _ => "u") 0 toolTurn = .ok completion ∧
      choiceMessage completion = .json message ∧
      ∀ index, parseChatMessage message index =
        .ok (assistantTurn (.json (.str "ab")) (some [⟨.json (.str "c"),
          ⟨.json (.str "f"), .json (.str "\x7b\x7d")⟩⟩])) := by
  obtain ⟨completion, message, -, hcompletion, hmessage, -, hparse, -⟩ :=
    replay_same_turn toolTurn_typed (Or.inr (List.cons_ne_nil _ _)) (fun _ => "u") 0 "q"
  have hturn : turnMessage toolTurn.content = assistantTurn (.json (.str "ab"))
      (some [⟨.json (.str "c"), ⟨.json (.str "f"), .json (.str "\x7b\x7d")⟩⟩]) := by decide
  rw [hturn] at hparse
  exact ⟨completion, message, hcompletion, hmessage, hparse⟩

end Sirius
