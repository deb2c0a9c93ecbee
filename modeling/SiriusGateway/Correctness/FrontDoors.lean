import SiriusGateway.Compat.ChatBody
import SiriusGateway.Correctness.OpenAiStream
import SiriusGateway.Correctness.Replay
import SiriusGateway.Correctness.ResponsesInput

/-!
# `Correctness.FrontDoors` — one conversation through either endpoint

A conversation in plain text can be sent to `/v1/chat/completions` as messages and to `/v1/responses` as input
items. Both become one unified request, unless an assistant turn of nothing but function calls is sent as items
right behind another assistant turn: those calls join the turn before (`front_doors_agree`).

## Contents
- **Conversations.** `TextTurn` and its unified message.
- **Chat completions.** A message that shows a turn is parsed to its message (`parseChatMessage_shows`).
- **Responses.** The items of a turn (`SentTurn`), and which turns join the one before (`joins`).
- **Result.**
-/

namespace Sirius

open Js Compat

/-! ## Conversations -/

/-- A turn of a conversation. -/
inductive TextTurn where
  | system (text : String)
  | user (text : String)
  | assistant (text : String) (calls : List CompletionCall)
  | tool (callId output : String)
  deriving DecidableEq

/-- The call as a unified message has it. -/
def CompletionCall.unified (call : CompletionCall) : UnifiedToolCall :=
  ⟨.json (.str call.id), ⟨.json (.str call.name), .json (.str call.arguments)⟩⟩

/-- The unified message of the turn. -/
def TextTurn.message : TextTurn → UnifiedMessage
  | .system text => { role := .json (.str "system"), content := .json (.str text) }
  | .user text => { role := .json (.str "user"), content := .json (.str text) }
  | .assistant text calls => assistantTurn (.json (.str text)) (someCalls (calls.map CompletionCall.unified))
  | .tool callId output =>
      { role := .json (.str "tool"), content := .json (.str output), toolCallId := .json (.str callId) }

/-- It is an assistant's turn. -/
def TextTurn.isAssistant : TextTurn → Bool
  | .assistant _ _ => true
  | _ => false

/-! ## Chat completions -/

/-- The message of a chat body is the turn. An assistant's empty text may be left out, and so may an empty list of
    calls. -/
inductive ChatShows (msg : Json) : TextTurn → Prop
  | system {text : String} (hrole : HasRole msg "system") (htext : msg.prop "content" = .json (.str text))
      (hname : (msg.prop "name").truthy = false) : ChatShows msg (.system text)
  | user {text : String} (hrole : HasRole msg "user") (htext : msg.prop "content" = .json (.str text))
      (hname : (msg.prop "name").truthy = false) : ChatShows msg (.user text)
  | assistant {text : String} {calls : List CompletionCall} (hrole : HasRole msg "assistant")
      (htext : msg.prop "content" = .json (.str text) ∨ (text = "" ∧ (msg.prop "content").isNullish = true))
      (hcalls : (∃ items, msg.prop "tool_calls" = .json (.arr items) ∧
          List.Forall₂ CompletionCall.Shows calls items) ∨
        (calls = [] ∧ (msg.prop "tool_calls").isNullish = true))
      (hname : (msg.prop "name").truthy = false) : ChatShows msg (.assistant text calls)
  | tool {callId output : String} (hrole : HasRole msg "tool") (htext : msg.prop "content" = .json (.str output))
      (hid : msg.prop "tool_call_id" = .json (.str callId)) : ChatShows msg (.tool callId output)

/-- What has a string for a property is an object. -/
theorem isObject_of_prop {item : Json} {key value : String} (h : item.prop key = .json (.str value)) :
    item.isObject = true := by
  cases item with
  | obj fields => rfl
  | arr items => rfl
  | str s =>
      by_cases hkey : key = "length"
      · simp [Json.prop, hkey] at h
      · simp [Json.prop, hkey] at h
  | null => simp [Json.prop] at h
  | bool b => simp [Json.prop] at h
  | num q => simp [Json.prop] at h

theorem whenTruthy_of_falsy {v : JsValue} (h : v.truthy = false) : v.whenTruthy = .undefined := by
  unfold JsValue.whenTruthy
  rw [if_neg (by rw [h]; decide)]

theorem mapToolCall_shows {call : CompletionCall} {tc : Json} (h : call.Shows tc) :
    mapToolCall tc = .ok call.unified := by
  have hfunction : (tc.prop "function").isNullish = false := by
    cases hfn : tc.prop "function" with
    | json fn =>
        cases fn with
        | null =>
            have hname := h.name
            rw [hfn] at hname
            cases hname
        | _ => rfl
    | nan => rfl
    | undefined =>
        have hname := h.name
        rw [hfn] at hname
        cases hname
  unfold mapToolCall
  rw [getProp_json "id" h.object, getProp_json "function" h.object]
  simp only [Except.ok_bind]
  rw [getProp_eq "name" hfunction]
  simp only [Except.ok_bind, h.id, h.name, h.arguments]
  rfl

theorem mapToolCalls_shows {calls : List CompletionCall} {toolCalls : JsValue}
    (h : (∃ items, toolCalls = .json (.arr items) ∧ List.Forall₂ CompletionCall.Shows calls items) ∨
      (calls = [] ∧ toolCalls.isNullish = true)) :
    mapToolCalls toolCalls = .ok (someCalls (calls.map CompletionCall.unified)) := by
  rcases h with ⟨items, rfl, hitems⟩ | ⟨rfl, hnone⟩
  · have hall : items.mapM mapToolCall = .ok (calls.map CompletionCall.unified) := by
      induction hitems with
      | nil => rfl
      | cons hcall hrest ih => exact Except.mapM_cons_eq_ok_iff.mpr ⟨_, _, mapToolCall_shows hcall, ih, rfl⟩
    unfold mapToolCalls someCalls
    cases hitems with
    | nil => rfl
    | @cons call tc calls items hcall hrest =>
        rw [if_pos (truthy_length_iff.mpr (List.cons_ne_nil tc items)), if_neg (by simp)]
        show Except.bind (Except.ok (tc :: items)) _ = _
        simp only [Except.bind, hall]
        rfl
  · unfold mapToolCalls
    cases toolCalls with
    | undefined => rfl
    | nan => cases hnone
    | json j =>
        cases j with
        | null => rfl
        | _ => cases hnone

/-- **A message that shows a turn** is parsed to the message of the turn. -/
theorem parseChatMessage_shows {msg : Json} {turn : TextTurn} (h : ChatShows msg turn) (index : Nat) :
    parseChatMessage msg index = .ok turn.message := by
  cases h with
  | system hrole htext hname =>
      have hrole' : msg.prop "role" = .json (.str "system") := hrole
      unfold parseChatMessage mapOpenAiMessage
      simp [isObject_of_prop hrole', hrole', htext, whenTruthy_of_falsy hname, require, JsValue.isStr, Json.truthy,
        JsValue.isNullish, bind, Except.bind, TextTurn.message]
  | user hrole htext hname =>
      have hrole' : msg.prop "role" = .json (.str "user") := hrole
      unfold parseChatMessage mapOpenAiMessage mapUserContent
      simp [isObject_of_prop hrole', hrole', htext, whenTruthy_of_falsy hname, require, JsValue.isStr, Json.truthy,
        JsValue.isNullish, JsValue.isString, bind, Except.bind, pure, Except.pure, TextTurn.message]
  | @assistant text calls hrole htext hcalls hname =>
      have hrole' : msg.prop "role" = .json (.str "assistant") := hrole
      have hcontent : (msg.prop "content").orElse (.json (.str "")) = .json (.str text) := by
        rcases htext with htext | ⟨rfl, hnone⟩
        · rw [htext]
          rfl
        · unfold JsValue.orElse
          rw [if_pos hnone]
      rw [parseChatMessage_assistant (isObject_of_prop hrole') hrole']
      unfold mapOpenAiMessage
      simp [hrole', mapToolCalls_shows hcalls, hcontent, whenTruthy_of_falsy hname, JsValue.isStr, bind, Except.bind,
        pure, Except.pure, TextTurn.message, assistantTurn]
  | tool hrole htext hid =>
      have hrole' : msg.prop "role" = .json (.str "tool") := hrole
      unfold parseChatMessage mapOpenAiMessage
      simp [isObject_of_prop hrole', hrole', htext, hid, require, JsValue.isStr, Json.truthy, JsValue.isNullish, bind,
        Except.bind, TextTurn.message]

/-! ## Responses -/

/-- The item is the call. -/
structure CallItem (call : CompletionCall) (item : Json) : Prop where
  type : IsFunctionCall item
  callId : item.prop "call_id" = .json (.str call.id)
  name : item.prop "name" = .json (.str call.name)
  arguments : item.prop "arguments" = .json (.str call.arguments)

/-- The item is a message of the role with this text, as a string or in parts. -/
structure MessageItem (item : Json) (role text : String) : Prop where
  notCall : ¬IsFunctionCall item
  notOutput : item.prop "type" ≠ .json (.str "function_call_output")
  role : item.prop "role" = .json (.str role)
  text : ItemText (item.prop "content") text

/-- The input items of a turn: a message with the calls behind it, the calls alone, or the output of a call. -/
inductive ItemsShow : List Json → TextTurn → Prop
  | system {item : Json} {text : String} (h : MessageItem item "system" text ∨ MessageItem item "developer" text) :
      ItemsShow [item] (.system text)
  | user {item : Json} {text : String} (h : MessageItem item "user" text) : ItemsShow [item] (.user text)
  | assistant {item : Json} {text : String} {calls : List CompletionCall} {items : List Json}
      (h : MessageItem item "assistant" text) (hcalls : List.Forall₂ CallItem calls items) :
      ItemsShow (item :: items) (.assistant text calls)
  | callsOnly {calls : List CompletionCall} {items : List Json} (hne : calls ≠ [])
      (hcalls : List.Forall₂ CallItem calls items) : ItemsShow items (.assistant "" calls)
  | tool {item : Json} {callId output : String} (htype : item.prop "type" = .json (.str "function_call_output"))
      (hid : item.prop "call_id" = .json (.str callId)) (houtput : item.prop "output" = .json (.str output)) :
      ItemsShow [item] (.tool callId output)

/-- A turn with its items. -/
structure SentTurn where
  turn : TextTurn
  items : List Json
  shows_turn : ItemsShow items turn

/-- The turn is sent as function calls alone. -/
def SentTurn.callsOnly (sent : SentTurn) : Bool := sent.items.head?.any fun item => decide (IsFunctionCall item)

/-- How many turns are sent as function calls alone right behind an assistant turn; `behind` says whether the first
    one is. -/
def joins : Bool → List SentTurn → Nat
  | _, [] => 0
  | behind, sent :: rest =>
      (if behind && sent.callsOnly then 1 else 0) + joins sent.turn.isAssistant rest

/-- **No turn of function calls alone** is sent right behind an assistant turn. -/
def Separated (conversation : List SentTurn) : Prop :=
  List.IsChain (fun before sent => ¬(before.turn.isAssistant = true ∧ sent.callsOnly = true)) conversation

theorem joins_eq_zero_iff {conversation : List SentTurn} : joins false conversation = 0 ↔ Separated conversation := by
  have hbehind : ∀ (conversation : List SentTurn) (behind : SentTurn),
      joins behind.turn.isAssistant conversation = 0 ↔ Separated (behind :: conversation) := by
    intro conversation
    induction conversation with
    | nil => exact fun behind => iff_of_true rfl (List.IsChain.singleton _)
    | cons sent rest ih =>
        intro behind
        unfold Separated
        rw [joins, Nat.add_eq_zero_iff, ih sent, List.isChain_cons_cons]
        refine and_congr ?_ Iff.rfl
        cases behind.turn.isAssistant <;> cases sent.callsOnly <;> simp
  cases conversation with
  | nil => exact iff_of_true rfl List.IsChain.nil
  | cons sent rest =>
      rw [joins, Bool.false_and]
      simpa using hbehind rest sent

/-- The messages end with an assistant's. -/
def endsInAssistant (messages : List UnifiedMessage) : Bool :=
  messages.getLast?.any fun message => message.role.isStr "assistant"

theorem endsInAssistant_concat (messages : List UnifiedMessage) (message : UnifiedMessage) :
    endsInAssistant (messages ++ [message]) = message.role.isStr "assistant" := by
  simp [endsInAssistant]

theorem askedCall_shows {call : CompletionCall} {item : Json} (h : CallItem call item) :
    askedCall item = call.unified := by
  unfold askedCall CompletionCall.unified
  rw [h.callId, h.name, h.arguments]

theorem map_askedCall {calls : List CompletionCall} {items : List Json} (h : List.Forall₂ CallItem calls items) :
    items.map askedCall = calls.map CompletionCall.unified := by
  induction h with
  | nil => rfl
  | cons hcall hrest ih => rw [List.map_cons, List.map_cons, askedCall_shows hcall, ih]

/-- The loop over function calls. -/
theorem parseInputItems_calls_eq {calls : List CompletionCall} {items : List Json}
    (h : List.Forall₂ CallItem calls items) (before : List UnifiedMessage) (index : Nat) :
    parseInputItems before items index = .ok (items.foldl appendResponsesFunctionCall before) := by
  induction h generalizing before index with
  | nil => rfl
  | @cons call item calls items hcall hrest ih =>
      have htype : (item.prop "type").isStr "function_call" = true := isStr_iff.mpr hcall.type
      have hitem : parseInputItem before item index = .ok (appendResponsesFunctionCall before item) := by
        unfold parseInputItem
        rw [isObject_of_prop hcall.callId, if_pos htype]
        rfl
      rw [parseInputItems, hitem]
      exact ih _ _

/-- A call that joins the last message leaves the others, and the last one an assistant's. -/
theorem append_joins {before : List UnifiedMessage} (h : endsInAssistant before = true) (item : Json) :
    (appendResponsesFunctionCall before item).length = before.length ∧
      endsInAssistant (appendResponsesFunctionCall before item) = true := by
  unfold endsInAssistant at h
  cases hlast : before.getLast? with
  | none =>
      rw [hlast] at h
      cases h
  | some last =>
      rw [hlast] at h
      have hrole : last.role.isStr "assistant" = true := h
      have hne : before ≠ [] := by
        rintro rfl
        cases hlast
      unfold appendResponsesFunctionCall
      simp only [hlast, hrole, if_true]
      constructor
      · rw [List.length_append, List.length_dropLast, List.length_singleton]
        exact Nat.sub_add_cancel (List.length_pos_iff.mpr hne)
      · rw [endsInAssistant_concat]
        exact hrole

theorem foldl_joins {before : List UnifiedMessage} (h : endsInAssistant before = true) (items : List Json) :
    (items.foldl appendResponsesFunctionCall before).length = before.length ∧
      endsInAssistant (items.foldl appendResponsesFunctionCall before) = true := by
  induction items generalizing before with
  | nil => exact ⟨rfl, h⟩
  | cons item items ih =>
      obtain ⟨hlength, hends⟩ := append_joins h item
      obtain ⟨hlength', hends'⟩ := ih hends
      exact ⟨hlength'.trans hlength, hends'⟩

/-- The loop on a message item. -/
theorem parseInputItem_message {item : Json} {role text : String} (h : MessageItem item role text)
    (before : List UnifiedMessage) (index : Nat) :
    parseInputItem before item index = .ok (before ++ [{
      role := .json (.str (if role = "developer" then "system" else role))
      content := .json (.str text) }]) := by
  have hcall : (item.prop "type").isStr "function_call" = false :=
    Bool.eq_false_iff.mpr fun htype => h.notCall (isStr_iff.mp htype)
  have houtput : (item.prop "type").isStr "function_call_output" = false :=
    Bool.eq_false_iff.mpr fun htype => h.notOutput (isStr_iff.mp htype)
  have hmessage : mapResponsesInputItem item index = .ok {
      role := .json (.str (if role = "developer" then "system" else role))
      content := .json (.str text) } := by
    unfold mapResponsesInputItem
    rw [houtput, h.role]
    have hrole : (if (JsValue.json (.str role)).isStr "developer" = true then JsValue.json (.str "system")
        else .json (.str role)) = .json (.str (if role = "developer" then "system" else role)) := by
      by_cases hdev : role = "developer"
      · rw [if_pos (isStr_iff.mpr (by rw [hdev])), if_pos hdev]
      · rw [if_neg (fun hstr => hdev (Json.str.inj (JsValue.json.inj (isStr_iff.mp hstr)))), if_neg hdev]
    simp only [Bool.false_eq_true, if_false, hrole]
    have htext := h.text
    generalize item.prop "content" = content at htext
    cases htext with
    | string s => rfl
    | parts parts => rfl
  unfold parseInputItem
  rw [isObject_of_prop h.role, hcall, hmessage]
  rfl

/-- **The items of a turn** behind messages they do not join become the message of the turn. -/
theorem parseInputItems_sent (sent : SentTurn) (before : List UnifiedMessage) (index : Nat)
    (h : (endsInAssistant before && sent.callsOnly) = false) :
    parseInputItems before sent.items index = .ok (before ++ [sent.turn.message]) := by
  obtain ⟨turn, items, hshows⟩ := sent
  cases hshows with
  | @system item text hmessage =>
      show parseInputItems before [item] index = _
      -- the role may be `system` or `developer`
      rcases hmessage with hmessage | hmessage
      · rw [parseInputItems, parseInputItem_message hmessage]
        rfl
      · rw [parseInputItems, parseInputItem_message hmessage]
        rfl
  | @user item text hmessage =>
      show parseInputItems before [item] index = _
      rw [parseInputItems, parseInputItem_message hmessage]
      rfl
  | @assistant item text calls items hmessage hcalls =>
      show parseInputItems before (item :: items) index = _
      rw [parseInputItems, parseInputItem_message hmessage]
      show parseInputItems (before ++ [assistantTurn (.json (.str text)) none]) items (index + 1) = _
      -- the calls behind the text join the turn it has just made
      rw [parseInputItems_calls_eq hcalls, foldl_withCalls before rfl]
      unfold withCalls
      have hunified := map_askedCall hcalls
      cases hcalls with
      | nil => rfl
      | @cons call item calls items hcall hrest =>
          rw [if_neg (List.cons_ne_nil item items),
            if_pos (show (assistantTurn (.json (.str text)) none).role = .json (.str "assistant") from rfl), hunified]
          rfl
  | @callsOnly calls items hne hcalls =>
      show parseInputItems before items index = _
      have hfirst : (SentTurn.mk (.assistant "" calls) items (.callsOnly hne hcalls)).callsOnly = true := by
        unfold SentTurn.callsOnly
        cases hcalls with
        | nil => exact absurd rfl hne
        | cons hcall hrest => simp [hcall.type]
      rw [hfirst, Bool.and_true] at h
      -- no assistant turn stands in front, so the first call makes one
      rw [parseInputItems_calls_eq hcalls, foldl_newTurn]
      · have hunified := map_askedCall hcalls
        cases hcalls with
        | nil => exact absurd rfl hne
        | @cons call item calls items hcall hrest =>
            unfold newTurn
            simp only [hunified]
            rfl
      · intro last hlast hrole
        unfold endsInAssistant at h
        rw [Option.mem_def.mp hlast] at h
        exact Bool.eq_false_iff.mp h (isStr_iff.mpr hrole)
  | @tool item callId output htype hid houtput =>
      show parseInputItems before [item] index = _
      have hcall : (item.prop "type").isStr "function_call" = false := by
        rw [htype]
        decide
      have hitem : parseInputItem before item index = .ok (before ++ [(TextTurn.tool callId output).message]) := by
        unfold parseInputItem mapResponsesInputItem
        rw [isObject_of_prop hid, hcall, if_pos (isStr_iff.mpr htype), hid, houtput]
        rfl
      rw [parseInputItems, hitem]
      rfl

/-- The items of a turn that joins the turn before leave as many messages. -/
theorem parseInputItems_joining (sent : SentTurn) {before : List UnifiedMessage} (index : Nat)
    (h : (endsInAssistant before && sent.callsOnly) = true) :
    sent.turn.isAssistant = true ∧ ∃ after, parseInputItems before sent.items index = .ok after ∧
      after.length = before.length ∧ endsInAssistant after = true := by
  obtain ⟨hends, honly⟩ := Bool.and_eq_true_iff.mp h
  obtain ⟨turn, items, hshows⟩ := sent
  have hmessage : ∀ {item : Json} {rest : List Json}, ¬IsFunctionCall item →
      ((item :: rest).head?.any fun item => decide (IsFunctionCall item)) = true → False := by
    intro item rest hnot hany
    simp at hany
    exact hnot hany
  cases hshows with
  | system hor =>
      rcases hor with hitem | hitem
      · exact (hmessage hitem.notCall honly).elim
      · exact (hmessage hitem.notCall honly).elim
  | user hitem => exact (hmessage hitem.notCall honly).elim
  | assistant hitem hcalls => exact (hmessage hitem.notCall honly).elim
  | callsOnly hne hcalls =>
      obtain ⟨hlength, hends'⟩ := foldl_joins hends items
      exact ⟨rfl, _, parseInputItems_calls_eq hcalls before index, hlength, hends'⟩
  | tool htype hid houtput =>
      refine (hmessage (fun hcall => ?_) honly).elim
      have hsame := hcall.symm.trans htype
      simp at hsame

/-- The messages with that of a turn end as the turn does. -/
theorem endsInAssistant_turn (before : List UnifiedMessage) (turn : TextTurn) :
    endsInAssistant (before ++ [turn.message]) = turn.isAssistant := by
  rw [endsInAssistant_concat]
  cases turn <;> rfl

/-- **The loop over the items of a conversation**: it accepts them, a message short for every turn that joins the
    one before, and gives each turn its message when none does. By induction on the turns. -/
theorem parseInputItems_conversation (conversation : List SentTurn) : ∀ (before : List UnifiedMessage) (index : Nat),
    ∃ after, parseInputItems before (conversation.flatMap (·.items)) index = .ok after ∧
      after.length + joins (endsInAssistant before) conversation = before.length + conversation.length ∧
      (joins (endsInAssistant before) conversation = 0 → after = before ++ conversation.map (·.turn.message)) := by
  induction conversation with
  | nil => exact fun before index => ⟨before, rfl, rfl, fun _ => (List.append_nil before).symm⟩
  | cons sent rest ih =>
      intro before index
      rw [List.flatMap_cons, joins]
      cases hjoins : endsInAssistant before && sent.callsOnly with
      | false =>
          have hsent := parseInputItems_sent sent before index hjoins
          obtain ⟨after, hafter, hlength, hall⟩ :=
            ih (before ++ [sent.turn.message]) (index + sent.items.length)
          rw [endsInAssistant_turn] at hlength hall
          refine ⟨after, parseInputItems_append_eq_ok_iff.mpr ⟨_, hsent, hafter⟩, ?_, ?_⟩
          · rw [List.length_append, List.length_singleton] at hlength
            simp only [Bool.false_eq_true, if_false, List.length_cons]
            omega
          · intro hzero
            rw [if_neg (by decide), Nat.zero_add] at hzero
            rw [hall hzero, List.append_assoc]
            rfl
      | true =>
          obtain ⟨hassistant, middle, hmiddle, hsame, hends⟩ := parseInputItems_joining sent index hjoins
          obtain ⟨after, hafter, hlength, -⟩ := ih middle (index + sent.items.length)
          rw [hends] at hlength
          refine ⟨after, parseInputItems_append_eq_ok_iff.mpr ⟨_, hmiddle, hafter⟩, ?_, ?_⟩
          · rw [hassistant]
            simp only [if_true, List.length_cons]
            omega
          · intro hzero
            rw [if_pos rfl] at hzero
            omega

/-! ## Result -/

/-- The turn of the instructions, if there are any. -/
inductive Instructed : JsValue → List TextTurn → Prop
  | none {instructions : JsValue} (h : instructions.truthy = false) : Instructed instructions []
  | text {text : String} (h : text ≠ "") : Instructed (.json (.str text)) [.system text]

theorem instructionMessages_of {instructions : JsValue} {turns : List TextTurn} (h : Instructed instructions turns) :
    instructionMessages instructions = turns.map TextTurn.message ∧
      endsInAssistant (turns.map TextTurn.message) = false := by
  unfold instructionMessages
  cases h with
  | none hnone =>
      rw [if_neg (by rw [hnone]; decide)]
      exact ⟨rfl, rfl⟩
  | text hne =>
      rw [if_pos (by simpa [Json.truthy] using hne)]
      exact ⟨rfl, rfl⟩

/-- The input is these turns: items, or the text of one user turn. -/
inductive InputShows : JsValue → List SentTurn → Prop
  | items (conversation : List SentTurn) : InputShows (.json (.arr (conversation.flatMap (·.items)))) conversation
  | text {sent : SentTurn} {text : String} (hturn : sent.turn = .user text) (h : text ≠ "") :
      InputShows (.json (.str text)) [sent]

/-- The bodies ask for the same, beside the conversation. -/
structure SameSettings (chat responses : Json) : Prop where
  shared : ∀ field ∈ ["model", "temperature", "top_p", "tools", "tool_choice", "stream", "stream_options", "user"],
    responses.prop field = chat.prop field
  maxTokens : responses.prop "max_output_tokens" =
    (chat.prop "max_completion_tokens").orElse (chat.prop "max_tokens")
  stop : stopOf (chat.prop "stop") = none
  responseFormat : (chat.prop "response_format").truthy = false
  metadata : (responses.prop "metadata").truthy = false

theorem parseInput_shows {input : JsValue} {conversation : List SentTurn} (h : InputShows input conversation)
    {before : List UnifiedMessage} (hbefore : endsInAssistant before = false) :
    input.truthy = true ∧ ∃ messages, parseInput before input = .ok messages ∧
      (messages = before ++ conversation.map (·.turn.message) ↔ Separated conversation) := by
  cases h with
  | items conversation =>
      obtain ⟨after, hafter, hlength, hall⟩ := parseInputItems_conversation conversation before 0
      rw [hbefore] at hlength hall
      refine ⟨rfl, after, hafter, ?_⟩
      rw [← joins_eq_zero_iff]
      refine ⟨fun heq => ?_, hall⟩
      rw [heq, List.length_append, List.length_map] at hlength
      omega
  | @text sent text hturn hne =>
      refine ⟨by simpa [Json.truthy] using hne, _, rfl, iff_of_true ?_ (List.IsChain.singleton _)⟩
      rw [List.map_singleton, hturn]
      rfl

/-- **One conversation through either endpoint.** The body of `/v1/responses` that asks for what an accepted body of
    `/v1/chat/completions` asks for, in the same conversation, is accepted, and the two unified requests are the
    same beside their messages. The messages are the same exactly when no assistant turn of function calls alone is
    sent right behind another assistant turn. -/
theorem front_doors_agree {chat responses : Json} {items : List Json} {instructed : List TextTurn}
    {conversation : List SentTurn} {requestId : String} {request : UnifiedAiRequest}
    (hmessages : chat.prop "messages" = .json (.arr items))
    (hshows : List.Forall₂ ChatShows items (instructed ++ conversation.map (·.turn)))
    (hinstructed : Instructed (responses.prop "instructions") instructed)
    (hinput : InputShows (responses.prop "input") conversation) (hsame : SameSettings chat responses)
    (h : parseChatCompletionRequest chat requestId = .ok request) :
    ∃ messages, parseResponsesRequest responses requestId = .ok { request with messages := messages } ∧
      (messages = request.messages ↔ Separated conversation) := by
  have hparsed : ∀ (turns : List TextTurn) (items : List Json) (index : Nat), List.Forall₂ ChatShows items turns →
      ((items.zipIdx index).mapM fun e => parseChatMessage e.1 e.2) = .ok (turns.map TextTurn.message) := by
    intro turns items index hall
    induction hall generalizing index with
    | nil => rfl
    | cons hitem hrest ih =>
        exact Except.mapM_cons_eq_ok_iff.mpr ⟨_, _, parseChatMessage_shows hitem index, ih (index + 1), rfl⟩
  unfold parseChatCompletionRequest at h
  simp only [Except.bind_eq_ok_iff, require_eq_ok_iff] at h
  obtain ⟨model, hmodel, -, htruthy, items', hitems, -, -, -, -, -, -, -, -, -, -, -, -, messages, hchat,
    tools, htools, format, hformat, h⟩ := h
  obtain rfl := Except.ok.inj h
  obtain rfl : items = items' := by
    unfold messagesOf at hitems
    rw [hmessages] at hitems
    cases items with
    | nil => cases hitems
    | cons msg rest => exact Except.ok.inj hitems
  -- the messages of the chat body are those of the conversation
  obtain rfl := Except.ok.inj ((hparsed _ items 0 hshows).symm.trans hchat)
  obtain ⟨hinstructions, hquiet⟩ := instructionMessages_of hinstructed
  obtain ⟨hinputTruthy, messages, hinput', hiff⟩ := parseInput_shows hinput hquiet
  refine ⟨messages, ?_, ?_⟩
  -- every other field is read from a property the two bodies share
  · have hmodel' : getProp (.json responses) "model" = .ok model := by
      have hprop : chat.prop "model" = model := optProp_of_getProp hmodel
      have hnull : responses ≠ .null := by
        rintro rfl
        have hnone := hsame.shared "model" (by simp)
        rw [hprop] at hnone
        rw [← hnone] at htruthy
        cases htruthy
      rw [getProp_json "model" hnull, hsame.shared "model" (by simp), hprop]
    have hnoFormat : format = none := by
      unfold parseResponseFormat at hformat
      rw [if_neg (by rw [hsame.responseFormat]; decide)] at hformat
      exact (Except.ok.inj hformat).symm
    unfold parseResponsesRequest
    simp only [hmodel', Except.ok_bind, require, htruthy, hinputTruthy, if_true, hinstructions, hinput']
    rw [hsame.shared "tools" (by simp), htools]
    simp only [Except.ok_bind]
    rw [hsame.shared "stream" (by simp), hsame.shared "temperature" (by simp), hsame.shared "top_p" (by simp),
      hsame.shared "tool_choice" (by simp), hsame.shared "stream_options" (by simp), hsame.shared "user" (by simp),
      hsame.maxTokens, hsame.stop, hnoFormat, whenTruthy_of_falsy hsame.metadata]
    rfl
  · rw [← hiff, List.map_append, List.map_map]
    exact Iff.rfl

/-- The calls of `twoCalls`, as a chat message has them. -/
def chatCall (callId name : String) : Json :=
  .obj [("id", .str callId), ("type", .str "function"),
    ("function", .obj [("name", .str name), ("arguments", .str "\x7b\x7d")])]

/-- The conversation of `twoCallsBody` as chat messages. -/
def twoCallsChat : List Json :=
  [.obj [("role", .str "system"), ("content", .str "Be brief.")],
    .obj [("role", .str "user"), ("content", .str "hi")],
    .obj [("role", .str "assistant"), ("content", .str "Let me look."),
      ("tool_calls", .arr [chatCall "c1" "find", chatCall "c2" "open"])],
    .obj [("role", .str "tool"), ("tool_call_id", .str "c1"), ("content", .str "a")],
    .obj [("role", .str "tool"), ("tool_call_id", .str "c2"), ("content", .str "b")]]

/-- The turns of `twoCalls`. -/
def twoCallsSent : List SentTurn :=
  [⟨.user "hi", [.obj [("role", .str "user"), ("content", .str "hi")]],
      .user ⟨by decide, by decide, rfl, .string "hi"⟩⟩,
    ⟨.assistant "Let me look." [⟨"c1", "find", "\x7b\x7d"⟩, ⟨"c2", "open", "\x7b\x7d"⟩],
      [.obj [("role", .str "assistant"), ("content", .str "Let me look.")], callItem "c1" "find",
        callItem "c2" "open"],
      .assistant ⟨by decide, by decide, rfl, .string "Let me look."⟩
        (.cons ⟨rfl, rfl, rfl, rfl⟩ (.cons ⟨rfl, rfl, rfl, rfl⟩ .nil))⟩,
    ⟨.tool "c1" "a",
      [.obj [("type", .str "function_call_output"), ("call_id", .str "c1"), ("output", .str "a")]],
      .tool rfl rfl rfl⟩,
    ⟨.tool "c2" "b",
      [.obj [("type", .str "function_call_output"), ("call_id", .str "c2"), ("output", .str "b")]],
      .tool rfl rfl rfl⟩]

/-- Two calls and their outputs, through both endpoints. -/
theorem front_doors_agree_two_calls :
    ∃ request, parseChatCompletionRequest (.obj [("model", .str "m"), ("messages", .arr twoCallsChat)]) "req-1" =
        .ok request ∧
      parseResponsesRequest twoCallsBody "req-1" = .ok request := by
  have haccepted : (parseChatCompletionRequest (.obj [("model", .str "m"), ("messages", .arr twoCallsChat)])
      "req-1").Succeeds := ⟨_, rfl⟩
  obtain ⟨request, h⟩ := haccepted
  have hshows : List.Forall₂ ChatShows twoCallsChat
      ([.system "Be brief."] ++ twoCallsSent.map (·.turn)) := by
    refine .cons (.system rfl rfl rfl) (.cons (.user rfl rfl rfl) (.cons ?_ (.cons (.tool rfl rfl rfl)
      (.cons (.tool rfl rfl rfl) .nil))))
    exact .assistant rfl (Or.inl rfl)
      (Or.inl ⟨_, rfl, .cons ⟨by decide, rfl, rfl, rfl⟩ (.cons ⟨by decide, rfl, rfl, rfl⟩ .nil)⟩) rfl
  have hsame : SameSettings (.obj [("model", .str "m"), ("messages", .arr twoCallsChat)]) twoCallsBody := by
    refine ⟨?_, rfl, rfl, rfl, rfl⟩
    decide
  have hseparated : Separated twoCallsSent := by
    unfold Separated
    decide
  have hinstructed : Instructed (twoCallsBody.prop "instructions") [.system "Be brief."] :=
    Instructed.text (by decide)
  have hinput : InputShows (twoCallsBody.prop "input") twoCallsSent := InputShows.items twoCallsSent
  obtain ⟨messages, hresponses, hiff⟩ := front_doors_agree rfl hshows hinstructed hinput hsame h
  rw [hiff.mpr hseparated] at hresponses
  exact ⟨request, h, hresponses⟩

end Sirius
