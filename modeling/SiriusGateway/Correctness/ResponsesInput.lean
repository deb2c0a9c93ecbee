import SiriusGateway.Compat.Service
import Mathlib.Data.List.Induction

/-!
# `Correctness.ResponsesInput` — the input items of a Responses request as messages

The loop over `body.input` lets a `function_call` item join the assistant message right before it, by writing
to the last message. Here its result is stated over the whole list: the items are read as turns, an item with
the function calls behind it, and each turn has its messages.

## Contents
- **Turns.** `InputTurns`, the reading of a list of items as turns.
- **Messages.** `ItemMessage`, `withCalls` and `newTurn`: what an item, a turn, and calls without an item become.
- **The loop.** `parseInputItems_turns`, by induction on the items, and the result
  `responses_input_turns`.
-/

namespace Sirius

open Js Compat

/-! ## Turns -/

/-- The item is a `function_call`. -/
def IsFunctionCall (item : Json) : Prop := item.prop "type" = .json (.str "function_call")

instance (item : Json) : Decidable (IsFunctionCall item) := inferInstanceAs (Decidable (_ = _))

/-- An item that is no function call, and all the function calls up to the next such item. -/
structure InputTurn where
  item : Json
  calls : List Json
  item_not_call : ¬IsFunctionCall item
  calls_are_calls : ∀ call ∈ calls, IsFunctionCall call

/-- The items of a turn, as they are sent. -/
def InputTurn.items (turn : InputTurn) : List Json := turn.item :: turn.calls

/-- The items read as turns; the function calls before the first turn have no item. Every run of calls here is
    maximal. -/
structure InputTurns (items : List Json) where
  initial : List Json
  turns : List InputTurn
  initial_are_calls : ∀ call ∈ initial, IsFunctionCall call
  reads : items = initial ++ turns.flatMap InputTurn.items

/-! ## Messages -/

/-- The text of a message item's content: the string, or the texts of its parts. -/
inductive ItemText : JsValue → String → Prop
  | string (s : String) : ItemText (.json (.str s)) s
  | parts (parts : List Json) : ItemText (.json (.arr parts)) ("".intercalate (parts.filterMap partText))

/-- The message of an item that is no function call. -/
inductive ItemMessage (item : Json) : UnifiedMessage → Prop
  | output (h : item.prop "type" = .json (.str "function_call_output")) : ItemMessage item
      { role := .json (.str "tool"), content := item.prop "output", toolCallId := item.prop "call_id" }
  | developer (text : String) (h : item.prop "type" ≠ .json (.str "function_call_output"))
      (hrole : item.prop "role" = .json (.str "developer")) (htext : ItemText (item.prop "content") text) :
      ItemMessage item { role := .json (.str "system"), content := .json (.str text) }
  | message (text : String) (h : item.prop "type" ≠ .json (.str "function_call_output"))
      (hrole : item.prop "role" ≠ .json (.str "developer")) (htext : ItemText (item.prop "content") text) :
      ItemMessage item { role := item.prop "role", content := .json (.str text) }

/-- The tool call a `function_call` item asks for: its `call_id`, `name` and `arguments`, as they are sent. -/
def askedCall (call : Json) : UnifiedToolCall where
  id := call.prop "call_id"
  function := { name := call.prop "name", arguments := call.prop "arguments" }

theorem toolCallOf_eq (item : Json) : toolCallOf item = askedCall item := rfl

/-- A new assistant message for the calls, if there are any. -/
def newTurn (calls : List Json) : List UnifiedMessage :=
  match calls with
  | [] => []
  | calls => [{
      role := .json (.str "assistant")
      content := .json (.str "")
      toolCalls := some (calls.map askedCall) }]

/-- The messages of a turn: the calls are those of its message, if that is an assistant's, and of a new one
    otherwise. -/
def withCalls (message : UnifiedMessage) (calls : List Json) : List UnifiedMessage :=
  if calls = [] then [message]
  else if message.role = .json (.str "assistant") then
    [{ message with toolCalls := some (calls.map askedCall) }]
  else message :: newTurn calls

theorem itemMessage_of_map {item : Json} {index : Nat} {message : UnifiedMessage}
    (h : mapResponsesInputItem item index = .ok message) : ItemMessage item message := by
  unfold mapResponsesInputItem at h
  split at h
  · rename_i houtput
    obtain rfl := Except.ok.inj h
    exact .output (isStr_iff.mp houtput)
  · rename_i houtput
    rw [isStr_iff] at houtput
    have htext : ∀ {text : String}, ItemText (item.prop "content") text →
        ItemMessage item {
          role := if (item.prop "role").isStr "developer" then .json (.str "system") else item.prop "role"
          content := .json (.str text) } := by
      intro text htext
      by_cases hrole : item.prop "role" = .json (.str "developer")
      · rw [if_pos (isStr_iff.mpr hrole)]
        exact .developer text houtput hrole htext
      · rw [if_neg fun hr => hrole (isStr_iff.mp hr)]
        exact .message text houtput hrole htext
    simp only at h
    split at h
    · rename_i s hcontent
      obtain rfl := Except.ok.inj h
      exact htext (hcontent ▸ .string s)
    · rename_i parts hcontent
      obtain rfl := Except.ok.inj h
      exact htext (hcontent ▸ .parts parts)
    · cases h

/-- The message of an item has no tool calls yet. -/
theorem ItemMessage.toolCalls_eq_none {item : Json} {message : UnifiedMessage} (h : ItemMessage item message) :
    message.toolCalls = none := by
  cases h <;> rfl

/-! ## The loop -/

/-- A further call joins the assistant message that holds the calls before it. -/
theorem append_newTurn (before : List UnifiedMessage) (calls : List Json) (hcalls : calls ≠ []) (call : Json) :
    appendResponsesFunctionCall (before ++ newTurn calls) call = before ++ newTurn (calls ++ [call]) := by
  obtain ⟨first, rest, rfl⟩ := List.exists_cons_of_ne_nil hcalls
  simp [appendResponsesFunctionCall, newTurn, JsValue.isStr, toolCallOf_eq]

/-- A run of calls behind what is no assistant message is one new assistant message. -/
theorem foldl_newTurn {before : List UnifiedMessage}
    (hbefore : ∀ message ∈ before.getLast?, message.role ≠ .json (.str "assistant")) (calls : List Json) :
    calls.foldl appendResponsesFunctionCall before = before ++ newTurn calls := by
  induction calls using List.reverseRecOn with
  | nil => simp [newTurn]
  | append_singleton calls call ih =>
      rw [List.foldl_append, ih, List.foldl_cons, List.foldl_nil]
      by_cases hcalls : calls = []
      · subst hcalls
        cases hlast : before.getLast? with
        | none =>
            obtain rfl := List.getLast?_eq_none_iff.mp hlast
            rfl
        | some previous =>
            have hrole : previous.role.isStr "assistant" = false :=
              Bool.eq_false_iff.mpr fun h => hbefore previous hlast (isStr_iff.mp h)
            simp [appendResponsesFunctionCall, newTurn, hlast, hrole, toolCallMessage, toolCallOf_eq]
      · exact append_newTurn before calls hcalls call

/-- A run of calls behind an item's message. -/
theorem foldl_withCalls (before : List UnifiedMessage) {message : UnifiedMessage} (hnone : message.toolCalls = none)
    (calls : List Json) :
    calls.foldl appendResponsesFunctionCall (before ++ [message]) = before ++ withCalls message calls := by
  by_cases hrole : message.role = .json (.str "assistant")
  · induction calls using List.reverseRecOn with
    | nil => rfl
    | append_singleton calls call ih =>
        rw [List.foldl_append, ih, List.foldl_cons, List.foldl_nil]
        by_cases hcalls : calls = []
        · subst hcalls
          simp [withCalls, appendResponsesFunctionCall, hrole, hnone, toolCallOf_eq]
        · simp [withCalls, appendResponsesFunctionCall, hrole, hcalls, toolCallOf_eq]
  · rw [foldl_newTurn, List.append_assoc]
    · unfold withCalls
      rw [if_neg hrole]
      cases calls <;> simp [newTurn]
    · intro last hlast
      rw [List.getLast?_concat] at hlast
      obtain rfl := Option.some.inj hlast
      exact hrole

/-- **The loop**: the calls before the first item behind what is there already, then the messages of each turn.
    By induction on the items, where what is there already ends in the message calls can join. -/
theorem parseInputItems_turns {items : List Json} :
    ∀ {before messages : List UnifiedMessage} {index : Nat}, parseInputItems before items index = .ok messages →
      ∃ read : InputTurns items, ∃ own,
        List.Forall₂ (fun turn message => ItemMessage turn.item message) read.turns own ∧
        messages = read.initial.foldl appendResponsesFunctionCall before ++
          (List.zipWith withCalls own (read.turns.map (·.calls))).flatten := by
  induction items with
  | nil =>
      intro before messages index h
      obtain rfl := Except.ok.inj h
      exact ⟨⟨[], [], nofun, rfl⟩, [], .nil, (List.append_nil _).symm⟩
  | cons item items ih =>
      intro before messages index h
      unfold parseInputItems parseInputItem at h
      simp only [Except.bind_eq_ok_iff, require_eq_ok_iff] at h
      obtain ⟨next, ⟨_, -, hitem⟩, hrest⟩ := h
      obtain ⟨⟨initial, turns, hinitial, hreads⟩, own, hown, rfl⟩ := ih hrest
      split at hitem
      · rename_i hcall
        obtain rfl := Except.ok.inj hitem
        refine ⟨⟨item :: initial, turns, ?_, by rw [hreads]; rfl⟩, own, hown, rfl⟩
        exact List.forall_mem_cons.mpr ⟨isStr_iff.mp hcall, hinitial⟩
      · rename_i hcall
        obtain ⟨message, hmessage, hnext⟩ := Except.bind_eq_ok_iff.mp hitem
        obtain rfl := Except.ok.inj hnext
        have hbecomes := itemMessage_of_map hmessage
        let turn : InputTurn := ⟨item, initial, fun h => hcall (isStr_iff.mpr h), hinitial⟩
        refine ⟨⟨[], turn :: turns, nofun, ?_⟩, message :: own, .cons hbecomes hown, ?_⟩
        · rw [hreads]
          rfl
        · rw [foldl_withCalls before hbecomes.toolCalls_eq_none, List.append_assoc]
          rfl

/-- **The input items of an accepted Responses body as messages**: behind the instructions each run of function
    calls is the tool calls of one assistant message, and each other item is one message, in the order of the
    items. -/
theorem responses_input_turns {body : Json} {requestId : String} {request : UnifiedAiRequest} {items : List Json}
    (hinput : body.prop "input" = .json (.arr items)) (h : parseResponsesRequest body requestId = .ok request) :
    ∃ read : InputTurns items, ∃ own,
      List.Forall₂ (fun turn message => ItemMessage turn.item message) read.turns own ∧
      request.messages = instructionMessages (body.prop "instructions") ++ newTurn read.initial ++
        (List.zipWith withCalls own (read.turns.map (·.calls))).flatten := by
  have hmessages := (of_parseResponsesRequest h).1
  rw [hinput] at hmessages
  obtain ⟨read, own, hown, heq⟩ := parseInputItems_turns hmessages
  refine ⟨read, own, hown, ?_⟩
  rw [heq, foldl_newTurn]
  intro message hmem
  unfold instructionMessages at hmem
  split at hmem
  · obtain rfl := Option.some.inj hmem
    simp
  · cases hmem

/-- A `function_call` item. -/
def callItem (callId name : String) : Json :=
  .obj [("type", .str "function_call"), ("call_id", .str callId), ("name", .str name), ("arguments", .str "\x7b\x7d")]

/-- Two calls behind an assistant message, and their outputs. -/
def twoCalls : List Json :=
  [.obj [("role", .str "user"), ("content", .str "hi")],
    .obj [("role", .str "assistant"), ("content", .str "Let me look.")], callItem "c1" "find", callItem "c2" "open",
    .obj [("type", .str "function_call_output"), ("call_id", .str "c1"), ("output", .str "a")],
    .obj [("type", .str "function_call_output"), ("call_id", .str "c2"), ("output", .str "b")]]

/-- A body with instructions and two calls. -/
def twoCallsBody : Json :=
  .obj [("model", .str "m"), ("instructions", .str "Be brief."), ("input", .arr twoCalls)]

/-- Two calls in a row become one turn. -/
theorem responses_input_turns_two_calls : ∃ request, parseResponsesRequest twoCallsBody "req-1" = .ok request ∧
    ∃ read : InputTurns twoCalls, ∃ own,
      List.Forall₂ (fun turn message => ItemMessage turn.item message) read.turns own ∧
      request.messages = instructionMessages (.json (.str "Be brief.")) ++ newTurn read.initial ++
        (List.zipWith withCalls own (read.turns.map (·.calls))).flatten := by
  have hinput : twoCallsBody.prop "input" = .json (.arr twoCalls) := by decide
  have haccepted : (parseResponsesRequest twoCallsBody "req-1").Succeeds := ⟨_, rfl⟩
  obtain ⟨request, h⟩ := haccepted
  have hinstructions : twoCallsBody.prop "instructions" = .json (.str "Be brief.") := by decide
  refine ⟨request, h, ?_⟩
  rw [← hinstructions]
  exact responses_input_turns hinput h

end Sirius
