import SiriusGateway.Correctness.Accumulated
import SiriusGateway.Correctness.Drained
import SiriusGateway.Gateway.Controllers

/-!
# `Correctness.ResponsesStream` — the two ways to get a Responses answer

A client of `/v1/responses` gets an answer as a body (`formatResponsesResponse`) or as the frames of a stream.
What either conveys is its text, its function calls and its final status (`Conveyed`). The text is always the
same (`frameTexts_answer`); the stream has frames neither for a tool call nor for a status other than
`completed`, so the two agree exactly on answers that need neither (`responses_stream_agrees_iff`).

## Contents
- **Reading.** `conveyedByBody` and `conveyedByFrames`.
- **The body.** What `formatResponsesResponse` conveys.
- **The frames.** What the stream branch conveys.
- **Agreement.**
-/

namespace Sirius

open Js Compat

/-! ## Reading -/

/-- What a Responses client has of an answer. -/
structure Conveyed where
  text : String
  calls : List UnifiedToolCall
  status : JsValue
  deriving DecidableEq

/-- The value is an item of this type. -/
def hasType (type : String) (v : JsValue) : Bool := decide (optProp v "type" = .json (.str type))

/-- The elements, when the value is an array. -/
def elements : JsValue → List JsValue
  | .json (.arr items) => items.map .json
  | _ => []

/-- The call of a `function_call` item. -/
def functionCall (item : JsValue) : Option UnifiedToolCall :=
  if hasType "function_call" item then
    some ⟨optProp item "call_id", ⟨optProp item "name", optProp item "arguments"⟩⟩
  else none

/-- The texts of a `message` item. -/
def messageTexts (item : JsValue) : List String :=
  if hasType "message" item then
    ((elements (optProp item "content")).filter (hasType "output_text")).map fun part =>
      deltaText (optProp part "text")
  else []

/-- What a body conveys: the items of `output`, and `status`. -/
def conveyedByBody (body : Json) : Conveyed where
  text := "".intercalate ((elements (body.prop "output")).flatMap messageTexts)
  calls := (elements (body.prop "output")).filterMap functionCall
  status := body.prop "status"

/-- The text of a frame. -/
def frameText (frame : Json) : String :=
  if hasType "response.output_text.delta" (.json frame) then deltaText (frame.prop "delta") else ""

/-- The items a frame carries: the item that was added or finished, or the output of the response in it. -/
def frameItems (frame : Json) : List JsValue :=
  frame.prop "item" :: elements (optProp (frame.prop "response") "output")

/-- The status of the response a frame carries. -/
def frameStatus (frame : Json) : JsValue := optProp (frame.prop "response") "status"

/-- What frames convey: the texts in a row, the function calls in any of them, and the status of the last
    response in them. -/
def conveyedByFrames (frames : List Frame) : Conveyed where
  text := "".intercalate ((frames.filterMap Frame.value).map frameText)
  calls := ((frames.filterMap Frame.value).flatMap frameItems).filterMap functionCall
  status := (((frames.filterMap Frame.value).map frameStatus).filter (·.isDefined)).getLastD .undefined

/-! ## The body -/

section Body

variable {content : List UnifiedContent}

theorem functionCall_formatFunctionCall (uuid : String) (call : UnifiedToolCall) :
    (functionCall (.json (formatFunctionCall uuid call))).isSome = true := by
  unfold functionCall hasType formatFunctionCall
  simp

theorem messageTexts_formatFunctionCall (uuid : String) (call : UnifiedToolCall) :
    messageTexts (.json (formatFunctionCall uuid call)) = [] := by
  unfold messageTexts hasType formatFunctionCall
  simp

theorem functionCall_formatMessageItem (uuid : String) (parts : List Json) :
    functionCall (.json (formatMessageItem uuid parts)) = none := by
  unfold functionCall hasType formatMessageItem
  simp

/-- The parts of a message are read back one by one. -/
theorem messageTexts_formatMessageItem (uuid : String) {parts : List Json}
    (h : ∀ part ∈ parts, ∃ text, part = formatTextPart text) :
    messageTexts (.json (formatMessageItem uuid parts)) =
      parts.map fun part => deltaText (part.prop "text") := by
  have hparts : ∀ part ∈ parts.map JsValue.json, hasType "output_text" part = true := by
    intro part hpart
    obtain ⟨part, hmem, rfl⟩ := List.mem_map.mp hpart
    obtain ⟨text, rfl⟩ := h part hmem
    simp [hasType, formatTextPart]
  have hcontent : (formatMessageItem uuid parts).prop "content" = .json (.arr parts) := by
    simp [formatMessageItem]
  have htype : hasType "message" (.json (formatMessageItem uuid parts)) = true := by
    simp [hasType, formatMessageItem]
  unfold messageTexts
  rw [if_pos htype]
  show List.map _ ((elements ((formatMessageItem uuid parts).prop "content")).filter _) = _
  rw [hcontent]
  show List.map _ ((parts.map JsValue.json).filter _) = _
  rw [List.filter_eq_self.mpr hparts, List.map_map]
  rfl

theorem mem_textParts {part : Json} (h : part ∈ textParts content) : ∃ text, part = formatTextPart text := by
  obtain ⟨item, -, hitem⟩ := List.mem_filterMap.mp h
  cases item with
  | toolCall call => cases hitem
  | text text =>
      simp only [Option.ite_none_right_eq_some] at hitem
      exact ⟨text, (Option.some.inj hitem.2).symm⟩

/-- **The text parts carry the text of the turn.** -/
theorem texts_textParts (htyped : Typed content) :
    "".intercalate ((textParts content).map fun part => deltaText (part.prop "text")) = turnText content := by
  obtain ⟨htexts, -⟩ := htyped
  induction content with
  | nil => rfl
  | cons item rest ih =>
      have hrest := ih fun text h => htexts text (List.mem_cons_of_mem _ h)
      cases item with
      | toolCall call => exact hrest
      | text text =>
          rcases htexts text List.mem_cons_self with rfl | hstr
          · exact hrest
          · obtain ⟨s, rfl⟩ := isString_iff.mp hstr
            have hturn : turnText (.text (.json (.str s)) :: rest) = s ++ turnText rest := intercalate_cons _ _
            rw [hturn, ← hrest]
            by_cases hs : s = ""
            · -- an empty text has no part
              subst hs
              exact String.empty_append.symm
            · have hparts : textParts (.text (.json (.str s)) :: rest) =
                  formatTextPart (.json (.str s)) :: textParts rest := by
                unfold textParts
                rw [List.filterMap_cons_some]
                simp [Json.truthy, hs]
              have hread : (formatTextPart (.json (.str s))).prop "text" = .json (.str s) := by
                simp [formatTextPart]
              rw [hparts, List.map_cons, hread, intercalate_cons]
              rfl

variable (uuid : Nat → String) (created : Nat) {response : UnifiedAiResponse}

theorem output_formatResponsesResponse :
    elements ((formatResponsesResponse uuid created response).prop "output") =
      (formatOutput uuid response.content).map .json := by
  unfold formatResponsesResponse
  simp [elements]

/-- The items of the calls are all function calls, without text. -/
theorem mem_calls {item : JsValue}
    (h : item ∈ ((turnCalls content).zipIdx.map fun e => formatFunctionCall (uuid e.2) e.1).map JsValue.json) :
    (functionCall item).isSome = true ∧ messageTexts item = [] := by
  obtain ⟨item, hitem, rfl⟩ := List.mem_map.mp h
  obtain ⟨e, -, rfl⟩ := List.mem_map.mp hitem
  exact ⟨functionCall_formatFunctionCall _ _, messageTexts_formatFunctionCall _ _⟩

theorem text_conveyedByBody (htyped : Typed response.content) :
    (conveyedByBody (formatResponsesResponse uuid created response)).text = turnText response.content := by
  show "".intercalate ((elements ((formatResponsesResponse uuid created response).prop "output")).flatMap _) = _
  rw [output_formatResponsesResponse, ← texts_textParts htyped]
  have hcalls : (((turnCalls response.content).zipIdx.map fun e =>
      formatFunctionCall (uuid e.2) e.1).map JsValue.json).flatMap messageTexts = [] := by
    rw [List.flatMap_eq_nil_iff]
    intro item hitem
    exact (mem_calls uuid hitem).2
  unfold formatOutput
  dsimp only
  split
  · rw [List.map_cons, List.flatMap_cons, hcalls, List.append_nil,
      messageTexts_formatMessageItem _ fun part => mem_textParts]
  · rename_i hnone
    have hnil : textParts response.content = [] := List.length_eq_zero_iff.mp (by omega)
    rw [hcalls, hnil]
    rfl

variable (response) in
/-- The body conveys a call for each call of the turn. -/
theorem calls_conveyedByBody :
    (conveyedByBody (formatResponsesResponse uuid created response)).calls.length =
      (turnCalls response.content).length := by
  show ((elements ((formatResponsesResponse uuid created response).prop "output")).filterMap _).length = _
  rw [output_formatResponsesResponse]
  have hcalls : ((((turnCalls response.content).zipIdx.map fun e =>
      formatFunctionCall (uuid e.2) e.1).map JsValue.json).filterMap functionCall).length =
      (turnCalls response.content).length := by
    rw [List.filterMap_length_eq_length.mpr fun item hitem => (mem_calls uuid hitem).1]
    simp
  unfold formatOutput
  dsimp only
  split
  · rw [List.map_cons, List.filterMap_cons_none (functionCall_formatMessageItem _ _)]
    exact hcalls
  · exact hcalls

variable (response) in
theorem status_conveyedByBody :
    (conveyedByBody (formatResponsesResponse uuid created response)).status = .json (.str (
      if response.finishReason = "error" then "failed"
      else if response.finishReason = "length" then "incomplete"
      else "completed")) := by
  show (formatResponsesResponse uuid created response).prop "status" = _
  unfold formatResponsesResponse
  simp

end Body

/-! ## The frames -/

section Frames

variable {responseId : String} {events : List UnifiedStreamEvent}

/-- Events none of which is an error are written one by one. -/
theorem responsesLoop_events (h : ∀ e ∈ events, ∀ message code, e ≠ .error message code) :
    responsesLoop responseId (events.map fun e => ⟨e, false⟩) =
      (events.filterMap (responsesFrame responseId)).map .data := by
  induction events with
  | nil => rfl
  | cons event rest ih =>
      obtain ⟨hevent, hrest⟩ := List.forall_mem_cons.mp h
      rw [List.map_cons, responsesLoop, ih hrest]
      cases event with
      | error message code => exact absurd rfl (hevent message code)
      | contentDelta delta => rfl
      | toolCallDelta index id name argumentsDelta => rfl
      | usage usage => rfl
      | done finishReason => rfl

theorem values_data (values : List Json) : (values.map Frame.data).filterMap Frame.value = values := by
  rw [List.filterMap_map]
  exact List.filterMap_some

/-- What is read back of a text delta. -/
theorem deltaText_onWire (delta : JsValue) :
    deltaText (delta.onWire.elim .undefined .json) = deltaText delta := by
  cases delta <;> rfl

/-- **The frames carry the text of the events.** -/
theorem frameTexts_answer (answer : Answer) :
    (events.foldl Answer.add answer).text =
      answer.text ++ "".intercalate ((events.filterMap (responsesFrame responseId)).map frameText) := by
  induction events generalizing answer with
  | nil => exact String.append_empty.symm
  | cons event rest ih =>
      rw [List.foldl_cons, ih]
      cases event with
      | contentDelta delta =>
          have hframe : responsesFrame responseId (.contentDelta delta) = some (wireObject
              [("type", .json (.str "response.output_text.delta")), ("output_index", .json (.num 0)),
                ("content_index", .json (.num 0)), ("delta", delta)]) := rfl
          have hread : frameText (wireObject
              [("type", .json (.str "response.output_text.delta")), ("output_index", .json (.num 0)),
                ("content_index", .json (.num 0)), ("delta", delta)]) = deltaText delta := by
            simp [frameText, hasType, deltaText_onWire]
          rw [List.filterMap_cons_some hframe, List.map_cons, hread, intercalate_cons, ← String.append_assoc]
          rfl
      | done finishReason =>
          have hframe : responsesFrame responseId (.done finishReason) = some (wireObject
              [("type", .json (.str "response.completed")), ("response", .json (wireObject
                [("id", .json (.str responseId)), ("status", .json (.str "completed"))]))]) := rfl
          have hread : frameText (wireObject
              [("type", .json (.str "response.completed")), ("response", .json (wireObject
                [("id", .json (.str responseId)), ("status", .json (.str "completed"))]))]) = "" := by
            simp [frameText, hasType]
          rw [List.filterMap_cons_some hframe, List.map_cons, hread, intercalate_cons, String.empty_append]
          rfl
      | toolCallDelta index id name argumentsDelta => rfl
      | usage usage => rfl
      | error message code => rfl

/-- No frame carries a function call. -/
theorem calls_frames : ((events.filterMap (responsesFrame responseId)).flatMap frameItems).filterMap
    functionCall = [] := by
  rw [List.filterMap_eq_nil_iff]
  intro item hitem
  obtain ⟨frame, hframe, hmem⟩ := List.mem_flatMap.mp hitem
  obtain ⟨event, -, hevent⟩ := List.mem_filterMap.mp hframe
  have hitems : frameItems frame = [.undefined] := by
    cases event with
    | contentDelta delta =>
        obtain rfl := Option.some.inj hevent
        simp [frameItems, elements, optProp]
    | done finishReason =>
        obtain rfl := Option.some.inj hevent
        simp [frameItems, elements]
    | toolCallDelta index id name argumentsDelta => cases hevent
    | usage usage => cases hevent
    | error message code => cases hevent
  rw [hitems, List.mem_singleton] at hmem
  rw [hmem]
  rfl

/-- The frames a client that stays is written for these events and the `done` after them. -/
def responsesFrames (responseId : String) (events : List UnifiedStreamEvent) (reason : String) : List Frame :=
  responsesStream responseId ((events ++ [UnifiedStreamEvent.done reason]).map fun e => ⟨e, false⟩) (.left false)

/-- **What the stream conveys**: the text of its events, no call, and a completed response. -/
theorem conveyedByFrames_done (h : ∀ e ∈ events, e.isTerminal = false) (reason : String) :
    conveyedByFrames (responsesFrames responseId events reason) =
      ⟨(accumulate events).text, [], .json (.str "completed")⟩ := by
  have herrors : ∀ e ∈ events ++ [UnifiedStreamEvent.done reason], ∀ message code, e ≠ .error message code := by
    intro e he message code heq
    subst heq
    rcases List.mem_append.mp he with he | he
    · cases h _ he
    · cases List.mem_singleton.mp he
  have hvalues : (responsesFrames responseId events reason).filterMap Frame.value =
      (events ++ [UnifiedStreamEvent.done reason]).filterMap (responsesFrame responseId) := by
    unfold responsesFrames responsesStream responsesEnding
    rw [responsesLoop_events herrors, List.append_nil, values_data]
  have htext := @frameTexts_answer responseId (events ++ [UnifiedStreamEvent.done reason]) Answer.empty
  have hadded : ((events ++ [UnifiedStreamEvent.done reason]).foldl Answer.add Answer.empty).text =
      (accumulate events).text := by
    rw [List.foldl_append]
    rfl
  have hstatus : ((((events ++ [UnifiedStreamEvent.done reason]).filterMap (responsesFrame responseId)).map
      frameStatus).filter (·.isDefined)).getLastD .undefined = .json (.str "completed") := by
    have hlast : (([UnifiedStreamEvent.done reason].filterMap (responsesFrame responseId)).map
        frameStatus).filter (·.isDefined) = [.json (.str "completed")] := by
      simp [responsesFrame, frameStatus, JsValue.isDefined]
    rw [List.filterMap_append, List.map_append, List.filter_append, hlast, List.getLastD_concat]
  unfold conveyedByFrames
  rw [hvalues, calls_frames, hstatus, ← hadded, htext]
  show _ = Conveyed.mk ("" ++ _) _ _
  rw [String.empty_append]

end Frames

/-! ## Agreement -/

/-- The deltas of an index make up this call. -/
structure MergedCall.Is (merged : MergedCall) (call : UnifiedToolCall) : Prop where
  ids : merged.ids = [call.id]
  names : merged.names = [call.function.name]
  arguments : merged.arguments = deltaText call.function.arguments

/-- The events, none of which ends the stream, accumulate to the contents. -/
structure AddsUpTo (events : List UnifiedStreamEvent) (content : List UnifiedContent) : Prop where
  running : ∀ e ∈ events, e.isTerminal = false
  text : (accumulate events).text = turnText content
  calls : List.Forall₂ MergedCall.Is (accumulate events).calls (turnCalls content)

variable {response : UnifiedAiResponse} {deltas : List UnifiedStreamEvent}

/-- **The stream and the body convey the same** exactly when the answer has no tool call and is a completed
    one. -/
theorem responses_stream_agrees_iff (uuid : Nat → String) (created : Nat) (responseId : String)
    (htyped : Typed response.content) (hadds : AddsUpTo deltas response.content) :
    conveyedByFrames (responsesFrames responseId deltas response.finishReason) =
      conveyedByBody (formatResponsesResponse uuid created response) ↔
    turnCalls response.content = [] ∧ response.finishReason ≠ "length" ∧ response.finishReason ≠ "error" := by
  have htext := text_conveyedByBody uuid created htyped
  have hcalls := calls_conveyedByBody uuid created response
  have hstatus := status_conveyedByBody uuid created response
  rw [conveyedByFrames_done hadds.running, hadds.text]
  constructor
  · intro h
    rw [← h] at hcalls hstatus
    refine ⟨List.length_eq_zero_iff.mp hcalls.symm, ?_, ?_⟩
    · intro hlength
      rw [hlength] at hstatus
      simp at hstatus
    · intro herror
      rw [herror] at hstatus
      simp at hstatus
  · rintro ⟨hnone, hlength, herror⟩
    rw [if_neg herror, if_neg hlength] at hstatus
    rw [hnone] at hcalls
    generalize conveyedByBody (formatResponsesResponse uuid created response) = conveyed
      at htext hcalls hstatus ⊢
    obtain ⟨text, calls, status⟩ := conveyed
    obtain rfl : calls = [] := List.length_eq_zero_iff.mp hcalls
    subst htext hstatus
    rfl

/-- A one-word answer that ended for this reason. -/
def oneWord (finishReason : String) : UnifiedAiResponse where
  id := .json (.str "r1")
  model := .json (.str "gpt-4o")
  provider := "openai"
  content := [.text (.json (.str "Hel"))]
  finishReason := finishReason
  usage := ⟨.undefined, .undefined, .undefined⟩
  latencyMs := 0

theorem typed_oneWord (finishReason : String) : Typed (oneWord finishReason).content :=
  ⟨fun text h => by
    obtain rfl := UnifiedContent.text.inj (List.mem_singleton.mp h)
    exact Or.inr rfl, fun call h => absurd h List.not_mem_nil⟩

theorem addsUpTo_oneWord (finishReason : String) :
    AddsUpTo [.contentDelta (.json (.str "Hel"))] (oneWord finishReason).content where
  running := by decide
  text := rfl
  calls := List.Forall₂.nil

/-- A text in three pieces, with usage between them. -/
def pieces : List UnifiedStreamEvent :=
  [.contentDelta (.json (.str "Hel")), .contentDelta (.json (.str "lo, ")),
    .usage ⟨.json (.num 3), .json (.num 2), .json (.num 5)⟩, .contentDelta (.json (.str "Ada"))]

/-- The answer they make, ended for this reason. -/
def whole (finishReason : String) : UnifiedAiResponse :=
  { oneWord finishReason with content := [.text (.json (.str "Hello, Ada"))] }

theorem typed_whole (finishReason : String) : Typed (whole finishReason).content :=
  ⟨fun text h => by
    obtain rfl := UnifiedContent.text.inj (List.mem_singleton.mp h)
    exact Or.inr rfl, fun call h => absurd h List.not_mem_nil⟩

theorem addsUpTo_whole (finishReason : String) : AddsUpTo pieces (whole finishReason).content where
  running := by decide
  text := rfl
  calls := List.Forall₂.nil

/-- The pieces convey what the body does, unless the answer was cut short. -/
theorem responses_stream_agrees_iff_pieces :
    conveyedByFrames (responsesFrames "resp_1" pieces "stop") =
        conveyedByBody (formatResponsesResponse (fun _ => "u") 0 (whole "stop")) ∧
      conveyedByFrames (responsesFrames "resp_1" pieces "length") ≠
        conveyedByBody (formatResponsesResponse (fun _ => "u") 0 (whole "length")) := by
  have hstop := responses_stream_agrees_iff (fun _ => "u") 0 "resp_1" (typed_whole "stop") (addsUpTo_whole "stop")
  have hlength :=
    responses_stream_agrees_iff (fun _ => "u") 0 "resp_1" (typed_whole "length") (addsUpTo_whole "length")
  exact ⟨hstop.mpr ⟨rfl, by decide, by decide⟩, fun h => (hlength.mp h).2.1 rfl⟩

/-- A body with one content delta that the token limit cuts short. -/
def lengthBody : HttpBody :=
  ⟨["data: \x7b\"choices\":[\x7b\"delta\":\x7b\"content\":\"Hel\"\x7d,\"finish_reason\":\"length\"\x7d]\x7d\n"],
    .closed⟩

/-- **An answer cut short streams as a completed one.** -/
theorem cut_short_streams_completed :
    ¬ ∀ (env : Env) (request : UnifiedAiRequest) (chain : List ChainEntry) (w : World)
        (uuid : Nat → String) (created : Nat) (responseId : String) (response : UnifiedAiResponse)
        (deltas : List UnifiedStreamEvent), Typed response.content → AddsUpTo deltas response.content →
      (received (streamOverChain env request chain w).actions).map Prod.snd =
        deltas ++ [.done response.finishReason] →
      conveyedByFrames (responsesFrames responseId deltas response.finishReason) =
        conveyedByBody (formatResponsesResponse uuid created response) := by
  intro h
  have hrun : (received (streamOverChain
      ((steadyUpstream (.responded ⟨200, "OK", some lengthBody⟩)).drained plainEnv) emptyRequest [openAiEntry]
      freshWorld).actions).map Prod.snd =
      [.contentDelta (.json (.str "Hel"))] ++ [.done (oneWord "length").finishReason] := by decide +kernel
  have hsame := h _ emptyRequest [openAiEntry] freshWorld (fun _ => "u") 0 "resp_1" (oneWord "length") _
    (typed_oneWord "length") (addsUpTo_oneWord "length") hrun
  rw [conveyedByFrames_done (addsUpTo_oneWord "length").running] at hsame
  have hstatus := status_conveyedByBody (fun _ => "u") 0 (oneWord "length")
  rw [← hsame] at hstatus
  exact absurd hstatus (by decide)

end Sirius
