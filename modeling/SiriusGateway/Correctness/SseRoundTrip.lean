import SiriusGateway.Compat.Format
import SiriusGateway.Correctness.Chunking
import SiriusGateway.Js.RoundTrip

/-!
# `Correctness.SseRoundTrip` — the OpenAI parser undoes the SSE encoder

The gateway writes a client's stream with `formatSSE`, and reads an OpenAI upstream's with
`parseOpenAiStream`. A gateway put behind a gateway therefore sees the events of the inner one
(`parseOpenAiStream_streamFrames`), whatever the strings in them.

## Contents
- **Frames.** `streamFrames`, and the lines a body of frames has (`lines_frames`).
- **Events.** `Encodable` and `decoded`: what comes back of an event.
- **One frame.** `processLine_frame`, by cases on the event.
- **The stream.**
-/

namespace Sirius

open Js Compat

/-! ## Frames -/

/-- The frames of a stream: the role chunk, a chunk for every event that has one, and the sentinel. `clock k` is
    the time at which the `k`-th chunk is built. -/
def streamFrames (clock : Nat → Nat) (responseId : String) (model : Json) (events : List UnifiedStreamEvent) :
    List String :=
  formatSSE (formatFirstStreamChunk (clock 0) responseId model) ::
    ((events.zipIdx 1).filterMap fun e =>
      (formatStreamChunk (clock e.2) e.1 responseId model).map formatSSE) ++ [formatSSEDone]

theorem splitLines_line {line : String} (h : '\n' ∉ line.toList) (rest : String) :
    splitLines (line ++ "\n" ++ rest) = line :: splitLines rest := by
  have hcut : (line ++ "\n" ++ rest).toList = line.toList ++ '\n' :: rest.toList := by
    simp [String.toList_append]
  unfold splitLines
  rw [hcut, List.splitOn_append_cons_self_of_not_mem h, List.map_cons, String.ofList_toList]

/-- **The lines of frames**: each is a line and a blank line, and nothing is left over. -/
theorem splitLines_frames {lines : List String} (h : ∀ line ∈ lines, '\n' ∉ line.toList) :
    splitLines (String.ofList ((lines.map (· ++ "\n\n")).flatMap String.toList)) =
      lines.flatMap (fun line => [line, ""]) ++ [""] := by
  induction lines with
  | nil => rfl
  | cons line lines ih =>
      have hframe : String.ofList (((line :: lines).map (· ++ "\n\n")).flatMap String.toList) =
          line ++ "\n" ++ ("" ++ "\n" ++ String.ofList ((lines.map (· ++ "\n\n")).flatMap String.toList)) := by
        apply String.toList_injective
        simp [String.toList_append]
      rw [hframe, splitLines_line (h line List.mem_cons_self), splitLines_line (by simp),
        ih fun l hl => h l (List.mem_cons_of_mem line hl)]
      rfl

theorem lines_frames {lines : List String} (h : ∀ line ∈ lines, '\n' ∉ line.toList) {body : HttpBody}
    (htext : body.text = String.ofList ((lines.map (· ++ "\n\n")).flatMap String.toList)) :
    body.lines = lines.flatMap fun line => [line, ""] := by
  unfold HttpBody.lines
  rw [htext, splitLines_frames h]
  have hblank : trim "" = "" := by decide
  simp [hblank]

/-- A line that no white space surrounds is its own trimmed text. -/
theorem trim_eq_self {line : String} {b c : Char} {more : List Char} (htext : line.toList = b :: (more ++ [c]))
    (hb : isSpace b = false) (hc : isSpace c = false) : trim line = line := by
  unfold trim trimChars
  rw [htext, List.dropWhile_cons_of_neg (by simp [hb])]
  have hreverse : (b :: (more ++ [c])).reverse = c :: (b :: more).reverse := by simp
  rw [hreverse, List.dropWhile_cons_of_neg (by simp [hc]), ← hreverse, List.reverse_reverse, ← htext,
    String.ofList_toList]

theorem trim_frame {text : String} {c : Char} {more : List Char} (htext : text.toList = more ++ [c])
    (hc : isSpace c = false) : trim ("data: " ++ text) = "data: " ++ text := by
  have hlist : ("data: " ++ text).toList = 'd' :: (("ata: ".toList ++ more) ++ [c]) := by
    rw [String.toList_append, htext]
    simp
  exact trim_eq_self hlist (by decide) hc

/-- The payload of a `data:` line is what follows the prefix. -/
theorem sseData_frame {text : String} {c : Char} {more : List Char} (htext : text.toList = more ++ [c])
    (hc : isSpace c = false) : sseData ("data: " ++ text) = some text := by
  have hlist : ("data: " ++ text).toList = "data: ".toList ++ text.toList := String.toList_append
  have hskip : ¬ ("data: " ++ text = "" ∨ ("data: " ++ text).startsWith ":" = true) := by
    rintro (hempty | hcolon)
    · rw [hempty] at hlist
      simp at hlist
    · rw [String.startsWith_string_iff, hlist] at hcolon
      simp at hcolon
  have hdata : ("data: " ++ text).startsWith "data: " = true := by
    rw [String.startsWith_string_iff, hlist]
    exact List.prefix_append _ _
  unfold sseData
  simp only [trim_frame htext hc]
  have hdrop : ("data: ".toList ++ text.toList).drop 6 = text.toList := List.drop_left' rfl
  rw [if_neg hskip, if_pos hdata, hlist, hdrop, String.ofList_toList]

/-- The text of an object stands between braces. -/
theorem stringify_obj_braces (fields : List (String × Json)) :
    ∃ inner, (stringify (.obj fields)).toList = '\x7b' :: (inner ++ ['\x7d']) := by
  rw [stringify_obj]
  exact ⟨(",".intercalate ((enumerationOrder fields).map memberText)).toList, by
    simp [String.toList_append]⟩

theorem sseData_object (fields : List (String × Json)) :
    sseData ("data: " ++ stringify (.obj fields)) = some (stringify (.obj fields)) := by
  obtain ⟨inner, hinner⟩ := stringify_obj_braces fields
  exact sseData_frame (hinner.trans (List.cons_append ..).symm) (by decide)

/-- **A frame's line is processed as the chunk in it.** -/
theorem processLine_frame {fields : List (String × Json)} (h : (Json.obj fields).Plain) :
    OpenAi.processLine ("data: " ++ stringify (.obj fields)) = OpenAi.processChunk (.obj fields) := by
  obtain ⟨inner, hinner⟩ := stringify_obj_braces fields
  have hdata := sseData_object fields
  have hdone : stringify (.obj fields) ≠ "[DONE]" := by
    intro heq
    rw [heq] at hinner
    simp at hinner
  unfold OpenAi.processLine
  simp only [hdata]
  rw [if_neg hdone, jsonParse_stringify_plain h]

/-- A printed value has no line break in it. -/
theorem newline_not_mem_frame (v : Json) : '\n' ∉ ("data: " ++ stringify v).toList := by
  intro hmem
  rw [String.toList_append] at hmem
  rcases List.mem_append.mp hmem with hmem | hmem
  · exact absurd hmem (by decide)
  · exact absurd (oneLine_stringify v _ hmem) (by decide)

/-- A body of frames. -/
def frameBody (values : List Json) : HttpBody := ⟨values.map formatSSE, .closed⟩

theorem lines_frameBody (values : List Json) :
    (frameBody values).lines = values.flatMap fun v => ["data: " ++ stringify v, ""] := by
  have hnewline : ∀ line ∈ values.map fun v => "data: " ++ stringify v, '\n' ∉ line.toList := by
    intro line hline
    obtain ⟨v, -, rfl⟩ := List.mem_map.mp hline
    exact newline_not_mem_frame v
  have htext : (frameBody values).text = String.ofList
      (((values.map fun v => "data: " ++ stringify v).map (· ++ "\n\n")).flatMap String.toList) := by
    show String.ofList ((values.map formatSSE).flatMap String.toList) = _
    rw [List.map_map]
    rfl
  rw [lines_frames hnewline htext, List.flatMap_map]

/-- A body of lines, each a printed value. -/
def lineBody (values : List Json) : HttpBody := ⟨values.map fun v => stringify v ++ "\n", .closed⟩

theorem lines_lineBody (values : List Json) : (lineBody values).lines = values.map stringify := by
  have hsplit : splitLines (lineBody values).text = values.map stringify ++ [""] := by
    show splitLines (String.ofList ((values.map fun v => stringify v ++ "\n").flatMap String.toList)) = _
    induction values with
    | nil => rfl
    | cons v rest ih =>
        have hnewline : '\n' ∉ (stringify v).toList := fun hmem =>
          absurd (oneLine_stringify v _ hmem) (by decide)
        have hline : String.ofList (((v :: rest).map fun v => stringify v ++ "\n").flatMap String.toList) =
            stringify v ++ "\n" ++
              String.ofList ((rest.map fun v => stringify v ++ "\n").flatMap String.toList) := by
          apply String.toList_injective
          simp [String.toList_append]
        rw [hline, splitLines_line hnewline, ih]
        rfl
  have hblank : trim "" = "" := by decide
  unfold HttpBody.lines
  rw [hsplit]
  simp [hblank]

theorem trim_object (fields : List (String × Json)) :
    trim (stringify (.obj fields)) = stringify (.obj fields) := by
  obtain ⟨inner, hinner⟩ := stringify_obj_braces fields
  exact trim_eq_self hinner (by decide) (by decide)

/-! ## Events -/

/-- The event has the types its interface declares, its numbers finite; `done` carries a reason OpenAI has a
    word for. -/
def Encodable : UnifiedStreamEvent → Prop
  | .contentDelta delta => ∃ s, delta = .json (.str s)
  | .toolCallDelta index id name argumentsDelta =>
      (∃ q, Decimal q ∧ index = .json (.num q)) ∧
        ∀ v ∈ [id, name, argumentsDelta], v = .undefined ∨ ∃ s, v = .json (.str s)
  | .usage usage =>
      ∀ v ∈ [usage.inputTokens, usage.outputTokens, usage.totalTokens], ∃ q, Decimal q ∧ v = .json (.num q)
  | .done finishReason => finishReason ∈ ["stop", "length", "tool_calls", "content_filter"]
  | .error _ _ => False

/-- The event has the types its interface declares, its numbers finite; a `done` may carry any reason. -/
def AsDeclared : UnifiedStreamEvent → Prop
  | .contentDelta delta => ∃ s, delta = .json (.str s)
  | .toolCallDelta index id name argumentsDelta =>
      (∃ q, Decimal q ∧ index = .json (.num q)) ∧
        ∀ v ∈ [id, name, argumentsDelta], v = .undefined ∨ ∃ s, v = .json (.str s)
  | .usage usage =>
      ∀ v ∈ [usage.inputTokens, usage.outputTokens, usage.totalTokens], ∃ q, Decimal q ∧ v = .json (.num q)
  | .done _ => True
  | .error _ _ => True

theorem Encodable.asDeclared {event : UnifiedStreamEvent} (h : Encodable event) : AsDeclared event := by
  cases event with
  | contentDelta delta => exact h
  | toolCallDelta index id name argumentsDelta => exact h
  | usage usage => exact h
  | done finishReason => trivial
  | error error code => trivial

/-- What comes back of an event: empty text is nothing, and an empty field of a tool call is absent. -/
def decoded : UnifiedStreamEvent → Option UnifiedStreamEvent
  | .contentDelta delta => if delta.truthy then some (.contentDelta delta) else none
  | .toolCallDelta index id name argumentsDelta =>
      some (.toolCallDelta index id.whenTruthy name.whenTruthy argumentsDelta.whenTruthy)
  | event => some event

/-- What comes back of a finish reason. A reason OpenAI has no word for is written as `stop` or `error`, and
    both are read as `stop`; the name of a method every object inherits is looked up as that method, which is
    left out on the wire, and no `done` comes back. -/
def rereadReason (reason : String) : Option String :=
  if reason ∈ ["stop", "length", "tool_calls", "content_filter"] then some reason
  else if reason ≠ "__proto__" ∧ reason ∈ inheritedMembers.map Prod.fst then none
  else some "stop"

/-- What comes back of an event whose `done` may carry any reason. -/
def reread : UnifiedStreamEvent → Option UnifiedStreamEvent
  | .done finishReason => (rereadReason finishReason).map .done
  | event => decoded event

/-- An encodable event keeps its reason. -/
theorem Encodable.reread_eq {event : UnifiedStreamEvent} (h : Encodable event) : reread event = decoded event := by
  cases event with
  | done finishReason =>
      have hfour : finishReason ∈ ["stop", "length", "tool_calls", "content_filter"] := h
      rw [reread, rereadReason, if_pos hfour]
      rfl
  | contentDelta delta => rfl
  | toolCallDelta index id name argumentsDelta => rfl
  | usage usage => rfl
  | error error code => rfl

/-! ## The chunk of an event -/

theorem plain_streamChunk {created : Nat} {responseId model : String} {rest : List (String × JsValue)}
    (hkeys : (["id", "object", "created", "model"] ++ rest.map (·.1)).Nodup)
    (h : ∀ f ∈ rest, arrayIndex f.1 = none ∧ f.2.Plain) :
    (streamChunk created responseId (.str model) rest).Plain := by
  have hnames : arrayIndex "id" = none ∧ arrayIndex "object" = none ∧ arrayIndex "created" = none ∧
      arrayIndex "model" = none := by decide
  apply plain_wireObject
  · rw [List.map_append]
    exact hkeys
  · rw [List.forall_mem_append]
    refine ⟨?_, h⟩
    simp [hnames]

theorem plain_choices {delta : Json} {finishReason : JsValue} (hdelta : delta.Plain)
    (hreason : finishReason.Plain) : (streamChoice delta finishReason).Plain := by
  have hnames : arrayIndex "index" = none ∧ arrayIndex "delta" = none ∧
      arrayIndex "finish_reason" = none := by decide
  have hzero : (Json.num 0).Plain := plain_natCast 0
  apply plainValue_json.mpr
  apply plain_arr
  intro v hv
  rw [List.mem_singleton.mp hv]
  apply plain_wireObject
  · show ["index", "delta", "finish_reason"].Nodup
    decide
  · simp [hnames, hzero, hdelta, hreason]

/-- One property, its value plain. -/
theorem plain_single {key : String} {v : JsValue} (hkey : arrayIndex key = none) (hv : v.Plain) :
    (wireObject [(key, v)]).Plain := by
  apply plain_wireObject
  · exact List.nodup_cons.mpr ⟨List.not_mem_nil, List.nodup_nil⟩
  · simp [hkey, hv]

theorem plain_choicesChunk {created : Nat} {responseId model : String} {choices : JsValue}
    (h : choices.Plain) : (streamChunk created responseId (.str model) [("choices", choices)]).Plain := by
  have hname : arrayIndex "choices" = none := by decide
  apply plain_streamChunk
  · show ["id", "object", "created", "model", "choices"].Nodup
    decide
  · simp [hname, h]

theorem plain_toolCallDelta {index id name argumentsDelta : JsValue} (hindex : index.Plain)
    (hid : id.Plain) (hname : name.Plain) (harguments : argumentsDelta.Plain) :
    (formatToolCallDelta index id name argumentsDelta).Plain := by
  have hnames : arrayIndex "index" = none ∧ arrayIndex "id" = none ∧ arrayIndex "type" = none ∧
      arrayIndex "function" = none ∧ arrayIndex "name" = none ∧ arrayIndex "arguments" = none := by decide
  have htype : (if name.truthy || id.truthy then .json (.str "function") else .undefined : JsValue).Plain := by
    split <;> simp
  have hfunction : (wireObject [("name", name.whenTruthy), ("arguments", argumentsDelta.whenTruthy)]).Plain := by
    apply plain_wireObject
    · show ["name", "arguments"].Nodup
      decide
    · simp [hnames, hname.whenTruthy, harguments.whenTruthy]
  apply plain_wireObject
  · show ["index", "id", "type", "function"].Nodup
    decide
  · simp only [List.forall_mem_cons, hnames, true_and]
    exact ⟨hindex, hid.whenTruthy, htype, plainValue_json.mpr hfunction, fun f hf => absurd hf List.not_mem_nil⟩

@[simp] theorem truthy_wireObject (fields : List (String × JsValue)) :
    (wireObject fields).truthy = true := rfl

/-- A chunk with one choice: its delta and its finish reason are processed. -/
theorem processChunk_choice (created : Nat) (responseId : String) (model : Json)
    (delta : List (String × JsValue)) {finishReason : JsValue} (hreason : finishReason ≠ .nan) :
    OpenAi.processChunk (streamChunk created responseId model
        [("choices", streamChoice (wireObject delta) finishReason)]) = (do
      OpenAi.yieldContent ((wireObject delta).prop "content")
      OpenAi.yieldToolCallDeltas ((wireObject delta).prop "tool_calls")
      OpenAi.yieldDone finishReason) := by
  have husage : OpenAi.toUsageEvent (streamChunk created responseId model
      [("choices", streamChoice (wireObject delta) finishReason)]) = .ok none := by
    simp [OpenAi.toUsageEvent, streamChunk]
    rfl
  have hchoice : first ((streamChunk created responseId model
      [("choices", streamChoice (wireObject delta) finishReason)]).prop "choices") =
      .json (wireObject [("index", .json (.num 0)), ("delta", .json (wireObject delta)),
        ("finish_reason", finishReason)]) := by
    simp [streamChunk, streamChoice, first]
  unfold OpenAi.processChunk OpenAi.processChoice
  rw [husage, hchoice, Gen.lift_ok]
  simp [OpenAi.yieldUsage, Gen.lift_ok, elim_onWire hreason]

/-- An optional string is plain, and what is sent of it arrives. -/
theorem optional_string {v : JsValue} (h : v = .undefined ∨ ∃ s, v = .json (.str s)) :
    v.Plain ∧ v.whenTruthy.onWire.elim .undefined .json = v.whenTruthy := by
  rcases h with rfl | ⟨s, rfl⟩
  · exact ⟨plainValue_undefined, rfl⟩
  · refine ⟨plainValue_json.mpr (plain_str s), elim_onWire ?_⟩
    unfold JsValue.whenTruthy
    split <;> exact JsValue.noConfusion

/-- A chunk of token counts: the usage is yielded. -/
theorem processChunk_usage (created : Nat) (responseId : String) (model : Json) (p c t : Rat) :
    OpenAi.processChunk (streamChunk created responseId model [("choices", .json (.arr [])),
        ("usage", .json (wireObject [("prompt_tokens", .json (.num p)), ("completion_tokens", .json (.num c)),
          ("total_tokens", .json (.num t))]))]) =
      Gen.yield (.usage ⟨.json (.num p), .json (.num c), .json (.num t)⟩) := by
  simp [OpenAi.processChunk, OpenAi.toUsageEvent, first, OpenAi.yieldUsage, streamChunk]
  rfl

theorem yieldDone_of {written : JsValue} {reason : String}
    (h : written.truthy = true ∧ OpenAi.mapFinishReason written = .ok reason) :
    OpenAi.yieldDone written = ⟨[.done reason], .ok ()⟩ := by
  unfold OpenAi.yieldDone
  rw [if_pos h.1, h.2, Gen.lift_ok]
  rfl

/-- What is written of a reason can be read, and what `yieldDone` makes of it. -/
theorem toOpenAiFinishReason_reread (reason : String) :
    ((toOpenAiFinishReason reason).Plain ∧ toOpenAiFinishReason reason ≠ .nan) ∧
      OpenAi.yieldDone (toOpenAiFinishReason reason) =
        ⟨((rereadReason reason).map UnifiedStreamEvent.done).toList, .ok ()⟩ := by
  have hwords : ∀ word ∈ ["stop", "length", "tool_calls", "content_filter"],
      (JsValue.json (.str word)).truthy = true ∧ OpenAi.mapFinishReason (.json (.str word)) = .ok word := by decide
  have hstops : ∀ written ∈ [Json.str "error", .obj []],
      (JsValue.json written).truthy = true ∧ OpenAi.mapFinishReason (.json written) = .ok "stop" := by decide
  unfold toOpenAiFinishReason rereadReason
  by_cases hfour : reason ∈ ["stop", "length", "tool_calls", "content_filter"]
  · have hfive : reason ∈ ["stop", "length", "tool_calls", "content_filter", "error"] :=
      List.mem_append_left ["error"] hfour
    rw [if_pos hfive, if_pos hfour]
    exact ⟨⟨by simp, JsValue.noConfusion⟩, yieldDone_of (hwords reason hfour)⟩
  rw [if_neg hfour]
  by_cases herror : reason = "error"
  · subst herror
    exact ⟨⟨by simp, JsValue.noConfusion⟩, yieldDone_of (hstops (.str "error") (by decide))⟩
  have hfive : reason ∉ ["stop", "length", "tool_calls", "content_filter", "error"] := fun h =>
    (List.mem_append.mp h).elim hfour fun h => herror (List.mem_singleton.mp h)
  rw [if_neg hfive]
  by_cases hproto : reason = "__proto__"
  · subst hproto
    have hempty : (wireObject []).Plain := plain_wireObject List.nodup_nil (by simp)
    exact ⟨⟨plainValue_json.mpr hempty, JsValue.noConfusion⟩, yieldDone_of (hstops (.obj []) (by decide))⟩
  rw [if_neg hproto]
  by_cases hinherited : reason ∈ inheritedMembers.map Prod.fst
  · rw [if_pos hinherited, if_pos ⟨hproto, hinherited⟩]
    exact ⟨⟨plainValue_undefined, JsValue.noConfusion⟩, rfl⟩
  · rw [if_neg hinherited, if_neg fun h => hinherited h.2]
    exact ⟨⟨by simp, JsValue.noConfusion⟩, yieldDone_of (hwords "stop" (by decide))⟩

/-- The chunk of a `done`, whatever its reason: what is written of the reason is read back as `rereadReason`. -/
theorem processChunk_done (finishReason : String) (created : Nat) (responseId model : String) :
    ∃ fields, formatStreamChunk created (.done finishReason) responseId (.str model) = some (.obj fields) ∧
      (Json.obj fields).Plain ∧
      OpenAi.processChunk (.obj fields) = ⟨(reread (.done finishReason)).toList, .ok ()⟩ := by
  have hempty : (wireObject []).Plain := plain_wireObject List.nodup_nil (by simp)
  obtain ⟨hwritten, hread⟩ := toOpenAiFinishReason_reread finishReason
  refine ⟨_, rfl, plain_choicesChunk (plain_choices hempty hwritten.1), ?_⟩
  refine (processChunk_choice created responseId _ _ hwritten.2).trans ?_
  simp only [OpenAi.yieldContent, OpenAi.yieldToolCallDeltas, prop_wireObject_nil, truthy_undefined,
    Bool.false_eq_true, if_false, pure_bind, hread, reread]

/-- The chunk of a text: an empty one yields nothing. -/
theorem processChunk_content (text : String) (created : Nat) (responseId model : String) :
    ∃ fields, formatStreamChunk created (.contentDelta (.json (.str text))) responseId (.str model) =
        some (.obj fields) ∧ (Json.obj fields).Plain ∧
      OpenAi.processChunk (.obj fields) = ⟨(reread (.contentDelta (.json (.str text)))).toList, .ok ()⟩ := by
  have hname : arrayIndex "content" = none := by decide
  refine ⟨_, rfl, plain_choicesChunk (plain_choices (plain_single hname (by simp)) (by simp)), ?_⟩
  refine (processChunk_choice created responseId _ _ JsValue.noConfusion).trans ?_
  unfold reread decoded OpenAi.yieldContent
  by_cases htext : (JsValue.json (.str text)).truthy = true
  · simp [htext, OpenAi.yieldToolCallDeltas, OpenAi.yieldDone, Json.truthy]
    rfl
  · simp [htext, OpenAi.yieldToolCallDeltas, OpenAi.yieldDone, Json.truthy]
    rfl

/-- The chunk of a fragment of a tool call: its index comes back, and each of its strings but an empty one. -/
theorem processChunk_toolCall {q : Rat} (hq : Decimal q) {id name argumentsDelta : JsValue}
    (hfields : ∀ v ∈ [id, name, argumentsDelta], v = .undefined ∨ ∃ s, v = .json (.str s)) (created : Nat)
    (responseId model : String) :
    ∃ fields, formatStreamChunk created (.toolCallDelta (.json (.num q)) id name argumentsDelta) responseId
        (.str model) = some (.obj fields) ∧ (Json.obj fields).Plain ∧
      OpenAi.processChunk (.obj fields) =
        ⟨(reread (.toolCallDelta (.json (.num q)) id name argumentsDelta)).toList, .ok ()⟩ := by
  obtain ⟨hid, hidWire⟩ := optional_string (hfields id (by simp))
  obtain ⟨hfn, hnameWire⟩ := optional_string (hfields name (by simp))
  obtain ⟨harguments, hargumentsWire⟩ := optional_string (hfields argumentsDelta (by simp))
  have hname : arrayIndex "tool_calls" = none := by decide
  have hcall := plain_toolCallDelta (plainValue_json.mpr (plain_num hq)) hid hfn harguments
  have hcalls : (JsValue.json (.arr [formatToolCallDelta (.json (.num q)) id name argumentsDelta])).Plain :=
    plainValue_json.mpr (plain_arr fun v hv => List.mem_singleton.mp hv ▸ hcall)
  refine ⟨_, rfl, plain_choicesChunk (plain_choices (plain_single hname hcalls) (by simp)), ?_⟩
  refine (processChunk_choice created responseId _ _ JsValue.noConfusion).trans ?_
  have horElse : (JsValue.json (.num q)).orElse (.json (.num 0)) = .json (.num q) := rfl
  simp [OpenAi.yieldContent, OpenAi.yieldToolCallDeltas, iterate, OpenAi.yieldDone, Json.truthy, reread, decoded,
    Gen.lift_ok, OpenAi.yieldToolCalls, OpenAi.yieldToolCall, formatToolCallDelta, hidWire, hnameWire,
    hargumentsWire, horElse]
  rfl

/-- The chunk of token counts: they come back. -/
theorem processChunk_counts {p c n : Rat} (hp : Decimal p) (hc : Decimal c) (hn : Decimal n) (created : Nat)
    (responseId model : String) :
    ∃ fields, formatStreamChunk created (.usage ⟨.json (.num p), .json (.num c), .json (.num n)⟩) responseId
        (.str model) = some (.obj fields) ∧ (Json.obj fields).Plain ∧
      OpenAi.processChunk (.obj fields) =
        ⟨(reread (.usage ⟨.json (.num p), .json (.num c), .json (.num n)⟩)).toList, .ok ()⟩ := by
  have hnames : arrayIndex "choices" = none ∧ arrayIndex "usage" = none ∧
      arrayIndex "prompt_tokens" = none ∧ arrayIndex "completion_tokens" = none ∧
      arrayIndex "total_tokens" = none := by decide
  have husage : (wireObject [("prompt_tokens", .json (.num p)), ("completion_tokens", .json (.num c)),
      ("total_tokens", .json (.num n))]).Plain := by
    apply plain_wireObject
    · show ["prompt_tokens", "completion_tokens", "total_tokens"].Nodup
      decide
    · simp [hnames, plain_num hp, plain_num hc, plain_num hn]
  have hchoices : (Json.arr []).Plain := plain_arr fun v hv => absurd hv List.not_mem_nil
  refine ⟨_, rfl, plain_streamChunk ?_ ?_, processChunk_usage created responseId _ p c n⟩
  · show ["id", "object", "created", "model", "choices", "usage"].Nodup
    decide
  · simp [hnames, husage, hchoices]

/-- **A frame carries its event**: the chunk of an event as its interface declares it is read back, and
    processing it yields what `reread` says. -/
theorem processChunk_asDeclared {event : UnifiedStreamEvent} (h : AsDeclared event) {created : Nat}
    {responseId model : String} {chunk : Json}
    (hchunk : formatStreamChunk created event responseId (.str model) = some chunk) :
    ∃ fields, chunk = .obj fields ∧ (Json.obj fields).Plain ∧
      OpenAi.processChunk (.obj fields) = ⟨(reread event).toList, .ok ()⟩ := by
  have hwritten : ∃ fields, formatStreamChunk created event responseId (.str model) = some (.obj fields) ∧
      (Json.obj fields).Plain ∧ OpenAi.processChunk (.obj fields) = ⟨(reread event).toList, .ok ()⟩ := by
    cases event with
    | contentDelta delta =>
        obtain ⟨text, rfl⟩ := h
        exact processChunk_content text created responseId model
    | toolCallDelta index id name argumentsDelta =>
        obtain ⟨⟨q, hq, rfl⟩, hfields⟩ := h
        exact processChunk_toolCall hq hfields created responseId model
    | usage usage =>
        obtain ⟨p, hp, hinput⟩ := h usage.inputTokens (by simp)
        obtain ⟨c, hc, houtput⟩ := h usage.outputTokens (by simp)
        obtain ⟨n, hn, htotal⟩ := h usage.totalTokens (by simp)
        obtain ⟨input, output, total⟩ := usage
        obtain rfl : input = .json (.num p) := hinput
        obtain rfl : output = .json (.num c) := houtput
        obtain rfl : total = .json (.num n) := htotal
        exact processChunk_counts hp hc hn created responseId model
    | done finishReason => exact processChunk_done finishReason created responseId model
    | error error code => cases hchunk
  obtain ⟨fields, hfields, hrest⟩ := hwritten
  exact ⟨fields, Option.some.inj (hchunk.symm.trans hfields), hrest⟩

/-- Every event but an error is written. -/
theorem formatStreamChunk_of_encodable {event : UnifiedStreamEvent} (h : Encodable event) (created : Nat)
    (responseId : String) (model : Json) :
    ∃ chunk, formatStreamChunk created event responseId model = some chunk := by
  cases event with
  | contentDelta delta => exact ⟨_, rfl⟩
  | toolCallDelta index id name argumentsDelta => exact ⟨_, rfl⟩
  | usage usage => exact ⟨_, rfl⟩
  | done finishReason => exact ⟨_, rfl⟩
  | error error code => exact absurd h fun h => h

/-- The chunk of an encodable event yields what `decoded` says. -/
theorem processChunk_streamChunk {event : UnifiedStreamEvent} (h : Encodable event) (created : Nat)
    (responseId model : String) :
    ∃ fields, formatStreamChunk created event responseId (.str model) = some (.obj fields) ∧
      (Json.obj fields).Plain ∧
      OpenAi.processChunk (.obj fields) = ⟨(decoded event).toList, .ok ()⟩ := by
  obtain ⟨chunk, hchunk⟩ := formatStreamChunk_of_encodable h created responseId (.str model)
  obtain ⟨fields, rfl, hplain, hprocess⟩ := processChunk_asDeclared h.asDeclared hchunk
  rw [h.reread_eq] at hprocess
  exact ⟨fields, hchunk, hplain, hprocess⟩

/-! ## The stream -/

/-- The line goes through, and yields these events. -/
def Yields (line : String) (events : List UnifiedStreamEvent) : Prop :=
  OpenAi.processLine line = ⟨events, .ok ()⟩

theorem yields_blank : Yields "" [] := by
  have hdata : sseData "" = none := by decide
  unfold Yields OpenAi.processLine
  rw [hdata]
  rfl

theorem yields_done : Yields "data: [DONE]" [] := by
  have htext : "[DONE]".toList = "[DONE".toList ++ [']'] := rfl
  have hdata : sseData ("data: " ++ "[DONE]") = some "[DONE]" := sseData_frame htext (by decide)
  unfold Yields OpenAi.processLine
  rw [show "data: [DONE]" = "data: " ++ "[DONE]" from rfl, hdata]
  rfl

/-- The role chunk carries no event. -/
theorem yields_first (created : Nat) (responseId model : String) :
    Yields ("data: " ++ stringify (formatFirstStreamChunk created responseId (.str model))) [] := by
  have hname : arrayIndex "role" = none := by decide
  have hplain : (formatFirstStreamChunk created responseId (.str model)).Plain :=
    plain_choicesChunk (plain_choices (plain_single hname (by simp)) (by simp))
  refine (processLine_frame hplain).trans ((processChunk_choice created responseId _ _ JsValue.noConfusion).trans ?_)
  simp [OpenAi.yieldContent, OpenAi.yieldToolCallDeltas, OpenAi.yieldDone, Json.truthy]
  rfl

/-- Lines in frames yield what they yield one by one. -/
theorem processLines_frames {frames : List (String × List UnifiedStreamEvent)}
    (h : ∀ frame ∈ frames, Yields frame.1 frame.2) :
    OpenAi.parser.processLines (frames.flatMap fun frame => [frame.1, ""]) () =
      ⟨frames.flatMap Prod.snd, .ok ()⟩ := by
  induction frames with
  | nil => rfl
  | cons frame frames ih =>
      have hframe : OpenAi.processLine frame.1 = _ := h frame List.mem_cons_self
      have hblank : OpenAi.processLine "" = _ := yields_blank
      have hrest := ih fun f hf => h f (List.mem_cons_of_mem frame hf)
      simp only [List.flatMap_cons, List.cons_append, List.nil_append, LineParser.processLines,
        OpenAi.parser_processLine, hframe, hblank]
      rw [Gen.bind_of_ok rfl, Gen.bind_of_ok rfl, hrest]
      rfl

/-- The frames of the events, with what their lines yield. -/
theorem frames_of_events (clock : Nat → Nat) (responseId model : String) {events : List UnifiedStreamEvent}
    (h : ∀ e ∈ events, Encodable e) (k : Nat) :
    ∃ frames : List (String × List UnifiedStreamEvent),
      (events.zipIdx k).filterMap (fun e =>
        (formatStreamChunk (clock e.2) e.1 responseId (.str model)).map formatSSE) =
          frames.map (fun frame => frame.1 ++ "\n\n") ∧
      (∀ frame ∈ frames, '\n' ∉ frame.1.toList ∧ Yields frame.1 frame.2) ∧
      frames.flatMap Prod.snd = events.filterMap decoded := by
  induction events generalizing k with
  | nil => exact ⟨[], rfl, fun _ hf => absurd hf List.not_mem_nil, rfl⟩
  | cons event events ih =>
      obtain ⟨fields, hchunk, hplain, hprocess⟩ :=
        processChunk_streamChunk (h event List.mem_cons_self) (clock k) responseId model
      obtain ⟨frames, hframes, hall, hevents⟩ := ih (fun e he => h e (List.mem_cons_of_mem event he)) (k + 1)
      refine ⟨("data: " ++ stringify (.obj fields), (decoded event).toList) :: frames, ?_, ?_, ?_⟩
      · rw [List.zipIdx_cons, List.filterMap_cons_some (by rw [hchunk]; rfl), hframes]
        rfl
      · intro frame hframe
        rcases List.mem_cons.mp hframe with rfl | hframe
        · exact ⟨newline_not_mem_frame _, (processLine_frame hplain).trans hprocess⟩
        · exact hall frame hframe
      · rw [List.flatMap_cons, hevents]
        cases hd : decoded event with
        | none => rw [List.filterMap_cons_none hd]; rfl
        | some e => rw [List.filterMap_cons_some hd]; rfl

/-- **The OpenAI parser undoes the encoder.** On the bytes of the frames, however they are cut, it returns the
    events that were written, less the empty strings. -/
theorem parseOpenAiStream_streamFrames (clock : Nat → Nat) (responseId model : String)
    {events : List UnifiedStreamEvent} (h : ∀ e ∈ events, Encodable e) {body : ByteBody}
    (hbytes : body.bytes = (streamFrames clock responseId (.str model) events).flatMap encodeUtf8)
    (hclosed : body.ending = .closed) :
    OpenAi.parser.parseStream (body.decode utf8) = ⟨events.filterMap decoded, .finished⟩ := by
  obtain ⟨frames, hframes, hall, hevents⟩ := frames_of_events clock responseId model h 1
  let all := ("data: " ++ stringify (formatFirstStreamChunk (clock 0) responseId (.str model)), []) ::
    frames ++ [("data: [DONE]", [])]
  have hyields : ∀ frame ∈ all, '\n' ∉ frame.1.toList ∧ Yields frame.1 frame.2 := by
    intro frame hframe
    rcases List.mem_append.mp hframe with hframe | hframe
    · rcases List.mem_cons.mp hframe with rfl | hframe
      · exact ⟨newline_not_mem_frame _, yields_first _ _ _⟩
      · exact hall frame hframe
    · rw [List.mem_singleton.mp hframe]
      exact ⟨by decide, yields_done⟩
  have hstream : streamFrames clock responseId (.str model) events =
      (all.map Prod.fst).map (· ++ "\n\n") := by
    unfold streamFrames
    rw [hframes]
    simp [all, formatSSE, formatSSEDone, Function.comp_def]
  have htext : (body.decode utf8).text =
      String.ofList (((all.map Prod.fst).map (· ++ "\n\n")).flatMap String.toList) := by
    rw [text_decode, hbytes, hstream, flatMap_encodeUtf8]
    apply utf8_decode_encode
    have hfirst : (String.ofList (((all.map Prod.fst).map (· ++ "\n\n")).flatMap String.toList)).toList.head? =
        some 'd' := by
      simp [all, String.toList_append]
    rw [hfirst]
    decide
  have hlines : (body.decode utf8).lines = all.flatMap fun frame => [frame.1, ""] := by
    rw [lines_frames ?_ htext, List.flatMap_map]
    intro line hline
    obtain ⟨frame, hframe, rfl⟩ := List.mem_map.mp hline
    exact (hyields frame hframe).1
  have hrun : OpenAi.parser.processLines (body.decode utf8).lines OpenAi.parser.init =
      ⟨events.filterMap decoded, .ok ()⟩ := by
    rw [hlines, ← hevents]
    refine (processLines_frames fun frame hframe => (hyields frame hframe).2).trans ?_
    simp [all]
  rw [OpenAi.parser.parseStream_eq, hrun, ending_decode, hclosed]

/-- Text that looks like a frame, a tool call fragment with an empty id, and the end. -/
theorem parseOpenAiStream_streamFrames_hostile :
    OpenAi.parser.parseStream (ByteBody.decode utf8
      ⟨[(streamFrames id "chatcmpl-1" (.str "gpt-4o") [.contentDelta (.json (.str "é\n\ndata: \"[DONE]\"")),
        .toolCallDelta (.json (.num 0)) (.json (.str "")) .undefined (.json (.str "\x7b")),
        .done "stop"]).flatMap encodeUtf8], .closed⟩) =
      ⟨[.contentDelta (.json (.str "é\n\ndata: \"[DONE]\"")),
        .toolCallDelta (.json (.num 0)) .undefined .undefined (.json (.str "\x7b")), .done "stop"], .finished⟩ := by
  refine (@parseOpenAiStream_streamFrames id "chatcmpl-1" "gpt-4o"
    [.contentDelta (.json (.str "é\n\ndata: \"[DONE]\"")),
      .toolCallDelta (.json (.num 0)) (.json (.str "")) .undefined (.json (.str "\x7b")), .done "stop"]
    ?_ _ ?_ rfl).trans (by decide)
  · have hcall : Encodable (.toolCallDelta (.json (.num 0)) (.json (.str "")) .undefined
        (.json (.str "\x7b"))) := ⟨⟨0, decimal_natCast 0, rfl⟩, by simp⟩
    have hdone : Encodable (.done "stop") := by
      show "stop" ∈ _
      decide
    simp only [List.forall_mem_cons]
    exact ⟨⟨_, rfl⟩, hcall, hdone, fun e he => absurd he List.not_mem_nil⟩
  · exact List.append_nil _

end Sirius
