import SiriusGateway.Adapters.OpenAi
import SiriusGateway.Compat.ChatBody

/-!
# `Correctness.Passthrough` — a chat body on its way to OpenAI

A chat body is parsed to a unified request and mapped back to OpenAI's format. What is sent is the body again,
but for what the mapper drops of content parts and of tool messages.

## Contents
- **What is sent.** `ChatRequest.toWire`.
- **Content, messages, the body.** Each part of the body through both converters.
- **Results.** `openai_passthrough_iff`.
-/

namespace Sirius

open Js

/-! ## What is sent -/

namespace OpenAi

/-- A content part, stringified. -/
def ContentPart.toWire : ContentPart → Json
  | .text value => wireObject [("type", .json (.str "text")), ("text", value)]
  | .imageUrl url =>
      wireObject [("type", .json (.str "image_url")), ("image_url", .json (wireObject [("url", url)]))]

/-- The content of a message. -/
def contentToWire : String ⊕ List ContentPart → Json
  | .inl s => .str s
  | .inr parts => .arr (parts.map ContentPart.toWire)

/-- A tool call. -/
def toolCallToWire (call : UnifiedToolCall) : Json :=
  wireObject [("id", call.id), ("type", .json (.str "function")),
    ("function", .json (wireObject [("name", call.function.name), ("arguments", call.function.arguments)]))]

/-- An array under `f`, or `undefined`. -/
def arrayToWire {α : Type} (f : α → Json) : Option (List α) → JsValue
  | none => .undefined
  | some items => .json (.arr (items.map f))

/-- A message. -/
def Message.toWire (msg : Message) : Json :=
  wireObject [("role", msg.role), ("content", .json (contentToWire msg.content)), ("name", msg.name),
    ("tool_call_id", msg.toolCallId), ("tool_calls", arrayToWire toolCallToWire msg.toolCalls)]

/-- A tool. -/
def toolToWire (tool : UnifiedTool) : Json :=
  wireObject [("type", tool.type),
    ("function", .json (wireObject [("name", tool.function.name), ("description", tool.function.description),
      ("parameters", tool.function.parameters), ("strict", tool.function.strict)]))]

/-- A response format. -/
def responseFormatToWire (format : UnifiedResponseFormat) : Json :=
  wireObject [("type", format.type),
    ("json_schema", match format.jsonSchema with
      | none => .undefined
      | some schema => .json (wireObject [("name", schema.name), ("schema", schema.schema),
          ("strict", schema.strict)]))]

/-- **The body of the request to OpenAI**: `JSON.stringify(openAiRequest)`. -/
def ChatRequest.toWire (req : ChatRequest) : Json :=
  wireObject [("model", .json req.model), ("messages", .json (.arr (req.messages.map Message.toWire))),
    ("stream", .json req.stream), ("temperature", req.temperature), ("top_p", req.topP),
    ("max_tokens", req.maxTokens), ("stop", arrayToWire id req.stop), ("user", req.user),
    ("tools", arrayToWire toolToWire req.tools), ("tool_choice", req.toolChoice),
    ("stream_options", match req.streamOptions with
      | none => .undefined
      | some includeUsage => .json (wireObject [("include_usage", includeUsage)])),
    ("response_format", match req.responseFormat with
      | none => .undefined
      | some format => .json (responseFormatToWire format))]

end OpenAi

/-! ## Content -/

namespace Compat

/-- A text part of a user message. -/
theorem mapUserPart_text {part : Json} (h : HasType part "text") :
    mapUserPart part = .ok (object [("type", .json (.str "text")), ("text", part.prop "text")]) := by
  unfold mapUserPart
  rw [getProp_json "type" h.ne_null, show part.prop "type" = _ from h]
  rfl

/-- An image part of a user message. -/
theorem mapUserPart_image {part image : Json} (h : HasType part "image_url")
    (himage : part.prop "image_url" = .json image) (hnull : image ≠ .null) :
    mapUserPart part = .ok (object [("type", .json (.str "image_url")), ("imageUrl", image.prop "url"),
      ("detail", image.prop "detail")]) := by
  unfold mapUserPart
  rw [getProp_json "type" h.ne_null, show part.prop "type" = _ from h, himage]
  show (getProp (.json image) "url" >>= fun url => _) = _
  rw [getProp_json "url" hnull]
  rfl

end Compat

namespace OpenAi

theorem mapContentPart_text {part : Json} {value : String} (h : HasType part "text")
    (hvalue : part.prop "text" = .json (.str value)) :
    mapContentPart part = .ok (.text (.json (.str value))) := by
  unfold mapContentPart
  rw [getProp_json "type" h.ne_null, getProp_json "text" h.ne_null, show part.prop "type" = _ from h, hvalue]
  rfl

theorem mapContentPart_image {part : Json} (h : HasType part "image_url") :
    mapContentPart part = .ok (.imageUrl ((part.prop "imageUrl").orElse (.json (.str "")))) := by
  unfold mapContentPart
  rw [getProp_json "type" h.ne_null, getProp_json "imageUrl" h.ne_null, show part.prop "type" = _ from h]
  rfl

end OpenAi

namespace Compat

/-- What is sent of an image: its url. -/
theorem image_toWire_eq_iff {url url' : String} {detail : JsValue} (h : detail ≠ .nan) :
    (OpenAi.ContentPart.imageUrl (.json (.str url))).toWire =
        wireObject [("type", .json (.str "image_url")),
          ("image_url", .json (wireObject [("url", .json (.str url')), ("detail", detail)]))] ↔
      detail = .undefined ∧ url = url' := by
  unfold OpenAi.ContentPart.toWire
  cases detail with
  | undefined => simp [wireObject, JsValue.onWire]
  | nan => exact absurd rfl h
  | json j => simp [wireObject]

/-- A text part is sent as it is. -/
theorem text_toWire_eq {part : Json} {value : String} (h : HasType part "text")
    (hvalue : part.prop "text" = .json (.str value)) :
    (OpenAi.ContentPart.text (.json (.str value))).toWire = passedPart part := by
  unfold passedPart OpenAi.ContentPart.toWire
  rw [show part.prop "type" = _ from h, hvalue]
  rfl

/-- An image part is sent as it is when the url is the one that was read, and there is no detail. -/
theorem imageUrl_toWire_eq_iff {part image : Json} {url url' : String} (h : HasType part "image_url")
    (himage : part.prop "image_url" = .json image) (hurl : image.prop "url" = .json (.str url')) :
    (OpenAi.ContentPart.imageUrl (.json (.str url))).toWire = passedPart part ↔
      image.prop "detail" = .undefined ∧ url = url' := by
  rw [← image_toWire_eq_iff (prop_ne_nan image "detail")]
  unfold passedPart
  rw [show part.prop "type" = _ from h, himage, ← hurl]
  rfl

/-- A text part meets the condition. -/
theorem partPasses_of_text {part : Json} {inUser : Prop} (h : HasType part "text") : PartPasses inUser part := by
  intro himage
  have htype := h.symm.trans himage
  simp at htype

theorem partPasses_iff {part image : Json} {inUser : Prop} {url : String} (h : HasType part "image_url")
    (himage : part.prop "image_url" = .json image) (hurl : image.prop "url" = .json (.str url)) :
    PartPasses inUser part ↔ image.prop "detail" = .undefined ∧ (inUser ∨ url = "") := by
  unfold PartPasses
  rw [himage]
  show (HasType part "image_url" → image.prop "detail" = .undefined ∧ (inUser ∨ image.prop "url" = _)) ↔ _
  rw [hurl]
  simp [h]

/-- **A part of a user message**, through both converters. -/
theorem userPart_sent {part : Json} (h : IsPart part) :
    ∃ p c, mapUserPart part = .ok p ∧ OpenAi.mapContentPart p = .ok c ∧
      (c.toWire = passedPart part ↔ PartPasses True part) := by
  cases h with
  | text type text =>
      obtain ⟨j, htext, s, rfl⟩ := text
      refine ⟨_, .text (.json (.str s)), mapUserPart_text type, ?_, ?_⟩
      · rw [htext]
        apply OpenAi.mapContentPart_text
        · rfl
        · rfl
      · exact iff_of_true (text_toWire_eq type htext) (partPasses_of_text type)
  | image type image only =>
      obtain ⟨j, himage, ⟨k, hurl, url, rfl⟩, -⟩ := image
      have hnull : j ≠ .null := by
        rintro rfl
        cases hurl
      refine ⟨_, .imageUrl (.json (.str url)), mapUserPart_image type himage hnull, ?_, ?_⟩
      · rw [hurl]
        apply OpenAi.mapContentPart_image
        rfl
      · rw [imageUrl_toWire_eq_iff type himage hurl, partPasses_iff type himage hurl]
        simp

/-- **A part of any other message**, which the parser leaves as it is: the mapper looks for the url in vain. -/
theorem rawPart_sent {part : Json} (h : IsPart part) :
    ∃ c, OpenAi.mapContentPart part = .ok c ∧ (c.toWire = passedPart part ↔ PartPasses False part) := by
  cases h with
  | text type text =>
      obtain ⟨j, htext, s, rfl⟩ := text
      refine ⟨_, OpenAi.mapContentPart_text type htext, ?_⟩
      exact iff_of_true (text_toWire_eq type htext) (partPasses_of_text type)
  | image type image only =>
      obtain ⟨j, himage, ⟨k, hurl, url, rfl⟩, -⟩ := image
      refine ⟨.imageUrl (.json (.str "")), ?_, ?_⟩
      · rw [OpenAi.mapContentPart_image type, only]
        rfl
      · rw [imageUrl_toWire_eq_iff type himage hurl, partPasses_iff type himage hurl]
        simp [eq_comm]

/-! ### Whole contents -/

/-- All parts of the content meet the condition. -/
def ContentPasses (inUser : Prop) (content : JsValue) : Prop :=
  ∀ parts, content = .json (.arr parts) → ∀ part ∈ parts, PartPasses inUser part

theorem contentPasses_arr_iff {inUser : Prop} {parts : List Json} :
    ContentPasses inUser (.json (.arr parts)) ↔ ∀ part ∈ parts, PartPasses inUser part := by
  constructor
  · intro h
    exact h parts rfl
  · intro h parts' heq
    cases heq
    exact h

theorem contentPasses_str (inUser : Prop) (s : String) : ContentPasses inUser (.json (.str s)) := by
  intro parts heq
  cases heq

/-- The content of a user message, through both converters. -/
theorem userContent_sent {content : JsValue} (h : Required IsMessageContent content) :
    ∃ v c, mapUserContent content = .ok v ∧ mapContent "msg.content" OpenAi.mapContentPart v = .ok c ∧
      (JsValue.json (OpenAi.contentToWire c) = passedEach passedPart content ↔ ContentPasses True content) := by
  obtain ⟨j, rfl, ⟨s, rfl⟩ | ⟨parts, rfl, hparts⟩⟩ := h
  · exact ⟨_, .inl s, rfl, rfl, iff_of_true rfl (contentPasses_str True s)⟩
  · obtain ⟨ps, cs, hps, hcs, hall⟩ := Except.exists_mapM_mapM fun part hpart => userPart_sent (hparts part hpart)
    refine ⟨.json (.arr ps), .inr cs, ?_, ?_, ?_⟩
    · show (Except.ok parts >>= fun parts => _) = _
      show (parts.mapM mapUserPart >>= fun ps => _) = _
      rw [hps]
      rfl
    · show (ps.mapM OpenAi.mapContentPart >>= fun cs => _) = _
      rw [hcs]
      rfl
    · rw [contentPasses_arr_iff, ← List.map_eq_map_iff_of_forall₂ hall]
      simp [OpenAi.contentToWire, passedEach]

/-- The content of any other message. -/
theorem rawContent_sent {content : JsValue} (h : Required IsMessageContent content) :
    ∃ c, mapContent "msg.content" OpenAi.mapContentPart content = .ok c ∧
      (JsValue.json (OpenAi.contentToWire c) = passedEach passedPart content ↔ ContentPasses False content) := by
  obtain ⟨j, rfl, ⟨s, rfl⟩ | ⟨parts, rfl, hparts⟩⟩ := h
  · exact ⟨.inl s, rfl, iff_of_true rfl (contentPasses_str False s)⟩
  · obtain ⟨cs, hcs, hall⟩ := Except.exists_mapM fun part hpart => rawPart_sent (hparts part hpart)
    refine ⟨.inr cs, ?_, ?_⟩
    · show (parts.mapM OpenAi.mapContentPart >>= fun cs => _) = _
      rw [hcs]
      rfl
    · rw [contentPasses_arr_iff, ← List.map_eq_map_iff_of_forall₂ hall]
      simp [OpenAi.contentToWire, passedEach]

/-! ## Messages -/

/-- Optional items, through the parser: an array that is not empty is converted. -/
theorem items_sent {α : Type} {P : Json → Prop} {f : Json → Throws α} {w : α → Json} {g : Json → Json}
    {v : JsValue} (expr : String) (h : Optional (IsArrayOf P) v)
    (hf : ∀ item, P item → ∃ a, f item = .ok a ∧ w a = g item) :
    ∃ as, (if (optProp v "length").truthy then do
        let items ← arrayOf expr "map" v
        return some (← items.mapM f)
      else .ok none) = .ok as ∧ as ≠ some [] ∧
      OpenAi.arrayToWire w as = unlessEmpty (passedEach g v) := by
  obtain rfl | ⟨j, rfl, items, rfl, hitems⟩ := h
  · exact ⟨none, rfl, nofun, rfl⟩
  · cases items with
    | nil => exact ⟨none, rfl, nofun, rfl⟩
    | cons item items =>
        obtain ⟨as, has, hall⟩ := Except.exists_mapM fun item hitem => hf item (hitems item hitem)
        have hmap : as.map w = (item :: items).map g :=
          (List.map_eq_map_iff_of_forall₂ (P := fun _ => True) (hall.imp fun _ _ h => iff_of_true h trivial)).mpr
            fun _ _ => trivial
        have hlength := truthy_length_iff.mpr (List.cons_ne_nil item items)
        refine ⟨some as, ?_, ?_, ?_⟩
        · rw [if_pos hlength]
          show ((item :: items).mapM f >>= fun as => _) = _
          rw [has]
          rfl
        · intro hnil
          cases hnil
          cases hmap
        · show JsValue.json (.arr (as.map w)) = _
          rw [hmap]
          rfl

theorem toolCall_sent {call : Json} (h : IsToolCall call) :
    ∃ c, mapToolCall call = .ok c ∧ OpenAi.toolCallToWire c = passedToolCall call := by
  obtain ⟨⟨-, hid, -⟩, htype, ⟨j, hfunction, ⟨k, hname, -⟩, -⟩⟩ := h
  have hj : j ≠ .null := by
    rintro rfl
    cases hname
  refine ⟨⟨call.prop "id", ⟨j.prop "name", j.prop "arguments"⟩⟩, ?_, ?_⟩
  · unfold mapToolCall
    rw [getProp_json "id" htype.ne_null, getProp_json "function" htype.ne_null, hfunction]
    show (getProp (.json j) "name" >>= fun name => _) = _
    rw [getProp_json "name" hj]
    rfl
  · unfold OpenAi.toolCallToWire passedToolCall
    rw [hfunction, show call.prop "type" = _ from htype]
    rfl

/-- The tool calls of an assistant message, through the parser. -/
theorem toolCalls_sent {toolCalls : JsValue} (h : Optional (IsArrayOf IsToolCall) toolCalls) :
    ∃ calls, mapToolCalls toolCalls = .ok calls ∧
      OpenAi.arrayToWire OpenAi.toolCallToWire calls = unlessEmpty (passedEach passedToolCall toolCalls) := by
  obtain ⟨calls, hcalls, -, hwire⟩ := items_sent "msg.tool_calls" h fun _ => toolCall_sent
  exact ⟨calls, hcalls, hwire⟩

/-- Two messages of one role with the same tool calls. -/
theorem messageObject_eq_iff {role name name' id id' calls : JsValue} {content content' : JsValue}
    (hcontent : content ≠ .nan) (hcontent' : content' ≠ .nan) (hname : name ≠ .nan) (hname' : name' ≠ .nan)
    (hid : id ≠ .nan) (hid' : id' ≠ .nan) :
    wireObject [("role", role), ("content", content), ("name", name), ("tool_call_id", id),
          ("tool_calls", calls)] =
        wireObject [("role", role), ("content", content'), ("name", name'), ("tool_call_id", id'),
          ("tool_calls", calls)] ↔
      content = content' ∧ name = name' ∧ id = id' := by
  constructor
  · intro h
    have hprop : ∀ key, _ := fun key => congrArg (Json.prop key) h
    have h₁ := hprop "content"
    have h₂ := hprop "name"
    have h₃ := hprop "tool_call_id"
    simp only [prop_wireObject_cons, prop_wireObject_nil, String.reduceEq, if_true, if_false] at h₁ h₂ h₃
    rw [elim_onWire hcontent, elim_onWire hcontent'] at h₁
    rw [elim_onWire hname, elim_onWire hname'] at h₂
    rw [elim_onWire hid, elim_onWire hid'] at h₃
    exact ⟨h₁, h₂, h₃⟩
  · rintro ⟨rfl, rfl, rfl⟩
    rfl

/-- A message with a role is an object. -/
theorem isObject_of_hasRole {msg : Json} {role : String} (h : HasRole msg role) : msg.isObject = true := by
  cases msg with
  | obj fields => rfl
  | arr items => rfl
  | str s => simp [HasRole, Json.prop] at h
  | null => cases h
  | bool b => cases h
  | num q => cases h

theorem isNullish_of_required {content : JsValue} (h : Required IsMessageContent content) :
    content.isNullish = false := by
  obtain ⟨j, rfl, ⟨s, rfl⟩ | ⟨parts, rfl, -⟩⟩ := h <;> rfl

/-- The content the checks of the parser let through as a user's. -/
theorem isString_or_isArray_of_required {content : JsValue} (h : Required IsMessageContent content) :
    (content.isString || content.isArray) = true := by
  obtain ⟨j, rfl, ⟨s, rfl⟩ | ⟨parts, rfl, -⟩⟩ := h <;> rfl

/-- A valid message passes the checks of the parser. -/
theorem parseChatMessage_of_isMessage {msg : Json} (h : IsMessage msg) (index : Nat) :
    parseChatMessage msg index = mapOpenAiMessage msg := by
  unfold parseChatMessage
  cases h with
  | plain role content name toolCalls toolCallId =>
      have hnull := isNullish_of_required content
      have harray := isString_or_isArray_of_required content
      obtain hrole | hrole := role <;>
        simp [isObject_of_hasRole hrole, show msg.prop "role" = _ from hrole, hnull, harray, require,
          JsValue.isStr, Json.truthy, bind, Except.bind]
  | assistant role content name toolCalls toolCallId =>
      simp [isObject_of_hasRole role, show msg.prop "role" = _ from role, require, JsValue.isStr, Json.truthy,
        bind, Except.bind]
  | tool role content name toolCalls toolCallId =>
      simp [isObject_of_hasRole role, show msg.prop "role" = _ from role, isNullish_of_required content, require,
        JsValue.isStr, Json.truthy, bind, Except.bind]

theorem passedEach_ne_nan {f : Json → Json} {v : JsValue} (h : v ≠ .nan) : passedEach f v ≠ .nan := by
  unfold passedEach
  split
  · simp
  · exact h

/-- The content a message is passed on with. -/
def passedContent (msg : Json) : JsValue := passedEach passedPart ((msg.prop "content").orElse (.json (.str "")))

theorem passedContent_ne_nan (msg : Json) : passedContent msg ≠ .nan := by
  apply passedEach_ne_nan
  unfold JsValue.orElse
  split
  · simp
  · exact prop_ne_nan msg "content"

/-- **A unified message, through the mapper**: what is left to compare with the client's message. -/
theorem mapMessage_sent {msg : Json} {role content : JsValue} (name id : JsValue)
    {calls : Option (List UnifiedToolCall)}
    {c : String ⊕ List OpenAi.ContentPart} (hrole : msg.prop "role" = role)
    (hcontent : mapContent "msg.content" OpenAi.mapContentPart content = .ok c)
    (hcalls : OpenAi.arrayToWire OpenAi.toolCallToWire calls =
      unlessEmpty (passedEach passedToolCall (msg.prop "tool_calls"))) :
    ∃ m, OpenAi.mapMessage ⟨role, content, name, id, calls⟩ = .ok m ∧ (m.toWire = passedMessage msg ↔
      JsValue.json (OpenAi.contentToWire c) = passedContent msg ∧
        name.whenTruthy = (msg.prop "name").whenTruthy ∧ id.whenTruthy = msg.prop "tool_call_id") := by
  refine ⟨⟨role, c, name.whenTruthy, id.whenTruthy, calls⟩, ?_, ?_⟩
  · unfold OpenAi.mapMessage
    rw [hcontent]
    rfl
  · unfold OpenAi.Message.toWire passedMessage
    rw [hcalls, hrole]
    exact messageObject_eq_iff nofun (passedContent_ne_nan msg) (whenTruthy_ne_nan _) (whenTruthy_ne_nan _)
      (whenTruthy_ne_nan _) (prop_ne_nan msg "tool_call_id")

/-- The name of a message is read once more. -/
theorem mapMessage_sent_named {msg : Json} {role content : JsValue} {calls : Option (List UnifiedToolCall)}
    {c : String ⊕ List OpenAi.ContentPart} (hrole : msg.prop "role" = role)
    (hcontent : mapContent "msg.content" OpenAi.mapContentPart content = .ok c)
    (hcalls : OpenAi.arrayToWire OpenAi.toolCallToWire calls =
      unlessEmpty (passedEach passedToolCall (msg.prop "tool_calls")))
    (hid : msg.prop "tool_call_id" = .undefined) :
    ∃ m, OpenAi.mapMessage ⟨role, content, (msg.prop "name").whenTruthy, .undefined, calls⟩ = .ok m ∧
      (m.toWire = passedMessage msg ↔ JsValue.json (OpenAi.contentToWire c) = passedContent msg) := by
  obtain ⟨m, hm, hsent⟩ := mapMessage_sent (msg.prop "name").whenTruthy .undefined hrole
    hcontent hcalls
  refine ⟨m, hm, ?_⟩
  rw [hsent, hid, whenTruthy_whenTruthy]
  simp [JsValue.whenTruthy]

theorem orElse_of_required {content : JsValue} (h : Required IsMessageContent content) (w : JsValue) :
    content.orElse w = content := by
  unfold JsValue.orElse
  rw [isNullish_of_required h]
  rfl

/-- A default in the place of missing content has no parts. -/
theorem contentPasses_orElse_iff {inUser : Prop} {content : JsValue} {s : String} :
    ContentPasses inUser (content.orElse (.json (.str s))) ↔ ContentPasses inUser content := by
  unfold JsValue.orElse
  split
  · rename_i hnull
    apply iff_of_true (contentPasses_str inUser s)
    intro parts heq
    rw [heq] at hnull
    cases hnull
  · exact Iff.rfl

/-- What a message of another role than a tool's has to meet. -/
theorem messagePasses_iff {msg : Json} {role : String} {inUser : Prop} (h : HasRole msg role) (htool : role ≠ "tool")
    (huser : HasRole msg "user" ↔ inUser) : MessagePasses msg ↔ ContentPasses inUser (msg.prop "content") := by
  unfold MessagePasses ContentPasses
  rw [propext huser]
  constructor
  · intro hpasses
    exact hpasses.1
  · intro hcontent
    exact ⟨hcontent, fun hrole => absurd hrole (h.ne htool)⟩

/-- The message passes both converters, and is sent as it is when it meets the condition. -/
def Passes (msg : Json) : Prop :=
  ∃ m m', mapOpenAiMessage msg = .ok m ∧ OpenAi.mapMessage m = .ok m' ∧
    (m'.toWire = passedMessage msg ↔ MessagePasses msg)

theorem passedContent_of_required {msg : Json} (h : Required IsMessageContent (msg.prop "content")) :
    passedContent msg = passedEach passedPart (msg.prop "content") :=
  congrArg (passedEach passedPart) (orElse_of_required h _)

theorem toolCalls_of_undefined {msg : Json} (h : msg.prop "tool_calls" = .undefined) :
    OpenAi.arrayToWire OpenAi.toolCallToWire none =
      unlessEmpty (passedEach passedToolCall (msg.prop "tool_calls")) := by
  rw [h]
  rfl

theorem systemMessage_passes {msg : Json} (role : HasRole msg "system")
    (content : Required IsMessageContent (msg.prop "content")) (toolCalls : msg.prop "tool_calls" = .undefined)
    (toolCallId : msg.prop "tool_call_id" = .undefined) : Passes msg := by
  obtain ⟨c, hc, hiff⟩ := rawContent_sent content
  obtain ⟨m, hm, hsent⟩ := mapMessage_sent_named role hc (toolCalls_of_undefined toolCalls) toolCallId
  refine ⟨_, m, ?_, hm, ?_⟩
  · unfold mapOpenAiMessage
    simp only [show msg.prop "role" = _ from role]
    rfl
  · rw [hsent, passedContent_of_required content, hiff]
    exact (messagePasses_iff role (by decide) (iff_of_false (role.ne (by decide)) id)).symm

theorem userMessage_passes {msg : Json} (role : HasRole msg "user")
    (content : Required IsMessageContent (msg.prop "content")) (toolCalls : msg.prop "tool_calls" = .undefined)
    (toolCallId : msg.prop "tool_call_id" = .undefined) : Passes msg := by
  obtain ⟨v, c, hv, hc, hiff⟩ := userContent_sent content
  obtain ⟨m, hm, hsent⟩ := mapMessage_sent_named role hc (toolCalls_of_undefined toolCalls) toolCallId
  refine ⟨_, m, ?_, hm, ?_⟩
  · unfold mapOpenAiMessage
    simp only [show msg.prop "role" = _ from role, hv]
    rfl
  · rw [hsent, passedContent_of_required content, hiff]
    exact (messagePasses_iff role (by decide) (iff_of_true role trivial)).symm

/-- Missing content of an assistant message is the empty string. -/
theorem assistantMessage_passes {msg : Json} (role : HasRole msg "assistant")
    (content : (msg.prop "content").isNullish = true ∨ Required IsMessageContent (msg.prop "content"))
    (toolCalls : Optional (IsArrayOf IsToolCall) (msg.prop "tool_calls"))
    (toolCallId : msg.prop "tool_call_id" = .undefined) : Passes msg := by
  have hrequired : Required IsMessageContent ((msg.prop "content").orElse (.json (.str ""))) := by
    obtain hnull | hrequired := content
    · unfold JsValue.orElse
      rw [if_pos hnull]
      exact ⟨_, rfl, Or.inl ⟨"", rfl⟩⟩
    · rw [orElse_of_required hrequired]
      exact hrequired
  obtain ⟨c, hc, hiff⟩ := rawContent_sent hrequired
  obtain ⟨calls, hcalls, hwire⟩ := toolCalls_sent toolCalls
  obtain ⟨m, hm, hsent⟩ := mapMessage_sent_named role hc hwire toolCallId
  refine ⟨_, m, ?_, hm, ?_⟩
  · unfold mapOpenAiMessage
    simp only [show msg.prop "role" = _ from role, hcalls]
    rfl
  · unfold passedContent at hsent
    rw [hsent, hiff, contentPasses_orElse_iff]
    exact (messagePasses_iff role (by decide) (iff_of_false (role.ne (by decide)) id)).symm

/-- The parser drops the name of a tool message, and the mapper an empty id. -/
theorem toolMessage_passes {msg : Json} (role : HasRole msg "tool")
    (content : Required IsMessageContent (msg.prop "content")) (toolCalls : msg.prop "tool_calls" = .undefined)
    (toolCallId : Required IsString (msg.prop "tool_call_id")) : Passes msg := by
  obtain ⟨j, hid, id, rfl⟩ := toolCallId
  obtain ⟨c, hc, hiff⟩ := rawContent_sent content
  obtain ⟨m, hm, hsent⟩ := mapMessage_sent .undefined (msg.prop "tool_call_id") role hc
    (toolCalls_of_undefined toolCalls)
  refine ⟨_, m, ?_, hm, ?_⟩
  · unfold mapOpenAiMessage
    simp only [show msg.prop "role" = _ from role]
    rfl
  · have hid' : (msg.prop "tool_call_id").whenTruthy = msg.prop "tool_call_id" ↔
        msg.prop "tool_call_id" ≠ .json (.str "") := by
      rw [hid]
      by_cases hempty : id = "" <;> simp [JsValue.whenTruthy, Json.truthy, hempty]
    have hname : JsValue.undefined.whenTruthy = (msg.prop "name").whenTruthy ↔
        (msg.prop "name").truthy = false := whenTruthy_eq_undefined_iff
    have huser : HasRole msg "user" ↔ False := iff_of_false (role.ne (by decide)) fun h => h
    rw [hsent, passedContent_of_required content, hiff, hid', hname]
    unfold MessagePasses ContentPasses
    rw [propext huser]
    constructor
    · rintro ⟨hparts, hname, hne⟩
      exact ⟨hparts, fun _ => ⟨hne, hname⟩⟩
    · rintro ⟨hparts, htool⟩
      exact ⟨hparts, (htool role).2, (htool role).1⟩

/-- **A message**, through both converters. -/
theorem message_sent {msg : Json} (h : IsMessage msg) (index : Nat) :
    ∃ m m', parseChatMessage msg index = .ok m ∧ OpenAi.mapMessage m = .ok m' ∧
      (m'.toWire = passedMessage msg ↔ MessagePasses msg) := by
  rw [parseChatMessage_of_isMessage h index]
  show Passes msg
  cases h with
  | plain role content name toolCalls toolCallId =>
      obtain hrole | hrole := role
      · exact systemMessage_passes hrole content toolCalls toolCallId
      · exact userMessage_passes hrole content toolCalls toolCallId
  | assistant role content name toolCalls toolCallId =>
      exact assistantMessage_passes role content toolCalls toolCallId
  | tool role content name toolCalls toolCallId => exact toolMessage_passes role content toolCalls toolCallId

/-! ## The other fields -/

theorem tool_sent {tool : Json} (h : IsTool tool) :
    ∃ t, mapTool tool = .ok t ∧ OpenAi.toolToWire t = passedTool tool := by
  obtain ⟨htype, ⟨j, hfunction, ⟨k, hname, -⟩, -⟩⟩ := h
  have hj : j ≠ .null := by
    rintro rfl
    cases hname
  refine ⟨⟨tool.prop "type", ⟨j.prop "name", j.prop "description", j.prop "parameters", j.prop "strict"⟩⟩, ?_, ?_⟩
  · unfold mapTool
    rw [getProp_json "type" htype.ne_null, getProp_json "function" htype.ne_null, hfunction]
    show (getProp (.json j) "name" >>= fun name => _) = _
    rw [getProp_json "name" hj]
    rfl
  · unfold OpenAi.toolToWire passedTool
    rw [hfunction]
    rfl

/-- The tools, through both converters. -/
theorem tools_sent {tools : JsValue} (h : Optional (IsArrayOf IsTool) tools) :
    ∃ ts, mapTools tools = .ok ts ∧
      OpenAi.arrayToWire OpenAi.toolToWire (ts.filter (· ≠ [])) = unlessEmpty (passedEach passedTool tools) := by
  obtain ⟨ts, hts, hne, hwire⟩ := items_sent "body.tools" h fun _ => tool_sent
  refine ⟨ts, hts, ?_⟩
  rw [← hwire]
  cases ts with
  | none => rfl
  | some ts =>
      have hnil : ts ≠ [] := fun h => hne (congrArg some h)
      simp [Option.filter, hnil]

/-- A format of another type: a schema beside it is no field of the format. -/
theorem mapResponseFormat_plain {format : Json} (h : (format.prop "type").isStr "json_schema" = false) :
    mapResponseFormat (.json format) = .ok ⟨format.prop "type", none⟩ := by
  show (if (format.prop "type").isStr "json_schema" && (format.prop "json_schema").isDefined then _ else _) = _
  rw [h]
  rfl

/-- A format with its schema. -/
theorem mapResponseFormat_schema {format schema : Json} (h : HasType format "json_schema")
    (hschema : format.prop "json_schema" = .json schema) (hnull : schema ≠ .null) :
    mapResponseFormat (.json format) = .ok ⟨.json (.str "json_schema"),
      some ⟨schema.prop "name", schema.prop "schema", schema.prop "strict"⟩⟩ := by
  unfold mapResponseFormat
  simp only [optProp, show format.prop "type" = _ from h, hschema, getProp_json "name" hnull]
  rfl

theorem passedFormat_plain {format : Json} (h : (format.prop "type").isStr "json_schema" = false) :
    passedFormat (.json format) =
      .json (wireObject [("type", format.prop "type"), ("json_schema", .undefined)]) := by
  simp only [passedFormat, h]
  rfl

/-- The response format, through the parser. -/
theorem responseFormat_sent {format : JsValue} (h : Optional IsResponseFormat format) :
    ∃ f, parseResponseFormat format = .ok f ∧
      (match f with
        | none => JsValue.undefined
        | some f => .json (OpenAi.responseFormatToWire f)) = passedFormat format := by
  obtain rfl | ⟨j, rfl, h⟩ := h
  · exact ⟨none, rfl, rfl⟩
  · have htruthy : ∀ {type}, HasType j type → (JsValue.json j).truthy = true := HasType.truthy
    unfold parseResponseFormat
    cases h with
    | plain type =>
        have hplain : (j.prop "type").isStr "json_schema" = false := by
          obtain htype | htype := type <;> rw [show j.prop "type" = _ from htype] <;> rfl
        refine ⟨some ⟨j.prop "type", none⟩, ?_, ?_⟩
        · rw [if_pos (type.elim htruthy htruthy), mapResponseFormat_plain hplain]
          rfl
        · rw [passedFormat_plain hplain]
          rfl
    | schema type schema =>
        obtain ⟨k, hschema, ⟨l, hname, -⟩, -⟩ := schema
        have hk : k ≠ .null := by
          rintro rfl
          cases hname
        refine ⟨some ⟨.json (.str "json_schema"), some ⟨k.prop "name", k.prop "schema", k.prop "strict"⟩⟩, ?_, ?_⟩
        · rw [if_pos (htruthy type), mapResponseFormat_schema type hschema hk]
          rfl
        · simp only [passedFormat, show j.prop "type" = _ from type, hschema]
          rfl

/-- The stops, through the parser. -/
theorem stop_sent {stop : JsValue} (h : Optional (fun j => IsString j ∨ IsArrayOf IsString j) stop) :
    OpenAi.arrayToWire id (stopOf stop) = passedStop stop := by
  obtain rfl | ⟨j, rfl, ⟨s, rfl⟩ | ⟨items, rfl, -⟩⟩ := h
  · rfl
  · rfl
  · show JsValue.json (.arr (items.map id)) = _
    rw [List.map_id]
    rfl

/-- The stream options, through the parser. -/
theorem streamOptions_sent {streamOptions : JsValue}
    (h : Optional (fun j => IsRecord j ∧ Optional IsBool (j.prop "include_usage")) streamOptions) :
    (match mapStreamOptions streamOptions with
      | none => JsValue.undefined
      | some includeUsage => .json (wireObject [("include_usage", includeUsage)])) =
        passedFields ["include_usage"] streamOptions := by
  obtain rfl | ⟨j, rfl, ⟨fields, rfl⟩, -⟩ := h <;> rfl

/-- A number in the range passes the check. -/
theorem outOfRange_of_isUpTo {v : JsValue} {hi : Rat} (h : Optional (IsUpTo hi) v) :
    outOfRange v hi = .ok false := by
  obtain rfl | ⟨j, rfl, q, rfl, h₀, h₁⟩ := h
  · rfl
  · show Except.ok (decide (q < 0) || decide (hi < q)) = _
    rw [decide_eq_false (not_lt.mpr h₀), decide_eq_false (not_lt.mpr h₁)]
    rfl

theorem json_jsonD_stream {stream : JsValue} (h : Optional IsBool stream) :
    JsValue.json ((stream.orElse (.json (.bool false))).jsonD .null) = stream.orElse (.json (.bool false)) := by
  obtain rfl | ⟨j, rfl, b, rfl⟩ := h <;> rfl

/-! ## Results -/

/-- All messages of a valid body, through both converters. -/
theorem messages_sent {items : List Json} (h : ∀ msg ∈ items, IsMessage msg) :
    ∃ ms ms', (items.zipIdx.mapM fun e => parseChatMessage e.1 e.2) = .ok ms ∧
      ms.mapM OpenAi.mapMessage = .ok ms' ∧
      (ms'.map OpenAi.Message.toWire = items.map passedMessage ↔ ∀ msg ∈ items, MessagePasses msg) := by
  obtain ⟨ms, ms', hms, hms', hall⟩ := Except.exists_mapM_mapM fun e he =>
    message_sent (h e.1 (List.fst_mem_of_mem_zipIdx he)) e.2
  refine ⟨ms, ms', hms, hms', ?_⟩
  have hiff := List.map_eq_map_iff_of_forall₂ (g := fun e : Json × Nat => passedMessage e.1)
    (P := fun e => MessagePasses e.1) hall
  have hfst : items.zipIdx.map Prod.fst = items := List.zipIdx_map_fst 0 items
  have hitems : ∀ {P : Json → Prop}, (∀ e ∈ items.zipIdx, P e.1) ↔ ∀ msg ∈ items, P msg := by
    intro P
    conv_rhs => rw [← hfst]
    exact List.forall_mem_map.symm
  have hmap : items.zipIdx.map (fun e => passedMessage e.1) = items.map passedMessage := by
    conv_rhs => rw [← hfst, List.map_map]
    rfl
  rwa [hmap, hitems] at hiff

/-- The unified request of a body, once its messages, tools and response format are parsed. -/
def unifiedOf (body : Json) (requestId : String) (messages : List UnifiedMessage) (tools : Option (List UnifiedTool))
    (responseFormat : Option UnifiedResponseFormat) : UnifiedAiRequest where
  requestId := requestId
  model := (body.prop "model").jsonD .null
  messages := messages
  stream := ((body.prop "stream").orElse (.json (.bool false))).jsonD .null
  temperature := body.prop "temperature"
  topP := body.prop "top_p"
  maxTokens := (body.prop "max_completion_tokens").orElse (body.prop "max_tokens")
  stop := stopOf (body.prop "stop")
  tools := tools
  toolChoice := body.prop "tool_choice"
  responseFormat := responseFormat
  streamOptions := mapStreamOptions (body.prop "stream_options")
  user := (body.prop "user").whenTruthy

/-- **A valid body is parsed.** -/
theorem parse_of_isChatBody {body : Json} (h : IsChatBody body) (requestId : String) {items : List Json}
    {ms : List UnifiedMessage} {ts : Option (List UnifiedTool)} {f : Option UnifiedResponseFormat}
    (hitems : body.prop "messages" = .json (.arr items)) (hne : items ≠ [])
    (hms : (items.zipIdx.mapM fun e => parseChatMessage e.1 e.2) = .ok ms)
    (hts : mapTools (body.prop "tools") = .ok ts) (hf : parseResponseFormat (body.prop "response_format") = .ok f) :
    parseChatCompletionRequest body requestId = .ok (unifiedOf body requestId ms ts f) := by
  obtain ⟨j, hmodel, ⟨s, rfl⟩, hs⟩ := h.model
  have hbody : body ≠ .null := by
    rintro rfl
    cases hmodel
  have hmessages : messagesOf body = .ok items := by
    unfold messagesOf
    rw [hitems]
    cases items with
    | nil => exact absurd rfl hne
    | cons item items => rfl
  have htruthy : (JsValue.json (.str s)).truthy = true := by
    have hempty : s ≠ "" := fun heq => hs (congrArg Json.str heq)
    simpa [Json.truthy] using hempty
  have hn : moreThanOne (body.prop "n") = .ok false := by
    rw [h.n]
    rfl
  unfold parseChatCompletionRequest
  simp only [Except.bind_eq_ok_iff, require_eq_ok_iff]
  refine ⟨body.prop "model", getProp_json "model" hbody, (), ?_, items, hmessages,
    false, outOfRange_of_isUpTo h.temperature, (), rfl, false, outOfRange_of_isUpTo h.topP, (), rfl,
    false, hn, (), rfl, ms, hms, ts, hts, f, hf, rfl⟩
  rw [hmodel]
  exact htruthy

/-- OpenAI's request, once the messages are mapped. -/
def requestOf (unified : UnifiedAiRequest) (messages : List OpenAi.Message) : OpenAi.ChatRequest where
  model := unified.model
  messages := messages
  stream := unified.stream
  temperature := unified.temperature
  topP := unified.topP
  maxTokens := unified.maxTokens
  stop := unified.stop
  tools := unified.tools.filter (· ≠ [])
  toolChoice := unified.toolChoice
  responseFormat := unified.responseFormat
  streamOptions := unified.streamOptions
  user := unified.user.whenTruthy

theorem toOpenAiRequest_of_mapM {unified : UnifiedAiRequest} {messages : List OpenAi.Message}
    (h : unified.messages.mapM OpenAi.mapMessage = .ok messages) :
    OpenAi.toOpenAiRequest unified = .ok (requestOf unified messages) := by
  unfold OpenAi.toOpenAiRequest
  rw [h]
  rfl

/-- **A valid body, mapped and sent**, differs from the body in its messages at most. -/
theorem body_sent {body : Json} (h : IsChatBody body) (requestId : String) :
    ∃ items req, body.prop "messages" = .json (.arr items) ∧
      (parseChatCompletionRequest body requestId >>= OpenAi.toOpenAiRequest) = .ok req ∧
      (req.toWire = passed body ↔ ∀ msg ∈ items, MessagePasses msg) := by
  obtain ⟨j, hmessages, ⟨items, rfl, hitems⟩, hne⟩ := h.messages
  obtain ⟨ms, ms', hms, hms', hiff⟩ := messages_sent hitems
  obtain ⟨ts, hts, htools⟩ := tools_sent h.tools
  obtain ⟨f, hf, hformat⟩ := responseFormat_sent h.responseFormat
  have hparse := parse_of_isChatBody h requestId hmessages (fun heq => hne (congrArg Json.arr heq)) hms hts hf
  refine ⟨items, requestOf (unifiedOf body requestId ms ts f) ms', hmessages, ?_, ?_⟩
  · rw [hparse]
    exact toOpenAiRequest_of_mapM hms'
  · rw [← hiff]
    have hmodel : JsValue.json ((body.prop "model").jsonD .null) = body.prop "model" := by
      obtain ⟨j, hj, -⟩ := h.model
      rw [hj]
      rfl
    have hwhen := whenTruthy_whenTruthy (body.prop "user")
    unfold OpenAi.ChatRequest.toWire passed requestOf unifiedOf
    simp only [hmodel, json_jsonD_stream h.stream, stop_sent h.stop, htools, hformat, hwhen, hmessages,
      streamOptions_sent h.streamOptions]
    constructor
    · intro heq
      have hprop := congrArg (Json.prop "messages") heq
      simpa [passedEach] using hprop
    · intro heq
      rw [heq]
      rfl

end Compat

/-- **A chat body passes through to OpenAI unchanged** exactly when none of its messages has what the mapper
    drops: an image in a message that is no user's, an image with a detail, a tool message with a name or with
    an empty id. -/
theorem openai_passthrough_iff {body : Json} (h : Compat.IsChatBody body) (requestId : String) :
    (Compat.parseChatCompletionRequest body requestId >>= OpenAi.toOpenAiRequest).map OpenAi.ChatRequest.toWire =
        .ok (Compat.passed body) ↔
      ∀ items, body.prop "messages" = .json (.arr items) → ∀ msg ∈ items, Compat.MessagePasses msg := by
  obtain ⟨items, req, hitems, hreq, hiff⟩ := Compat.body_sent h requestId
  rw [hreq, hitems]
  show Except.ok req.toWire = _ ↔ _
  rw [Except.ok.injEq, hiff]
  constructor
  · intro hall items' heq
    cases heq
    exact hall
  · intro hall
    exact hall items rfl

/-- A question about a picture. -/
def pictureMessage (image : List (String × Json)) : Json :=
  .obj [("role", .str "user"), ("content", .arr [
    .obj [("type", .str "text"), ("text", .str "What is this?")],
    .obj [("type", .str "image_url"), ("image_url", .obj image)]])]

/-- A body that asks it. -/
def pictureBody (image : List (String × Json)) : Json :=
  .obj [("model", .str "gpt-4o"), ("messages", .arr [pictureMessage image])]

theorem isChatBody_pictureBody (image : List (String × Json))
    (hurl : Compat.Required Compat.IsString (lookup "url" image))
    (hdetail : Compat.Optional Compat.IsString (lookup "detail" image)) : Compat.IsChatBody (pictureBody image) where
  model := ⟨_, rfl, ⟨"gpt-4o", rfl⟩, by decide⟩
  messages := by
    refine ⟨_, rfl, ⟨_, rfl, ?_⟩, by simp⟩
    intro msg hmsg
    rw [List.mem_singleton.mp hmsg]
    refine .plain (Or.inr rfl) ⟨_, rfl, Or.inr ⟨_, rfl, ?_⟩⟩ (Or.inl rfl) rfl rfl
    intro part hpart
    obtain rfl | hpart := List.mem_cons.mp hpart
    · exact .text rfl ⟨_, rfl, "What is this?", rfl⟩
    · rw [List.mem_singleton.mp hpart]
      exact .image rfl ⟨_, rfl, hurl, hdetail⟩ rfl
  stream := Or.inl rfl
  streamOptions := Or.inl rfl
  temperature := Or.inl rfl
  topP := Or.inl rfl
  n := rfl
  maxTokens := Or.inl rfl
  maxCompletionTokens := Or.inl rfl
  stop := Or.inl rfl
  tools := Or.inl rfl
  responseFormat := Or.inl rfl
  user := Or.inl rfl

/-- The url of the picture. -/
def pictureUrl : String × Json := ("url", .str "https://example.com/cat.png")

theorem openai_passthrough_iff_picture :
    (Compat.parseChatCompletionRequest (pictureBody [pictureUrl]) "req-1" >>= OpenAi.toOpenAiRequest).map
        OpenAi.ChatRequest.toWire = .ok (Compat.passed (pictureBody [pictureUrl])) := by
  apply (openai_passthrough_iff (isChatBody_pictureBody _ ⟨_, rfl, _, rfl⟩ (Or.inl rfl)) "req-1").mpr
  intro items hitems msg hmsg
  cases hitems
  rw [List.mem_singleton.mp hmsg]
  have huser : Compat.HasRole (pictureMessage [pictureUrl]) "user" := rfl
  apply (Compat.messagePasses_iff huser (by decide) (iff_of_true huser trivial)).mpr
  intro parts hparts part hpart
  cases hparts
  obtain rfl | hpart := List.mem_cons.mp hpart
  · exact Compat.partPasses_of_text rfl
  · rw [List.mem_singleton.mp hpart]
    intro _
    exact ⟨rfl, Or.inl trivial⟩

/-- **The detail of a picture is dropped**: what is sent is the body without it. -/
theorem image_detail_dropped :
    Compat.IsChatBody (pictureBody [pictureUrl, ("detail", .str "high")]) ∧
      (Compat.parseChatCompletionRequest (pictureBody [pictureUrl, ("detail", .str "high")]) "req-1" >>=
        OpenAi.toOpenAiRequest).map OpenAi.ChatRequest.toWire =
          .ok (Compat.passed (pictureBody [pictureUrl])) ∧
      ¬∀ body, Compat.IsChatBody body → ∀ requestId,
        (Compat.parseChatCompletionRequest body requestId >>= OpenAi.toOpenAiRequest).map
          OpenAi.ChatRequest.toWire = .ok (Compat.passed body) := by
  have hvalid := isChatBody_pictureBody [pictureUrl, ("detail", .str "high")] ⟨_, rfl, _, rfl⟩
    (Or.inr ⟨_, rfl, _, rfl⟩)
  have hsent : (Compat.parseChatCompletionRequest (pictureBody [pictureUrl, ("detail", .str "high")]) "req-1" >>=
      OpenAi.toOpenAiRequest).map OpenAi.ChatRequest.toWire = .ok (Compat.passed (pictureBody [pictureUrl])) := by
    decide
  refine ⟨hvalid, hsent, ?_⟩
  intro h
  have hdiffer : Compat.passed (pictureBody [pictureUrl]) ≠
      Compat.passed (pictureBody [pictureUrl, ("detail", .str "high")]) := by decide
  have hsame := hsent.symm.trans (h _ hvalid "req-1")
  exact hdiffer (Except.ok.inj hsame)

end Sirius
