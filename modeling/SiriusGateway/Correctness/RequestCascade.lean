import SiriusGateway.Correctness.ChatMessages
import SiriusGateway.Correctness.Passthrough

/-!
# `Correctness.RequestCascade` — a chat request behind any number of gateways

A gateway may have another gateway for its OpenAI provider. What it sends there is a chat body, and the next one
parses it and sends a body of its own. The first gateway settles the request (`ChatRequest.Settled`): what it sends
is read back as the request it was (`sent_read_back`), so a chain of gateways sends what its last one would have sent
alone (`chain_forwards`).

## Contents
- **Forwarding.** `Forwarding.forward`.
- **Settled requests.** What the parser and the mapper make of a body.
- **Read back.** A settled request survives the wire.
- **Results.** `chain_forwards`.
-/

namespace Sirius

open Js

/-! ## Forwarding -/

/-- A gateway with an OpenAI provider: the id it gives the request, and the name its routing gives the model. -/
structure Forwarding where
  requestId : String
  model : String
  named : model ≠ ""

/-- The request the gateway makes of a client's body: `createResponse` puts in the routed model, and the adapter asks
    for a stream when the controller has. -/
def Forwarding.request (gateway : Forwarding) (body : Json) : Throws OpenAi.ChatRequest := do
  let request ← Compat.parseChatCompletionRequest body gateway.requestId
  OpenAi.toOpenAiRequest
    { request with model := .str gateway.model, stream := .bool (JsValue.json request.stream).truthy }

/-- The body the gateway sends. -/
def Forwarding.forward (gateway : Forwarding) (body : Json) : Throws Json :=
  (gateway.request body).map OpenAi.ChatRequest.toWire

/-! ## Settled requests -/

namespace OpenAi

/-- The value is there and no `null`. -/
def Present (v : JsValue) : Prop := ∃ j, v = .json j ∧ j ≠ .null

/-- A part with its text, or with its url; a picture outside a user's message has lost it. -/
def ContentPart.Settled (inUser : Prop) : ContentPart → Prop
  | .text value => Present value
  | .imageUrl url => Present url ∧ (inUser ∨ url = .json (.str ""))

/-- A content of settled parts. -/
def ContentSettled (inUser : Prop) : String ⊕ List ContentPart → Prop
  | .inl _ => True
  | .inr parts => ∀ part ∈ parts, part.Settled inUser

/-- A tool call without `NaN`. -/
structure CallSettled (call : UnifiedToolCall) : Prop where
  id : call.id ≠ .nan
  name : call.function.name ≠ .nan
  arguments : call.function.arguments ≠ .nan

/-- A message, with the fields its role has. -/
inductive Message.Settled : Message → Prop where
  | system {content : String ⊕ List ContentPart} {name : JsValue} (hcontent : ContentSettled False content)
      (hname : name.whenTruthy = name) : Settled ⟨.json (.str "system"), content, name, .undefined, none⟩
  | user {content : String ⊕ List ContentPart} {name : JsValue} (hcontent : ContentSettled True content)
      (hname : name.whenTruthy = name) : Settled ⟨.json (.str "user"), content, name, .undefined, none⟩
  | assistant {content : String ⊕ List ContentPart} {name : JsValue} {calls : Option (List UnifiedToolCall)}
      (hcontent : ContentSettled False content) (hname : name.whenTruthy = name)
      (hcalls : ∀ cs, calls = some cs → cs ≠ [] ∧ ∀ call ∈ cs, CallSettled call) :
      Settled ⟨.json (.str "assistant"), content, name, .undefined, calls⟩
  | tool {content : String ⊕ List ContentPart} {id : JsValue} (hcontent : ContentSettled False content)
      (hid : id.whenTruthy = id) : Settled ⟨.json (.str "tool"), content, .undefined, id, none⟩

/-- A tool without `NaN`. -/
structure ToolSettled (tool : UnifiedTool) : Prop where
  type : tool.type ≠ .nan
  name : tool.function.name ≠ .nan
  description : tool.function.description ≠ .nan
  parameters : tool.function.parameters ≠ .nan
  strict : tool.function.strict ≠ .nan

/-- A response format; a schema belongs to `json_schema`. -/
structure FormatSettled (format : UnifiedResponseFormat) : Prop where
  type : format.type ≠ .nan
  schema : ∀ schema, format.jsonSchema = some schema → format.type = .json (.str "json_schema") ∧
    schema.name ≠ .nan ∧ schema.schema ≠ .nan ∧ schema.strict ≠ .nan

/-- **A request the next gateway reads as it is.** -/
structure ChatRequest.Settled (req : ChatRequest) : Prop where
  model : ∃ model, req.model = .str model ∧ model ≠ ""
  messages : req.messages ≠ [] ∧ ∀ msg ∈ req.messages, msg.Settled
  stream : ∃ stream, req.stream = .bool stream
  temperature : req.temperature ≠ .nan ∧ Compat.outOfRange req.temperature 2 = .ok false
  topP : req.topP ≠ .nan ∧ Compat.outOfRange req.topP 1 = .ok false
  maxTokens : req.maxTokens ≠ .nan
  tools : ∀ tools, req.tools = some tools → tools ≠ [] ∧ ∀ tool ∈ tools, ToolSettled tool
  toolChoice : req.toolChoice ≠ .nan
  responseFormat : ∀ format, req.responseFormat = some format → FormatSettled format
  streamOptions : ∀ includeUsage, req.streamOptions = some includeUsage → includeUsage ≠ .nan
  user : req.user.whenTruthy = req.user

theorem present_orElse {v : JsValue} (s : String) (h : v ≠ .nan) : Present (v.orElse (.json (.str s))) := by
  cases v with
  | undefined => exact ⟨.str s, rfl, by simp⟩
  | nan => exact absurd rfl h
  | json j =>
      by_cases hnull : j = .null
      · subst hnull
        exact ⟨.str s, rfl, by simp⟩
      · refine ⟨j, ?_, hnull⟩
        cases j <;> first | rfl | exact absurd rfl hnull

theorem Present.orElse {v w : JsValue} (h : Present v) : v.orElse w = v := by
  obtain ⟨j, rfl, hnull⟩ := h
  cases j <;> first | rfl | exact absurd rfl hnull

/-- A part the mapper has mapped. -/
theorem settled_mapContentPart {part : Json} {c : ContentPart} {inUser : Prop} (h : mapContentPart part = .ok c)
    (hpicture : inUser ∨ (HasType part "image_url" → part.prop "imageUrl" = .undefined)) : c.Settled inUser := by
  have hpart : part ≠ .null := (succeeds_mapContentPart_iff part).mp ⟨c, h⟩
  unfold mapContentPart at h
  rw [getProp_json "type" hpart, getProp_json "imageUrl" hpart, getProp_json "text" hpart] at h
  simp only [Except.ok_bind] at h
  split at h
  · rename_i htype
    obtain rfl := Except.ok.inj h
    refine ⟨present_orElse "" (prop_ne_nan part "imageUrl"), ?_⟩
    obtain huser | hmissing := hpicture
    · exact Or.inl huser
    · apply Or.inr
      rw [hmissing (isStr_iff.mp htype)]
      rfl
  · obtain rfl := Except.ok.inj h
    show Present _
    exact present_orElse "" (prop_ne_nan part "text")

/-- A content the mapper has mapped. -/
theorem settled_mapContent {content : JsValue} {c : String ⊕ List ContentPart} {inUser : Prop}
    (h : mapContent "msg.content" mapContentPart content = .ok c)
    (hpicture : inUser ∨ ∀ parts, content = .json (.arr parts) →
      ∀ part ∈ parts, HasType part "image_url" → part.prop "imageUrl" = .undefined) : ContentSettled inUser c := by
  unfold mapContent at h
  split at h
  · obtain rfl := Except.ok.inj h
    trivial
  · obtain ⟨parts, hparts, h⟩ := Except.bind_eq_ok_iff.mp h
    obtain ⟨cs, hcs, h⟩ := Except.bind_eq_ok_iff.mp h
    obtain rfl := Except.ok.inj h
    have hcontent := arrayOf_eq_ok_iff.mp hparts
    apply Except.forall_of_mapM_eq_ok (P := ContentPart.Settled inUser) hcs
    intro part hpart c hc
    exact settled_mapContentPart hc (hpicture.imp_right fun h => h parts hcontent part hpart)

/-- A message the mapper has mapped. -/
theorem mapMessage_eq_ok_iff {msg : UnifiedMessage} {m : Message} :
    mapMessage msg = .ok m ↔ ∃ c, mapContent "msg.content" mapContentPart msg.content = .ok c ∧
      m = ⟨msg.role, c, msg.name.whenTruthy, msg.toolCallId.whenTruthy, msg.toolCalls⟩ := by
  unfold mapMessage
  rw [Except.bind_eq_ok_iff]
  constructor
  · rintro ⟨c, hc, h⟩
    exact ⟨c, hc, (Except.ok.inj h).symm⟩
  · rintro ⟨c, hc, rfl⟩
    exact ⟨c, hc, rfl⟩

end OpenAi

namespace Compat

open OpenAi

theorem getProp_ne_nan {v w : JsValue} {key : String} (h : getProp v key = .ok w) : w ≠ .nan := by
  rw [← optProp_of_getProp h]
  exact optProp_ne_nan v key

/-- A tool call the parser has mapped. -/
theorem settled_mapToolCall {tc : Json} {call : UnifiedToolCall} (h : mapToolCall tc = .ok call) :
    CallSettled call := by
  unfold mapToolCall at h
  simp only [Except.bind_eq_ok_iff] at h
  obtain ⟨id, hid, function, hfunction, name, hname, h⟩ := h
  obtain rfl := Except.ok.inj h
  exact ⟨getProp_ne_nan hid, getProp_ne_nan hname, optProp_ne_nan _ _⟩

/-- A tool the parser has mapped. -/
theorem settled_mapTool {t : Json} {tool : UnifiedTool} (h : mapTool t = .ok tool) : ToolSettled tool := by
  unfold mapTool at h
  simp only [Except.bind_eq_ok_iff] at h
  obtain ⟨type, htype, function, hfunction, name, hname, h⟩ := h
  obtain rfl := Except.ok.inj h
  exact ⟨getProp_ne_nan htype, getProp_ne_nan hname, optProp_ne_nan _ _, optProp_ne_nan _ _, optProp_ne_nan _ _⟩

/-- Optional items the parser has mapped: some, or none at all. -/
theorem settled_items {α : Type} {expr : String} {f : Json → Throws α} {P : α → Prop} {v : JsValue}
    {items : Option (List α)} (hf : ∀ j a, f j = .ok a → P a)
    (h : (if (optProp v "length").truthy then do
        let items ← arrayOf expr "map" v
        return some (← items.mapM f)
      else .ok none) = .ok items) : ∀ as, items = some as → as ≠ [] ∧ ∀ a ∈ as, P a := by
  rintro as rfl
  split at h
  · rename_i hlength
    obtain ⟨js, hjs, h⟩ := Except.bind_eq_ok_iff.mp h
    obtain ⟨as', has, h⟩ := Except.bind_eq_ok_iff.mp h
    obtain rfl := Option.some.inj (Except.ok.inj h)
    rw [arrayOf_eq_ok_iff.mp hjs, truthy_length_iff] at hlength
    refine ⟨?_, Except.forall_of_mapM_eq_ok has fun j _ a ha => hf j a ha⟩
    rintro rfl
    exact hlength (List.length_eq_zero_iff.mp (Except.length_of_mapM_eq_ok has).symm)
  · cases h

/-- The pictures in the message, unless it is a user's, are written as OpenAI writes them: they have no `imageUrl`. -/
def PlainPictures (msg : Json) : Prop :=
  ¬HasRole msg "user" → ∀ parts, msg.prop "content" = .json (.arr parts) →
    ∀ part ∈ parts, HasType part "image_url" → part.prop "imageUrl" = .undefined

/-- **A message the parser and the mapper have mapped.** -/
theorem settled_message {msg : Json} {u : UnifiedMessage} {m : Message} (hu : mapOpenAiMessage msg = .ok u)
    (hm : mapMessage u = .ok m) (hpictures : PlainPictures msg) : m.Settled := by
  obtain ⟨c, hc, rfl⟩ := mapMessage_eq_ok_iff.mp hm
  have hwhen := whenTruthy_whenTruthy
  obtain ⟨hrole, hmap⟩ | ⟨hrole, hmap⟩ | ⟨hrole, hmap⟩ | ⟨hrole, hmap⟩ | ⟨-, -, -, -, hmap⟩ :=
    mapOpenAiMessage_kind msg
  · obtain rfl := Except.ok.inj (hmap.symm.trans hu)
    exact .system (settled_mapContent hc (Or.inr (hpictures (hrole.ne (by decide))))) (hwhen _)
  · obtain ⟨content, -, h⟩ := Except.bind_eq_ok_iff.mp (hmap.symm.trans hu)
    obtain rfl := Except.ok.inj h
    exact .user (settled_mapContent hc (Or.inl trivial)) (hwhen _)
  · obtain ⟨calls, hcalls, h⟩ := Except.bind_eq_ok_iff.mp (hmap.symm.trans hu)
    obtain rfl := Except.ok.inj h
    refine .assistant (settled_mapContent hc (Or.inr ?_)) (hwhen _) ?_
    · intro parts hparts
      apply hpictures (hrole.ne (by decide))
      unfold JsValue.orElse at hparts
      split at hparts
      · cases hparts
      · exact hparts
    · exact settled_items (fun _ _ => settled_mapToolCall) hcalls
  · obtain rfl := Except.ok.inj (hmap.symm.trans hu)
    exact .tool (settled_mapContent hc (Or.inr (hpictures (hrole.ne (by decide))))) (hwhen _)
  · obtain rfl := Except.ok.inj (hmap.symm.trans hu)
    exact .user (settled_mapContent hc (Or.inl trivial)) (hwhen _)

/-- A response format the parser has mapped. -/
theorem settled_responseFormat {v : JsValue} {format : Option UnifiedResponseFormat}
    (h : parseResponseFormat v = .ok format) : ∀ f, format = some f → FormatSettled f := by
  rintro f rfl
  unfold parseResponseFormat at h
  split at h
  · obtain ⟨f', hf, heq⟩ := Except.map_eq_ok_iff.mp h
    obtain rfl := Option.some.inj heq
    unfold mapResponseFormat at hf
    dsimp only at hf
    split at hf
    · obtain ⟨name, hname, hf⟩ := Except.bind_eq_ok_iff.mp hf
      obtain rfl := Except.ok.inj hf
      refine ⟨by simp, ?_⟩
      rintro schema hschema
      obtain rfl := Option.some.inj hschema
      exact ⟨rfl, getProp_ne_nan hname, optProp_ne_nan _ _, optProp_ne_nan _ _⟩
    · obtain rfl := Except.ok.inj hf
      exact ⟨optProp_ne_nan _ _, fun _ hschema => nomatch hschema⟩
  · cases h

/-- **What an accepted body becomes**, field by field. -/
theorem parse_eq_ok_iff {body : Json} {requestId : String} {request : UnifiedAiRequest} :
    parseChatCompletionRequest body requestId = .ok request ↔
      ∃ items ms ts f, body ≠ .null ∧ (body.prop "model").truthy = true ∧ messagesOf body = .ok items ∧
        outOfRange (body.prop "temperature") 2 = .ok false ∧ outOfRange (body.prop "top_p") 1 = .ok false ∧
        moreThanOne (body.prop "n") = .ok false ∧
        (items.zipIdx.mapM fun e => parseChatMessage e.1 e.2) = .ok ms ∧ mapTools (body.prop "tools") = .ok ts ∧
        parseResponseFormat (body.prop "response_format") = .ok f ∧ request = unifiedOf body requestId ms ts f := by
  unfold parseChatCompletionRequest
  simp only [Except.bind_eq_ok_iff, require_eq_ok_iff]
  constructor
  · rintro ⟨model, hmodel, -, htruthy, items, hitems, badTemperature, htemperature, -, hok, badTopP, htopP, -, hok',
      many, hmany, -, hone, ms, hms, ts, hts, f, hf, h⟩
    obtain rfl : badTemperature = false := by simpa using hok
    obtain rfl : badTopP = false := by simpa using hok'
    obtain rfl : many = false := by simpa using hone
    obtain rfl := optProp_of_getProp hmodel
    refine ⟨items, ms, ts, f, succeeds_getProp_iff.mp ⟨_, hmodel⟩, htruthy, hitems, htemperature, htopP, hmany, hms,
      hts, hf, ?_⟩
    exact (Except.ok.inj h).symm
  · rintro ⟨items, ms, ts, f, hbody, htruthy, hitems, htemperature, htopP, hmany, hms, hts, hf, rfl⟩
    exact ⟨_, getProp_json "model" hbody, (), htruthy, items, hitems, false, htemperature, (), rfl, false, htopP, (),
      rfl, false, hmany, (), rfl, ms, hms, ts, hts, f, hf, rfl⟩

theorem orElse_ne_nan {v w : JsValue} (hv : v ≠ .nan) (hw : w ≠ .nan) : v.orElse w ≠ .nan := by
  unfold JsValue.orElse
  split
  · exact hw
  · exact hv

theorem streamOptions_ne_nan {streamOptions includeUsage : JsValue}
    (h : mapStreamOptions streamOptions = some includeUsage) : includeUsage ≠ .nan := by
  unfold mapStreamOptions at h
  split at h
  · obtain rfl := Option.some.inj h
    exact optProp_ne_nan _ _
  · cases h

/-- The pictures in the body are written as OpenAI writes them. -/
def PlainBody (body : Json) : Prop :=
  ∀ items, body.prop "messages" = .json (.arr items) → ∀ msg ∈ items, PlainPictures msg

/-- What passes the checks of the parser is mapped. -/
theorem mapOpenAiMessage_of_parse {msg : Json} {index : Nat} {u : UnifiedMessage}
    (h : parseChatMessage msg index = .ok u) : mapOpenAiMessage msg = .ok u := by
  unfold parseChatMessage at h
  simp only [Except.bind_eq_ok_iff] at h
  obtain ⟨-, -, -, -, -, -, -, -, h⟩ := h
  exact h

theorem toOpenAiRequest_eq_ok_iff {unified : UnifiedAiRequest} {req : ChatRequest} :
    toOpenAiRequest unified = .ok req ↔
      ∃ messages, unified.messages.mapM OpenAi.mapMessage = .ok messages ∧ req = requestOf unified messages := by
  unfold toOpenAiRequest
  rw [Except.bind_eq_ok_iff]
  constructor
  · rintro ⟨messages, hmessages, h⟩
    exact ⟨messages, hmessages, (Except.ok.inj h).symm⟩
  · rintro ⟨messages, hmessages, rfl⟩
    exact ⟨messages, hmessages, rfl⟩

end Compat

open Compat OpenAi

/-- **The first gateway settles the request.** -/
theorem settled_request {gateway : Forwarding} {body : Json} {req : ChatRequest} (h : gateway.request body = .ok req)
    (hplain : PlainBody body) : req.Settled := by
  obtain ⟨request, hparse, hreq⟩ := Except.bind_eq_ok_iff.mp h
  obtain ⟨items, ms, ts, f, -, -, hitems, htemperature, htopP, -, hms, hts, hf, rfl⟩ := parse_eq_ok_iff.mp hparse
  obtain ⟨messages, hmessages, rfl⟩ := toOpenAiRequest_eq_ok_iff.mp hreq
  obtain ⟨hprop, hne⟩ := messagesOf_eq_ok_iff.mp hitems
  have hparsed := Except.forall_of_mapM_eq_ok
    (P := fun u => ∃ msg ∈ items, Compat.mapOpenAiMessage msg = .ok u) hms fun e he u hu =>
      ⟨e.1, List.fst_mem_of_mem_zipIdx he, mapOpenAiMessage_of_parse hu⟩
  have hitems' := settled_items (fun _ _ => settled_mapTool) hts
  refine ⟨⟨_, rfl, gateway.named⟩, ⟨?_, ?_⟩, ⟨_, rfl⟩, ⟨prop_ne_nan body _, htemperature⟩,
    ⟨prop_ne_nan body _, htopP⟩, ?_, ?_, prop_ne_nan body _, settled_responseFormat hf, ?_, whenTruthy_whenTruthy _⟩
  · rintro rfl
    have hlength := (Except.length_of_mapM_eq_ok hmessages).trans (Except.length_of_mapM_eq_ok hms)
    exact hne (by simpa using hlength.symm)
  · refine Except.forall_of_mapM_eq_ok hmessages fun u hu m hm => ?_
    obtain ⟨msg, hmsg, hmap⟩ := hparsed u hu
    exact settled_message hmap hm (hplain items hprop msg hmsg)
  · exact orElse_ne_nan (prop_ne_nan body _) (prop_ne_nan body _)
  · intro tools htools
    exact hitems' tools (Option.filter_eq_some_iff.mp htools).1
  · exact fun _ => streamOptions_ne_nan

/-! ## Read back -/

namespace OpenAi

/-- What the parser makes of a part in a user's message. -/
def ContentPart.unified : ContentPart → Json
  | .text value => object [("type", .json (.str "text")), ("text", value)]
  | .imageUrl url => object [("type", .json (.str "image_url")), ("imageUrl", url), ("detail", .undefined)]

/-- A part in a user's message is read back. -/
theorem userPart_read_back {part : ContentPart} (h : part.Settled True) :
    Compat.mapUserPart part.toWire = .ok part.unified ∧ mapContentPart part.unified = .ok part := by
  cases part with
  | text value =>
      obtain ⟨j, rfl, hnull⟩ := h
      refine ⟨rfl, ?_⟩
      show Except.ok (ContentPart.text ((JsValue.json j).orElse _)) = _
      rw [Present.orElse ⟨j, rfl, hnull⟩]
  | imageUrl url =>
      obtain ⟨⟨j, rfl, hnull⟩, -⟩ := h
      refine ⟨rfl, ?_⟩
      show Except.ok (ContentPart.imageUrl ((JsValue.json j).orElse _)) = _
      rw [Present.orElse ⟨j, rfl, hnull⟩]

/-- A part of any other message, where the mapper finds no url. -/
theorem rawPart_read_back {part : ContentPart} (h : part.Settled False) : mapContentPart part.toWire = .ok part := by
  cases part with
  | text value =>
      obtain ⟨j, rfl, hnull⟩ := h
      show Except.ok (ContentPart.text ((JsValue.json j).orElse _)) = _
      rw [Present.orElse ⟨j, rfl, hnull⟩]
  | imageUrl url =>
      obtain ⟨-, hlost⟩ := h
      rw [hlost.resolve_left id]
      rfl

/-- The content of a user's message is read back. -/
theorem userContent_read_back {c : String ⊕ List ContentPart} (h : ContentSettled True c) :
    ∃ v, Compat.mapUserContent (.json (contentToWire c)) = .ok v ∧
      mapContent "msg.content" mapContentPart v = .ok c := by
  cases c with
  | inl s => exact ⟨_, rfl, rfl⟩
  | inr parts =>
      have hparse : (parts.map ContentPart.toWire).mapM Compat.mapUserPart = .ok (parts.map ContentPart.unified) :=
        Except.mapM_map_eq fun part hpart => (userPart_read_back (h part hpart)).1
      have hmap : (parts.map ContentPart.unified).mapM mapContentPart = .ok parts :=
        Except.mapM_map_eq_ok fun part hpart => (userPart_read_back (h part hpart)).2
      refine ⟨.json (.arr (parts.map ContentPart.unified)), ?_, ?_⟩
      · show ((parts.map ContentPart.toWire).mapM Compat.mapUserPart >>= fun ps => _) = _
        rw [hparse]
        rfl
      · show ((parts.map ContentPart.unified).mapM mapContentPart >>= fun cs => _) = _
        rw [hmap]
        rfl

/-- The content of any other message. -/
theorem rawContent_read_back {c : String ⊕ List ContentPart} (h : ContentSettled False c) :
    mapContent "msg.content" mapContentPart (.json (contentToWire c)) = .ok c := by
  cases c with
  | inl s => rfl
  | inr parts =>
      have hmap : (parts.map ContentPart.toWire).mapM mapContentPart = .ok parts :=
        Except.mapM_map_eq_ok fun part hpart => rawPart_read_back (h part hpart)
      show ((parts.map ContentPart.toWire).mapM mapContentPart >>= fun cs => _) = _
      rw [hmap]
      rfl

/-- A tool call is read back. -/
theorem toolCall_read_back {call : UnifiedToolCall} (h : CallSettled call) :
    Compat.mapToolCall (toolCallToWire call) = .ok call := by
  obtain ⟨id, name, arguments⟩ := call
  have hid := elim_onWire h.id
  have hname := elim_onWire h.name
  have harguments := elim_onWire h.arguments
  unfold Compat.mapToolCall toolCallToWire
  simp [bind, Except.bind, pure, Except.pure, hid, hname, harguments]

/-- Optional items are read back. -/
theorem items_read_back {α : Type} {expr : String} {f : Json → Throws α} {w : α → Json} {items : Option (List α)}
    (h : ∀ as, items = some as → as ≠ [] ∧ ∀ a ∈ as, f (w a) = .ok a) :
    (if (optProp (arrayToWire w items) "length").truthy then do
        let items ← arrayOf expr "map" (arrayToWire w items)
        return some (← items.mapM f)
      else .ok none) = .ok items := by
  cases items with
  | none => rfl
  | some as =>
      obtain ⟨hne, hback⟩ := h as rfl
      have hlength := truthy_length_iff.mpr (mt List.map_eq_nil_iff.mp hne : as.map w ≠ [])
      have hmap : (as.map w).mapM f = .ok as := Except.mapM_map_eq_ok hback
      show (if (optProp (.json (.arr (as.map w))) "length").truthy then _ else _) = _
      rw [if_pos hlength]
      show ((as.map w).mapM f >>= fun as => _) = _
      rw [hmap]
      rfl

/-- A tool is read back. -/
theorem tool_read_back {tool : UnifiedTool} (h : ToolSettled tool) : Compat.mapTool (toolToWire tool) = .ok tool := by
  obtain ⟨type, ⟨name, description, parameters, strict⟩⟩ := tool
  have htype := elim_onWire h.type
  have hname := elim_onWire h.name
  have hdescription := elim_onWire h.description
  have hparameters := elim_onWire h.parameters
  have hstrict := elim_onWire h.strict
  unfold Compat.mapTool toolToWire
  simp [bind, Except.bind, pure, Except.pure, htype, hname, hdescription, hparameters, hstrict]

/-- A response format is read back. -/
theorem responseFormat_read_back {format : UnifiedResponseFormat} (h : FormatSettled format) :
    Compat.mapResponseFormat (.json (responseFormatToWire format)) = .ok format := by
  obtain ⟨type, schema⟩ := format
  have htype : optProp (.json (responseFormatToWire ⟨type, schema⟩)) "type" = type := by
    simpa [responseFormatToWire] using elim_onWire h.type
  unfold Compat.mapResponseFormat
  dsimp only
  rw [htype]
  cases schema with
  | none =>
      have hschema : optProp (.json (responseFormatToWire ⟨type, none⟩)) "json_schema" = .undefined := by
        simp [responseFormatToWire, JsValue.onWire]
      rw [hschema, show JsValue.undefined.isDefined = false from rfl, Bool.and_false, if_neg Bool.false_ne_true]
  | some schema =>
      obtain ⟨rfl, hname, hbody, hstrict⟩ := h.schema schema rfl
      have hschema : optProp (.json (responseFormatToWire ⟨.json (.str "json_schema"), some schema⟩)) "json_schema" =
          .json (wireObject [("name", schema.name), ("schema", schema.schema), ("strict", schema.strict)]) := by
        simp [responseFormatToWire]
      rw [hschema]
      simp [JsValue.isStr, JsValue.isDefined, bind, Except.bind, pure, Except.pure, elim_onWire hname,
        elim_onWire hbody, elim_onWire hstrict]

/-- What the parser reads of a message that was sent. -/
theorem toWire_props (msg : Message) :
    msg.toWire.prop "role" = msg.role.onWire.elim .undefined .json ∧
      msg.toWire.prop "content" = .json (contentToWire msg.content) ∧
      msg.toWire.prop "name" = msg.name.onWire.elim .undefined .json ∧
      msg.toWire.prop "tool_call_id" = msg.toolCallId.onWire.elim .undefined .json ∧
      msg.toWire.prop "tool_calls" = arrayToWire toolCallToWire msg.toolCalls := by
  unfold Message.toWire
  refine ⟨by simp, by simp, by simp, by simp, ?_⟩
  cases msg.toolCalls <;> simp [arrayToWire, JsValue.onWire]

/-- What was sent passes the checks of the parser. -/
theorem parseChatMessage_toWire {msg : Message} {role : String} (hrole : msg.role = .json (.str role))
    (hne : role ≠ "")
    (index : Nat) : Compat.parseChatMessage msg.toWire index = Compat.mapOpenAiMessage msg.toWire := by
  obtain ⟨hread, hcontent, -⟩ := toWire_props msg
  rw [hrole, onWire_json, Option.elim_some] at hread
  have hobject : msg.toWire.isObject = true := rfl
  have hnullish : (JsValue.json (contentToWire msg.content)).isNullish = false := by
    cases msg.content <;> rfl
  have htyped : ∀ b : Bool, (b || (JsValue.json (contentToWire msg.content)).isString ||
      (JsValue.json (contentToWire msg.content)).isArray) = true := by
    intro b
    cases msg.content <;> simp [contentToWire, JsValue.isString, JsValue.isArray]
  have htruthy : (JsValue.json (.str role)).truthy = true := by
    simpa [JsValue.truthy, Json.truthy] using hne
  unfold Compat.parseChatMessage
  dsimp only
  rw [hobject, hread, htruthy, hcontent, hnullish, htyped]
  simp [Compat.require, bind, Except.bind]

/-- **A message is read back**, at any place of a conversation. -/
theorem message_read_back {msg : Message} (h : msg.Settled) (index : Nat) :
    ∃ u, Compat.parseChatMessage msg.toWire index = .ok u ∧ mapMessage u = .ok msg := by
  obtain ⟨hrole, hcontent, hname, hid, hcalls⟩ := toWire_props msg
  have hwhen : ∀ {v : JsValue}, v.whenTruthy = v → v.onWire.elim .undefined .json = v := by
    intro v hv
    apply elim_onWire
    rw [← hv]
    exact whenTruthy_ne_nan v
  have hundefined : JsValue.undefined.whenTruthy = .undefined := rfl
  cases h with
  | @system content name hsettled hnamed =>
      refine ⟨⟨.json (.str "system"), .json (contentToWire content), name, .undefined, none⟩, ?_,
        mapMessage_eq_ok_iff.mpr ⟨_, rawContent_read_back hsettled, ?_⟩⟩
      · rw [parseChatMessage_toWire rfl (by decide)]
        unfold Compat.mapOpenAiMessage
        simp only [hrole, hcontent, hname, hwhen hnamed, hnamed]
        rfl
      · simp only [hnamed, hundefined]
  | @user content name hsettled hnamed =>
      obtain ⟨v, hparse, hmap⟩ := userContent_read_back hsettled
      refine ⟨⟨.json (.str "user"), v, name, .undefined, none⟩, ?_, mapMessage_eq_ok_iff.mpr ⟨_, hmap, ?_⟩⟩
      · rw [parseChatMessage_toWire rfl (by decide)]
        unfold Compat.mapOpenAiMessage
        simp only [hrole, hcontent, hparse, hname, hwhen hnamed, hnamed]
        rfl
      · simp only [hnamed, hundefined]
  | @assistant content name calls hsettled hnamed hcallsSettled =>
      have hparse : Compat.mapToolCalls (arrayToWire toolCallToWire calls) = .ok calls :=
        items_read_back fun cs hcs =>
          ⟨(hcallsSettled cs hcs).1, fun call hcall => toolCall_read_back ((hcallsSettled cs hcs).2 call hcall)⟩
      -- a null content would be read back as "": the settled form has none
      have hpresent : (JsValue.json (contentToWire content)).orElse (.json (.str "")) =
          .json (contentToWire content) := by
        cases content <;> rfl
      refine ⟨⟨.json (.str "assistant"), .json (contentToWire content), name, .undefined, calls⟩, ?_,
        mapMessage_eq_ok_iff.mpr ⟨_, rawContent_read_back hsettled, ?_⟩⟩
      · rw [parseChatMessage_toWire rfl (by decide)]
        unfold Compat.mapOpenAiMessage
        simp only [hrole, hcontent, hcalls, hparse, hname, hwhen hnamed, hnamed, hpresent]
        rfl
      · simp only [hnamed, hundefined]
  | @tool content id hsettled hgiven =>
      refine ⟨⟨.json (.str "tool"), .json (contentToWire content), .undefined, id, none⟩, ?_,
        mapMessage_eq_ok_iff.mpr ⟨_, rawContent_read_back hsettled, ?_⟩⟩
      · rw [parseChatMessage_toWire rfl (by decide)]
        unfold Compat.mapOpenAiMessage
        simp only [hrole, hcontent, hid, hwhen hgiven]
        rfl
      · simp only [hgiven, hundefined]

end OpenAi

namespace OpenAi

/-- An array of settled items on the wire is what is read there. -/
theorem elim_arrayToWire {α : Type} (f : α → Json) (items : Option (List α)) :
    (arrayToWire f items).onWire.elim .undefined .json = arrayToWire f items := by
  cases items <;> rfl

/-- The stream options, as they are sent. -/
def streamOptionsToWire (streamOptions : Option JsValue) : JsValue :=
  match streamOptions with
  | none => .undefined
  | some includeUsage => .json (wireObject [("include_usage", includeUsage)])

/-- The response format, as it is sent. -/
def optionalFormatToWire (responseFormat : Option UnifiedResponseFormat) : JsValue :=
  match responseFormat with
  | none => .undefined
  | some format => .json (responseFormatToWire format)

theorem streamOptions_read_back {streamOptions : Option JsValue}
    (h : ∀ includeUsage, streamOptions = some includeUsage → includeUsage ≠ .nan) :
    Compat.mapStreamOptions (streamOptionsToWire streamOptions) = streamOptions := by
  cases streamOptions with
  | none => rfl
  | some includeUsage =>
      have hread : (wireObject [("include_usage", includeUsage)]).prop "include_usage" = includeUsage := by
        simpa using elim_onWire (h includeUsage rfl)
      unfold Compat.mapStreamOptions streamOptionsToWire
      rw [optProp_wireObject, hread]
      rfl

theorem optionalFormat_read_back {responseFormat : Option UnifiedResponseFormat}
    (h : ∀ format, responseFormat = some format → FormatSettled format) :
    Compat.parseResponseFormat (optionalFormatToWire responseFormat) = .ok responseFormat := by
  cases responseFormat with
  | none => rfl
  | some format =>
      show (Compat.mapResponseFormat (.json (responseFormatToWire format))).map some = _
      rw [responseFormat_read_back (h format rfl)]
      rfl

theorem stop_read_back (stop : Option (List Json)) : Compat.stopOf (arrayToWire id stop) = stop := by
  cases stop with
  | none => rfl
  | some items =>
      show some (items.map id) = _
      rw [List.map_id]

/-- Messages are read back, from any place on. -/
theorem messages_read_back {msgs : List Message} (h : ∀ msg ∈ msgs, msg.Settled) (k : Nat) :
    ∃ us, (((msgs.map Message.toWire).zipIdx k).mapM fun e => Compat.parseChatMessage e.1 e.2) = .ok us ∧
      us.mapM mapMessage = .ok msgs := by
  induction msgs generalizing k with
  | nil => exact ⟨[], rfl, rfl⟩
  | cons msg rest ih =>
      obtain ⟨u, hparse, hmap⟩ := message_read_back (h msg List.mem_cons_self) k
      obtain ⟨us, hparses, hmaps⟩ := ih (fun msg' hmsg' => h msg' (List.mem_cons_of_mem msg hmsg')) (k + 1)
      refine ⟨u :: us, ?_, Except.mapM_cons_eq_ok_iff.mpr ⟨msg, rest, hmap, hmaps, rfl⟩⟩
      rw [List.map_cons, List.zipIdx_cons]
      exact Except.mapM_cons_eq_ok_iff.mpr ⟨u, us, hparse, hparses, rfl⟩

/-- What the parser reads of a request that was sent. -/
structure Reads (body : Json) (req : ChatRequest) : Prop where
  model : body.prop "model" = .json req.model
  messages : body.prop "messages" = .json (.arr (req.messages.map Message.toWire))
  stream : body.prop "stream" = .json req.stream
  temperature : body.prop "temperature" = req.temperature
  topP : body.prop "top_p" = req.topP
  n : body.prop "n" = .undefined
  maxCompletionTokens : body.prop "max_completion_tokens" = .undefined
  maxTokens : body.prop "max_tokens" = req.maxTokens
  stop : body.prop "stop" = arrayToWire id req.stop
  user : body.prop "user" = req.user
  tools : body.prop "tools" = arrayToWire toolToWire req.tools
  toolChoice : body.prop "tool_choice" = req.toolChoice
  streamOptions : body.prop "stream_options" = streamOptionsToWire req.streamOptions
  responseFormat : body.prop "response_format" = optionalFormatToWire req.responseFormat

theorem reads_toWire {req : ChatRequest} (h : req.Settled) : Reads req.toWire req := by
  have huser : req.user ≠ .nan := by
    rw [← h.user]
    exact whenTruthy_ne_nan _
  have hoptions : (streamOptionsToWire req.streamOptions).onWire.elim .undefined .json =
      streamOptionsToWire req.streamOptions := by
    cases req.streamOptions <;> rfl
  have hformat : (optionalFormatToWire req.responseFormat).onWire.elim .undefined .json =
      optionalFormatToWire req.responseFormat := by
    cases req.responseFormat <;> rfl
  have hread : req.toWire =
      wireObject [("model", .json req.model), ("messages", .json (.arr (req.messages.map Message.toWire))),
        ("stream", .json req.stream), ("temperature", req.temperature), ("top_p", req.topP),
        ("max_tokens", req.maxTokens), ("stop", arrayToWire id req.stop), ("user", req.user),
        ("tools", arrayToWire toolToWire req.tools), ("tool_choice", req.toolChoice),
        ("stream_options", streamOptionsToWire req.streamOptions),
        ("response_format", optionalFormatToWire req.responseFormat)] := rfl
  rw [hread]
  constructor <;>
    simp [elim_onWire h.temperature.1, elim_onWire h.topP.1, elim_onWire h.maxTokens, elim_onWire h.toolChoice,
      elim_onWire huser, elim_arrayToWire, hoptions, hformat]

/-- **A settled request is read back.** -/
theorem sent_read_back {req : ChatRequest} (h : req.Settled) (requestId : String) :
    ∃ request, Compat.parseChatCompletionRequest req.toWire requestId = .ok request ∧
      request.stream = req.stream ∧ ∀ model stream,
        toOpenAiRequest { request with model := model, stream := stream } =
          .ok { req with model := model, stream := stream } := by
  have hreads := reads_toWire h
  obtain ⟨model, hmodel, hnamed⟩ := h.model
  obtain ⟨stream, hstream⟩ := h.stream
  obtain ⟨us, hus, hmessages⟩ := messages_read_back h.messages.2 0
  have htools : Compat.mapTools (arrayToWire toolToWire req.tools) = .ok req.tools :=
    items_read_back fun tools htools =>
      ⟨(h.tools tools htools).1, fun tool htool => tool_read_back ((h.tools tools htools).2 tool htool)⟩
  have hkept : req.tools.filter (· ≠ []) = req.tools := by
    cases htools : req.tools with
    | none => rfl
    | some tools => simp [Option.filter, (h.tools tools htools).1]
  have hparse : Compat.parseChatCompletionRequest req.toWire requestId =
      .ok (Compat.unifiedOf req.toWire requestId us req.tools req.responseFormat) := by
    refine Compat.parse_eq_ok_iff.mpr ⟨req.messages.map Message.toWire, us, req.tools, req.responseFormat, ?_, ?_, ?_,
      ?_, ?_, ?_, hus, ?_, ?_, rfl⟩
    · exact fun hnull => nomatch hnull
    · rw [hreads.model, hmodel]
      simpa [JsValue.truthy, Json.truthy] using hnamed
    · exact Compat.messagesOf_eq_ok_iff.mpr ⟨hreads.messages, mt List.map_eq_nil_iff.mp h.messages.1⟩
    · rw [hreads.temperature]
      exact h.temperature.2
    · rw [hreads.topP]
      exact h.topP.2
    · rw [hreads.n]
      rfl
    · rw [hreads.tools]
      exact htools
    · rw [hreads.responseFormat]
      exact optionalFormat_read_back h.responseFormat
  refine ⟨_, hparse, ?_, ?_⟩
  · unfold Compat.unifiedOf
    dsimp only
    rw [hreads.stream, hstream]
    rfl
  · intro model' stream'
    refine Compat.toOpenAiRequest_eq_ok_iff.mpr ⟨req.messages, hmessages, ?_⟩
    have htokens : JsValue.undefined.orElse req.maxTokens = req.maxTokens := rfl
    unfold Compat.requestOf Compat.unifiedOf
    dsimp only
    rw [hreads.temperature, hreads.topP, hreads.maxCompletionTokens, hreads.maxTokens, hreads.stop, hreads.toolChoice,
      hreads.streamOptions, hreads.user, htokens, stop_read_back, streamOptions_read_back h.streamOptions, hkept,
      whenTruthy_whenTruthy, h.user]

end OpenAi

namespace Compat

theorem map_bind {α β γ : Type} (f : β → γ) (x : Throws α) (g : α → Throws β) :
    (x >>= g).map f = x >>= fun a => (g a).map f := by
  cases x <;> rfl

/-- The id of a request decides nothing. -/
theorem parse_requestId (body : Json) (requestId requestId' : String) :
    parseChatCompletionRequest body requestId =
      (parseChatCompletionRequest body requestId').map fun request => { request with requestId := requestId } := by
  unfold parseChatCompletionRequest
  simp only [map_bind]
  rfl

end Compat

/-! ## Results -/

/-- Gateways differ in the model they ask for. -/
theorem request_rename (gateway other : Forwarding) (body : Json) :
    gateway.request body = (other.request body).map fun req => { req with model := .str gateway.model } := by
  unfold Forwarding.request
  rw [parse_requestId body gateway.requestId other.requestId]
  cases parseChatCompletionRequest body other.requestId with
  | error e => rfl
  | ok request =>
      show toOpenAiRequest _ = (toOpenAiRequest _).map _
      unfold toOpenAiRequest
      rw [map_bind]
      rfl

theorem settled_rename {req : ChatRequest} (h : req.Settled) (gateway : Forwarding) :
    ({ req with model := .str gateway.model } : ChatRequest).Settled :=
  ⟨⟨_, rfl, gateway.named⟩, h.messages, h.stream, h.temperature, h.topP, h.maxTokens, h.tools, h.toolChoice,
    h.responseFormat, h.streamOptions, h.user⟩

/-- **A step of the chain**: a settled request goes on as it came, under the gateway's name for the model. -/
theorem forward_settled {req : ChatRequest} (h : req.Settled) (gateway : Forwarding) :
    gateway.forward req.toWire = .ok ({ req with model := .str gateway.model } : ChatRequest).toWire := by
  obtain ⟨request, hparse, hstream, hback⟩ := sent_read_back h gateway.requestId
  obtain ⟨stream, hbool⟩ := h.stream
  have htruthy : Json.bool (JsValue.json request.stream).truthy = req.stream := by
    rw [hstream, hbool]
    rfl
  unfold Forwarding.forward Forwarding.request
  rw [hparse, Except.ok_bind, htruthy, hback]
  rfl

/-- The chain behind the first gateway. -/
theorem foldlM_forward_settled {req : ChatRequest} (h : req.Settled) (gateways : List Forwarding)
    (last : Forwarding) :
    (gateways ++ [last]).foldlM (fun body gateway => gateway.forward body) req.toWire =
      .ok ({ req with model := .str last.model } : ChatRequest).toWire := by
  induction gateways generalizing req with
  | nil =>
      rw [List.nil_append, List.foldlM_cons, forward_settled h last]
      rfl
  | cons gateway gateways ih =>
      rw [List.cons_append, List.foldlM_cons, forward_settled h gateway]
      exact ih (settled_rename h gateway)

/-- **A chat request passes through.** A chain of gateways, each the OpenAI provider of the one before it, sends
    upstream what its last gateway would send for the client's body, and refuses what that one would refuse. -/
theorem chain_forwards {body : Json} (hplain : PlainBody body) (gateways : List Forwarding) (last : Forwarding) :
    (gateways ++ [last]).foldlM (fun body gateway => gateway.forward body) body = last.forward body := by
  cases gateways with
  | nil =>
      rw [List.nil_append, List.foldlM_cons]
      cases last.forward body <;> rfl
  | cons first gateways =>
      rw [List.cons_append, List.foldlM_cons]
      have hlast := request_rename last first body
      unfold Forwarding.forward at hlast ⊢
      rw [hlast]
      cases hfirst : first.request body with
      | error e => rfl
      | ok req => exact foldlM_forward_settled (settled_request hfirst hplain) gateways last

/-- A look at a picture with a tool, whose call has an empty id. -/
def pictureSearch : Json :=
  .obj [("model", .str "vision"), ("stream", .bool true), ("max_completion_tokens", .num 50), ("stop", .str "END"),
    ("messages", .arr [
      .obj [("role", .str "system"), ("content", .arr [.obj [("type", .str "text"), ("text", .str "Be brief.")]])],
      .obj [("role", .str "user"), ("content", .arr [
        .obj [("type", .str "image_url"), ("image_url", .obj [("url", .str "https://example.com/cat.png")])]])],
      .obj [("role", .str "assistant"), ("content", .null), ("tool_calls", .arr [
        .obj [("id", .str ""), ("type", .str "function"),
          ("function", .obj [("name", .str "find"), ("arguments", .str "\x7b\x7d")])]])],
      .obj [("role", .str "tool"), ("tool_call_id", .str ""), ("content", .str "A cat.")]])]

theorem plainBody_pictureSearch : PlainBody pictureSearch := by
  intro items hitems msg hmsg huser parts hparts part hpart himage
  cases hitems
  simp only [List.mem_cons, List.not_mem_nil, or_false] at hmsg
  obtain rfl | rfl | rfl | rfl := hmsg
  · cases hparts
    rw [List.mem_singleton.mp hpart] at himage
    exact absurd himage (by decide)
  · exact absurd rfl huser
  · cases hparts
  · cases hparts

/-- The gateway nearest to the upstream. -/
def nearest : Forwarding := ⟨"c", "gpt-4o", by decide⟩

theorem chain_forwards_pictureSearch :
    ([(⟨"a", "outer", by decide⟩ : Forwarding), ⟨"b", "middle", by decide⟩] ++ [nearest]).foldlM
        (fun body gateway => gateway.forward body) pictureSearch = nearest.forward pictureSearch ∧
      (nearest.forward pictureSearch).Succeeds :=
  ⟨chain_forwards plainBody_pictureSearch _ _, _, rfl⟩

end Sirius
