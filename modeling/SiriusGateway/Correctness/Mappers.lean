import SiriusGateway.Adapters.Native
import SiriusGateway.Compat.Service
import SiriusGateway.Gateway.Service

/-!
# `Correctness.Mappers` — which client bodies fail inside a mapper

The two parsers check less than the five mappers rely on. What the mappers need of a unified request
(`MapsEverywhere`) is traced back through the parsers to the client body: `BodyMaps` says which of the bodies
a parser accepts every mapper can carry.

## Contents
- **Unified requests.** `MapsEverywhere`, and its condition on the messages (`mapsEverywhere_iff`).
- **Chat completions.** `ChatMessageMaps`, `parseChatMessage_maps`.
- **Responses.** `InputItemMaps`; the loop over the input keeps the assistant messages' content a string
  (`Textual`), so that only tool calls can spoil them (`parseInputItems_maps`).
- **Bodies.** `BodyMaps`, `FailsAfterContact` and the main result `mappers_total_iff`.
-/

namespace Sirius

open Js Compat

/-! ## Unified requests -/

/-- Every one of the five mappers returns a request. -/
structure MapsEverywhere (request : UnifiedAiRequest) : Prop where
  openAi : (OpenAi.toOpenAiRequest request).Succeeds
  anthropic : (Anthropic.toAnthropicRequest request).Succeeds
  ollama : (Ollama.toOllamaRequest request).Succeeds
  fromFile : ∀ stream, (Nova.toNovaRequest request stream).Succeeds
  llamactl : (Nova.siriusRequestToNova request).Succeeds

/-- What the five mappers together ask of a message. -/
structure MessageMaps (msg : UnifiedMessage) : Prop where
  content : IsContent msg.content
  texts : TextsPrint msg.content
  anthropic : Anthropic.Maps msg

theorem mapsEverywhere_iff {request : UnifiedAiRequest} :
    MapsEverywhere request ↔
      (∀ msg ∈ request.messages, MessageMaps msg) ∧ Anthropic.ChoiceMaps request.toolChoice := by
  constructor
  · rintro ⟨hopen, hanthropic, hollama, -, -⟩
    obtain ⟨hmaps, hchoice⟩ := Anthropic.succeeds_toAnthropicRequest_iff.mp hanthropic
    have hollama := Ollama.succeeds_toOllamaRequest_iff.mp hollama
    exact ⟨fun msg hmem => ⟨(hollama msg hmem).1, (hollama msg hmem).2, hmaps msg hmem⟩, hchoice⟩
  · rintro ⟨hmsgs, hchoice⟩
    have hcontent : ∀ msg ∈ request.messages, IsContent msg.content := fun msg hmem =>
      (hmsgs msg hmem).content
    exact ⟨OpenAi.succeeds_toOpenAiRequest_iff.mpr hcontent,
      Anthropic.succeeds_toAnthropicRequest_iff.mpr ⟨fun msg hmem => (hmsgs msg hmem).anthropic, hchoice⟩,
      Ollama.succeeds_toOllamaRequest_iff.mpr fun msg hmem => ⟨hcontent msg hmem, (hmsgs msg hmem).texts⟩,
      fun _ => Nova.succeeds_toNovaRequest_iff.mpr hcontent,
      Nova.succeeds_siriusRequestToNova_iff.mpr hcontent⟩

/-- The arguments of a tool call are missing, empty or the text of a JSON value. -/
def ArgumentsParse (args : JsValue) : Prop := args.truthy = true → (parseJson args).Succeeds

theorem succeeds_parseArguments_iff {args : JsValue} :
    (Anthropic.parseArguments args).Succeeds ↔ ArgumentsParse args := by
  unfold Anthropic.parseArguments ArgumentsParse
  split
  · exact ⟨fun h _ => h, fun h => h ‹_›⟩
  · refine ⟨fun _ h => absurd h ‹_›, fun _ => ⟨.obj [], ?_⟩⟩
    decide

/-- The content of a message that is no user's. -/
def ContentMaps (content : JsValue) : Prop := IsContent content ∧ TextsPrint content

theorem contentMaps_str (s : String) : ContentMaps (.json (.str s)) :=
  ⟨Or.inl ⟨s, rfl⟩, fun _ h => nomatch h⟩

theorem imagesPrint_str (s : String) : Anthropic.ImagesPrint (.json (.str s)) := fun _ h => nomatch h

section Roles

variable {msg : UnifiedMessage}

theorem messageMaps_system (h : msg.role = .json (.str "system")) :
    MessageMaps msg ↔ ContentMaps msg.content := by
  have hmaps : Anthropic.Maps msg ↔ ContentMaps msg.content := by
    unfold Anthropic.Maps
    rw [h, if_pos (by decide)]
    exact Iff.rfl
  exact ⟨fun h => ⟨h.content, h.texts⟩, fun h => ⟨h.1, h.2, hmaps.mpr h⟩⟩

theorem messageMaps_tool (h : msg.role = .json (.str "tool")) :
    MessageMaps msg ↔ ContentMaps msg.content := by
  have hmaps : Anthropic.Maps msg := by
    unfold Anthropic.Maps
    rw [h, if_neg (by decide), if_pos (by decide)]
    trivial
  exact ⟨fun h => ⟨h.content, h.texts⟩, fun h => ⟨h.1, h.2, hmaps⟩⟩

/-- An assistant turn that calls tools. -/
theorem messageMaps_calls {calls : List UnifiedToolCall} (h : msg.role = .json (.str "assistant"))
    (hcalls : msg.toolCalls = some calls) (hne : calls ≠ []) :
    MessageMaps msg ↔
      ContentMaps msg.content ∧ ∀ tc ∈ calls, ArgumentsParse tc.function.arguments := by
  have hmaps : Anthropic.Maps msg ↔ ∀ tc ∈ calls, ArgumentsParse tc.function.arguments := by
    have hhas : Anthropic.hasToolCalls msg = true := by
      unfold Anthropic.hasToolCalls
      simp [h, hcalls, hne]
    unfold Anthropic.Maps
    rw [h, if_neg (by decide), if_neg (by decide), if_pos hhas, hcalls]
    exact forall₂_congr fun tc _ => succeeds_parseArguments_iff
  exact ⟨fun h => ⟨⟨h.content, h.texts⟩, hmaps.mp h.anthropic⟩,
    fun h => ⟨h.1.1, h.1.2, hmaps.mpr h.2⟩⟩

/-- Any other message. -/
theorem messageMaps_plain (hsystem : msg.role ≠ .json (.str "system"))
    (htool : msg.role ≠ .json (.str "tool")) (hcalls : Anthropic.hasToolCalls msg = false) :
    MessageMaps msg ↔ ContentMaps msg.content ∧ Anthropic.ImagesPrint msg.content := by
  have hmaps : Anthropic.Maps msg ↔ IsContent msg.content ∧ Anthropic.ImagesPrint msg.content := by
    unfold Anthropic.Maps
    rw [if_neg fun h => hsystem (isStr_iff.mp h), if_neg fun h => htool (isStr_iff.mp h),
      if_neg (by rw [hcalls]; exact Bool.false_ne_true)]
  exact ⟨fun h => ⟨⟨h.content, h.texts⟩, (hmaps.mp h.anthropic).2⟩,
    fun h => ⟨h.1.1, h.1.2, hmaps.mpr ⟨h.1.1, h.2⟩⟩⟩

end Roles

/-! ## Chat completions -/

/-- The part of a user message prints where a mapper prints it. -/
def UserPartMaps (part : Json) : Prop :=
  if HasType part "image_url" then
    (optProp (part.prop "image_url") "url").truthy = true →
      Printable (optProp (part.prop "image_url") "url")
  else Printable (part.prop "text")

/-- What the mappers ask of a message of a chat completion body. -/
def ChatMessageMaps (msg : Json) : Prop :=
  let role := msg.prop "role"
  let content := msg.prop "content"
  let toolCalls := msg.prop "tool_calls"
  if role.isStr "system" then ContentMaps content
  else if role.isStr "user" then
    ∀ parts, content = .json (.arr parts) → ∀ part ∈ parts, UserPartMaps part
  else if role.isStr "assistant" then
    (content.isNullish = false → ContentMaps content) ∧
      if (optProp toolCalls "length").truthy then
        ∀ calls, toolCalls = .json (.arr calls) →
          ∀ tc ∈ calls, ArgumentsParse (optProp (tc.prop "function") "arguments")
      else Anthropic.ImagesPrint content
  else if role.isStr "tool" then ContentMaps content
  else True

/-- A user part keeps its type and the value the mappers print. -/
theorem mapUserPart_spec {part mapped : Json} (h : mapUserPart part = .ok mapped) :
    mapped ≠ .null ∧
      ((HasType mapped "text" → Printable (mapped.prop "text")) ∧
        (HasType mapped "image_url" → (mapped.prop "imageUrl").truthy = true →
          Printable (mapped.prop "imageUrl")) ↔ UserPartMaps part) := by
  obtain ⟨type, htype, h⟩ := Except.bind_eq_ok_iff.mp h
  have hnull : part ≠ .null := by
    rintro rfl
    cases htype
  obtain rfl := Except.ok.inj ((getProp_json "type" hnull).symm.trans htype)
  unfold UserPartMaps
  split at h
  · rename_i himage
    rw [if_pos (show HasType part "image_url" from isStr_iff.mp himage)]
    obtain ⟨url, hurl, h⟩ := Except.bind_eq_ok_iff.mp h
    have hurl : optProp (part.prop "image_url") "url" = url :=
      Except.ok.inj ((getProp_eq "url" (getProp_ok_iff.mp ⟨url, hurl⟩)).symm.trans hurl)
    obtain rfl := Except.ok.inj h
    rw [hurl]
    refine ⟨by rintro ⟨⟩, ?_⟩
    cases url <;> cases optProp (part.prop "image_url") "detail" <;>
      simp [object, HasType, lookup, Json.prop]
  · rename_i himage
    rw [if_neg (show ¬ HasType part "image_url" from fun h => himage (isStr_iff.mpr h))]
    obtain rfl := Except.ok.inj h
    refine ⟨by rintro ⟨⟩, ?_⟩
    cases part.prop "text" <;> simp [object, HasType, lookup, Json.prop, Printable, JsValue.toStr]

/-- The content of a user message maps exactly when its parts do. -/
theorem mapUserContent_spec {content c : JsValue} (h : mapUserContent content = .ok c) :
    ContentMaps c ∧ Anthropic.ImagesPrint c ↔
      ∀ parts, content = .json (.arr parts) → ∀ part ∈ parts, UserPartMaps part := by
  unfold mapUserContent at h
  split at h
  · rename_i s
    obtain rfl := Except.ok.inj h
    exact ⟨fun _ parts heq => (nomatch heq), fun _ => ⟨contentMaps_str s, imagesPrint_str s⟩⟩
  · obtain ⟨parts, hparts, h⟩ := Except.bind_eq_ok_iff.mp h
    obtain ⟨mapped, hmapped, h⟩ := Except.bind_eq_ok_iff.mp h
    obtain rfl := Except.ok.inj h
    rw [arrayOf_eq_ok_iff.mp hparts]
    have hall := Except.forall_mapM_iff hmapped (P := fun part =>
        (HasType part "text" → Printable (part.prop "text")) ∧ (HasType part "image_url" →
          (part.prop "imageUrl").truthy = true → Printable (part.prop "imageUrl")))
      fun part _ b hb => (mapUserPart_spec hb).2
    have hnull : Json.null ∉ mapped := by
      intro hmem
      have hne := (Except.forall_mapM_iff hmapped (P := fun part => part ≠ .null) (Q := fun _ => True)
        fun part _ b hb => ⟨fun _ => trivial, fun _ => (mapUserPart_spec hb).1⟩).mpr fun _ _ => trivial
      exact hne _ hmem rfl
    constructor
    · rintro ⟨⟨-, htexts⟩, himages⟩ parts' heq
      cases heq
      exact hall.mp fun part hmem => ⟨htexts _ rfl part hmem, himages _ rfl part hmem⟩
    · intro hparts
      have hmaps := hall.mpr (hparts parts rfl)
      refine ⟨⟨Or.inr ⟨mapped, rfl, hnull⟩, ?_⟩, ?_⟩
      · intro parts' heq part hmem
        cases heq
        exact (hmaps part hmem).1
      · intro parts' heq part hmem
        cases heq
        exact (hmaps part hmem).2

/-- A tool call keeps its arguments. -/
theorem mapToolCall_arguments {tc : Json} {call : UnifiedToolCall} (h : mapToolCall tc = .ok call) :
    call.function.arguments = optProp (tc.prop "function") "arguments" := by
  obtain ⟨id, hid, h⟩ := Except.bind_eq_ok_iff.mp h
  obtain ⟨function, hfunction, h⟩ := Except.bind_eq_ok_iff.mp h
  obtain ⟨name, -, h⟩ := Except.bind_eq_ok_iff.mp h
  have hnull : tc ≠ .null := by
    rintro rfl
    cases hid
  obtain rfl := Except.ok.inj ((getProp_json "function" hnull).symm.trans hfunction)
  rw [← Except.ok.inj h]

/-- The tool calls of an assistant message, when `tool_calls` has a length. -/
theorem mapToolCalls_spec {toolCalls : JsValue} {calls : Option (List UnifiedToolCall)}
    (h : mapToolCalls toolCalls = .ok calls) :
    if (optProp toolCalls "length").truthy then
      ∃ cs, calls = some cs ∧ cs ≠ [] ∧
        ((∀ tc ∈ cs, ArgumentsParse tc.function.arguments) ↔
          ∀ items, toolCalls = .json (.arr items) →
            ∀ tc ∈ items, ArgumentsParse (optProp (tc.prop "function") "arguments"))
    else calls = none := by
  unfold mapToolCalls at h
  split
  · rename_i hlength
    rw [if_pos hlength] at h
    obtain ⟨items, hitems, h⟩ := Except.bind_eq_ok_iff.mp h
    obtain ⟨cs, hcs, hcalls⟩ := Except.bind_eq_ok_iff.mp h
    clear h
    obtain rfl := arrayOf_eq_ok_iff.mp hitems
    refine ⟨cs, (Except.ok.inj hcalls).symm, ?_, ?_⟩
    · rintro rfl
      cases items with
      | nil => simp [optProp, Json.prop, Json.truthy] at hlength
      | cons tc rest =>
          obtain ⟨b, more, -, -, heq⟩ := Except.mapM_cons_eq_ok_iff.mp hcs
          cases heq
    · rw [Except.forall_mapM_iff hcs fun tc _ call hcall => by rw [mapToolCall_arguments hcall]]
      constructor
      · intro hall items' heq
        cases heq
        exact hall
      · exact fun hall => hall items rfl
  · rename_i hlength
    rw [if_neg hlength] at h
    exact (Except.ok.inj h).symm

/-- The content of an assistant message: a missing one becomes the empty string. -/
theorem contentMaps_orElse {content : JsValue} :
    ContentMaps (content.orElse (.json (.str ""))) ↔ (content.isNullish = false → ContentMaps content) := by
  unfold JsValue.orElse
  cases hnull : content.isNullish with
  | true => simpa using contentMaps_str ""
  | false => simp

theorem imagesPrint_orElse {content : JsValue} :
    Anthropic.ImagesPrint (content.orElse (.json (.str ""))) ↔ Anthropic.ImagesPrint content := by
  unfold JsValue.orElse
  cases hnull : content.isNullish with
  | true =>
      refine ⟨fun _ parts heq => ?_, fun _ => imagesPrint_str ""⟩
      rw [heq] at hnull
      cases hnull
  | false => exact Iff.rfl

/-- **A chat message** that passes the checks becomes one every mapper carries exactly when
    `ChatMessageMaps` holds of it. -/
theorem parseChatMessage_maps {msg : Json} {index : Nat} {m : UnifiedMessage}
    (h : parseChatMessage msg index = .ok m) : MessageMaps m ↔ ChatMessageMaps msg := by
  unfold parseChatMessage at h
  simp only [Except.bind_eq_ok_iff, require_eq_ok_iff] at h
  obtain ⟨-, -, -, -, -, -, -, -, h⟩ := h
  unfold ChatMessageMaps
  unfold mapOpenAiMessage at h
  dsimp only at h ⊢
  split at h
  · rename_i hrole
    rw [if_pos hrole]
    obtain rfl := Except.ok.inj h
    exact messageMaps_system rfl
  · rename_i hsystem
    rw [if_neg hsystem]
    split at h
    · rename_i hrole
      rw [if_pos hrole]
      obtain ⟨content, hcontent, h⟩ := Except.bind_eq_ok_iff.mp h
      obtain rfl := Except.ok.inj h
      rw [messageMaps_plain (by simp) (by simp) rfl]
      exact mapUserContent_spec hcontent
    · rename_i huser
      rw [if_neg huser]
      split at h
      · rename_i hrole
        rw [if_pos hrole]
        obtain ⟨calls, hcalls, h⟩ := Except.bind_eq_ok_iff.mp h
        obtain rfl := Except.ok.inj h
        -- with calls the arguments decide, without any the content does
        have hspec := mapToolCalls_spec hcalls
        split at hspec
        · rename_i hlength
          obtain ⟨cs, rfl, hne, hargs⟩ := hspec
          rw [messageMaps_calls rfl rfl hne, contentMaps_orElse, if_pos hlength, hargs]
        · rename_i hlength
          subst hspec
          rw [messageMaps_plain (by simp) (by simp) rfl, contentMaps_orElse, imagesPrint_orElse,
            if_neg hlength]
      · rename_i hassistant
        rw [if_neg hassistant]
        split at h
        · rename_i hrole
          rw [if_pos hrole]
          obtain rfl := Except.ok.inj h
          exact messageMaps_tool rfl
        · rename_i htool
          rw [if_neg htool]
          obtain rfl := Except.ok.inj h
          rw [messageMaps_plain (by simp) (by simp) rfl]
          exact ⟨fun _ => trivial, fun _ => ⟨contentMaps_str "", imagesPrint_str ""⟩⟩

/-! ## Responses -/

/-- What the mappers ask of an item of a Responses body. -/
def InputItemMaps (item : Json) : Prop :=
  if (item.prop "type").isStr "function_call" then ArgumentsParse (item.prop "arguments")
  else if (item.prop "type").isStr "function_call_output" then ContentMaps (item.prop "output")
  else True

/-- The content of every assistant message is a string. -/
def Textual (messages : List UnifiedMessage) : Prop :=
  ∀ m ∈ messages, m.role.isStr "assistant" = true → ∃ s, m.content = .json (.str s)

/-- A text without tool calls goes through every mapper, whatever its role. -/
theorem messageMaps_text {m : UnifiedMessage} {s : String} (hcontent : m.content = .json (.str s))
    (hcalls : m.toolCalls = none) : MessageMaps m := by
  have hmaps : ContentMaps m.content := hcontent ▸ contentMaps_str s
  refine ⟨hmaps.1, hmaps.2, ?_⟩
  have hnone : Anthropic.hasToolCalls m = false := by
    unfold Anthropic.hasToolCalls
    rw [hcalls, Option.any_none, Bool.and_false]
  unfold Anthropic.Maps
  split
  · exact hmaps
  · split
    · trivial
    · rw [if_neg (by rw [hnone]; exact Bool.false_ne_true)]
      exact ⟨hmaps.1, hcontent ▸ imagesPrint_str s⟩

/-- An assistant text goes through every mapper when the arguments of its tool calls parse. -/
theorem messageMaps_assistant {m : UnifiedMessage} {s : String} (hrole : m.role.isStr "assistant" = true)
    (hcontent : m.content = .json (.str s)) :
    MessageMaps m ↔ ∀ tc ∈ m.toolCalls.getD [], ArgumentsParse tc.function.arguments := by
  have hmaps : ContentMaps m.content := hcontent ▸ contentMaps_str s
  have hrole := isStr_iff.mp hrole
  have hplain : Anthropic.hasToolCalls m = false → MessageMaps m := by
    intro hnone
    rw [messageMaps_plain (by simp [hrole]) (by simp [hrole]) hnone]
    exact ⟨hmaps, hcontent ▸ imagesPrint_str s⟩
  cases hcalls : m.toolCalls with
  | none =>
      exact ⟨fun _ tc hmem => absurd hmem List.not_mem_nil, fun _ => messageMaps_text hcontent hcalls⟩
  | some calls =>
      cases calls with
      | nil =>
          refine ⟨fun _ tc hmem => absurd hmem List.not_mem_nil, fun _ => hplain ?_⟩
          unfold Anthropic.hasToolCalls
          rw [hcalls]
          simp
      | cons tc rest =>
          rw [messageMaps_calls hrole hcalls (List.cons_ne_nil tc rest)]
          exact ⟨fun h => h.2, fun h => ⟨hmaps, h⟩⟩

/-- The messages after a function call item. -/
theorem appendResponsesFunctionCall_maps {messages : List UnifiedMessage} (item : Json)
    (htext : Textual messages) :
    Textual (appendResponsesFunctionCall messages item) ∧
      ((∀ m ∈ appendResponsesFunctionCall messages item, MessageMaps m) ↔
        (∀ m ∈ messages, MessageMaps m) ∧ ArgumentsParse (item.prop "arguments")) := by
  -- the call as a turn of its own
  have hown : ∀ before, Textual before → Textual (before ++ [toolCallMessage item]) ∧
      ((∀ m ∈ before ++ [toolCallMessage item], MessageMaps m) ↔
        (∀ m ∈ before, MessageMaps m) ∧ ArgumentsParse (item.prop "arguments")) := by
    intro before hbefore
    constructor
    · intro m hmem hrole
      rcases List.mem_append.mp hmem with hmem | hmem
      · exact hbefore m hmem hrole
      · rw [List.mem_singleton.mp hmem]
        exact ⟨"", rfl⟩
    · rw [List.forall_mem_append, List.forall_mem_singleton,
        messageMaps_assistant (m := toolCallMessage item) (s := "") rfl rfl]
      simp [toolCallMessage, toolCallOf]
  unfold appendResponsesFunctionCall
  split
  · rename_i previous hlast
    obtain ⟨init, rfl⟩ := List.getLast?_eq_some_iff.mp hlast
    split
    · rename_i hrole
      obtain ⟨s, hs⟩ := htext previous (by simp) hrole
      rw [List.dropLast_concat]
      constructor
      · intro m hmem hm
        rcases List.mem_append.mp hmem with hmem | hmem
        · exact htext m (List.mem_append_left _ hmem) hm
        · rw [List.mem_singleton.mp hmem]
          exact ⟨s, hs⟩
      · have hjoined := messageMaps_assistant
          (m := { previous with toolCalls := some (previous.toolCalls.getD [] ++ [toolCallOf item]) })
          hrole hs
        rw [List.forall_mem_append, List.forall_mem_append, List.forall_mem_singleton,
          List.forall_mem_singleton, messageMaps_assistant hrole hs, hjoined, Option.getD_some,
          List.forall_mem_append, List.forall_mem_singleton, and_assoc]
        rfl
    · exact hown _ htext
  · rename_i hlast
    rw [List.getLast?_eq_none_iff.mp hlast]
    simpa using hown [] fun m hm => absurd hm List.not_mem_nil

/-- The messages after one item of the input. -/
theorem parseInputItem_maps {messages after : List UnifiedMessage} {item : Json} {index : Nat}
    (htext : Textual messages) (h : parseInputItem messages item index = .ok after) :
    Textual after ∧
      ((∀ m ∈ after, MessageMaps m) ↔ (∀ m ∈ messages, MessageMaps m) ∧ InputItemMaps item) := by
  obtain ⟨-, -, h⟩ := Except.bind_eq_ok_iff.mp h
  unfold InputItemMaps
  split at h
  · rename_i hcall
    obtain rfl := Except.ok.inj h
    rw [if_pos hcall]
    exact appendResponsesFunctionCall_maps item htext
  · rename_i hcall
    obtain ⟨message, hmessage, h⟩ := Except.bind_eq_ok_iff.mp h
    obtain rfl := Except.ok.inj h
    rw [if_neg hcall, List.forall_mem_append, List.forall_mem_singleton]
    have hrole : (message.role.isStr "assistant" = true → ∃ s, message.content = .json (.str s)) →
        Textual (messages ++ [message]) := by
      intro hnew m hmem hm
      rcases List.mem_append.mp hmem with hmem | hmem
      · exact htext m hmem hm
      · rw [List.mem_singleton.mp hmem] at hm ⊢
        exact hnew hm
    unfold mapResponsesInputItem at hmessage
    split at hmessage
    · rename_i houtput
      rw [if_pos houtput]
      obtain rfl := Except.ok.inj hmessage
      exact ⟨hrole fun h => absurd h (by simp), by rw [messageMaps_tool rfl]⟩
    · rename_i houtput
      rw [if_neg houtput]
      dsimp only at hmessage
      split at hmessage
      · obtain rfl := Except.ok.inj hmessage
        exact ⟨hrole fun _ => ⟨_, rfl⟩, by simp [messageMaps_text]⟩
      · obtain rfl := Except.ok.inj hmessage
        exact ⟨hrole fun _ => ⟨_, rfl⟩, by simp [messageMaps_text]⟩
      · cases hmessage

/-- **The loop over the input**: its messages map exactly when those before it and its items do. -/
theorem parseInputItems_maps {messages after : List UnifiedMessage} {items : List Json} {index : Nat}
    (htext : Textual messages) (h : parseInputItems messages items index = .ok after) :
    (∀ m ∈ after, MessageMaps m) ↔
      (∀ m ∈ messages, MessageMaps m) ∧ ∀ item ∈ items, InputItemMaps item := by
  induction items generalizing messages index with
  | nil =>
      obtain rfl := Except.ok.inj h
      simp
  | cons item rest ih =>
      obtain ⟨next, hnext, hrest⟩ := Except.bind_eq_ok_iff.mp h
      obtain ⟨htext', hstep⟩ := parseInputItem_maps htext hnext
      rw [ih htext' hrest, hstep, List.forall_mem_cons, and_assoc]

/-! ## Bodies -/

/-- The two endpoints that take a client body. -/
inductive Endpoint where
  | chatCompletions
  | responses
  deriving DecidableEq

/-- The parser of an endpoint. -/
def parseBody : Endpoint → Json → String → Throws UnifiedAiRequest
  | .chatCompletions => parseChatCompletionRequest
  | .responses => parseResponsesRequest

/-- What the mappers ask of a body an endpoint accepts. -/
def BodyMaps (endpoint : Endpoint) (body : Json) : Prop :=
  Anthropic.ChoiceMaps (body.prop "tool_choice") ∧
    match endpoint with
    | .chatCompletions =>
        ∀ messages, body.prop "messages" = .json (.arr messages) → ∀ msg ∈ messages, ChatMessageMaps msg
    | .responses =>
        ((body.prop "instructions").truthy = true → ContentMaps (body.prop "instructions")) ∧
          ∀ items, body.prop "input" = .json (.arr items) → ∀ item ∈ items, InputItemMaps item

theorem parseChatCompletionRequest_maps {body : Json} {requestId : String} {request : UnifiedAiRequest}
    (h : parseChatCompletionRequest body requestId = .ok request) :
    MapsEverywhere request ↔ BodyMaps .chatCompletions body := by
  obtain ⟨items, heq, hmessages, hchoice⟩ := of_parseChatCompletionRequest h
  have hall : (∀ m ∈ request.messages, MessageMaps m) ↔ ∀ msg ∈ items, ChatMessageMaps msg := by
    rw [Except.forall_mapM_iff hmessages fun e _ m hm => parseChatMessage_maps hm]
    constructor
    · intro h msg hmem
      obtain ⟨i, hi, rfl⟩ := List.getElem_of_mem hmem
      exact h (items[i], i) (List.mk_mem_zipIdx_iff_getElem?.mpr (List.getElem?_eq_getElem hi))
    · intro h e hmem
      exact h e.1 (List.fst_mem_of_mem_zipIdx hmem)
  rw [mapsEverywhere_iff, hall, hchoice, and_comm]
  unfold BodyMaps
  refine and_congr_right fun _ => ⟨fun h messages' heq' => ?_, fun h => h items heq⟩
  obtain rfl : items = messages' := by simpa using heq.symm.trans heq'
  exact h

theorem parseResponsesRequest_maps {body : Json} {requestId : String} {request : UnifiedAiRequest}
    (h : parseResponsesRequest body requestId = .ok request) :
    MapsEverywhere request ↔ BodyMaps .responses body := by
  obtain ⟨hmessages, hchoice⟩ := of_parseResponsesRequest h
  have hbefore : (∀ m ∈ instructionMessages (body.prop "instructions"), MessageMaps m) ↔
      ((body.prop "instructions").truthy = true → ContentMaps (body.prop "instructions")) := by
    unfold instructionMessages
    split
    · rename_i htruthy
      rw [List.forall_mem_singleton, messageMaps_system rfl]
      exact ⟨fun h _ => h, fun h => h htruthy⟩
    · rename_i htruthy
      exact ⟨fun _ h => absurd h htruthy, fun _ m hm => absurd hm List.not_mem_nil⟩
  have htext : Textual (instructionMessages (body.prop "instructions")) := by
    intro m hmem hrole
    unfold instructionMessages at hmem
    split at hmem
    · rw [List.mem_singleton.mp hmem] at hrole
      exact absurd hrole (by simp)
    · exact absurd hmem List.not_mem_nil
  rw [mapsEverywhere_iff, hchoice, and_comm]
  unfold BodyMaps
  refine and_congr_right fun _ => ?_
  unfold parseInput at hmessages
  split at hmessages
  · rename_i s hs
    rw [← Except.ok.inj hmessages, List.forall_mem_append, List.forall_mem_singleton, hbefore]
    refine and_congr_right fun _ => ⟨fun _ items heq => ?_, fun _ => messageMaps_text rfl rfl⟩
    rw [hs] at heq
    cases heq
  · rename_i items heq
    rw [parseInputItems_maps htext hmessages, hbefore]
    refine and_congr_right fun _ => ⟨fun h items' heq' => ?_, fun h => h items heq⟩
    obtain rfl : items = items' := by simpa using heq.symm.trans heq'
    exact h
  · cases hmessages

/-- The adapter gets as far as handing a request to its upstream. -/
def Contacts (provider : AiProvider) (request : UnifiedAiRequest) : Prop :=
  (mapRequest provider.kind request false).Succeeds

/-- Whatever lies behind the adapters, the policy counts a failure or retries only where the upstream has
    been contacted. -/
def FailsAfterContact (request : UnifiedAiRequest) : Prop :=
  ∀ (up : Upstream) (base : Env) (position : Nat) (entry : ChainEntry) (w : World),
    (∃ id, (.recordFailure id entry.provider.name ∈
        (executeWithPolicy (up.env base) position entry.provider (enrichedRequest request entry) w).actions) ∨
      ∃ r live, id.attempt ≠ 0 ∧ .invoke id entry.provider r live ∈
        (executeWithPolicy (up.env base) position entry.provider (enrichedRequest request entry) w).actions) →
    Contacts entry.provider (enrichedRequest request entry)

/-- Requests with the same messages and tool choice map alike, whatever their model and stream flag. -/
theorem MapsEverywhere.congr {request r : UnifiedAiRequest} (h : MapsEverywhere request)
    (hmessages : r.messages = request.messages) (hchoice : r.toolChoice = request.toolChoice) :
    MapsEverywhere r := by
  rw [mapsEverywhere_iff, hmessages, hchoice]
  exact mapsEverywhere_iff.mp h

theorem MapsEverywhere.mapRequest {request : UnifiedAiRequest} (h : MapsEverywhere request)
    (kind : AdapterKind) (stream : Bool) : (mapRequest kind request stream).Succeeds := by
  have hasked : MapsEverywhere { request with stream := .bool stream } := h.congr rfl rfl
  cases kind with
  | openai => exact Except.succeeds_map_iff.mpr hasked.openAi
  | anthropic => exact Except.succeeds_map_iff.mpr hasked.anthropic
  | ollama => exact Except.succeeds_map_iff.mpr hasked.ollama
  | llamactl => exact Except.succeeds_map_iff.mpr h.llamactl
  | fromFile kind => exact Except.succeeds_map_iff.mpr (h.fromFile _)

/-- **Which bodies the mappers carry.** Of a body its endpoint accepts, every mapper returns a request, and
    no failure is counted and no retry made before the upstream is contacted, exactly when `BodyMaps` holds
    of it. -/
theorem mappers_total_iff {endpoint : Endpoint} {body : Json} {requestId : String}
    {request : UnifiedAiRequest} (h : parseBody endpoint body requestId = .ok request) :
    MapsEverywhere request ∧ FailsAfterContact request ↔ BodyMaps endpoint body := by
  have hmaps : MapsEverywhere request ↔ BodyMaps endpoint body := by
    cases endpoint with
    | chatCompletions => exact parseChatCompletionRequest_maps h
    | responses => exact parseResponsesRequest_maps h
  rw [← hmaps]
  refine ⟨fun h => h.1, fun h => ⟨h, fun up base position entry w _ => ?_⟩⟩
  have hasked : MapsEverywhere (enrichedRequest request entry) := h.congr rfl rfl
  exact hasked.mapRequest entry.provider.kind false

/-- A system prompt and a user message: the mappers carry the request if they carry the body. -/
theorem mappers_total_iff_plain :
    ∃ request, parseBody .chatCompletions (.obj [("model", .str "gpt-4o"), ("messages", .arr
        [.obj [("role", .str "system"), ("content", .str "Be brief.")],
          .obj [("role", .str "user"), ("content", .str "hi")]])]) "req-1" = .ok request ∧
      (MapsEverywhere request ∧ FailsAfterContact request ↔
        BodyMaps .chatCompletions (.obj [("model", .str "gpt-4o"), ("messages", .arr
          [.obj [("role", .str "system"), ("content", .str "Be brief.")],
            .obj [("role", .str "user"), ("content", .str "hi")]])])) :=
  ⟨_, rfl, mappers_total_iff rfl⟩

/-- The body of an assistant turn whose tool call arguments are cut short. -/
def cutArgumentsBody : Json :=
  .obj [("model", .str "gpt-4o"), ("messages", .arr
    [.obj [("role", .str "user"), ("content", .str "weather?")],
      .obj [("role", .str "assistant"), ("content", .null), ("tool_calls", .arr
        [.obj [("id", .str "call-1"), ("type", .str "function"), ("function", .obj
          [("name", .str "get_weather"), ("arguments", .str "\x7b\"city\":")])]])]])]

/-- **A body the mappers do not carry**: the chat endpoint accepts cut-off arguments, which the Anthropic
    mapper hands to `JSON.parse`. -/
theorem cut_arguments_throw :
    ¬ ∀ (endpoint : Endpoint) (body : Json) (requestId : String) (request : UnifiedAiRequest),
      parseBody endpoint body requestId = .ok request →
        MapsEverywhere request ∧ FailsAfterContact request := by
  intro h
  have hthrow : ((parseBody .chatCompletions cutArgumentsBody "req-1").bind
      Anthropic.toAnthropicRequest).toOption = none := by decide +kernel
  obtain ⟨request, hrequest⟩ : (parseBody .chatCompletions cutArgumentsBody "req-1").Succeeds := ⟨_, rfl⟩
  obtain ⟨wire, hwire⟩ := (h _ _ _ _ hrequest).1.anthropic
  rw [hrequest, show (Except.ok request : Throws UnifiedAiRequest).bind Anthropic.toAnthropicRequest =
    .ok wire from hwire] at hthrow
  cases hthrow

end Sirius
