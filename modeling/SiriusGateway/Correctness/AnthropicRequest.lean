import SiriusGateway.Adapters.Anthropic
import SiriusGateway.Lib.Lists
import SiriusGateway.Lib.Within

/-!
# `Correctness.AnthropicRequest` — the conversation in an Anthropic request

`toAnthropicRequest` moves the system messages to the system string, puts tool results into user messages and
tool calls into blocks. Which of the conversation's texts arrive, for any role and any shape of content.

## Contents
- **Texts.** The non-empty texts of a message (`contentTexts`), and where they may stand in what it becomes.
- **Messages.** `KeepsMessage`, and exactly when a message keeps its texts (`keepsMessage_iff`).
- **Requests.** `KeepsConversation` and the main result `anthropic_keeps_conversation_iff`.
-/

namespace Sirius

open Js String

namespace Anthropic

/-! ## Texts -/

/-- The text of a text part, if it is not empty. -/
def partText (part : Json) : Option String :=
  match part.prop "text" with
  | .json (.str s) => if HasType part "text" ∧ s ≠ "" then some s else none
  | _ => none

/-- The non-empty texts of a message's content. -/
def contentTexts (content : JsValue) : List String :=
  match content with
  | .json (.str s) => if s = "" then [] else [s]
  | .json (.arr parts) => parts.filterMap partText
  | _ => []

/-- The text of a text block. -/
def ContentBlock.piece : ContentBlock → Option String
  | .text (.json (.str s)) => some s
  | _ => none

/-- The texts of an Anthropic message outside its tool results. -/
def textPieces : JsValue ⊕ List ContentBlock → List String
  | .inl text => (ContentBlock.text text).piece.toList
  | .inr blocks => blocks.filterMap ContentBlock.piece

theorem ne_empty_of_mem_contentTexts {content : JsValue} {s : String} (h : s ∈ contentTexts content) : s ≠ "" := by
  unfold contentTexts at h
  split at h
  · split at h
    · cases h
    · rename_i hs
      rwa [List.mem_singleton.mp h]
  · obtain ⟨part, -, hpart⟩ := List.mem_filterMap.mp h
    unfold partText at hpart
    split at hpart
    · split at hpart
      · rename_i htext
        rw [← Option.some.inj hpart]
        exact htext.2
      · cases hpart
    · cases hpart
  · cases h

theorem partText_eq_none {part : Json} (h : ¬HasType part "text") : partText part = none := by
  unfold partText
  split
  · rw [if_neg fun hp => h hp.1]
  · rfl

/-- One element of a join holds the text of its part. -/
theorem within_joinElem {part : Json} {s : String}
    (h : joinElem ((part.prop "text").orElse (.json (.str ""))) = .ok s) : Within (partText part).toList s := by
  unfold partText
  split
  · rename_i t htext
    rw [htext] at h
    obtain rfl : t = s := Except.ok.inj h
    split
    · exact Within.self t
    · exact Within.nil t
  · exact Within.nil s

/-- Texts part by part. -/
theorem flatten_texts (parts : List Json) :
    (parts.map fun part => (partText part).toList).flatten = parts.filterMap partText := by
  induction parts with
  | nil => rfl
  | cons part parts ih => rw [List.map_cons, List.flatten_cons, ih, List.filterMap_cons_eq_append]

/-- The joined parts of a system message hold its texts. -/
theorem within_joinTexts {sep : String} {content : JsValue} {s : String} (h : joinTexts sep content = .ok s) :
    Within (contentTexts content) s := by
  unfold joinTexts at h
  simp only [Except.bind_eq_ok_iff, arrayOf_eq_ok_iff, filterParts_eq_ok_iff] at h
  obtain ⟨parts, rfl, kept, ⟨-, rfl⟩, hjoin⟩ := h
  obtain ⟨elems, helems, rfl⟩ := Except.map_eq_ok_iff.mp hjoin
  have hkept : (parts.filter fun part => decide (HasType part "text")).filterMap partText =
      parts.filterMap partText := by
    rw [List.filterMap_filter]
    refine List.filterMap_congr fun part _ => ?_
    by_cases htype : HasType part "text"
    · simp [htype]
    · simp [htype, partText_eq_none htype]
  have hwithin := Within.intercalate sep (List.forall₂_map_left_iff.mpr
    ((List.forall₂_map_left_iff.mp (Except.forall₂_of_mapM_eq_ok helems)).imp fun _ _ => within_joinElem))
  rw [flatten_texts, hkept] at hwithin
  exact hwithin

/-! ## Messages -/

/-- The block of one part holds the part's text. -/
theorem appearIn_partBlock {part : Json} {block : Option ContentBlock} (h : partBlock part = .ok block) :
    AppearIn (partText part).toList (block.bind ContentBlock.piece).toList := by
  unfold partBlock at h
  obtain ⟨type, htype, h⟩ := Except.bind_eq_ok_iff.mp h
  have htype : part.prop "type" = type := optProp_of_getProp htype
  simp only [Bool.and_eq_true, isStr_iff] at h
  split at h
  · rename_i htext
    obtain rfl := Except.ok.inj h
    unfold partText
    split
    · rename_i s hs
      have hne : s ≠ "" := by
        rintro rfl
        rw [hs] at htext
        exact absurd htext.2 (by decide)
      rw [if_pos ⟨htype.trans htext.1, hne⟩, hs]
      exact AppearIn.single (Within.self s)
    · rename_i hnot
      cases hpiece : (ContentBlock.text (part.prop "text")).piece with
      | none => simpa [hpiece] using AppearIn.nil
      | some s => simpa [hpiece] using AppearIn.single (Within.nil s)
  · rename_i htext
    have hnone : partText part = none := by
      unfold partText
      split
      · rename_i s hs
        refine if_neg fun hp => htext ⟨htype.symm.trans hp.1, ?_⟩
        rw [hs]
        exact decide_eq_true hp.2
      · rfl
    rw [hnone]
    split at h
    · obtain ⟨url, -, h⟩ := Except.bind_eq_ok_iff.mp h
      obtain rfl := Except.ok.inj h
      exact AppearIn.single (Within.nil _)
    · obtain rfl := Except.ok.inj h
      exact AppearIn.nil

/-- The blocks of several parts hold the parts' texts. -/
theorem appearIn_blocks {parts : List Json} {found : List (Option ContentBlock)}
    (h : List.Forall₂ (fun part block => partBlock part = .ok block) parts found) :
    AppearIn (parts.filterMap partText) ((found.filterMap id).filterMap ContentBlock.piece) := by
  rw [List.filterMap_filterMap]
  induction h with
  | nil => exact AppearIn.nil
  | @cons part block parts found hblock _ ih =>
      rw [List.filterMap_cons_eq_append, List.filterMap_cons_eq_append]
      exact (appearIn_partBlock hblock).append ih

/-- The blocks of multi-part content hold its texts. -/
theorem appearIn_partBlocks {content : JsValue} {blocks : List ContentBlock}
    (hstr : ∀ s, content ≠ .json (.str s)) (h : partBlocks content = .ok blocks) :
    AppearIn (contentTexts content) (blocks.filterMap ContentBlock.piece) := by
  unfold partBlocks at h
  obtain ⟨parts, hparts, hblocks⟩ := Except.bind_eq_ok_iff.mp h
  obtain ⟨found, hfound, hblocks⟩ := Except.bind_eq_ok_iff.mp hblocks
  rw [(iterate_eq_ok_iff hstr).mp hparts, ← Except.ok.inj hblocks]
  exact appearIn_blocks (Except.forall₂_of_mapM_eq_ok hfound)

/-- A single text by itself is the same piece. -/
theorem textPieces_ofBlocks (blocks : List ContentBlock) :
    textPieces (ofBlocks blocks) = blocks.filterMap ContentBlock.piece := by
  unfold ofBlocks
  split
  · rw [List.filterMap_cons_eq_append]
    simp [textPieces]
  · rfl

/-- The block is a `tool_use`. -/
def ContentBlock.isToolUse : ContentBlock → Bool
  | .toolUse _ _ _ => true
  | _ => false

/-- What one message keeps of its texts, its tool calls and its tool result. -/
structure KeepsMessage (msg : UnifiedMessage) (content : JsValue ⊕ List ContentBlock) : Prop where
  texts : msg.role.isStr "tool" = false → AppearIn (contentTexts msg.content) (textPieces content)
  calls : hasToolCalls msg = true → ∃ blocks, content = .inr blocks ∧
    List.Forall₂ (fun tc block => ∃ input, parseArguments tc.function.arguments = .ok input ∧
      block = .toolUse tc.id tc.function.name input) (msg.toolCalls.getD []) (blocks.filter ContentBlock.isToolUse)
  result : msg.role.isStr "tool" = true → ∃ blocks text, content = .inr blocks ∧
    .toolResult (msg.toolCallId.orElse (.json (.str ""))) text ∈ blocks ∧ Within (contentTexts msg.content) text

/-- The message is no tool result and has no tool calls, or its texts are one string. -/
def StringWhereNeeded (msg : UnifiedMessage) : Prop :=
  msg.role.isStr "tool" = true ∨ hasToolCalls msg = true →
    msg.content.isString = true ∨ contentTexts msg.content = []

/-- The blocks of tool calls have no text. -/
theorem toolUseBlocks {calls : List UnifiedToolCall} {blocks : List ContentBlock}
    (h : List.Forall₂ (fun tc block => toolUseBlock tc = .ok block) calls blocks) :
    blocks.filter ContentBlock.isToolUse = blocks ∧ blocks.filterMap ContentBlock.piece = [] ∧
      List.Forall₂ (fun tc block => ∃ input, parseArguments tc.function.arguments = .ok input ∧
        block = .toolUse tc.id tc.function.name input) calls blocks := by
  induction h with
  | nil => exact ⟨rfl, rfl, .nil⟩
  | cons hblock _ ih =>
      obtain ⟨input, hinput, rfl⟩ := Except.map_eq_ok_iff.mp hblock
      obtain ⟨hfilter, hpieces, hcalls⟩ := ih
      refine ⟨?_, ?_, .cons ⟨input, hinput, rfl⟩ hcalls⟩
      · rw [List.filter_cons_of_pos rfl, hfilter]
      · rw [List.filterMap_cons_eq_append, hpieces]
        rfl

theorem contentTexts_str (s : String) : contentTexts (.json (.str s)) = if s = "" then [] else [s] := rfl

theorem within_contentTexts_str (s : String) : Within (contentTexts (.json (.str s))) s := by
  rw [contentTexts_str]
  split
  · exact Within.nil s
  · exact Within.self s

theorem hasToolCalls_of_tool {msg : UnifiedMessage} (h : msg.role.isStr "tool" = true) :
    hasToolCalls msg = false := by
  unfold hasToolCalls
  rw [isStr_iff.mp h]
  rfl

section Roles

variable {msg : UnifiedMessage} {content : JsValue ⊕ List ContentBlock}

/-- A tool message keeps its texts when they are one string: its result is a string. -/
theorem keepsMessage_tool (htool : msg.role.isStr "tool" = true) (h : toAnthropicContent msg = .ok content) :
    KeepsMessage msg content ↔ msg.content.isString = true ∨ contentTexts msg.content = [] := by
  have hcalls := hasToolCalls_of_tool htool
  unfold toAnthropicContent at h
  rw [if_pos htool] at h
  obtain rfl := Except.ok.inj h
  constructor
  · rintro ⟨-, -, hresult⟩
    obtain ⟨blocks, text, heq, hmem, hwithin⟩ := hresult htool
    obtain rfl := Sum.inr.inj heq
    obtain ⟨-, rfl⟩ := ContentBlock.toolResult.inj (List.mem_singleton.mp hmem)
    split at hwithin
    · rename_i s hs
      rw [hs]
      exact Or.inl rfl
    · refine Or.inr ?_
      cases htexts : contentTexts msg.content with
      | nil => rfl
      | cons t texts =>
          have hne : t ≠ "" := ne_empty_of_mem_contentTexts (htexts ▸ List.mem_cons_self)
          rw [htexts] at hwithin
          exact absurd (hwithin.eq_empty rfl) hne
  · intro htexts
    refine ⟨fun h => ?_, fun h => ?_, fun _ => ⟨_, _, rfl, List.mem_singleton.mpr rfl, ?_⟩⟩
    · rw [htool] at h
      cases h
    · rw [hcalls] at h
      cases h
    · split
      · rename_i s hs
        rw [hs]
        exact within_contentTexts_str s
      · rename_i hstr
        obtain hstring | hnone := htexts
        · obtain ⟨s, hs⟩ := isString_iff.mp hstring
          exact absurd hs (hstr s)
        · rw [hnone]
          exact Within.nil _

/-- An assistant message with tool calls keeps its texts when they are one string. -/
theorem keepsMessage_calls (hcalls : hasToolCalls msg = true) (h : toAnthropicContent msg = .ok content) :
    KeepsMessage msg content ↔ msg.content.isString = true ∨ contentTexts msg.content = [] := by
  have htool : msg.role.isStr "tool" = false := by
    cases htool : msg.role.isStr "tool" with
    | false => rfl
    | true =>
        rw [hasToolCalls_of_tool htool] at hcalls
        cases hcalls
  unfold toAnthropicContent at h
  rw [if_neg (Bool.eq_false_iff.mp htool), if_pos hcalls] at h
  obtain ⟨blocks, hblocks, h⟩ := Except.bind_eq_ok_iff.mp h
  obtain rfl := Except.ok.inj h
  obtain ⟨hfilter, hpieces, huses⟩ := toolUseBlocks (Except.forall₂_of_mapM_eq_ok hblocks)
  constructor
  · rintro ⟨htexts, -, -⟩
    -- the pieces sent are the string, if it is one, and the calls, which show no text
    have happear := htexts htool
    split at happear
    · rename_i s hs
      rw [hs]
      exact Or.inl rfl
    · rw [textPieces, List.nil_append, hpieces] at happear
      exact Or.inr (AppearIn.nil_iff.mp happear)
  · intro htexts
    refine ⟨fun _ => ?_, fun _ => ⟨_, rfl, ?_⟩, fun h => ?_⟩
    · rw [textPieces, List.filterMap_append, hpieces, List.append_nil]
      split
      · rename_i s hs
        rw [hs]
        by_cases hempty : s = ""
        · rw [if_pos hempty]
          rw [contentTexts_str, if_pos hempty]
          exact AppearIn.nil
        · rw [if_neg hempty]
          exact AppearIn.single (within_contentTexts_str s)
      · rename_i hstr
        obtain hstring | hnone := htexts
        · obtain ⟨s, hs⟩ := isString_iff.mp hstring
          exact absurd hs (hstr s)
        · rw [hnone]
          exact AppearIn.nil
    · rw [List.filter_append, hfilter]
      split
      · split
        · exact huses
        · exact huses
      · exact huses
    · rw [htool] at h
      cases h

/-- Any other message keeps its texts. -/
theorem keepsMessage_plain (htool : msg.role.isStr "tool" = false) (hcalls : hasToolCalls msg = false)
    (h : toAnthropicContent msg = .ok content) : KeepsMessage msg content := by
  unfold toAnthropicContent at h
  rw [if_neg (Bool.eq_false_iff.mp htool), if_neg (Bool.eq_false_iff.mp hcalls)] at h
  refine ⟨fun _ => ?_, fun h => ?_, fun h => ?_⟩
  · split at h
    · rename_i s hs
      obtain rfl := Except.ok.inj h
      rw [hs]
      exact AppearIn.single (within_contentTexts_str s)
    · rename_i hstr
      obtain ⟨blocks, hblocks, rfl⟩ := Except.map_eq_ok_iff.mp h
      rw [textPieces_ofBlocks]
      exact appearIn_partBlocks hstr hblocks
  · rw [hcalls] at h
    cases h
  · rw [htool] at h
    cases h

theorem keepsMessage_iff (h : toAnthropicContent msg = .ok content) :
    KeepsMessage msg content ↔ StringWhereNeeded msg := by
  unfold StringWhereNeeded
  cases htool : msg.role.isStr "tool" with
  | true =>
      rw [keepsMessage_tool htool h]
      simp
  | false =>
      cases hcalls : hasToolCalls msg with
      | true =>
          rw [keepsMessage_calls hcalls h]
          simp
      | false => simp [keepsMessage_plain htool hcalls h]

end Roles

/-! ## Requests -/

/-- The message goes into the system string. -/
def isSystem (msg : UnifiedMessage) : Bool := msg.role.isStr "system"

/-- A system message is no tool result and has no tool calls. -/
theorem stringWhereNeeded_system {msg : UnifiedMessage} (h : isSystem msg = true) : StringWhereNeeded msg := by
  have hrole : msg.role = .json (.str "system") := isStr_iff.mp h
  intro hneeded
  unfold hasToolCalls at hneeded
  rw [hrole] at hneeded
  obtain htool | hcalls := hneeded
  · cases htool
  · cases hcalls

/-- What a request keeps of a conversation: the texts of its system messages, and its other messages one by
    one. -/
structure KeepsConversation (messages : List UnifiedMessage) (req : Request) : Prop where
  system : AppearIn ((messages.filter isSystem).flatMap fun msg => contentTexts msg.content)
    req.system.toList
  messages : List.Forall₂ (fun msg (m : Message) =>
      m.role = (if msg.role.isStr "assistant" then "assistant" else "user") ∧ KeepsMessage msg m.content)
    (messages.filter fun msg => !isSystem msg) req.messages

/-- What the messages become, the system messages apart. -/
theorem split_mapped {messages : List UnifiedMessage} {mapped : List (String ⊕ Message)}
    (h : List.Forall₂ (fun msg r => mapMessage msg = .ok r) messages mapped) :
    List.Forall₂ (fun msg s => Within (contentTexts msg.content) s)
        (messages.filter isSystem) (mapped.filterMap Sum.getLeft?) ∧
      List.Forall₂ (fun msg (m : Message) =>
          m.role = (if msg.role.isStr "assistant" then "assistant" else "user") ∧
            toAnthropicContent msg = .ok m.content)
        (messages.filter fun msg => !isSystem msg) (mapped.filterMap Sum.getRight?) := by
  induction h with
  | nil => exact ⟨.nil, .nil⟩
  | @cons msg r messages mapped hmsg _ ih =>
      unfold mapMessage at hmsg
      rw [List.filterMap_cons_eq_append, List.filterMap_cons_eq_append]
      cases hsystem : isSystem msg with
      | true =>
          rw [if_pos (show msg.role.isStr "system" = true from hsystem)] at hmsg
          rw [List.filter_cons_of_pos hsystem, List.filter_cons_of_neg (by simp [hsystem])]
          split at hmsg
          · rename_i s hs
            obtain rfl := Except.ok.inj hmsg
            refine ⟨.cons ?_ ih.1, ih.2⟩
            rw [hs]
            exact within_contentTexts_str s
          · obtain ⟨s, hs, rfl⟩ := Except.map_eq_ok_iff.mp hmsg
            exact ⟨.cons (within_joinTexts hs) ih.1, ih.2⟩
      | false =>
          rw [if_neg (show ¬msg.role.isStr "system" = true from Bool.eq_false_iff.mp hsystem)] at hmsg
          rw [List.filter_cons_of_neg (by simp [hsystem]), List.filter_cons_of_pos (by simp [hsystem])]
          obtain ⟨content, hcontent, rfl⟩ := Except.map_eq_ok_iff.mp hmsg
          exact ⟨ih.1, .cons ⟨rfl, hcontent⟩ ih.2⟩

/-- The system string holds the texts of all system messages. -/
theorem appearIn_system {systems : List UnifiedMessage} {parts : List String}
    (h : List.Forall₂ (fun msg s => Within (contentTexts msg.content) s) systems parts) :
    AppearIn (systems.flatMap fun msg => contentTexts msg.content)
      (if parts = [] then none else some ("\n\n".intercalate parts) : Option String).toList := by
  have hwithin := Within.intercalate "\n\n" (List.forall₂_map_left_iff.mpr h)
  split
  · rename_i hparts
    rw [hparts] at h
    cases h
    exact AppearIn.nil
  · rw [← List.flatMap_def] at hwithin
    exact AppearIn.single hwithin

/-- **The Anthropic mapper keeps a conversation** exactly when the texts of its tool results, and of its
    assistant messages with tool calls, are strings. -/
theorem anthropic_keeps_conversation_iff {unified : UnifiedAiRequest} {req : Request}
    (h : toAnthropicRequest unified = .ok req) :
    KeepsConversation unified.messages req ↔ ∀ msg ∈ unified.messages, StringWhereNeeded msg := by
  unfold toAnthropicRequest at h
  obtain ⟨mapped, hmapped, h⟩ := Except.bind_eq_ok_iff.mp h
  obtain ⟨toolChoice, -, h⟩ := Except.bind_eq_ok_iff.mp h
  obtain ⟨hsystem, hothers⟩ := split_mapped (Except.forall₂_of_mapM_eq_ok hmapped)
  obtain rfl := Except.ok.inj h
  have hkeeps := List.forall₂_iff_forall_left (S := fun msg (m : Message) =>
      m.role = (if msg.role.isStr "assistant" then "assistant" else "user") ∧ KeepsMessage msg m.content)
    hothers fun msg m hm => (and_iff_right hm.1).trans (keepsMessage_iff hm.2)
  constructor
  · rintro ⟨-, hmessages⟩ msg hmem
    cases hrole : isSystem msg with
    | true => exact stringWhereNeeded_system hrole
    | false => exact hkeeps.mp hmessages msg (List.mem_filter.mpr ⟨hmem, by rw [hrole]; rfl⟩)
  · intro hstrings
    exact ⟨appearIn_system hsystem, hkeeps.mpr fun msg hmem => hstrings msg (List.mem_of_mem_filter hmem)⟩

/-- A conversation that ends in a tool result. -/
def toolConversation (result : JsValue) : UnifiedAiRequest where
  requestId := "req-1"
  model := .str "m"
  messages := [
    { role := .json (.str "user"), content := .json (.str "Which file?") },
    { role := .json (.str "assistant"), content := .json (.str "Let me look."),
      toolCalls := some [⟨.json (.str "c1"), ⟨.json (.str "find"), .json (.str "\x7b\x7d")⟩⟩] },
    { role := .json (.str "tool"), content := result, toolCallId := .json (.str "c1") }]
  stream := .bool false

/-- A tool result that is a string arrives. -/
theorem anthropic_keeps_conversation_iff_result :
    ∃ req, toAnthropicRequest (toolConversation (.json (.str "a.txt"))) = .ok req ∧
      KeepsConversation (toolConversation (.json (.str "a.txt"))).messages req := by
  have hmapped : (toAnthropicRequest (toolConversation (.json (.str "a.txt")))).Succeeds := ⟨_, rfl⟩
  obtain ⟨req, hreq⟩ := hmapped
  refine ⟨req, hreq, (anthropic_keeps_conversation_iff hreq).mpr ?_⟩
  intro msg hmem _
  refine Or.inl ?_
  obtain rfl | hmem := List.mem_cons.mp hmem
  · rfl
  · obtain rfl | hmem := List.mem_cons.mp hmem
    · rfl
    · rw [List.mem_singleton.mp hmem]
      rfl

/-- The parts of a tool result, as the chat parser passes them on. -/
def resultParts : JsValue := .json (.arr [.obj [("type", .str "text"), ("text", .str "a.txt")]])

/-- **A tool result in parts is dropped**: what is sent is an empty one. -/
theorem result_parts_dropped :
    (toAnthropicRequest (toolConversation resultParts)).map (·.messages) =
        .ok [⟨"user", .inl (.json (.str "Which file?"))⟩,
          ⟨"assistant", .inr [.text (.json (.str "Let me look.")),
            .toolUse (.json (.str "c1")) (.json (.str "find")) (.obj [])]⟩,
          ⟨"user", .inr [.toolResult (.json (.str "c1")) ""]⟩] ∧
      ¬∀ unified req, toAnthropicRequest unified = .ok req → KeepsConversation unified.messages req := by
  have hmessages : (toAnthropicRequest (toolConversation resultParts)).map (·.messages) =
      .ok [⟨"user", .inl (.json (.str "Which file?"))⟩,
        ⟨"assistant", .inr [.text (.json (.str "Let me look.")),
          .toolUse (.json (.str "c1")) (.json (.str "find")) (.obj [])]⟩,
        ⟨"user", .inr [.toolResult (.json (.str "c1")) ""]⟩] := by decide
  refine ⟨hmessages, ?_⟩
  intro h
  obtain ⟨req, hreq, hsent⟩ := Except.map_eq_ok_iff.mp hmessages
  have hkeeps := (h _ req hreq).messages
  rw [hsent] at hkeeps
  obtain ⟨-, hkeeps⟩ := List.forall₂_cons.mp hkeeps
  obtain ⟨-, hkeeps⟩ := List.forall₂_cons.mp hkeeps
  obtain ⟨⟨-, hresult⟩, -⟩ := List.forall₂_cons.mp hkeeps
  obtain ⟨blocks, text, hblocks, hmem, hwithin⟩ := hresult.result rfl
  obtain rfl := Sum.inr.inj hblocks
  obtain ⟨-, rfl⟩ := ContentBlock.toolResult.inj (List.mem_singleton.mp hmem)
  have hempty : "a.txt" = "" := hwithin.eq_empty rfl
  exact absurd hempty (by decide)

end Anthropic

end Sirius
