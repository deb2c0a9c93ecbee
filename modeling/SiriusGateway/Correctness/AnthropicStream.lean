import SiriusGateway.Correctness.Accumulated
import SiriusGateway.Correctness.SseRoundTrip
import SiriusGateway.Correctness.ToolCalls

/-!
# `Correctness.AnthropicStream` — an Anthropic message is the same streamed or at once

Anthropic sends a message as events, its blocks cut into fragments and numbered together, texts and tool calls
alike. What the parsed stream adds up to is what `fromAnthropicResponse` makes of the message
(`stream_same_answer`).

## Contents
- **Events.** A run over lines is one over the events the parser reads (`processLines_eq`).
- **Blocks.** `StreamedBlock`, and what the parser yields for one; the ordinals a run assigns (`Numbered`).
- **Messages.** `StreamsMessage`: the events Anthropic sends for a message.
- **The same answer.**
-/

namespace Sirius

open Js Compat

namespace Anthropic

/-! ## Events -/

/-- The event has one of the four types the parser acts on. -/
def isRead (event : Json) : Bool :=
  (event.prop "type").isStr "message_start" || (event.prop "type").isStr "content_block_start" ||
    (event.prop "type").isStr "content_block_delta" || (event.prop "type").isStr "message_delta"

/-- An event of another type does nothing. -/
theorem processEvent_unread {event : Json} (hnull : event ≠ .null) (h : isRead event = false) (s : State) :
    processEvent event s = pure s := by
  unfold isRead at h
  simp only [Bool.or_eq_false_iff] at h
  obtain ⟨⟨⟨hstart, hblock⟩, hdelta⟩, hmessage⟩ := h
  rw [processEvent_eq hnull]
  simp only [hstart, hblock, hdelta, hmessage, Bool.false_eq_true, if_false]

/-- **A run over lines** is a run over the events it reads. -/
theorem processLines_eq {lines : List String} (hobjects : ∀ event ∈ lines.filterMap eventOf, event ≠ .null)
    (s : State) :
    parser.processLines lines s =
      LineParser.processAll processEvent ((lines.filterMap eventOf).filter isRead) s := by
  rw [parser.processLines_filterMap parser_processLine_eq]
  exact LineParser.processAll_filter (fun event hevent => processEvent_unread (hobjects event hevent)) s

end Anthropic

/-! ## Blocks -/

/-- The text spells the block: it is its text, or a JSON text of its input. An empty input may be left out. -/
def AnthropicBlock.Spells : AnthropicBlock → String → Prop
  | .text s, joined => joined = s
  | .toolUse call, joined =>
      (∃ v, jsonParse joined = some v ∧ v.canon = (Json.obj call.input).canon) ∨
        (joined = "" ∧ call.input = [])

/-- A block as it is streamed: under its index, in fragments that spell it. -/
structure StreamedBlock where
  block : AnthropicBlock
  index : Rat
  fragments : List String
  spells : block.Spells ("".intercalate fragments)

namespace StreamedBlock

variable (b : StreamedBlock)

/-- The event starts the block. -/
def Starts (event : Json) : Prop :=
  HasType event "content_block_start" ∧ event.prop "index" = .json (.num b.index) ∧
    ∃ block, event.prop "content_block" = .json block ∧
      match b.block with
      | .text _ => HasType block "text"
      | .toolUse call => HasType block "tool_use" ∧ block.prop "id" = .json (.str call.id) ∧
          block.prop "name" = .json (.str call.name)

/-- The event carries the fragment. -/
def Carries (fragment : String) (event : Json) : Prop :=
  HasType event "content_block_delta" ∧ event.prop "index" = .json (.num b.index) ∧
    ∃ delta, event.prop "delta" = .json delta ∧
      match b.block with
      | .text _ => HasType delta "text_delta" ∧ delta.prop "text" = .json (.str fragment)
      | .toolUse _ => HasType delta "input_json_delta" ∧
          delta.prop "partial_json" = .json (.str fragment)

/-- The events send the block. -/
def Sent (events : List Json) : Prop :=
  ∃ start deltas, events = start :: deltas ∧ b.Starts start ∧ List.Forall₂ b.Carries b.fragments deltas

/-- The unified events of the block, as the tool call number `ordinal` if it is one. -/
def yields (ordinal : Nat) : List UnifiedStreamEvent :=
  match b.block with
  | .text _ => b.fragments.map fun s => .contentDelta (.json (.str s))
  | .toolUse call =>
      .toolCallDelta (.json (.num ordinal)) (.json (.str call.id)) (.json (.str call.name)) (.json (.str "")) ::
        b.fragments.map fun s => .toolCallDelta (.json (.num ordinal)) .undefined .undefined (.json (.str s))

end StreamedBlock

namespace Anthropic

/-- The tool calls started so far are those under these block indices. -/
structure Numbered (started : List Rat) (s : State) : Prop where
  keys : s.toolOrdinals.byIndex.keys = started.map fun q => .json (.num q)
  reachable : s.toolOrdinals.unreachable = 0

theorem Numbered.size {started : List Rat} {s : State} (h : Numbered started s) :
    s.toolOrdinals.size = started.length := by
  unfold ToolOrdinals.size
  rw [h.keys, h.reachable, List.length_map]
  rfl

/-- A new tool call gets the next ordinal, and is found under it. -/
theorem Numbered.set {started : List Rat} {s : State} (h : Numbered started s) {index : Rat}
    (hnew : index ∉ started) (ordinal : Nat) :
    Numbered (started ++ [index]) { s with toolOrdinals := s.toolOrdinals.set (.json (.num index)) ordinal } ∧
      (s.toolOrdinals.set (.json (.num index)) ordinal).get (.json (.num index)) = some ordinal := by
  have hkey : (JsValue.json (.num index)) ∉ s.toolOrdinals.byIndex.keys := by
    rw [h.keys]
    intro hmem
    obtain ⟨q, hq, heq⟩ := List.mem_map.mp hmem
    cases heq
    exact hnew hq
  constructor
  · constructor
    · show (s.toolOrdinals.byIndex.set (.json (.num index)) ordinal).keys = _
      rw [JsMap.keys_set_of_not_mem ordinal hkey, h.keys, List.map_append]
      rfl
    · exact h.reachable
  · exact JsMap.get_set_self _ _ _

section Blocks

variable {b : StreamedBlock} {s : State}

theorem processEvent_textFragment {text : String} (hblock : b.block = .text text) {fragment : String}
    {event : Json} (h : b.Carries fragment event) :
    processEvent event s = ⟨[.contentDelta (.json (.str fragment))], .ok s⟩ := by
  obtain ⟨htype, -, delta, hdelta, hshape⟩ := h
  rw [hblock] at hshape
  obtain ⟨hkind, htext⟩ := hshape
  have hnull : event ≠ .null := by
    rintro rfl
    cases htype
  have hnull' : delta ≠ .null := by
    rintro rfl
    cases hkind
  rw [processEvent_eq hnull, htype]
  show contentBlockDelta event s = _
  unfold contentBlockDelta
  rw [hdelta]
  dsimp only
  rw [getProp_json "type" hnull', hkind]
  show (⟨[.contentDelta (delta.prop "text")], .ok s⟩ : Gen State) = _
  rw [htext]

theorem processEvent_inputFragment {call : ToolUse} (hblock : b.block = .toolUse call) {fragment : String}
    {event : Json} (h : b.Carries fragment event) {ordinal : Nat}
    (hordinal : s.toolOrdinals.get (.json (.num b.index)) = some ordinal) :
    processEvent event s =
      ⟨[.toolCallDelta (.json (.num ordinal)) .undefined .undefined (.json (.str fragment))], .ok s⟩ := by
  obtain ⟨htype, hindex, delta, hdelta, hshape⟩ := h
  rw [hblock] at hshape
  obtain ⟨hkind, hjson⟩ := hshape
  have hnull : event ≠ .null := by
    rintro rfl
    cases htype
  have hnull' : delta ≠ .null := by
    rintro rfl
    cases hkind
  rw [processEvent_eq hnull, htype]
  show contentBlockDelta event s = _
  unfold contentBlockDelta
  rw [hdelta]
  dsimp only
  rw [getProp_json "type" hnull', hkind, hindex, hordinal]
  show (⟨[.toolCallDelta (.json (.num ordinal)) .undefined .undefined (delta.prop "partial_json")], .ok s⟩ :
    Gen State) = _
  rw [hjson]

theorem processEvent_textStart {text : String} (hblock : b.block = .text text) {event : Json}
    (h : b.Starts event) : processEvent event s = ⟨[], .ok s⟩ := by
  obtain ⟨htype, -, block, hcontent, hshape⟩ := h
  rw [hblock] at hshape
  have hnull : event ≠ .null := by
    rintro rfl
    cases htype
  have hnull' : block ≠ .null := by
    rintro rfl
    cases hshape
  rw [processEvent_eq hnull, htype]
  show contentBlockStart event s = _
  unfold contentBlockStart
  rw [hcontent]
  dsimp only
  rw [getProp_json "type" hnull', hshape]
  rfl

theorem processEvent_toolStart {call : ToolUse} (hblock : b.block = .toolUse call) {event : Json}
    (h : b.Starts event) :
    processEvent event s =
      ⟨[.toolCallDelta (.json (.num s.toolOrdinals.size)) (.json (.str call.id)) (.json (.str call.name))
        (.json (.str ""))],
        .ok { s with toolOrdinals := s.toolOrdinals.set (.json (.num b.index)) s.toolOrdinals.size }⟩ := by
  obtain ⟨htype, hindex, block, hcontent, hshape⟩ := h
  rw [hblock] at hshape
  obtain ⟨hkind, hid, hname⟩ := hshape
  have hnull : event ≠ .null := by
    rintro rfl
    cases htype
  have hnull' : block ≠ .null := by
    rintro rfl
    cases hkind
  rw [processEvent_eq hnull, htype]
  show contentBlockStart event s = _
  unfold contentBlockStart
  rw [hcontent]
  dsimp only
  rw [getProp_json "type" hnull', hkind, hindex]
  show (⟨[.toolCallDelta (.json (.num s.toolOrdinals.size)) (block.prop "id") (block.prop "name")
    (.json (.str ""))], .ok _⟩ : Gen State) = _
  rw [hid, hname]

/-- Events that each yield one event and change nothing. -/
theorem processEvents_fragments {fragments : List String} {events : List Json}
    {yielded : String → UnifiedStreamEvent} {shows : String → Json → Prop}
    (h : List.Forall₂ shows fragments events)
    (hstep : ∀ fragment event, shows fragment event → processEvent event s = ⟨[yielded fragment], .ok s⟩) :
    LineParser.processAll processEvent events s = ⟨fragments.map yielded, .ok s⟩ := by
  induction h with
  | nil => rfl
  | @cons fragment event fragments events hfragment _ ih =>
      show processEvent event s >>= LineParser.processAll processEvent events = _
      rw [hstep fragment event hfragment, Gen.bind_of_ok rfl, ih]
      rfl

/-- **One block**: what it yields, and the state after it. -/
theorem processEvents_block {started : List Rat} (hs : Numbered started s) (hnew : b.index ∉ started)
    {events : List Json} (h : b.Sent events) :
    ∃ s', LineParser.processAll processEvent events s = ⟨b.yields started.length, .ok s'⟩ ∧
      s'.inputTokens = s.inputTokens ∧
      Numbered (started ++ b.block.call?.toList.map fun _ => b.index) s' := by
  obtain ⟨start, deltas, rfl, hstart, hdeltas⟩ := h
  unfold StreamedBlock.yields
  cases hblock : b.block with
  | text text =>
      refine ⟨s, ?_, rfl, ?_⟩
      · show processEvent start s >>= LineParser.processAll processEvent deltas = _
        rw [processEvent_textStart hblock hstart, Gen.bind_of_ok rfl,
          processEvents_fragments hdeltas fun _ _ => processEvent_textFragment hblock]
        rfl
      · show Numbered (started ++ []) s
        rwa [List.append_nil]
  | toolUse call =>
      obtain ⟨hnumbered, hget⟩ := hs.set hnew s.toolOrdinals.size
      refine ⟨{ s with toolOrdinals := s.toolOrdinals.set (.json (.num b.index)) s.toolOrdinals.size }, ?_, rfl,
        hnumbered⟩
      show processEvent start s >>= LineParser.processAll processEvent deltas = _
      rw [processEvent_toolStart hblock hstart, Gen.bind_of_ok rfl,
        processEvents_fragments hdeltas fun _ _ h => processEvent_inputFragment hblock h hget, hs.size]
      rfl

end Blocks

/-- The unified events of the blocks, the first tool call as number `ordinal`. -/
def yieldsFrom : Nat → List StreamedBlock → List UnifiedStreamEvent
  | _, [] => []
  | ordinal, b :: rest => b.yields ordinal ++ yieldsFrom (ordinal + b.block.call?.toList.length) rest

/-- **All blocks of a message**, under distinct indices. -/
theorem processEvents_blocks {streamed : List StreamedBlock} {groups : List (List Json)}
    (hsent : List.Forall₂ StreamedBlock.Sent streamed groups) (hdistinct : (streamed.map (·.index)).Nodup)
    {started : List Rat} {s : State} (hs : Numbered started s)
    (hnew : ∀ b ∈ streamed, b.index ∉ started) :
    ∃ s', LineParser.processAll processEvent groups.flatten s = ⟨yieldsFrom started.length streamed, .ok s'⟩ ∧
      s'.inputTokens = s.inputTokens := by
  -- the indices of the tool calls started so far are among those of the blocks sent so far
  induction hsent generalizing started s with
  | nil => exact ⟨s, rfl, rfl⟩
  | @cons b events streamed groups hb _ ih =>
      rw [List.map_cons, List.nodup_cons] at hdistinct
      obtain ⟨hindex, hdistinct⟩ := hdistinct
      obtain ⟨hfresh, hnew⟩ := List.forall_mem_cons.mp hnew
      obtain ⟨s₁, hblock, hinput, hs₁⟩ := processEvents_block hs hfresh hb
      have hnew₁ : ∀ c ∈ streamed, c.index ∉ started ++ b.block.call?.toList.map fun _ => b.index := by
        intro c hc hmem
        rcases List.mem_append.mp hmem with hmem | hmem
        · exact hnew c hc hmem
        · obtain ⟨call, -, heq⟩ := List.mem_map.mp hmem
          exact hindex (heq ▸ List.mem_map_of_mem hc)
      obtain ⟨s', hrest, hinput'⟩ := ih hdistinct hs₁ hnew₁
      refine ⟨s', ?_, hinput'.trans hinput⟩
      rw [List.flatten_cons, LineParser.processAll_append, hblock, Gen.bind_of_ok rfl, hrest, List.length_append,
        List.length_map]
      rfl

end Anthropic

/-! ### What the blocks add up to -/

/-- The merged call is this tool call, number `e.2` of its message. -/
structure MergedCall.Spells (merged : MergedCall) (e : ToolUse × Nat) : Prop where
  index : merged.index = .json (.num e.2)
  id : merged.ids = [.json (.str e.1.id)]
  name : merged.names = [.json (.str e.1.name)]
  arguments : (AnthropicBlock.toolUse e.1).Spells merged.arguments

theorem textOf_cons (b : AnthropicBlock) (blocks : List AnthropicBlock) :
    AnthropicBlock.textOf (b :: blocks) =
      (match b with | .text s => s | .toolUse _ => "") ++ AnthropicBlock.textOf blocks := by
  unfold AnthropicBlock.textOf
  cases b with
  | text s => exact intercalate_cons _ _
  | toolUse call => exact String.empty_append.symm

/-- **The events of the blocks add up to the message's text and tool calls.** -/
theorem foldl_yieldsFrom (streamed : List StreamedBlock) {k : Nat} {answer : Answer}
    (hbelow : Below k answer.calls) :
    ∃ merged, (Anthropic.yieldsFrom k streamed).foldl Answer.add answer =
        { answer with
          text := answer.text ++ AnthropicBlock.textOf (streamed.map (·.block))
          calls := answer.calls ++ merged } ∧
      List.Forall₂ MergedCall.Spells merged ((AnthropicBlock.callsOf (streamed.map (·.block))).zipIdx k) := by
  induction streamed generalizing k answer with
  | nil =>
      refine ⟨[], ?_, .nil⟩
      show answer = { answer with text := answer.text ++ "", calls := answer.calls ++ [] }
      rw [String.append_empty, List.append_nil]
  | cons b rest ih =>
      have hspells := b.spells
      rw [List.map_cons, textOf_cons]
      show ∃ merged, (b.yields k ++ _).foldl Answer.add answer = _ ∧ _
      rw [List.foldl_append]
      unfold StreamedBlock.yields
      cases hblock : b.block with
      | text text =>
          rw [hblock] at hspells
          obtain rfl : "".intercalate b.fragments = text := hspells
          rw [foldl_contentDeltas]
          have hbelow' : Below k ({ answer with text := answer.text ++ "".intercalate b.fragments } : Answer).calls :=
            hbelow
          obtain ⟨merged, hfold, hcalls⟩ := ih hbelow'
          refine ⟨merged, ?_, hcalls⟩
          show (Anthropic.yieldsFrom (k + 0) rest).foldl _ _ = _
          rw [Nat.add_zero, hfold, String.append_assoc]
      | toolUse call =>
          rw [hblock] at hspells
          -- the block opens a call with no arguments, and its fragments are appended to it
          let opened : MergedCall := ⟨.json (.num k), [.json (.str call.id)], [.json (.str call.name)], ""⟩
          let closed : MergedCall := { opened with arguments := "".intercalate b.fragments }
          have hopen : Answer.add answer (.toolCallDelta (.json (.num k)) (.json (.str call.id))
              (.json (.str call.name)) (.json (.str ""))) = { answer with calls := answer.calls ++ [opened] } :=
            congrArg (fun calls => { answer with calls := calls }) (mergeDelta_new hbelow.not_mem _ _ _)
          have hclose := @foldl_argumentDeltas b.fragments answer answer.calls opened hbelow.not_mem
          rw [String.empty_append] at hclose
          -- the new call has the number `k`, so the next one is still unused
          have hbelow' : Below (k + 1) ({ answer with calls := answer.calls ++ [closed] } : Answer).calls := by
            intro c hc
            rcases List.mem_append.mp hc with hc | hc
            · obtain ⟨i, hi, hindex⟩ := hbelow c hc
              exact ⟨i, Nat.lt_succ_of_lt hi, hindex⟩
            · obtain rfl := List.mem_singleton.mp hc
              exact ⟨k, Nat.lt_succ_self k, rfl⟩
          obtain ⟨merged, hfold, hcalls⟩ := ih hbelow'
          refine ⟨closed :: merged, ?_, .cons ⟨rfl, rfl, rfl, hspells⟩ hcalls⟩
          show (Anthropic.yieldsFrom (k + 1) rest).foldl _
            ((b.fragments.map _).foldl Answer.add (Answer.add answer _)) = _
          rw [hopen, hclose, hfold, String.empty_append, List.append_assoc]
          rfl

/-! ## Messages -/

/-- The event starts a message, with a usage whose counts have their types. -/
structure MessageStart (event : Json) : Prop where
  type : HasType event "message_start"
  usage : (optProp (event.prop "message") "usage").truthy = true
  inputTokens : OptNumber (optProp (optProp (event.prop "message") "usage") "input_tokens")
  outputTokens : OptNumber (optProp (optProp (event.prop "message") "usage") "output_tokens")

/-- The event carries the message's stop reason and its counts. The input count may be left to `start`. -/
structure MessageDelta (raw start event : Json) : Prop where
  type : HasType event "message_delta"
  stopReason : ∃ reason, reason ≠ "" ∧ raw.prop "stop_reason" = .json (.str reason) ∧
    optProp (event.prop "delta") "stop_reason" = .json (.str reason)
  usage : (event.prop "usage").truthy = true
  inputTokens : ∃ q, optProp (raw.prop "usage") "input_tokens" = .json (.num q) ∧
    (optProp (event.prop "usage") "input_tokens" = .json (.num q) ∨
      ((optProp (event.prop "usage") "input_tokens").isNullish = true ∧
        optProp (optProp (start.prop "message") "usage") "input_tokens" = .json (.num q)))
  outputTokens : ∃ q, optProp (raw.prop "usage") "output_tokens" = .json (.num q) ∧
    optProp (event.prop "usage") "output_tokens" = .json (.num q)

/-- The lines are a stream Anthropic sends for the message: events are objects, and those the parser reads are
    the start of the message, its blocks one after another under distinct indices, and the final delta.
    Blank lines, comments, `event:` fields and events of any other type, as `content_block_stop`, may stand
    anywhere. -/
structure StreamsMessage (blocks : List AnthropicBlock) (raw : Json) (lines : List String) : Prop where
  objects : ∀ event ∈ lines.filterMap Anthropic.eventOf, event ≠ .null
  sent : ∃ start streamed groups delta,
    (lines.filterMap Anthropic.eventOf).filter Anthropic.isRead = start :: (groups.flatten ++ [delta]) ∧
      MessageStart start ∧ streamed.map (·.block) = blocks ∧ (streamed.map (·.index)).Nodup ∧
      List.Forall₂ StreamedBlock.Sent streamed groups ∧ MessageDelta raw start delta

theorem processEvent_messageStart {event : Json} (h : MessageStart event) (s : Anthropic.State) :
    ∃ usage, Anthropic.processEvent event s =
      ⟨[.usage usage], .ok { s with
        inputTokens := optProp (optProp (event.prop "message") "usage") "input_tokens" }⟩ := by
  have hnull : event ≠ .null := by
    rintro rfl
    cases h.type
  have hzero : OptNumber (.json (.num 0)) := Or.inr ⟨0, rfl⟩
  obtain ⟨total, htotal⟩ := (h.inputTokens.orElse hzero).succeeds_add (h.outputTokens.orElse hzero)
  rw [Anthropic.processEvent_eq hnull, h.type]
  show ∃ usage, Anthropic.messageStart event s = _
  unfold Anthropic.messageStart
  dsimp only
  rw [if_pos h.usage, htotal]
  exact ⟨_, rfl⟩

theorem processEvent_messageDelta {raw start event : Json} (h : MessageDelta raw start event)
    {s : Anthropic.State}
    (hs : s.inputTokens = optProp (optProp (start.prop "message") "usage") "input_tokens")
    {usage : UsageMetrics}
    (hinput : usage.inputTokens = (optProp (raw.prop "usage") "input_tokens").orElse (.json (.num 0)))
    (houtput : usage.outputTokens = (optProp (raw.prop "usage") "output_tokens").orElse (.json (.num 0)))
    (htotal : usage.inputTokens.add usage.outputTokens = .ok usage.totalTokens) {reason : String}
    (hreason : Anthropic.mapStopReason (raw.prop "stop_reason") = .ok reason) :
    Anthropic.processEvent event s = ⟨[.usage usage, .done reason], .ok s⟩ := by
  obtain ⟨stop, hne, hstop, hdelta⟩ := h.stopReason
  obtain ⟨q, hq, hcount⟩ := h.inputTokens
  obtain ⟨r, hr, hout⟩ := h.outputTokens
  have hnull : event ≠ .null := by
    rintro rfl
    cases h.type
  have hread : ((optProp (event.prop "usage") "input_tokens").orElse s.inputTokens).orElse (.json (.num 0)) =
      usage.inputTokens := by
    rw [hinput, hq, hs]
    rcases hcount with hcount | ⟨hnullish, hstart⟩
    · rw [hcount]
      rfl
    · rw [hstart]
      unfold JsValue.orElse
      rw [hnullish]
      rfl
  have hwritten : optProp (event.prop "usage") "output_tokens" = usage.outputTokens := by
    rw [houtput, hr, hout]
    rfl
  have husage : Anthropic.deltaUsage (event.prop "usage") s = Gen.yield (.usage usage) := by
    unfold Anthropic.deltaUsage
    rw [if_pos h.usage]
    dsimp only
    rw [hread, hwritten, htotal]
    rfl
  have hdone : Anthropic.yieldDone (optProp (event.prop "delta") "stop_reason") = Gen.yield (.done reason) := by
    unfold Anthropic.yieldDone
    rw [hdelta, ← hstop, hreason, hstop, if_pos (by simpa [Json.truthy] using hne)]
    rfl
  rw [Anthropic.processEvent_eq hnull, h.type]
  show Anthropic.messageDelta event s = _
  unfold Anthropic.messageDelta
  rw [husage, hdone]
  rfl

/-! ## The same answer -/

/-- Both texts are arguments that parse to the same JSON value, the empty text to `{}`. -/
def SameArguments (streamed : String) (args : JsValue) : Prop :=
  ∃ v w, Anthropic.parseArguments (.json (.str streamed)) = .ok v ∧ Anthropic.parseArguments args = .ok w ∧
    v.canon = w.canon

/-- The merged call is this tool call of a response, number `e.2` of them: its id and name came once, its
    arguments are the same. -/
structure SameCall (merged : MergedCall) (e : UnifiedToolCall × Nat) : Prop where
  index : merged.index = .json (.num e.2)
  id : merged.ids = [e.1.id]
  name : merged.names = [e.1.function.name]
  arguments : SameArguments merged.arguments e.1.function.arguments

/-- The stream added up to the response. -/
structure SameAnswer (answer : Answer) (response : UnifiedAiResponse) : Prop where
  text : answer.text = turnText response.content
  calls : List.Forall₂ SameCall answer.calls (turnCalls response.content).zipIdx
  finishReason : answer.finishReason = some response.finishReason
  usage : answer.usage = some response.usage

theorem sameCall_of_spells {merged : MergedCall} {e : ToolUse × Nat} (h : merged.Spells e)
    (hvalid : (Json.obj e.1.input).Valid) :
    SameCall merged (⟨.json (.str e.1.id), ⟨.json (.str e.1.name),
      .json (.str (stringify (.obj e.1.input)))⟩⟩, e.2) := by
  refine ⟨h.index, h.id, h.name, ?_⟩
  have hargs := parseArguments_stringify hvalid
  rcases h.arguments with ⟨v, hv, hcanon⟩ | ⟨hempty, hinput⟩
  · have hne : merged.arguments ≠ "" := by
      intro hempty
      rw [hempty] at hv
      cases hv
    have hparse : Anthropic.parseArguments (.json (.str merged.arguments)) = .ok v := by
      unfold Anthropic.parseArguments
      rw [if_pos (by simpa [Json.truthy] using hne)]
      exact parseJson_of_jsonParse hv
    exact ⟨v, _, hparse, hargs, by rw [hcanon, Json.canon_canon]⟩
  · refine ⟨.obj [], _, ?_, hargs, ?_⟩
    · rw [hempty]
      decide
    · rw [hinput]
      rfl

/-- **The run over a message's stream**: the usage of its start, its blocks, and what its delta ends with. -/
theorem processLines_message {blocks : List AnthropicBlock} {raw : Json} {lines : List String}
    (hstream : StreamsMessage blocks raw lines) {usage : UsageMetrics}
    (hinput : usage.inputTokens = (optProp (raw.prop "usage") "input_tokens").orElse (.json (.num 0)))
    (houtput : usage.outputTokens = (optProp (raw.prop "usage") "output_tokens").orElse (.json (.num 0)))
    (htotal : usage.inputTokens.add usage.outputTokens = .ok usage.totalTokens) {reason : String}
    (hreason : Anthropic.mapStopReason (raw.prop "stop_reason") = .ok reason) :
    ∃ streamed first s', streamed.map StreamedBlock.block = blocks ∧
      Anthropic.parser.processLines lines Anthropic.parser.init =
        ⟨.usage first :: (Anthropic.yieldsFrom 0 streamed ++ [.usage usage, .done reason]), .ok s'⟩ := by
  obtain ⟨start, streamed, groups, delta, hread, hstart, hblocks, hdistinct, hsent, hdelta⟩ := hstream.sent
  obtain ⟨first, hfirst⟩ := processEvent_messageStart hstart ⟨Anthropic.ToolOrdinals.empty, .undefined⟩
  have hnone : Anthropic.Numbered [] ⟨Anthropic.ToolOrdinals.empty,
      optProp (optProp (start.prop "message") "usage") "input_tokens"⟩ := ⟨rfl, rfl⟩
  obtain ⟨s', hrun, hkept⟩ := Anthropic.processEvents_blocks hsent hdistinct hnone
    fun b _ => List.not_mem_nil
  have hlast : LineParser.processAll Anthropic.processEvent [delta] s' =
      ⟨[.usage usage, .done reason], .ok s'⟩ := by
    show Anthropic.processEvent delta s' >>= pure = _
    rw [bind_pure]
    exact processEvent_messageDelta hdelta hkept hinput houtput htotal hreason
  refine ⟨streamed, first, s', hblocks, ?_⟩
  rw [Anthropic.processLines_eq hstream.objects, hread]
  show Anthropic.processEvent start ⟨Anthropic.ToolOrdinals.empty, .undefined⟩ >>=
    LineParser.processAll Anthropic.processEvent _ = _
  rw [hfirst, Gen.bind_of_ok rfl, LineParser.processAll_append, hrun, Gen.bind_of_ok rfl, hlast]
  rfl

/-- What such a run adds up to. -/
theorem accumulate_message (streamed : List StreamedBlock) (first usage : UsageMetrics) (reason : String) :
    ∃ merged, accumulate (.usage first :: (Anthropic.yieldsFrom 0 streamed ++ [.usage usage, .done reason])) =
        ⟨AnthropicBlock.textOf (streamed.map (·.block)), merged, some reason, some usage⟩ ∧
      List.Forall₂ MergedCall.Spells merged (AnthropicBlock.callsOf (streamed.map (·.block))).zipIdx := by
  have hbelow : Below 0 (⟨"", [], none, some first⟩ : Answer).calls :=
    fun call hcall => absurd hcall List.not_mem_nil
  obtain ⟨merged, hfold, hcalls⟩ := foldl_yieldsFrom streamed hbelow
  refine ⟨merged, ?_, hcalls⟩
  unfold accumulate
  rw [List.foldl_cons, List.foldl_append]
  show List.foldl Answer.add (List.foldl Answer.add ⟨"", [], none, some first⟩ _) _ = _
  rw [hfold, String.empty_append]
  rfl

/-- **Streamed or at once, an Anthropic message is the same answer.** The lines of the body are a stream for
    the message, however its blocks are cut into fragments and the body into chunks. -/
theorem stream_same_answer {text : String} {raw : Json} (hraw : jsonParse text = some raw)
    {blocks : List AnthropicBlock} (hmessage : AnthropicMessage blocks raw) {body : HttpBody}
    (hclosed : body.ending = .closed) (hstream : StreamsMessage blocks raw body.lines) (provider : String)
    (latencyMs : Rat) :
    ∃ events response, Anthropic.parser.parseStream body = ⟨events, .finished⟩ ∧
      Anthropic.fromAnthropicResponse raw provider latencyMs = .ok response ∧
      SameAnswer (accumulate events) response := by
  obtain ⟨response, hresponse, hcontent, hreason, hinput, houtput, htotal⟩ :=
    fromAnthropicResponse_message hmessage provider latencyMs
  obtain ⟨streamed, first, s', rfl, hrun⟩ := processLines_message hstream hinput houtput htotal hreason
  have hvalid := hmessage.valid_input (valid_of_jsonParse hraw)
  have hparse : Anthropic.parser.parseStream body = ⟨.usage first :: (Anthropic.yieldsFrom 0 streamed ++
      [.usage response.usage, .done response.finishReason]), .finished⟩ := by
    rw [LineParser.parseStream_eq, hrun, hclosed]
  obtain ⟨merged, hanswer, hcalls⟩ := accumulate_message streamed first response.usage response.finishReason
  refine ⟨_, response, hparse, hresponse, ?_⟩
  rw [hanswer]
  refine ⟨?_, ?_, rfl, rfl⟩
  · rw [hcontent, turnText_anthropic]
  · rw [hcontent, turnCalls_anthropic, List.zipIdx_map, List.forall₂_map_right_iff]
    have hall : ∀ e ∈ (AnthropicBlock.callsOf (streamed.map (·.block))).zipIdx, (Json.obj e.1.input).Valid :=
      fun e he => hvalid e.1 (List.fst_mem_of_mem_zipIdx he)
    have hpairs := (List.forall₂_and_left _ _).mpr ⟨hall, List.Forall₂.flip hcalls⟩
    exact List.Forall₂.flip (hpairs.imp fun e merged h => sameCall_of_spells h.2 h.1)

/-- Events sent as frames are the events of the body. -/
theorem events_frameBody {events : List Json} (h : ∀ e ∈ events, ∃ fields, e = .obj fields ∧ e.Plain) :
    (frameBody events).lines.filterMap Anthropic.eventOf = events := by
  rw [lines_frameBody]
  induction events with
  | nil => rfl
  | cons e rest ih =>
      obtain ⟨⟨fields, rfl, hplain⟩, hrest⟩ := List.forall_mem_cons.mp h
      have hevent : Anthropic.eventOf ("data: " ++ stringify (.obj fields)) = some (.obj fields) := by
        unfold Anthropic.eventOf
        rw [sseData_object, Option.bind_some, jsonParse_stringify_plain hplain]
      have hblank : Anthropic.eventOf "" = none := by decide
      rw [List.flatMap_cons, List.cons_append, List.filterMap_cons_some hevent, List.cons_append,
        List.filterMap_cons_none hblank, List.nil_append, ih hrest]

/-- A message with a text and a tool call. -/
def checkingMessage : Json :=
  .obj [("content", .arr [.obj [("type", .str "text"), ("text", .str "Hi")],
      .obj [("type", .str "tool_use"), ("id", .str "a"), ("name", .str "f"), ("input", .obj [("x", .num 1)])]]),
    ("stop_reason", .str "tool_use"),
    ("usage", .obj [("input_tokens", .num 5), ("output_tokens", .num 7)])]

/-- A stream for it: the text block has index 0, the tool call index 1 and two fragments. -/
def checkingEvents : List Json :=
  [.obj [("type", .str "message_start"), ("message", .obj [("usage",
      .obj [("input_tokens", .num 5), ("output_tokens", .num 1)])])],
    .obj [("type", .str "content_block_start"), ("index", .num 0),
      ("content_block", .obj [("type", .str "text"), ("text", .str "")])],
    .obj [("type", .str "content_block_delta"), ("index", .num 0),
      ("delta", .obj [("type", .str "text_delta"), ("text", .str "Hi")])],
    .obj [("type", .str "content_block_stop"), ("index", .num 0)],
    .obj [("type", .str "content_block_start"), ("index", .num 1),
      ("content_block", .obj [("type", .str "tool_use"), ("id", .str "a"), ("name", .str "f")])],
    .obj [("type", .str "content_block_delta"), ("index", .num 1),
      ("delta", .obj [("type", .str "input_json_delta"), ("partial_json", .str "\x7b\"x\":")])],
    .obj [("type", .str "content_block_delta"), ("index", .num 1),
      ("delta", .obj [("type", .str "input_json_delta"), ("partial_json", .str " 1\x7d")])],
    .obj [("type", .str "message_delta"), ("delta", .obj [("stop_reason", .str "tool_use")]),
      ("usage", .obj [("output_tokens", .num 7)])],
    .obj [("type", .str "message_stop")]]

theorem stream_same_answer_checking :
    ∃ events response,
      Anthropic.parser.parseStream (frameBody checkingEvents) = ⟨events, .finished⟩ ∧
      Anthropic.fromAnthropicResponse checkingMessage "anthropic" 1 = .ok response ∧
      SameAnswer (accumulate events) response := by
  have hdecimal : Decimal 0 ∧ Decimal 1 ∧ Decimal 5 ∧ Decimal 7 :=
    ⟨decimal_natCast 0, decimal_natCast 1, decimal_natCast 5, decimal_natCast 7⟩
  have hplain : ∀ e ∈ checkingEvents, ∃ fields, e = .obj fields ∧ e.Plain := by
    have hcanon : ∀ e ∈ checkingEvents, e.canon = e := by decide
    have hvalid : ∀ e ∈ checkingEvents, ∃ fields, e = .obj fields ∧ e.Valid := by
      simp [checkingEvents, Json.Valid, ValidFields, hdecimal]
    intro e he
    obtain ⟨fields, heq, hv⟩ := hvalid e he
    exact ⟨fields, heq, hv, hcanon e he⟩
  have hraw : jsonParse (stringify checkingMessage) = some checkingMessage := by
    have hvalid : checkingMessage.Valid := by
      simp [checkingMessage, Json.Valid, ValidItems, ValidFields, hdecimal]
    exact jsonParse_stringify_plain ⟨hvalid, by decide⟩
  have hevents := events_frameBody hplain
  have hspells : jsonParse ("".intercalate ["\x7b\"x\":", " 1\x7d"]) = some (.obj [("x", .num 1)]) := by
    decide +kernel
  have htext : "".intercalate ["Hi"] = "Hi" := by decide
  have hstream : StreamsMessage [.text "Hi", .toolUse ⟨"a", "f", [("x", .num 1)]⟩] checkingMessage
      (frameBody checkingEvents).lines := by
    constructor
    · rw [hevents]
      decide
    · rw [hevents]
      refine ⟨_, [⟨.text "Hi", 0, ["Hi"], htext⟩,
        ⟨.toolUse ⟨"a", "f", [("x", .num 1)]⟩, 1, ["\x7b\"x\":", " 1\x7d"], Or.inl ⟨_, hspells, rfl⟩⟩],
        [(checkingEvents.drop 1).take 2, (checkingEvents.drop 4).take 3], _, rfl,
        ⟨rfl, rfl, Or.inr ⟨5, rfl⟩, Or.inr ⟨1, rfl⟩⟩, rfl, ?_, ?_, ?_⟩
      · show ([0, 1] : List Rat).Nodup
        decide
      · exact .cons ⟨_, _, rfl, ⟨rfl, rfl, _, rfl, rfl⟩, .cons ⟨rfl, rfl, _, rfl, rfl, rfl⟩ .nil⟩
          (.cons ⟨_, _, rfl, ⟨rfl, rfl, _, rfl, rfl, rfl, rfl⟩, .cons ⟨rfl, rfl, _, rfl, rfl, rfl⟩
            (.cons ⟨rfl, rfl, _, rfl, rfl, rfl⟩ .nil)⟩ .nil)
      · exact ⟨rfl, ⟨"tool_use", by decide, rfl, rfl⟩, rfl, ⟨5, rfl, Or.inr ⟨rfl, rfl⟩⟩, ⟨7, rfl, rfl⟩⟩
  have hmessage : AnthropicMessage [.text "Hi", .toolUse ⟨"a", "f", [("x", .num 1)]⟩] checkingMessage :=
    ⟨⟨_, rfl, .cons ⟨rfl, rfl⟩ (.cons ⟨rfl, rfl, rfl, rfl⟩ .nil)⟩, Or.inr ⟨_, rfl⟩, Or.inr ⟨5, rfl⟩,
      Or.inr ⟨7, rfl⟩⟩
  exact stream_same_answer hraw hmessage rfl hstream "anthropic" 1

end Sirius
