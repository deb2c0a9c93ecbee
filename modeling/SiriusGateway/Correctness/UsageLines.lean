import SiriusGateway.Adapters.Native
import SiriusGateway.Correctness.UsageChunks

/-!
# `Correctness.UsageLines` — where an upstream reports its usage

Each stream parser decides for itself where a line's usage event stands among its others. What a body says of
usage can be read off its lines (`Native.signs`): the signs of the parser's events are these, or the first of
them when a line makes it throw (`Native.parseStream_signs`).

## Contents
- **Signs of a generator.** `Gen.Carries` and its rules; `allSigns`, over the values of a stream.
- **OpenAI, Ollama, Anthropic.** What one chunk or event carries.
- **A body.** `Native.signs`.
-/

namespace Sirius

open Js

/-! ## Signs of a generator -/

namespace Gen

variable {α β : Type} {signs more : List Bool}

/-- The events have these signs when the generator returns, and the first of them when it throws. -/
structure Carries (g : Gen α) (signs : List Bool) : Prop where
  shown : g.events.map (·.isUsage) <+: signs
  whole : g.result.Succeeds → g.events.map (·.isUsage) = signs

/-- A value alone carries no event. -/
theorem carries_pure (a : α) : Carries (pure a : Gen α) [] := ⟨List.prefix_rfl, fun _ => rfl⟩

theorem carries_lift (x : Throws α) : Carries (lift x) [] := ⟨List.prefix_rfl, fun _ => rfl⟩

/-- One event carries its own sign. -/
theorem carries_yield (e : UnifiedStreamEvent) : Carries (yield e) [e.isUsage] :=
  ⟨List.prefix_rfl, fun _ => rfl⟩

/-- Signs of a sequence are the signs of its parts, one behind the other. -/
theorem Carries.bind {g : Gen α} {f : α → Gen β} (hg : Carries g signs)
    (hf : ∀ a, g.result = .ok a → Carries (f a) more) : Carries (g >>= f) (signs ++ more) := by
  cases hresult : g.result with
  | error e =>
      rw [bind_of_error hresult]
      exact ⟨hg.shown.trans (List.prefix_append _ _), fun h => absurd h (Except.not_succeeds_error e)⟩
  | ok a =>
      obtain ⟨hshown, hwhole⟩ := hf a hresult
      rw [bind_of_ok hresult]
      constructor
      · rw [List.map_append, hg.whole ⟨a, hresult⟩]
        exact (List.prefix_append_right_inj signs).mpr hshown
      · intro hok
        rw [List.map_append, hg.whole ⟨a, hresult⟩, hwhole hok]

/-- What code that yields nothing computes may be assumed of what comes after it. -/
theorem carries_lift_bind {x : Throws α} {f : α → Gen β} (hf : ∀ a, x = .ok a → Carries (f a) signs) :
    Carries (lift x >>= f) signs := (carries_lift x).bind hf

/-- A value computed at the end adds no sign. -/
theorem Carries.then_pure {g : Gen α} (hg : Carries g signs) (b : α → β) :
    Carries (g >>= fun a => (pure (b a) : Gen β)) signs := by
  have h := hg.bind fun a _ => carries_pure (b a)
  rwa [List.append_nil] at h

end Gen

open Gen

/-- The signs of the values of a stream, where what a value carries may depend on those before it. -/
def allSigns {α : Type} (signs : List α → α → List Bool) : List α → List α → List Bool
  | _, [] => []
  | earlier, v :: rest => signs earlier v ++ allSigns signs (earlier ++ [v]) rest

/-- **The signs of a run** are those of its values, `I` being what the state owes to the values so far. -/
theorem carries_processAll {α σ : Type} {step : α → σ → Gen σ} {signs : List α → α → List Bool}
    {I : List α → σ → Prop}
    (hstep : ∀ earlier v s, I earlier s → Carries (step v s) (signs earlier v) ∧
      ∀ s', (step v s).result = .ok s' → I (earlier ++ [v]) s')
    {values earlier : List α} {s : σ} (hs : I earlier s) :
    Carries (LineParser.processAll step values s) (allSigns signs earlier values) := by
  induction values generalizing earlier s with
  | nil => exact carries_pure s
  | cons v rest ih =>
      obtain ⟨hcarries, hinv⟩ := hstep earlier v s hs
      exact hcarries.bind fun s' hs' => ih (hinv s' hs')

/-- One output for each element of what a loop runs over. -/
def outputs {α : Type} (items : Throws (List α)) : List Bool :=
  (items.toOption.getD []).map fun _ => false

/-! ## OpenAI -/

namespace OpenAi

/-- What a chunk carries: content, tool calls, usage, and the finish reason. -/
def signs (chunk : Json) : List Bool :=
  let choice := first (chunk.prop "choices")
  let delta := optProp choice "delta"
  (if (optProp delta "content").truthy then [false] else []) ++
    (if (optProp delta "tool_calls").truthy then
      outputs (iterate "delta.tool_calls" (optProp delta "tool_calls")) else []) ++
    (if (chunk.prop "usage").truthy then [true] else []) ++
    (if (optProp choice "finish_reason").truthy then [false] else [])

/-- Each tool call of a chunk is one event that is no usage. -/
theorem carries_yieldToolCalls (calls : List Json) :
    Carries (yieldToolCalls calls) (calls.map fun _ => false) := by
  induction calls with
  | nil => exact carries_pure ()
  | cons tc rest ih =>
      have htc : Carries (yieldToolCall tc) [false] := carries_lift_bind fun index _ => carries_yield _
      exact htc.bind fun _ _ => ih

/-- A whole OpenAI chunk carries the signs read off it. -/
theorem carries_processChunk (chunk : Json) : Carries (processChunk chunk) (signs chunk) := by
  have hcontent : ∀ v : JsValue, Carries (yieldContent v) (if v.truthy then [false] else []) := by
    intro v
    unfold yieldContent
    split
    · exact carries_yield _
    · exact carries_pure ()
  have hcalls : ∀ v : JsValue, Carries (yieldToolCallDeltas v)
      (if v.truthy then outputs (iterate "delta.tool_calls" v) else []) := by
    intro v
    unfold yieldToolCallDeltas
    split
    · refine carries_lift_bind fun calls hcalls => ?_
      rw [hcalls]
      exact carries_yieldToolCalls calls
    · exact carries_pure ()
  have hdone : ∀ v : JsValue, Carries (yieldDone v) (if v.truthy then [false] else []) := by
    intro v
    unfold yieldDone
    split
    · exact carries_lift_bind fun reason _ => carries_yield _
    · exact carries_pure ()
  refine carries_lift_bind fun usageEvent husage => ?_
  have husage : Carries (yieldUsage usageEvent) (if (chunk.prop "usage").truthy then [true] else []) := by
    obtain ⟨usage, hread, hevent⟩ := Except.bind_eq_ok_iff.mp husage
    have hprop : chunk.prop "usage" = usage := optProp_of_getProp hread
    rw [hprop]
    split at hevent
    · rename_i htruthy
      obtain rfl := Except.ok.inj hevent
      rw [if_pos htruthy]
      exact carries_yield _
    · rename_i hfalsy
      obtain rfl := Except.ok.inj hevent
      rw [if_neg hfalsy]
      exact carries_pure ()
  unfold signs
  dsimp only
  generalize first (chunk.prop "choices") = choice
  cases hchoice : choice.truthy with
  | true =>
      rw [if_pos rfl]
      refine carries_lift_bind fun content hread => ?_
      rw [optProp_of_getProp hread, List.append_assoc, List.append_assoc]
      exact (hcontent _).bind fun _ _ => (hcalls _).bind fun _ _ => husage.bind fun _ _ => hdone _
  | false =>
      rw [if_neg Bool.false_ne_true, optProp_of_falsy hchoice (by decide), optProp_of_falsy hchoice (by decide)]
      simpa [optProp] using husage

end OpenAi

/-! ## Ollama -/

namespace Ollama

variable {freshId : Nat → String}

/-- What a chunk carries: content, tool calls, and when it is the last one usage and the finish reason. -/
def signs (chunk : Json) : List Bool :=
  let message := chunk.prop "message"
  (if (optProp message "content").truthy then [false] else []) ++
    (if (optProp message "tool_calls").truthy then outputs (indexed (optProp message "tool_calls")) else []) ++
    if (chunk.prop "done").truthy then
      (if (chunk.prop "prompt_eval_count").isDefined || (chunk.prop "eval_count").isDefined then [true] else []) ++
        [false]
    else []

/-- Ollama's calls are one event each, none of them usage. -/
theorem carries_yieldToolCalls (items : List JsValue) :
    ∀ (i : Nat) (s : State), Carries (yieldToolCalls freshId i items s) (items.map fun _ => false) := by
  induction items with
  | nil => exact fun _ s => carries_pure s
  | cons tc rest ih =>
      intro i s
      refine carries_lift_bind fun function _ => carries_lift_bind fun name _ => ?_
      exact (carries_yield _).bind fun _ _ => ih (i + 1) _

/-- A finished Ollama chunk yields its counts, when it has any, and then done. -/
theorem carries_yieldDone (hasToolCalls : Bool) (chunk : Json) :
    Carries (yieldDone hasToolCalls chunk) (if (chunk.prop "done").truthy then
      (if (chunk.prop "prompt_eval_count").isDefined || (chunk.prop "eval_count").isDefined then [true] else []) ++
        [false]
    else []) := by
  have husage : Carries (yieldUsage chunk)
      (if (chunk.prop "prompt_eval_count").isDefined || (chunk.prop "eval_count").isDefined then [true]
      else []) := by
    unfold yieldUsage
    split
    · exact carries_lift_bind fun total _ => carries_yield _
    · exact carries_pure ()
  unfold yieldDone
  split
  · exact husage.bind fun _ _ => carries_yield _
  · exact carries_pure ()

/-- A whole Ollama chunk carries the signs read off it. -/
theorem carries_processChunk (chunk : Json) (s : State) : Carries (processChunk freshId chunk s) (signs chunk) := by
  have hcontent : ∀ v : JsValue, Carries (yieldContent v) (if v.truthy then [false] else []) := by
    intro v
    unfold yieldContent
    split
    · exact carries_yield _
    · exact carries_pure ()
  have hcalls : ∀ v : JsValue, Carries (yieldToolCallDeltas freshId v s)
      (if v.truthy then outputs (indexed v) else []) := by
    intro v
    unfold yieldToolCallDeltas
    split
    · refine carries_lift_bind fun items hitems => ?_
      rw [hitems]
      exact carries_yieldToolCalls items 0 s
    · exact carries_pure s
  refine carries_lift_bind fun message hread => ?_
  have hmessage : chunk.prop "message" = message := optProp_of_getProp hread
  unfold signs
  dsimp only
  rw [hmessage, List.append_assoc]
  exact (hcontent _).bind fun _ _ => (hcalls _).bind fun s' _ => (carries_yieldDone _ chunk).then_pure fun _ => s'

end Ollama

/-! ## Anthropic -/

namespace Anthropic

/-- The event starts a tool call. -/
def startsTool (event : Json) : Bool :=
  (event.prop "type").isStr "content_block_start" &&
    (optProp (event.prop "content_block") "type").isStr "tool_use"

/-- A tool call was started under this index. -/
def opened (earlier : List Json) (index : JsValue) : Bool :=
  !ToolOrdinals.isReference index && earlier.any fun event => startsTool event && decide (event.prop "index" = index)

/-- What an event carries; a fragment of a tool call that was never started carries nothing. -/
def signs (earlier : List Json) (event : Json) : List Bool :=
  let delta := event.prop "delta"
  if (event.prop "type").isStr "message_start" then
    if (optProp (event.prop "message") "usage").truthy then [true] else []
  else if (event.prop "type").isStr "content_block_start" then
    if startsTool event then [false] else []
  else if (event.prop "type").isStr "content_block_delta" then
    if (optProp delta "type").isStr "text_delta" then [false]
    else if (optProp delta "type").isStr "input_json_delta" && opened earlier (event.prop "index") then [false]
    else []
  else if (event.prop "type").isStr "message_delta" then
    (if (event.prop "usage").truthy then [true] else []) ++
      if (optProp delta "stop_reason").truthy then [false] else []
  else []

/-- The ordinals the parser keeps are those of the tool calls started so far. -/
def Tracks (earlier : List Json) (s : State) : Prop :=
  ∀ index, (s.toolOrdinals.get index).isSome = opened earlier index

/-- Before the first event nothing has been opened. -/
theorem tracks_init : Tracks [] parser.init := by
  intro index
  show (ToolOrdinals.get ToolOrdinals.empty index).isSome = _
  unfold ToolOrdinals.get opened
  split
  · simp
  · exact (Bool.and_false _).symm

/-- A block is known after a write when it was known before or is the one written. -/
theorem get_set_isSome (m : ToolOrdinals) (index : JsValue) (ordinal : Nat) (index' : JsValue) :
    ((m.set index ordinal).get index').isSome =
      ((m.get index').isSome || !ToolOrdinals.isReference index' && decide (index = index')) := by
  unfold ToolOrdinals.set ToolOrdinals.get
  by_cases hindex : index = index'
  · subst hindex
    cases href : ToolOrdinals.isReference index <;> simp
  · cases href : ToolOrdinals.isReference index <;> cases href' : ToolOrdinals.isReference index' <;>
      simp [JsMap.get_set, hindex, Ne.symm hindex]

/-- **What an event does to the state**: it files the ordinal of a tool call it starts, or the input count of a
    message's usage, or nothing. -/
theorem processEvent_cases {event : Json} {s s' : State} (h : (processEvent event s).result = .ok s') :
    (startsTool event = false ∧ s' = s) ∨
      (startsTool event = true ∧
        s' = { s with toolOrdinals := s.toolOrdinals.set (event.prop "index") s.toolOrdinals.size }) ∨
      (startsTool event = false ∧ HasType event "message_start" ∧
        (optProp (event.prop "message") "usage").truthy = true ∧
        s' = { s with inputTokens := optProp (optProp (event.prop "message") "usage") "input_tokens" }) := by
  have hnull : event ≠ .null := by
    rintro rfl
    cases h
  have hother : ¬HasType event "content_block_start" → startsTool event = false := by
    intro hother
    unfold startsTool
    rw [Bool.eq_false_iff.mpr (mt isStr_iff.mp hother), Bool.false_and]
  rcases processEvent_kind hnull s with ⟨htype, heq⟩ | ⟨htype, heq⟩ | ⟨htype, heq⟩ | ⟨htype, heq⟩ | ⟨hnone, heq⟩
  all_goals rw [heq] at h
  · have hstarts := hother (htype.ne (by decide))
    unfold messageStart at h
    dsimp only at h
    split at h
    · rename_i husage
      obtain ⟨total, -, h⟩ := bind_eq_ok h
      obtain ⟨-, -, h⟩ := bind_eq_ok h
      exact Or.inr (Or.inr ⟨hstarts, htype, husage, (Except.ok.inj h).symm⟩)
    · exact Or.inl ⟨hstarts, (Except.ok.inj h).symm⟩
  · obtain ⟨blockType, hread, h⟩ := bind_eq_ok h
    unfold startsTool
    rw [isStr_iff.mpr htype, Bool.true_and, optProp_of_getProp hread]
    split at h
    · rename_i htool
      obtain ⟨-, -, h⟩ := bind_eq_ok h
      exact Or.inr (Or.inl ⟨htool, (Except.ok.inj h).symm⟩)
    · rename_i htool
      exact Or.inl ⟨Bool.eq_false_iff.mpr htool, (Except.ok.inj h).symm⟩
  · refine Or.inl ⟨hother (htype.ne (by decide)), ?_⟩
    obtain ⟨deltaType, -, h⟩ := bind_eq_ok h
    split at h
    · obtain ⟨-, -, h⟩ := bind_eq_ok h
      exact (Except.ok.inj h).symm
    · split at h
      · split at h
        · obtain ⟨-, -, h⟩ := bind_eq_ok h
          exact (Except.ok.inj h).symm
        · exact (Except.ok.inj h).symm
      · exact (Except.ok.inj h).symm
  · obtain ⟨-, -, h⟩ := bind_eq_ok h
    obtain ⟨-, -, h⟩ := bind_eq_ok h
    exact Or.inl ⟨hother (htype.ne (by decide)), (Except.ok.inj h).symm⟩
  · exact Or.inl ⟨hother (hnone _ (by decide)), (Except.ok.inj h).symm⟩

/-- What an event does to the ordinals. -/
theorem toolOrdinals_processEvent {event : Json} {s s' : State} (h : (processEvent event s).result = .ok s') :
    s'.toolOrdinals = if startsTool event then
      s.toolOrdinals.set (event.prop "index") s.toolOrdinals.size else s.toolOrdinals := by
  rcases processEvent_cases h with ⟨hstarts, rfl⟩ | ⟨hstarts, rfl⟩ | ⟨hstarts, -, -, rfl⟩
  · rw [hstarts, if_neg Bool.false_ne_true]
  · rw [hstarts, if_pos rfl]
  · rw [hstarts, if_neg Bool.false_ne_true]

/-- One event keeps the ordinals in step with the blocks opened so far. -/
theorem Tracks.step {earlier : List Json} {event : Json} {s s' : State} (hs : Tracks earlier s)
    (h : (processEvent event s).result = .ok s') : Tracks (earlier ++ [event]) s' := by
  intro index
  rw [toolOrdinals_processEvent h]
  unfold opened
  rw [List.any_append]
  cases hstarts : startsTool event with
  | false =>
      rw [if_neg Bool.false_ne_true, hs index]
      simp [opened, hstarts]
  | true =>
      rw [if_pos rfl, get_set_isSome, hs index]
      unfold opened
      cases ToolOrdinals.isReference index <;> simp [hstarts]

/-- A message delta carries its usage and then its stop reason. -/
theorem carries_messageDelta (event : Json) (s : State) :
    Carries (messageDelta event s) ((if (event.prop "usage").truthy then [true] else []) ++
      if (optProp (event.prop "delta") "stop_reason").truthy then [false] else []) := by
  have husage : Carries (deltaUsage (event.prop "usage") s)
      (if (event.prop "usage").truthy then [true] else []) := by
    unfold deltaUsage
    split
    · exact carries_lift_bind fun total _ => carries_yield _
    · exact carries_pure ()
  have hdone : ∀ v : JsValue, Carries (yieldDone v) (if v.truthy then [false] else []) := by
    intro v
    unfold yieldDone
    split
    · exact carries_lift_bind fun reason _ => carries_yield _
    · exact carries_pure ()
  exact husage.bind fun _ _ => (hdone _).then_pure _

/-- An event carries the signs read off it and the blocks opened before it. -/
theorem carries_processEvent {earlier : List Json} (event : Json) {s : State} (hs : Tracks earlier s) :
    Carries (processEvent event s) (signs earlier event) := by
  refine carries_lift_bind fun type hread => ?_
  have htype : event.prop "type" = type := optProp_of_getProp hread
  unfold signs
  dsimp only
  rw [htype]
  split
  · unfold messageStart
    dsimp only
    split
    · exact carries_lift_bind fun total _ => (carries_yield _).then_pure _
    · exact carries_pure s
  · split
    · rename_i hblock
      refine carries_lift_bind fun blockType hread => ?_
      unfold startsTool
      rw [htype, hblock, Bool.true_and, optProp_of_getProp hread]
      split
      · exact (carries_yield _).then_pure _
      · exact carries_pure s
    · split
      · refine carries_lift_bind fun deltaType hread => ?_
        rw [optProp_of_getProp hread]
        split
        · exact (carries_yield _).then_pure _
        · cases hinput : deltaType.isStr "input_json_delta" with
          | false =>
              rw [if_neg Bool.false_ne_true, Bool.false_and]
              exact carries_pure s
          | true =>
              rw [if_pos rfl, Bool.true_and, ← hs]
              split
              · rename_i ordinal hordinal
                rw [hordinal]
                exact (carries_yield _).then_pure _
              · rename_i hnone
                rw [hnone]
                exact carries_pure s
      · split
        · exact carries_messageDelta event s
        · exact carries_pure s

end Anthropic

/-! ## A body -/

/-- What the lines of a body carry. -/
def Native.signs (n : Native) (body : HttpBody) : List Bool :=
  match n with
  | .openai => allSigns (fun _ => OpenAi.signs) [] (body.lines.filterMap OpenAi.chunkOf)
  | .anthropic => allSigns Anthropic.signs [] (body.lines.filterMap Anthropic.eventOf)
  | .ollama => allSigns (fun _ => Ollama.signs) [] (body.lines.filterMap Ollama.chunkOf)

section Parsers

variable {σ α : Type} {p : LineParser σ} {step : α → σ → Gen σ} {valueOf : String → Option α}
  {signs : List α → α → List Bool} {I : List α → σ → Prop}
  (hline : ∀ line s, p.processLine line s = (valueOf line).elim (pure s) fun v => step v s)
  (hstep : ∀ earlier v s, I earlier s → Carries (step v s) (signs earlier v) ∧
    ∀ s', (step v s).result = .ok s' → I (earlier ++ [v]) s')
  (hinit : I [] p.init)
include hline hstep hinit

/-- **The signs of a parsed body**, all of them when its lines are read without a throw. -/
theorem signs_parseStream (body : HttpBody) :
    (p.parseStream body).events.map (·.isUsage) <+: allSigns signs [] (body.lines.filterMap valueOf) ∧
      ((p.processLines body.lines p.init).Clean →
        (p.parseStream body).events.map (·.isUsage) = allSigns signs [] (body.lines.filterMap valueOf)) := by
  have hcarries : Carries (LineParser.processAll step (body.lines.filterMap valueOf) p.init) _ :=
    carries_processAll hstep hinit
  rw [← p.processLines_filterMap hline] at hcarries
  rw [p.events_parseStream body]
  exact ⟨hcarries.shown, fun h => hcarries.whole h.1⟩

end Parsers

namespace Native

/-- **The signs of a native stream** are those of its lines, all of them when these are well formed. -/
theorem signs_parseStream (n : Native) (freshId : Nat → String) (body : HttpBody) :
    (n.parseStream freshId body).events.map (·.isUsage) <+: n.signs body ∧
      ((∀ line ∈ body.lines, n.WellFormed line) →
        (n.parseStream freshId body).events.map (·.isUsage) = n.signs body) := by
  cases n with
  | openai =>
      have hstep : ∀ (earlier : List Json) (chunk : Json) (s : Unit), True →
          Carries (OpenAi.processChunk chunk) (OpenAi.signs chunk) ∧
            ∀ s', (OpenAi.processChunk chunk).result = .ok s' → True :=
        fun _ chunk _ _ => ⟨OpenAi.carries_processChunk chunk, fun _ _ => trivial⟩
      have h := Sirius.signs_parseStream OpenAi.parser_processLine_eq hstep trivial body
      exact ⟨h.1, fun hlines => h.2 (clean_openAi hlines)⟩
  | anthropic =>
      have hstep : ∀ (earlier : List Json) (event : Json) (s : Anthropic.State), Anthropic.Tracks earlier s →
          Carries (Anthropic.processEvent event s) (Anthropic.signs earlier event) ∧
            ∀ s', (Anthropic.processEvent event s).result = .ok s' → Anthropic.Tracks (earlier ++ [event]) s' :=
        fun _ event _ hs => ⟨Anthropic.carries_processEvent event hs, fun _ h => hs.step h⟩
      have h := Sirius.signs_parseStream Anthropic.parser_processLine_eq hstep Anthropic.tracks_init body
      exact ⟨h.1, fun hlines => h.2 (clean_anthropic hlines)⟩
  | ollama =>
      have hstep : ∀ (earlier : List Json) (chunk : Json) (s : Ollama.State), True →
          Carries (Ollama.processChunk freshId chunk s) (Ollama.signs chunk) ∧
            ∀ s', (Ollama.processChunk freshId chunk s).result = .ok s' → True :=
        fun _ chunk s _ => ⟨Ollama.carries_processChunk chunk s, fun _ _ => trivial⟩
      have h := Sirius.signs_parseStream Ollama.parser_processLine_eq hstep trivial body
      exact ⟨h.1, fun hlines => h.2 (clean_ollama hlines)⟩

end Native

end Sirius
