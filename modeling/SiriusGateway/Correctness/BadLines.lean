import SiriusGateway.Correctness.UsageLines

/-!
# `Correctness.BadLines` — a bad upstream line among others

A line that is not JSON is skipped by all three stream parsers. What a line that is JSON does is decided by its
fields: a parser that reads a field of nothing throws, and the stream is lost. The lines a parser can read are
stated here without it, and with them when a line leaves no trace in a stream.

## Contents
- **Values.** What a step of a parser does, given the values before (`Describes`), and from it what a run does
  with one value more (`Describes.insert_iff`).
- **OpenAI, Ollama, Anthropic.** `ReadableChunk` and `ReadableEvent`.
- **Lines.** `Native.Readable` and `Native.Silent`; the result `bad_line_iff`.
-/

namespace Sirius

open Js Gen

/-! ## Values -/

section Values

variable {α σ : Type} {step : α → σ → Gen σ} {signs : List α → α → List Bool} {I : List α → σ → Prop}
  {Reads : α → Prop}

/-- What a step does, in a state that owes `I` to the values before: which values it reads to the end, what
    they carry, and that a value that carries nothing leaves the state as it was. -/
structure Describes (step : α → σ → Gen σ) (signs : List α → α → List Bool) (I : List α → σ → Prop)
    (Reads : α → Prop) : Prop where
  carries : ∀ earlier v s, I earlier s → Carries (step v s) (signs earlier v)
  next : ∀ earlier v s s', I earlier s → (step v s).result = .ok s' → I (earlier ++ [v]) s'
  reads : ∀ earlier v s, I earlier s → ((step v s).result.Succeeds ↔ Reads v)
  quiet : ∀ earlier v s s', I earlier s → (step v s).result = .ok s' → signs earlier v = [] → s' = s
  grows : ∀ earlier v later u, (signs (earlier ++ later) u).length ≤ (signs (earlier ++ v :: later) u).length

theorem allSigns_append (signs : List α → α → List Bool) (earlier l r : List α) :
    allSigns signs earlier (l ++ r) = allSigns signs earlier l ++ allSigns signs (earlier ++ l) r := by
  induction l generalizing earlier with
  | nil => rw [List.append_nil]; rfl
  | cons v rest ih =>
      have hcons : earlier ++ [v] ++ rest = earlier ++ v :: rest := by rw [List.append_assoc]; rfl
      show signs earlier v ++ allSigns signs (earlier ++ [v]) (rest ++ r) = _
      rw [ih, hcons, ← List.append_assoc]
      rfl

namespace Describes

variable (h : Describes step signs I Reads)
include h

/-- A run reads all values or throws. -/
theorem succeeds_processAll_iff {values earlier : List α} {s : σ} (hs : I earlier s) :
    (LineParser.processAll step values s).result.Succeeds ↔ ∀ v ∈ values, Reads v := by
  induction values generalizing earlier s with
  | nil => exact iff_of_true ⟨s, rfl⟩ fun v hv => absurd hv List.not_mem_nil
  | cons v rest ih =>
      show (step v s >>= LineParser.processAll step rest).result.Succeeds ↔ _
      rw [Gen.succeeds_bind_iff, List.forall_mem_cons, ← h.reads earlier v s hs]
      constructor
      · rintro ⟨s', hstep, hrest⟩
        exact ⟨⟨s', hstep⟩, (ih (h.next earlier v s s' hs hstep)).mp hrest⟩
      · rintro ⟨⟨s', hstep⟩, hrest⟩
        exact ⟨s', hstep, (ih (h.next earlier v s s' hs hstep)).mpr hrest⟩

/-- What a run leaves. -/
theorem next_all {values earlier : List α} {s s' : σ} (hs : I earlier s)
    (hrun : (LineParser.processAll step values s).result = .ok s') : I (earlier ++ values) s' := by
  induction values generalizing earlier s with
  | nil =>
      obtain rfl := Except.ok.inj hrun
      rwa [List.append_nil]
  | cons v rest ih =>
      obtain ⟨s₁, hstep, hrest⟩ := bind_eq_ok hrun
      have hall := ih (h.next earlier v s s₁ hs hstep) hrest
      rwa [List.append_assoc] at hall

theorem carries_all {values earlier : List α} {s : σ} (hs : I earlier s) :
    Carries (LineParser.processAll step values s) (allSigns signs earlier values) :=
  carries_processAll (fun earlier v s hs => ⟨h.carries earlier v s hs, fun s' => h.next earlier v s s' hs⟩) hs

/-- One value more before them takes nothing from what the values carry. -/
theorem length_allSigns_le (earlier : List α) (v : α) (later values : List α) :
    (allSigns signs (earlier ++ later) values).length ≤
      (allSigns signs (earlier ++ v :: later) values).length := by
  induction values generalizing later with
  | nil => exact Nat.le_refl 0
  | cons u rest ih =>
      have hrest := ih (later ++ [u])
      have hu := h.grows earlier v later u
      unfold allSigns
      rw [List.append_assoc, List.append_assoc, List.length_append, List.length_append]
      exact Nat.add_le_add hu hrest

/-- **One value more**: the run reads it to the end and yields what it yields without it, exactly when all values
    can be read and this one carries nothing. -/
theorem insert_iff {before after : List α} {v : α} {s : σ} (hs : I [] s) :
    ((LineParser.processAll step (before ++ v :: after) s).result.Succeeds ∧
        (LineParser.processAll step (before ++ v :: after) s).events =
          (LineParser.processAll step (before ++ after) s).events) ↔
      (∀ u ∈ before ++ v :: after, Reads u) ∧ signs before v = [] := by
  rw [h.succeeds_processAll_iff hs]
  apply and_congr_right
  intro hreads
  have hwithout : ∀ u ∈ before ++ after, Reads u := fun u hu =>
    hreads u ((List.mem_append.mp hu).elim (List.mem_append_left _)
      fun hafter => List.mem_append_right _ (List.mem_cons_of_mem v hafter))
  constructor
  · intro hevents
    -- the events of both runs are as many as what the values carry
    have hwith := (h.carries_all hs).whole ((h.succeeds_processAll_iff hs).mpr hreads)
    have hleft := (h.carries_all hs).whole ((h.succeeds_processAll_iff hs).mpr hwithout)
    rw [hevents, hleft, allSigns_append, allSigns_append, List.nil_append] at hwith
    have hlen := congrArg List.length (List.append_cancel_left hwith)
    have hgrows := h.length_allSigns_le before v [] after
    have hcons : allSigns signs before (v :: after) =
        signs before v ++ allSigns signs (before ++ [v]) after := rfl
    rw [List.append_nil] at hgrows
    rw [hcons, List.length_append] at hlen
    exact List.length_eq_zero_iff.mp (by omega)
  · intro hnothing
    obtain ⟨s₁, hbefore⟩ := (h.succeeds_processAll_iff hs).mpr fun u hu =>
      hreads u (List.mem_append_left _ hu)
    have hs₁ : I before s₁ := h.next_all hs hbefore
    have hv : Reads v := hreads v (List.mem_append_right _ List.mem_cons_self)
    obtain ⟨s₂, hstep⟩ := (h.reads before v s₁ hs₁).mpr hv
    obtain rfl := h.quiet before v s₁ s₂ hs₁ hstep hnothing
    have hsilent : (step v s₂).events = [] := by
      have hcarries := (h.carries before v s₂ hs₁).whole ⟨s₂, hstep⟩
      rwa [hnothing, List.map_eq_nil_iff] at hcarries
    have hpure : step v s₂ = pure s₂ := by
      show step v s₂ = ⟨[], .ok s₂⟩
      rw [← hsilent, ← hstep]
    rw [LineParser.processAll_append, LineParser.processAll_append, bind_of_ok hbefore, bind_of_ok hbefore]
    show _ ++ (step v s₂ >>= LineParser.processAll step after).events = _
    rw [hpure, pure_bind]

/-- **One line more**, in a body that does not break off. -/
theorem insert_line_iff {p : LineParser σ} {valueOf : String → Option α}
    (hline : ∀ line s, p.processLine line s = (valueOf line).elim (pure s) fun v => step v s)
    (hinit : I [] p.init) {body body' : HttpBody} {before after : List String} {line : String}
    (hbody : body.lines = before ++ line :: after) (hbody' : body'.lines = before ++ after)
    (hending : ∀ message, body.ending ≠ .reset message) :
    ((∀ message, (p.parseStream body).ending ≠ .threw message) ∧
        (p.parseStream body).events = (p.parseStream body').events) ↔
      (∀ l ∈ body.lines, ∀ v, valueOf l = some v → Reads v) ∧
        ∀ v, valueOf line = some v → signs (before.filterMap valueOf) v = [] := by
  have hreads : (∀ l ∈ body.lines, ∀ v, valueOf l = some v → Reads v) ↔
      ∀ v ∈ body.lines.filterMap valueOf, Reads v := by
    constructor
    · intro hall v hv
      obtain ⟨l, hl, hvalue⟩ := List.mem_filterMap.mp hv
      exact hall l hl v hvalue
    · intro hall l hl v hvalue
      exact hall v (List.mem_filterMap.mpr ⟨l, hl, hvalue⟩)
  rw [p.not_threw_iff hending, p.events_parseStream, p.events_parseStream, hreads,
    p.processLines_filterMap hline, p.processLines_filterMap hline, hbody, hbody', List.filterMap_append,
    List.filterMap_append]
  cases hvalue : valueOf line with
  | none =>
      -- the line carries no value: both runs are the same
      rw [List.filterMap_cons_none hvalue, h.succeeds_processAll_iff hinit, and_iff_left rfl, and_iff_left]
      exact fun v hv => nomatch hv
  | some v =>
      rw [List.filterMap_cons_some hvalue, h.insert_iff hinit]
      refine and_congr_right fun _ => ?_
      exact ⟨fun hnothing u hu => Option.some.inj hu ▸ hnothing, fun hall => hall v rfl⟩

end Describes

end Values

/-! ## Generators that return -/

namespace Gen

theorem succeeds_yield_bind_iff {β : Type} {e : UnifiedStreamEvent} {f : Unit → Gen β} :
    (yield e >>= f).result.Succeeds ↔ (f ()).result.Succeeds :=
  succeeds_bind_of_succeeds ⟨(), rfl⟩ fun _ _ => Iff.rfl

theorem succeeds_lift_bind_iff {α β : Type} {x : Throws α} {f : α → Gen β} :
    (lift x >>= f).result.Succeeds ↔ ∃ a, x = .ok a ∧ (f a).result.Succeeds :=
  Gen.succeeds_bind_iff

end Gen

/-- Whatever is falsy prints. -/
theorem printable_of_falsy {v : JsValue} (h : v.truthy = false) : Printable v := by
  cases v with
  | json j =>
      cases j with
      | arr items => cases h
      | obj fields => cases h
      | bool b => cases b <;> exact ⟨_, rfl⟩
      | _ => exact ⟨_, rfl⟩
  | _ => exact ⟨_, rfl⟩

/-- A property of nothing is nothing, and prints. -/
theorem printable_undefined : Printable .undefined := ⟨"undefined", rfl⟩

/-- A table is read with the text of the key. -/
theorem succeeds_readTable_iff {table : List (String × String)} {fallback : String} {raw : JsValue} :
    (if raw.truthy then readTable table fallback raw else .ok fallback).Succeeds ↔ Printable raw := by
  split
  · exact Except.succeeds_map_iff
  · rename_i hfalsy
    exact iff_of_true (Except.succeeds_ok _) (printable_of_falsy (Bool.eq_false_iff.mpr hfalsy))

/-- `ToPrimitive` takes what `ToString` takes. -/
theorem succeeds_toPrimitive_iff {v : JsValue} : v.toPrimitive.Succeeds ↔ Printable v := by
  cases v with
  | json j =>
      cases j with
      | arr items => exact Except.succeeds_map_iff
      | obj fields => exact Except.succeeds_map_iff
      | bool b => cases b <;> exact iff_of_true ⟨_, rfl⟩ ⟨_, rfl⟩
      | _ => exact iff_of_true ⟨_, rfl⟩ ⟨_, rfl⟩
  | _ => exact iff_of_true ⟨_, rfl⟩ ⟨_, rfl⟩

/-- A primitive value prints, and is a number or `NaN`. -/
theorem of_toPrimitive {v primitive : JsValue} (h : v.toPrimitive = .ok primitive) :
    primitive.toStr.Succeeds ∧ primitive.toNumber.Succeeds := by
  cases v with
  | json j =>
      cases j with
      | arr items =>
          obtain ⟨s, -, rfl⟩ := Except.map_eq_ok_iff.mp h
          exact ⟨⟨_, rfl⟩, ⟨_, rfl⟩⟩
      | obj fields =>
          obtain ⟨s, -, rfl⟩ := Except.map_eq_ok_iff.mp h
          exact ⟨⟨_, rfl⟩, ⟨_, rfl⟩⟩
      | bool b =>
          obtain rfl := Except.ok.inj h
          cases b <;> exact ⟨⟨_, rfl⟩, ⟨_, rfl⟩⟩
      | _ =>
          obtain rfl := Except.ok.inj h
          exact ⟨⟨_, rfl⟩, ⟨_, rfl⟩⟩
  | _ =>
      obtain rfl := Except.ok.inj h
      exact ⟨⟨_, rfl⟩, ⟨_, rfl⟩⟩

/-- Two values can be added when both print. -/
theorem succeeds_add_iff {a b : JsValue} : (a.add b).Succeeds ↔ Printable a ∧ Printable b := by
  rw [← succeeds_toPrimitive_iff, ← succeeds_toPrimitive_iff]
  unfold JsValue.add
  rw [Except.succeeds_bind_iff]
  constructor
  · rintro ⟨p, hp, h⟩
    obtain ⟨q, hq, -⟩ := Except.succeeds_bind_iff.mp h
    exact ⟨⟨p, hp⟩, ⟨q, hq⟩⟩
  · rintro ⟨⟨p, hp⟩, ⟨q, hq⟩⟩
    refine ⟨p, hp, Except.succeeds_bind_iff.mpr ⟨q, hq, ?_⟩⟩
    obtain ⟨hpStr, x, hx⟩ := of_toPrimitive hp
    obtain ⟨hqStr, y, hy⟩ := of_toPrimitive hq
    split
    · exact Except.succeeds_bind_pure_iff.mpr hqStr
    · exact Except.succeeds_bind_pure_iff.mpr hpStr
    · refine Except.succeeds_bind_iff.mpr ⟨x, hx, Except.succeeds_bind_iff.mpr ⟨y, hy, ?_⟩⟩
      split <;> exact Except.succeeds_pure _

/-- A count that is added prints, a missing one being `0`. -/
theorem printable_orZero {v : JsValue} : Printable (v.orElse (.json (.num 0))) ↔ Printable v := by
  unfold JsValue.orElse
  split
  · rename_i hnull
    exact iff_of_true ⟨_, rfl⟩ (printable_of_falsy (truthy_of_isNullish hnull))
  · exact Iff.rfl

/-! ## OpenAI -/

namespace OpenAi

/-- The chunk can be read to the end: a choice has a delta, its tool calls can be iterated over and none is
    `null`, and its finish reason prints. -/
structure ReadableChunk (chunk : Json) : Prop where
  object : chunk ≠ .null
  delta : (first (chunk.prop "choices")).truthy = true →
    (optProp (first (chunk.prop "choices")) "delta").isNullish = false
  toolCalls : (optProp (optProp (first (chunk.prop "choices")) "delta") "tool_calls").truthy = true →
    (∃ s, optProp (optProp (first (chunk.prop "choices")) "delta") "tool_calls" = .json (.str s)) ∨
      ∃ calls, Parts (optProp (optProp (first (chunk.prop "choices")) "delta") "tool_calls") calls
  finishReason : Printable (optProp (first (chunk.prop "choices")) "finish_reason")

theorem succeeds_yieldToolCalls_iff {calls : List Json} :
    (yieldToolCalls calls).result.Succeeds ↔ Json.null ∉ calls := by
  induction calls with
  | nil => exact iff_of_true ⟨(), rfl⟩ List.not_mem_nil
  | cons tc rest ih =>
      have htc : (yieldToolCall tc).result.Succeeds ↔ ¬Json.null = tc := by
        have hread : (getProp (.json tc) "index").Succeeds ↔ tc ≠ .null := succeeds_getProp_iff
        rw [eq_comm, ← ne_eq, ← hread]
        exact succeeds_lift_bind_iff.trans ⟨fun ⟨index, h, _⟩ => ⟨index, h⟩, fun ⟨index, h⟩ =>
          ⟨index, h, (), rfl⟩⟩
      show (yieldToolCall tc >>= fun _ => yieldToolCalls rest).result.Succeeds ↔ _
      rw [Gen.succeeds_bind_iff, List.mem_cons, not_or, ← ih, ← htc]
      exact ⟨fun ⟨u, h, hrest⟩ => ⟨⟨u, h⟩, hrest⟩, fun ⟨⟨u, h⟩, hrest⟩ => ⟨u, h, hrest⟩⟩

theorem succeeds_yieldToolCallDeltas_iff {v : JsValue} :
    (yieldToolCallDeltas v).result.Succeeds ↔
      (v.truthy = true → (∃ s, v = .json (.str s)) ∨ ∃ calls, Parts v calls) := by
  unfold yieldToolCallDeltas
  split
  · rename_i htruthy
    rw [succeeds_lift_bind_iff, imp_iff_right htruthy]
    by_cases hstring : ∃ s, v = .json (.str s)
    · obtain ⟨s, rfl⟩ := hstring
      refine iff_of_true ⟨_, rfl, succeeds_yieldToolCalls_iff.mpr fun hnull => ?_⟩ (Or.inl ⟨s, rfl⟩)
      obtain ⟨c, -, hc⟩ := List.mem_map.mp hnull
      cases hc
    · rw [or_iff_right hstring]
      refine exists_congr fun calls => ?_
      rw [iterate_eq_ok_iff fun s hs => hstring ⟨s, hs⟩, succeeds_yieldToolCalls_iff]
      exact Iff.rfl
  · rename_i hfalsy
    exact iff_of_true ⟨(), rfl⟩ fun htruthy => absurd htruthy hfalsy

theorem succeeds_yieldDone_iff {v : JsValue} : (yieldDone v).result.Succeeds ↔ Printable v := by
  unfold yieldDone
  split
  · rename_i htruthy
    rw [succeeds_lift_bind_iff]
    have hread : (mapFinishReason v).Succeeds ↔ Printable v := succeeds_readTable_iff
    rw [← hread]
    exact ⟨fun ⟨reason, h, _⟩ => ⟨reason, h⟩, fun ⟨reason, h⟩ => ⟨reason, h, (), rfl⟩⟩
  · rename_i hfalsy
    exact iff_of_true ⟨(), rfl⟩ (printable_of_falsy (Bool.eq_false_iff.mpr hfalsy))

theorem succeeds_yieldUsage (usageEvent : Option UnifiedStreamEvent) :
    (yieldUsage usageEvent).result.Succeeds := by
  cases usageEvent <;> exact ⟨(), rfl⟩

theorem succeeds_yieldContent (content : JsValue) : (yieldContent content).result.Succeeds := by
  unfold yieldContent
  split <;> exact ⟨(), rfl⟩

theorem succeeds_processChoice_iff {choice : JsValue} {usageEvent : Option UnifiedStreamEvent} :
    (processChoice choice usageEvent).result.Succeeds ↔
      (optProp choice "delta").isNullish = false ∧
        ((optProp (optProp choice "delta") "tool_calls").truthy = true →
          (∃ s, optProp (optProp choice "delta") "tool_calls" = .json (.str s)) ∨
            ∃ calls, Parts (optProp (optProp choice "delta") "tool_calls") calls) ∧
        Printable (optProp choice "finish_reason") := by
  have hdone : (yieldUsage usageEvent >>= fun _ => yieldDone (optProp choice "finish_reason")).result.Succeeds ↔
      Printable (optProp choice "finish_reason") :=
    succeeds_bind_of_succeeds (succeeds_yieldUsage usageEvent) fun _ _ => succeeds_yieldDone_iff
  rw [← getProp_ok_iff, ← succeeds_yieldToolCallDeltas_iff, ← hdone]
  unfold processChoice
  dsimp only
  rw [succeeds_lift_bind_iff]
  constructor
  · rintro ⟨content, hread, h⟩
    obtain ⟨-, -, h⟩ := Gen.succeeds_bind_iff.mp h
    obtain ⟨u, hcalls, h⟩ := Gen.succeeds_bind_iff.mp h
    exact ⟨⟨content, hread⟩, ⟨u, hcalls⟩, h⟩
  · rintro ⟨⟨content, hread⟩, ⟨u, hcalls⟩, h⟩
    obtain ⟨u', hcontent⟩ := succeeds_yieldContent content
    exact ⟨content, hread, Gen.succeeds_bind_iff.mpr ⟨u', hcontent,
      Gen.succeeds_bind_iff.mpr ⟨u, hcalls, h⟩⟩⟩

/-- **A chunk is read to the end** exactly when it is readable. -/
theorem succeeds_processChunk_iff {chunk : Json} : (processChunk chunk).result.Succeeds ↔ ReadableChunk chunk := by
  by_cases hnull : chunk = .null
  · subst hnull
    exact iff_of_false (fun ⟨_, h⟩ => nomatch h) fun h => h.object rfl
  · have husage : (lift (toUsageEvent chunk)).result.Succeeds := by
      have hread := getProp_json "usage" hnull
      refine Except.succeeds_bind_iff.mpr ⟨_, hread, ?_⟩
      split <;> exact Except.succeeds_pure _
    refine succeeds_bind_of_succeeds husage fun usageEvent _ => ?_
    dsimp only
    split
    · rename_i hchoice
      rw [succeeds_processChoice_iff]
      constructor
      · rintro ⟨hdelta, hcalls, hfinish⟩
        exact ⟨hnull, fun _ => hdelta, hcalls, hfinish⟩
      · rintro ⟨-, hdelta, hcalls, hfinish⟩
        exact ⟨hdelta hchoice, hcalls, hfinish⟩
    · rename_i hchoice
      have hfalsy := Bool.eq_false_iff.mpr hchoice
      refine iff_of_true (succeeds_yieldUsage usageEvent) ⟨hnull, fun h => absurd h hchoice, ?_, ?_⟩
      · rw [optProp_of_falsy hfalsy (by decide)]
        exact fun h => nomatch h
      · rw [optProp_of_falsy hfalsy (by decide)]
        exact printable_undefined

theorem describes : Describes (fun chunk (_ : Unit) => processChunk chunk) (fun _ => signs) (fun _ _ => True)
    ReadableChunk where
  carries _ chunk _ _ := carries_processChunk chunk
  next _ _ _ _ _ _ := trivial
  reads _ _ _ _ := succeeds_processChunk_iff
  quiet _ _ _ _ _ _ _ := rfl
  grows _ _ _ _ := Nat.le_refl _

end OpenAi

/-! ## Ollama -/

namespace Ollama

variable {freshId : Nat → String}

/-- The chunk can be read to the end: each tool call in it has a function, and the counts of a last chunk
    print, which is what adding them takes. -/
structure ReadableChunk (chunk : Json) : Prop where
  object : chunk ≠ .null
  toolCalls : (optProp (chunk.prop "message") "tool_calls").truthy = true →
    ∃ items, indexed (optProp (chunk.prop "message") "tool_calls") = .ok items ∧
      ∀ item ∈ items, (optProp item "function").isNullish = false
  counts : (chunk.prop "done").truthy = true →
    Printable (chunk.prop "prompt_eval_count") ∧ Printable (chunk.prop "eval_count")

theorem succeeds_yieldToolCalls_iff {items : List JsValue} :
    ∀ (i : Nat) (s : State), (yieldToolCalls freshId i items s).result.Succeeds ↔
      ∀ item ∈ items, (optProp item "function").isNullish = false := by
  induction items with
  | nil => exact fun i s => iff_of_true ⟨s, rfl⟩ fun item h => absurd h List.not_mem_nil
  | cons tc rest ih =>
      intro i s
      unfold yieldToolCalls
      rw [succeeds_lift_bind_iff, List.forall_mem_cons]
      constructor
      · rintro ⟨function, hread, h⟩
        obtain ⟨name, hname, h⟩ := succeeds_lift_bind_iff.mp h
        rw [optProp_of_getProp hread]
        exact ⟨getProp_ok_iff.mp ⟨name, hname⟩, (ih (i + 1) _).mp (succeeds_yield_bind_iff.mp h)⟩
      · rintro ⟨hfunction, hrest⟩
        have htc : tc.isNullish = false := by
          cases htc : tc.isNullish with
          | false => rfl
          | true =>
              rw [optProp_of_falsy (truthy_of_isNullish htc) (by decide)] at hfunction
              cases hfunction
        refine ⟨_, getProp_eq "function" htc, succeeds_lift_bind_iff.mpr ⟨_, getProp_eq "name" hfunction, ?_⟩⟩
        exact succeeds_yield_bind_iff.mpr ((ih (i + 1) _).mpr hrest)

theorem succeeds_yieldToolCallDeltas_iff {v : JsValue} {s : State} :
    (yieldToolCallDeltas freshId v s).result.Succeeds ↔
      (v.truthy = true → ∃ items, indexed v = .ok items ∧
        ∀ item ∈ items, (optProp item "function").isNullish = false) := by
  unfold yieldToolCallDeltas
  split
  · rename_i htruthy
    rw [succeeds_lift_bind_iff, imp_iff_right htruthy]
    exact exists_congr fun items => and_congr_right fun _ => succeeds_yieldToolCalls_iff 0 s
  · rename_i hfalsy
    exact iff_of_true ⟨s, rfl⟩ fun htruthy => absurd htruthy hfalsy

theorem succeeds_yieldDone_iff {hasToolCalls : Bool} {chunk : Json} :
    (yieldDone hasToolCalls chunk).result.Succeeds ↔
      ((chunk.prop "done").truthy = true →
        Printable (chunk.prop "prompt_eval_count") ∧ Printable (chunk.prop "eval_count")) := by
  have hundefined : ∀ {v : JsValue}, ¬v.isDefined = true → Printable v := by
    intro v hv
    cases v with
    | undefined => exact printable_undefined
    | _ => exact absurd rfl hv
  have husage : (yieldUsage chunk).result.Succeeds ↔
      Printable (chunk.prop "prompt_eval_count") ∧ Printable (chunk.prop "eval_count") := by
    unfold yieldUsage
    split
    · dsimp only
      rw [succeeds_lift_bind_iff, ← printable_orZero, ← printable_orZero (v := chunk.prop "eval_count"),
        ← succeeds_add_iff]
      exact ⟨fun ⟨total, h, _⟩ => ⟨total, h⟩, fun ⟨total, h⟩ => ⟨total, h, (), rfl⟩⟩
    · rename_i hcounts
      rw [Bool.or_eq_true, not_or] at hcounts
      exact iff_of_true ⟨(), rfl⟩ ⟨hundefined hcounts.1, hundefined hcounts.2⟩
  unfold yieldDone
  split
  · rename_i hdone
    rw [imp_iff_right hdone, ← husage, Gen.succeeds_bind_iff]
    exact ⟨fun ⟨u, h, _⟩ => ⟨u, h⟩, fun ⟨u, h⟩ => ⟨u, h, (), rfl⟩⟩
  · rename_i hdone
    exact iff_of_true ⟨(), rfl⟩ fun h => absurd h hdone

/-- **A chunk is read to the end** exactly when it is readable. -/
theorem succeeds_processChunk_iff {chunk : Json} {s : State} :
    (processChunk freshId chunk s).result.Succeeds ↔ ReadableChunk chunk := by
  by_cases hnull : chunk = .null
  · subst hnull
    exact iff_of_false (fun ⟨_, h⟩ => nomatch h) fun h => h.object rfl
  · have hread := getProp_json "message" hnull
    have hcontent : ∀ content, (yieldContent content).result.Succeeds := by
      intro content
      unfold yieldContent
      split <;> exact ⟨(), rfl⟩
    have hcalls : (yieldToolCallDeltas freshId (optProp (chunk.prop "message") "tool_calls") s).result.Succeeds ↔ _ :=
      succeeds_yieldToolCallDeltas_iff
    unfold processChunk
    rw [succeeds_lift_bind_iff, hread]
    constructor
    · rintro ⟨message, heq, h⟩
      obtain rfl := Except.ok.inj heq
      obtain ⟨-, -, h⟩ := Gen.succeeds_bind_iff.mp h
      obtain ⟨s', hdeltas, h⟩ := Gen.succeeds_bind_iff.mp h
      obtain ⟨u, hdone, -⟩ := Gen.succeeds_bind_iff.mp h
      exact ⟨hnull, hcalls.mp ⟨s', hdeltas⟩, succeeds_yieldDone_iff.mp ⟨u, hdone⟩⟩
    · rintro ⟨-, htools, hcounts⟩
      obtain ⟨u, hu⟩ := hcontent (optProp (chunk.prop "message") "content")
      obtain ⟨s', hdeltas⟩ := hcalls.mpr htools
      refine ⟨_, rfl, Gen.succeeds_bind_iff.mpr ⟨u, hu, Gen.succeeds_bind_iff.mpr ⟨s', hdeltas, ?_⟩⟩⟩
      obtain ⟨u', hdone⟩ := succeeds_yieldDone_iff.mpr hcounts
      exact Gen.succeeds_bind_iff.mpr ⟨u', hdone, s', rfl⟩

/-- A chunk that carries nothing has no tool calls to remember. -/
theorem quiet_processChunk {chunk : Json} {s s' : State} (h : (processChunk freshId chunk s).result = .ok s')
    (hnothing : signs chunk = []) : s' = s := by
  obtain ⟨message, hread, h⟩ := bind_eq_ok h
  obtain ⟨-, -, h⟩ := bind_eq_ok h
  obtain ⟨s₁, hdeltas, h⟩ := bind_eq_ok h
  obtain ⟨-, -, h⟩ := bind_eq_ok h
  obtain rfl := Except.ok.inj h
  have hmessage : chunk.prop "message" = message := optProp_of_getProp hread
  unfold signs at hnothing
  dsimp only at hnothing
  rw [hmessage, List.append_eq_nil_iff, List.append_eq_nil_iff] at hnothing
  have hcalls := hnothing.1.2
  unfold yieldToolCallDeltas at hdeltas
  split at hdeltas
  · rename_i htruthy
    obtain ⟨items, hitems, hdeltas⟩ := bind_eq_ok hdeltas
    have hitems : indexed (optProp message "tool_calls") = .ok items := hitems
    rw [if_pos htruthy, hitems] at hcalls
    obtain rfl := List.map_eq_nil_iff.mp hcalls
    exact (Except.ok.inj hdeltas).symm
  · exact (Except.ok.inj hdeltas).symm

theorem describes : Describes (processChunk freshId) (fun _ => signs) (fun _ _ => True) ReadableChunk where
  carries _ chunk s _ := carries_processChunk chunk s
  next _ _ _ _ _ _ := trivial
  reads _ _ _ _ := succeeds_processChunk_iff
  quiet _ _ _ _ _ h hnothing := quiet_processChunk h hnothing
  grows _ _ _ _ := Nat.le_refl _

end Ollama

/-! ## Anthropic -/

namespace Anthropic

/-- The event can be read to the end: a block and a delta are there where their kind is read, the counts of a
    usage print, which is what adding them takes, and so does a stop reason. -/
structure ReadableEvent (event : Json) : Prop where
  object : event ≠ .null
  startUsage : HasType event "message_start" →
    Printable (optProp (optProp (event.prop "message") "usage") "input_tokens") ∧
      Printable (optProp (optProp (event.prop "message") "usage") "output_tokens")
  block : HasType event "content_block_start" → (event.prop "content_block").isNullish = false
  delta : HasType event "content_block_delta" → (event.prop "delta").isNullish = false
  deltaUsage : HasType event "message_delta" →
    Printable (optProp (event.prop "usage") "input_tokens") ∧
      Printable (optProp (event.prop "usage") "output_tokens")
  stopReason : HasType event "message_delta" → Printable (optProp (event.prop "delta") "stop_reason")

/-- The counts of no usage are nothing. -/
theorem printable_counts {usage : JsValue} (h : ¬usage.truthy = true) :
    Printable (optProp usage "input_tokens") ∧ Printable (optProp usage "output_tokens") := by
  have hfalsy := Bool.eq_false_iff.mpr h
  rw [optProp_of_falsy hfalsy (by decide), optProp_of_falsy hfalsy (by decide)]
  exact ⟨printable_undefined, printable_undefined⟩

theorem succeeds_messageStart_iff {event : Json} {s : State} :
    (messageStart event s).result.Succeeds ↔
      Printable (optProp (optProp (event.prop "message") "usage") "input_tokens") ∧
        Printable (optProp (optProp (event.prop "message") "usage") "output_tokens") := by
  unfold messageStart
  dsimp only
  split
  · rw [succeeds_lift_bind_iff]
    constructor
    · rintro ⟨total, hadd, -⟩
      obtain ⟨hinput, houtput⟩ := succeeds_add_iff.mp ⟨total, hadd⟩
      exact ⟨printable_orZero.mp hinput, printable_orZero.mp houtput⟩
    · rintro ⟨hinput, houtput⟩
      obtain ⟨total, hadd⟩ := succeeds_add_iff.mpr ⟨printable_orZero.mpr hinput, printable_orZero.mpr houtput⟩
      exact ⟨total, hadd, _, rfl⟩
  · rename_i husage
    exact iff_of_true ⟨s, rfl⟩ (printable_counts husage)

theorem succeeds_contentBlockStart_iff {event : Json} {s : State} :
    (contentBlockStart event s).result.Succeeds ↔ (event.prop "content_block").isNullish = false := by
  unfold contentBlockStart
  dsimp only
  rw [succeeds_lift_bind_iff, ← getProp_ok_iff]
  refine exists_congr fun type => and_iff_left ?_
  split <;> exact ⟨_, rfl⟩

theorem succeeds_contentBlockDelta_iff {event : Json} {s : State} :
    (contentBlockDelta event s).result.Succeeds ↔ (event.prop "delta").isNullish = false := by
  unfold contentBlockDelta
  dsimp only
  rw [succeeds_lift_bind_iff, ← getProp_ok_iff]
  refine exists_congr fun type => and_iff_left ?_
  split
  · exact ⟨_, rfl⟩
  · split
    · split <;> exact ⟨_, rfl⟩
    · exact ⟨_, rfl⟩

/-- A usage without an input count takes the one in the state, which prints. -/
theorem succeeds_deltaUsage_iff {usage : JsValue} {s : State} (hs : Printable s.inputTokens) :
    (deltaUsage usage s).result.Succeeds ↔
      Printable (optProp usage "input_tokens") ∧ Printable (optProp usage "output_tokens") := by
  have hinput : Printable ((optProp usage "input_tokens").orElse s.inputTokens) ↔
      Printable (optProp usage "input_tokens") := by
    unfold JsValue.orElse
    split
    · rename_i hnull
      exact iff_of_true hs (printable_of_falsy (truthy_of_isNullish hnull))
    · exact Iff.rfl
  unfold deltaUsage
  split
  · dsimp only
    rw [succeeds_lift_bind_iff, ← hinput, ← printable_orZero, ← succeeds_add_iff]
    exact ⟨fun ⟨total, h, _⟩ => ⟨total, h⟩, fun ⟨total, h⟩ => ⟨total, h, (), rfl⟩⟩
  · rename_i husage
    exact iff_of_true ⟨(), rfl⟩ (printable_counts husage)

theorem succeeds_yieldDone_iff {v : JsValue} : (yieldDone v).result.Succeeds ↔ Printable v := by
  unfold yieldDone
  split
  · have hread : (mapStopReason v).Succeeds ↔ Printable v := succeeds_readTable_iff
    rw [succeeds_lift_bind_iff, ← hread]
    exact ⟨fun ⟨reason, h, _⟩ => ⟨reason, h⟩, fun ⟨reason, h⟩ => ⟨reason, h, (), rfl⟩⟩
  · rename_i hfalsy
    exact iff_of_true ⟨(), rfl⟩ (printable_of_falsy (Bool.eq_false_iff.mpr hfalsy))

theorem succeeds_messageDelta_iff {event : Json} {s : State} (hs : Printable s.inputTokens) :
    (messageDelta event s).result.Succeeds ↔
      (Printable (optProp (event.prop "usage") "input_tokens") ∧
        Printable (optProp (event.prop "usage") "output_tokens")) ∧
        Printable (optProp (event.prop "delta") "stop_reason") := by
  rw [← succeeds_deltaUsage_iff hs, ← succeeds_yieldDone_iff]
  unfold messageDelta
  rw [Gen.succeeds_bind_iff]
  constructor
  · rintro ⟨u, husage, h⟩
    obtain ⟨u', hdone, -⟩ := Gen.succeeds_bind_iff.mp h
    exact ⟨⟨u, husage⟩, ⟨u', hdone⟩⟩
  · rintro ⟨⟨u, husage⟩, ⟨u', hdone⟩⟩
    exact ⟨u, husage, Gen.succeeds_bind_iff.mpr ⟨u', hdone, s, rfl⟩⟩

/-- **An event is read to the end** exactly when it is readable, case by case of its kind. -/
theorem succeeds_processEvent_iff {event : Json} {s : State} (hs : Printable s.inputTokens) :
    (processEvent event s).result.Succeeds ↔ ReadableEvent event := by
  by_cases hnull : event = .null
  · subst hnull
    exact iff_of_false (fun ⟨_, h⟩ => nomatch h) fun h => h.object rfl
  rcases processEvent_kind hnull s with ⟨htype, heq⟩ | ⟨htype, heq⟩ | ⟨htype, heq⟩ | ⟨htype, heq⟩ | ⟨hnone, heq⟩
  all_goals rw [heq]
  · rw [succeeds_messageStart_iff]
    refine ⟨fun h => ⟨hnull, fun _ => h, ?_, ?_, ?_, ?_⟩, fun h => h.startUsage htype⟩
    all_goals exact fun hother => absurd hother (htype.ne (by decide))
  · rw [succeeds_contentBlockStart_iff]
    refine ⟨fun h => ⟨hnull, ?_, fun _ => h, ?_, ?_, ?_⟩, fun h => h.block htype⟩
    all_goals exact fun hother => absurd hother (htype.ne (by decide))
  · rw [succeeds_contentBlockDelta_iff]
    refine ⟨fun h => ⟨hnull, ?_, ?_, fun _ => h, ?_, ?_⟩, fun h => h.delta htype⟩
    all_goals exact fun hother => absurd hother (htype.ne (by decide))
  · rw [succeeds_messageDelta_iff hs]
    refine ⟨fun h => ⟨hnull, ?_, ?_, ?_, fun _ => h.1, fun _ => h.2⟩,
      fun h => ⟨h.deltaUsage htype, h.stopReason htype⟩⟩
    all_goals exact fun hother => absurd hother (htype.ne (by decide))
  · refine iff_of_true ⟨s, rfl⟩ ⟨hnull, ?_, ?_, ?_, ?_, ?_⟩
    all_goals exact fun htype => absurd htype (hnone _ (by decide))

theorem opened_grows {earlier later : List Json} {v : Json} {index : JsValue}
    (h : opened (earlier ++ later) index = true) : opened (earlier ++ v :: later) index = true := by
  unfold opened at h ⊢
  rw [Bool.and_eq_true, List.any_append, Bool.or_eq_true] at h
  rw [Bool.and_eq_true, List.any_append, Bool.or_eq_true, List.any_cons, Bool.or_eq_true]
  exact ⟨h.1, h.2.imp_right Or.inr⟩

/-- A fragment of a tool call that was started once carries something ever after. -/
theorem length_signs_le (earlier : List Json) (v : Json) (later : List Json) (event : Json) :
    (signs (earlier ++ later) event).length ≤ (signs (earlier ++ v :: later) event).length := by
  unfold signs
  dsimp only
  split
  · exact Nat.le_refl _
  · split
    · exact Nat.le_refl _
    · split
      · split
        · exact Nat.le_refl _
        · split
          · rename_i hfragment
            rw [Bool.and_eq_true] at hfragment
            rw [if_pos (Bool.and_eq_true _ _ ▸ ⟨hfragment.1, opened_grows hfragment.2⟩)]
          · exact Nat.zero_le _
      · exact Nat.le_refl _

/-- An event that carries nothing leaves the state as it was. -/
theorem quiet_processEvent {earlier : List Json} {event : Json} {s s' : State}
    (h : (processEvent event s).result = .ok s') (hnothing : signs earlier event = []) : s' = s := by
  unfold signs at hnothing
  dsimp only at hnothing
  rcases processEvent_cases h with ⟨-, hs'⟩ | ⟨hstarts, -⟩ | ⟨-, htype, husage, -⟩
  · exact hs'
  · have hblock : (event.prop "type").isStr "content_block_start" = true := by
      unfold startsTool at hstarts
      exact (Bool.and_eq_true _ _ ▸ hstarts : _ ∧ _).1
    have hstart : ¬(event.prop "type").isStr "message_start" = true := by
      rw [isStr_iff, isStr_iff.mp hblock]
      decide
    rw [if_neg hstart, if_pos hblock, if_pos hstarts] at hnothing
    cases hnothing
  · rw [if_pos (isStr_iff.mpr htype), if_pos husage] at hnothing
    cases hnothing

theorem describes : Describes processEvent signs (fun earlier s => Tracks earlier s ∧ Printable s.inputTokens)
    ReadableEvent where
  carries _ event _ hs := carries_processEvent event hs.1
  next earlier event s s' hs h := by
    refine ⟨hs.1.step h, ?_⟩
    rcases processEvent_cases h with ⟨-, rfl⟩ | ⟨-, rfl⟩ | ⟨-, htype, -, rfl⟩
    · exact hs.2
    · exact hs.2
    · exact (((succeeds_processEvent_iff hs.2).mp ⟨_, h⟩).startUsage htype).1
  reads _ _ _ hs := succeeds_processEvent_iff hs.2
  quiet _ _ _ _ _ h hnothing := quiet_processEvent h hnothing
  grows := length_signs_le

end Anthropic

/-! ## Lines -/

namespace Native

/-- The value a line carries, if it is JSON: a chunk or an event. -/
def payload : Native → String → Option Json
  | .openai => OpenAi.chunkOf
  | .anthropic => Anthropic.eventOf
  | .ollama => Ollama.chunkOf

/-- The value can be read to the end. -/
def Reads : Native → Json → Prop
  | .openai => OpenAi.ReadableChunk
  | .anthropic => Anthropic.ReadableEvent
  | .ollama => Ollama.ReadableChunk

/-- The events the fields of a value call for, each with the sign whether it is one of usage. -/
def calledFor : Native → List Json → Json → List Bool
  | .openai => fun _ => OpenAi.signs
  | .anthropic => Anthropic.signs
  | .ollama => fun _ => Ollama.signs

/-- The line is not JSON, or can be read to the end. -/
def Readable (n : Native) (line : String) : Prop := ∀ v, n.payload line = some v → n.Reads v

/-- The line is not JSON, or has no field that calls for an event. -/
def Silent (n : Native) (before : List String) (line : String) : Prop :=
  ∀ v, n.payload line = some v → n.calledFor (before.filterMap n.payload) v = []

/-- A scalar or an array has none of the fields a parser reads. -/
theorem prop_of_not_object {v : Json} {key : String} (h : ∀ fields, v ≠ .obj fields) (hkey : key ≠ "length") :
    v.prop key = .undefined := by
  cases v with
  | obj fields => exact absurd rfl (h fields)
  | arr items => exact if_neg hkey
  | str s => exact if_neg hkey
  | _ => rfl

/-- **Scalars and arrays spoil nothing**: they are read, and call for no event. -/
theorem reads_of_not_object (n : Native) {v : Json} (h : ∀ fields, v ≠ .obj fields) (hnull : v ≠ .null)
    (earlier : List Json) : n.Reads v ∧ n.calledFor earlier v = [] := by
  have hprop : ∀ {key : String}, key ≠ "length" → v.prop key = .undefined := fun hkey => prop_of_not_object h hkey
  have htype : ∀ {type : String}, ¬HasType v type := fun htype => by
    rw [HasType, hprop (by decide)] at htype
    cases htype
  cases n with
  | openai =>
      constructor
      · refine ⟨hnull, ?_, ?_, ?_⟩ <;> rw [hprop (by decide)]
        · exact fun h => absurd h Bool.false_ne_true
        · exact fun h => absurd h Bool.false_ne_true
        · exact printable_undefined
      · show OpenAi.signs v = []
        unfold OpenAi.signs
        rw [hprop (by decide), hprop (by decide)]
        rfl
  | anthropic =>
      constructor
      · exact ⟨hnull, fun ht => absurd ht htype, fun ht => absurd ht htype, fun ht => absurd ht htype,
          fun ht => absurd ht htype, fun ht => absurd ht htype⟩
      · show Anthropic.signs earlier v = []
        have hkind : v.prop "type" = .undefined := hprop (by decide)
        unfold Anthropic.signs
        rw [hkind]
        rfl
  | ollama =>
      constructor
      · refine ⟨hnull, ?_, ?_⟩
        · rw [hprop (by decide)]
          exact fun h => absurd h Bool.false_ne_true
        · rw [hprop (by decide)]
          exact fun h => absurd h Bool.false_ne_true
      · show Ollama.signs v = []
        unfold Ollama.signs
        rw [hprop (by decide), hprop (by decide)]
        rfl

/-- **A line spoils only itself** exactly when all lines can be read and this one has no field that calls for an
    event: then the parser does not throw, and the events are those of the stream without the line. -/
theorem bad_line_iff (n : Native) (freshId : Nat → String) {body body' : HttpBody} {before after : List String}
    {line : String} (hbody : body.lines = before ++ line :: after) (hbody' : body'.lines = before ++ after)
    (hending : ∀ message, body.ending ≠ .reset message) :
    ((∀ message, (n.parseStream freshId body).ending ≠ .threw message) ∧
        (n.parseStream freshId body).events = (n.parseStream freshId body').events) ↔
      (∀ l ∈ body.lines, n.Readable l) ∧ n.Silent before line := by
  cases n with
  | openai =>
      exact OpenAi.describes.insert_line_iff OpenAi.parser_processLine_eq trivial hbody hbody' hending
  | anthropic =>
      have hinit : Anthropic.Tracks [] Anthropic.parser.init ∧ Printable Anthropic.parser.init.inputTokens :=
        ⟨Anthropic.tracks_init, printable_undefined⟩
      exact Anthropic.describes.insert_line_iff Anthropic.parser_processLine_eq hinit hbody hbody' hending
  | ollama =>
      exact (@Ollama.describes freshId).insert_line_iff Ollama.parser_processLine_eq trivial hbody hbody' hending

/-- The line of a chunk with a text. -/
def saidLine : String := "data: \x7b\"choices\":[\x7b\"delta\":\x7b\"content\":\"Hi\"\x7d\x7d]\x7d"

/-- The chunk. -/
def saidChunk : Json := .obj [("choices", .arr [.obj [("delta", .obj [("content", .str "Hi")])]])]

/-- A number between a text and the end of the stream: it is read, and calls for no event. -/
theorem bad_line_iff_number :
    (∀ message, (openai.parseStream (fun _ => "")
        ⟨[saidLine ++ "\n", "data: 5\n", "data: [DONE]\n"], .closed⟩).ending ≠ .threw message) ∧
      (openai.parseStream (fun _ => "") ⟨[saidLine ++ "\n", "data: 5\n", "data: [DONE]\n"], .closed⟩).events =
        (openai.parseStream (fun _ => "") ⟨[saidLine ++ "\n", "data: [DONE]\n"], .closed⟩).events := by
  have htext : openai.payload saidLine = some saidChunk := by decide +kernel
  have hnumber : openai.payload "data: 5" = some (.num 5) := by decide +kernel
  have hdone : openai.payload "data: [DONE]" = none := by decide +kernel
  have hlines : HttpBody.lines ⟨[saidLine ++ "\n", "data: 5\n", "data: [DONE]\n"], .closed⟩ =
      [saidLine] ++ "data: 5" :: ["data: [DONE]"] := by decide +kernel
  have hwithout : HttpBody.lines ⟨[saidLine ++ "\n", "data: [DONE]\n"], .closed⟩ =
      [saidLine] ++ ["data: [DONE]"] := by decide +kernel
  have hnone : openai.Reads (.num 5) ∧ openai.calledFor ([saidLine].filterMap openai.payload) (.num 5) = [] :=
    reads_of_not_object openai (v := .num 5) (fun _ h => nomatch h) (fun h => nomatch h) _
  refine (bad_line_iff openai (fun _ => "") hlines hwithout fun _ h => nomatch h).mpr ⟨?_, ?_⟩
  · rw [hlines]
    refine List.forall_mem_cons.mpr ⟨?_, List.forall_mem_cons.mpr ⟨?_, List.forall_mem_singleton.mpr ?_⟩⟩
    · intro v hv
      obtain rfl := Option.some.inj (htext.symm.trans hv)
      exact OpenAi.succeeds_processChunk_iff.mp ⟨(), rfl⟩
    · intro v hv
      exact Option.some.inj (hnumber.symm.trans hv) ▸ hnone.1
    · intro v hv
      cases hdone.symm.trans hv
  · intro v hv
    exact Option.some.inj (hnumber.symm.trans hv) ▸ hnone.2

/-- A line that is JSON `null`, among no others: the parser throws. -/
theorem null_line_throws :
    HttpBody.lines ⟨["data: null\n"], .closed⟩ = ["data: null"] ∧ ¬openai.WellFormed "data: null" ∧
      (openai.parseStream (fun _ => "") ⟨["data: null\n"], .closed⟩).ending =
        .threw "Cannot read properties of null (reading 'usage')" := by
  refine ⟨by decide +kernel, fun h => ?_, by decide +kernel⟩
  have hpayload : OpenAi.chunkOf "data: null" = some .null := by decide +kernel
  exact (h .null hpayload).object rfl

end Native

end Sirius
