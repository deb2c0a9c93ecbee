import SiriusGateway.Correctness.Accumulated
import SiriusGateway.Correctness.SseRoundTrip
import SiriusGateway.Correctness.ToolCalls

/-!
# `Correctness.OllamaStream` — tool calls spread over Ollama chunks

The parser numbers the tool calls of every chunk from 0 and files their ids by that number, for the whole
stream. A client merges deltas by number, so calls of two chunks run into each other: the stream delivers the
answer `fromOllamaResponse` makes of the whole message exactly when at most one chunk has tool calls
(`ollama_stream_delivers_iff`).

## Contents
- **Chunks.** `OllamaChunk`, `OllamaStream`.
- **One chunk.** What it yields (`processChunk_shows`), and what that adds to the answer.
- **The run.** `Delivered`, its step (`delivered_chunk`) and its end.
- **The answer.** `DeliversEveryCall`.
-/

namespace Sirius

open Js Compat

/-! ## Chunks -/

/-- The text and the tool calls of a chunk. -/
structure OllamaChunk where
  text : String
  calls : List OllamaCall

namespace OllamaChunk

/-- The value is this chunk. A chunk without text or calls need not have a message. -/
structure Shows (c : OllamaChunk) (chunk : Json) : Prop where
  object : chunk ≠ .null
  content : optProp (chunk.prop "message") "content" = .json (.str c.text) ∨
    (c.text = "" ∧ (optProp (chunk.prop "message") "content").isNullish = true)
  toolCalls : ShowsCalls c.calls (optProp (chunk.prop "message") "tool_calls")

/-- All text of the chunks. -/
def textOf (chunks : List OllamaChunk) : String := "".intercalate (chunks.map text)

/-- All tool calls of the chunks. -/
def callsOf (chunks : List OllamaChunk) : List OllamaCall := chunks.flatMap calls

/-- The chunk has tool calls. -/
def hasCalls (c : OllamaChunk) : Bool := !c.calls.isEmpty

theorem textOf_concat (chunks : List OllamaChunk) (c : OllamaChunk) :
    textOf (chunks ++ [c]) = textOf chunks ++ c.text := by
  unfold textOf
  induction chunks with
  | nil => simp
  | cons d rest ih =>
      rw [List.cons_append, List.map_cons, List.map_cons, intercalate_cons, intercalate_cons, ih,
        String.append_assoc]

theorem callsOf_concat (chunks : List OllamaChunk) (c : OllamaChunk) :
    callsOf (chunks ++ [c]) = callsOf chunks ++ c.calls := by
  unfold callsOf
  rw [List.flatMap_append, List.flatMap_singleton]

end OllamaChunk

/-- The lines are a stream of these chunks: all but the last are not `done`, the last is, and says why. Blank
    lines and lines that do not parse may stand anywhere. -/
def OllamaStream (chunks : List OllamaChunk) (doneReason : JsValue) (lines : List String) : Prop :=
  ∃ before last values final,
    chunks = before ++ [last] ∧ lines.filterMap Ollama.chunkOf = values ++ [final] ∧
      List.Forall₂ (fun c chunk => OllamaChunk.Shows c chunk ∧ (chunk.prop "done").truthy = false) before values ∧
      last.Shows final ∧ (final.prop "done").truthy = true ∧ final.prop "done_reason" = doneReason ∧
      OptNumber (final.prop "prompt_eval_count") ∧ OptNumber (final.prop "eval_count")

/-! ## One chunk -/

/-- The delta of a tool call, number `e.2` of its chunk, under the id `id`. -/
def callDelta (id : String) (e : OllamaCall × Nat) : UnifiedStreamEvent :=
  .toolCallDelta (.json (.num e.2)) (.json (.str id)) (.json (.str e.1.name))
    (.json (.str (stringify (.obj e.1.arguments))))

/-- The text deltas of a chunk. -/
def textDeltas (text : String) : List UnifiedStreamEvent :=
  if text = "" then [] else [.contentDelta (.json (.str text))]

section Chunk

variable {freshId : Nat → String}

/-- What the calls of a chunk, numbered from `i` on, leave behind when they come out with `ids`: ids not filed
    under these numbers are drawn. -/
structure CallsDrawn (freshId : Nat → String) (calls : List OllamaCall) (i : Nat) (s s' : Ollama.State)
    (ids : Nat → String) : Prop where
  seen : s'.seenToolCalls = (s.seenToolCalls || !calls.isEmpty)
  kept : calls = [] → s' = s
  fresh : (∀ j, i ≤ j → s.toolCallIds.get j = none) →
    ∀ j, i ≤ j → j < i + calls.length → ids j = freshId (s.drawn + (j - i))

theorem callsDrawn_nil (i : Nat) (s : Ollama.State) (ids : Nat → String) : CallsDrawn freshId [] i s s ids where
  seen := (Bool.or_false _).symm
  kept _ := rfl
  fresh := by
    intro _ j hj hlt
    rw [List.length_nil] at hlt
    omega

/-- An id that is not filed is drawn, and filed. -/
theorem idAt_of_none {i : Nat} {s : Ollama.State} (h : s.toolCallIds.get i = none) :
    Ollama.idAt freshId i s = (freshId s.drawn,
      { s with toolCallIds := s.toolCallIds.set i (freshId s.drawn), drawn := s.drawn + 1 }) := by
  unfold Ollama.idAt
  rw [h]

/-- One call before them. -/
theorem CallsDrawn.cons {call : OllamaCall} {calls : List OllamaCall} {i : Nat} {s s' : Ollama.State}
    {ids : Nat → String}
    (h : CallsDrawn freshId calls (i + 1) { (Ollama.idAt freshId i s).2 with seenToolCalls := true } s' ids) :
    CallsDrawn freshId (call :: calls) i s s' (Function.update ids i (Ollama.idAt freshId i s).1) where
  seen := by
    rw [h.seen]
    simp
  kept := by
    intro hnil
    cases hnil
  fresh := by
    intro hnone j hj hlt
    have hdrawn := @idAt_of_none freshId i s (hnone i (Nat.le_refl i))
    by_cases hji : j = i
    · rw [hji, Function.update_self, hdrawn, Nat.sub_self]
      rfl
    · have hfresh := h.fresh
      rw [hdrawn] at hfresh
      have hnone' : ∀ k, i + 1 ≤ k → (s.toolCallIds.set i (freshId s.drawn)).get k = none := by
        intro k hk
        rw [JsMap.get_set_ne _ _ (by omega)]
        exact hnone k (by omega)
      have hid := hfresh hnone' j (by omega) (by rw [List.length_cons] at hlt; omega)
      rw [Function.update_of_ne hji, hid]
      show freshId (s.drawn + 1 + (j - (i + 1))) = _
      congr 1
      omega

/-- The deltas behind a call do not have its number. -/
theorem callDeltas_update (calls : List OllamaCall) (i : Nat) (ids : Nat → String) (id : String) :
    ((calls.zipIdx (i + 1)).map fun e => callDelta (Function.update ids i id e.2) e) =
      (calls.zipIdx (i + 1)).map fun e => callDelta (ids e.2) e := by
  apply List.map_congr_left
  intro e he
  have hle : i + 1 ≤ e.2 := List.le_snd_of_mem_zipIdx he
  rw [Function.update_of_ne (by omega)]

/-- **The tool calls of a chunk**, from number `i` on. -/
theorem yieldToolCalls_shows {calls : List OllamaCall} {items : List Json}
    (h : List.Forall₂ OllamaCall.Shows calls items) (i : Nat) (s : Ollama.State) :
    ∃ (ids : Nat → String) (s' : Ollama.State),
      Ollama.yieldToolCalls freshId i (items.map .json) s =
        ⟨(calls.zipIdx i).map fun e => callDelta (ids e.2) e, .ok s'⟩ ∧
      CallsDrawn freshId calls i s s' ids := by
  induction h generalizing i s with
  | nil => exact ⟨fun _ => "", s, rfl, callsDrawn_nil i s _⟩
  | @cons call tc calls items hcall _ ih =>
      obtain ⟨function, hfunction, hname, harguments⟩ := hcall
      have hnull : tc ≠ .null := by
        rintro rfl
        cases hfunction
      have hnull' : function ≠ .null := by
        rintro rfl
        cases hname
      obtain ⟨ids, s', hrest, hdrawn⟩ := ih (i + 1) { (Ollama.idAt freshId i s).2 with seenToolCalls := true }
      refine ⟨Function.update ids i (Ollama.idAt freshId i s).1, s', ?_, hdrawn.cons⟩
      rw [List.zipIdx_cons, List.map_cons, List.map_cons, callDeltas_update]
      show (Gen.lift (getProp (.json tc) "function") >>= fun function => _) = _
      rw [getProp_json "function" hnull, hfunction, Gen.lift_ok, pure_bind, getProp_json "name" hnull', hname,
        Gen.lift_ok, pure_bind]
      show (Gen.yield (.toolCallDelta _ _ _ (stringifyValue (function.prop "arguments"))) >>= fun _ => _) = _
      rw [harguments, Gen.bind_of_ok rfl, hrest, Function.update_self]
      rfl

/-- The tool calls of a chunk that may have none. -/
theorem yieldToolCallDeltas_shows {calls : List OllamaCall} {toolCalls : JsValue} (h : ShowsCalls calls toolCalls)
    (s : Ollama.State) :
    ∃ (ids : Nat → String) (s' : Ollama.State),
      Ollama.yieldToolCallDeltas freshId toolCalls s =
        ⟨calls.zipIdx.map fun e => callDelta (ids e.2) e, .ok s'⟩ ∧ CallsDrawn freshId calls 0 s s' ids := by
  unfold Ollama.yieldToolCallDeltas
  rcases h with ⟨rfl, hnull⟩ | ⟨items, rfl, hshows⟩
  · refine ⟨freshId, s, ?_, callsDrawn_nil 0 s _⟩
    rw [truthy_of_isNullish hnull]
    rfl
  · exact yieldToolCalls_shows hshows 0 s

/-- The text of a chunk that may have none. -/
theorem yieldContent_shows {text : String} {content : JsValue}
    (h : content = .json (.str text) ∨ (text = "" ∧ content.isNullish = true)) :
    Ollama.yieldContent content = ⟨textDeltas text, .ok ()⟩ := by
  unfold Ollama.yieldContent textDeltas
  rcases h with rfl | ⟨rfl, hnull⟩
  · by_cases hempty : text = ""
    · rw [if_pos hempty, if_neg (by simp [Json.truthy, hempty])]
      rfl
    · rw [if_neg hempty, if_pos (by simpa [Json.truthy] using hempty)]
      rfl
  · rw [truthy_of_isNullish hnull]
    rfl

/-- **A chunk**: its text, its tool calls, and what a final one ends with. -/
theorem processChunk_shows {c : OllamaChunk} {chunk : Json} (h : c.Shows chunk) (s : Ollama.State)
    {ends : List UnifiedStreamEvent}
    (hends : Ollama.yieldDone (s.seenToolCalls || c.hasCalls) chunk = ⟨ends, .ok ()⟩) :
    ∃ (ids : Nat → String) (s' : Ollama.State),
      Ollama.processChunk freshId chunk s =
        ⟨textDeltas c.text ++ ((c.calls.zipIdx.map fun e => callDelta (ids e.2) e) ++ ends), .ok s'⟩ ∧
      CallsDrawn freshId c.calls 0 s s' ids := by
  have htext := yieldContent_shows h.content
  obtain ⟨ids, s', hrun, hdrawn⟩ := @yieldToolCallDeltas_shows freshId _ _ h.toolCalls s
  refine ⟨ids, s', ?_, hdrawn⟩
  have hlength : Ollama.hasLength (optProp (chunk.prop "message") "tool_calls") = c.hasCalls :=
    (toolCalls_shows h.toolCalls freshId).2
  unfold Ollama.processChunk
  rw [getProp_json "message" h.object, Gen.lift_ok, pure_bind]
  show (Ollama.yieldContent (optProp (chunk.prop "message") "content") >>= fun _ =>
    Ollama.yieldToolCallDeltas freshId (optProp (chunk.prop "message") "tool_calls") s >>= fun s' =>
      Ollama.yieldDone (s.seenToolCalls || Ollama.hasLength (optProp (chunk.prop "message") "tool_calls")) chunk >>=
        fun _ => pure s') = _
  rw [htext, Gen.bind_of_ok rfl, hrun, Gen.bind_of_ok rfl, hlength, hends, Gen.bind_of_ok rfl]
  simp

end Chunk

/-! ## The run -/

/-- The merged calls of a chunk that is the only one with calls. -/
def mergedCalls (freshId : Nat → String) (calls : List OllamaCall) : List MergedCall :=
  calls.zipIdx.map fun e =>
    ⟨.json (.num e.2), [.json (.str (freshId e.2))], [.json (.str e.1.name)], stringify (.obj e.1.arguments)⟩

/-- What the run over these chunks has delivered. -/
structure Delivered (freshId : Nat → String) (chunks : List OllamaChunk) (s : Ollama.State) (answer : Answer) :
    Prop where
  text : answer.text = OllamaChunk.textOf chunks
  seen : s.seenToolCalls = chunks.any (·.hasCalls)
  none : chunks.countP (·.hasCalls) = 0 → answer.calls = [] ∧ s.toolCallIds = JsMap.empty ∧ s.drawn = 0
  once : chunks.countP (·.hasCalls) ≤ 1 → answer.calls = mergedCalls freshId (OllamaChunk.callsOf chunks)
  distinct : (answer.calls.map (·.index)).Nodup
  numbered : ∀ call ∈ answer.calls, ∃ c ∈ chunks, ∃ i < c.calls.length, call.index = .json (.num (i : Nat))

/-- Text deltas leave the calls alone. -/
theorem foldl_textDeltas (text : String) (answer : Answer) :
    (textDeltas text).foldl Answer.add answer = { answer with text := answer.text ++ text } := by
  unfold textDeltas
  split
  · rename_i hempty
    rw [hempty]
    show answer = { answer with text := answer.text ++ "" }
    rw [String.append_empty]
  · rfl

/-- The calls after the deltas of these calls. -/
def mergeCalls (ids : Nat → String) (calls : List MergedCall) (es : List (OllamaCall × Nat)) : List MergedCall :=
  es.foldl (fun calls e => mergeDelta calls (.json (.num e.2)) (.json (.str (ids e.2)))
    (.json (.str e.1.name)) (.json (.str (stringify (.obj e.1.arguments))))) calls

/-- Call deltas merge into the calls. -/
theorem foldl_callDeltas (ids : Nat → String) (es : List (OllamaCall × Nat)) (answer : Answer) :
    (es.map fun e => callDelta (ids e.2) e).foldl Answer.add answer =
      { answer with calls := mergeCalls ids answer.calls es } := by
  induction es generalizing answer with
  | nil => rfl
  | cons e rest ih =>
      rw [List.map_cons, List.foldl_cons, ih]
      rfl

/-- Calls numbered from `k` on open one merged call each. -/
theorem mergeCalls_new (ids : Nat → String) (calls : List OllamaCall) {k : Nat} {merged : List MergedCall}
    (h : Below k merged) :
    mergeCalls ids merged (calls.zipIdx k) = merged ++ (calls.zipIdx k).map fun e =>
      ⟨.json (.num e.2), [.json (.str (ids e.2))], [.json (.str e.1.name)],
        stringify (.obj e.1.arguments)⟩ := by
  induction calls generalizing k merged with
  | nil => exact (List.append_nil merged).symm
  | cons call rest ih =>
      rw [List.zipIdx_cons, List.map_cons]
      show mergeCalls ids (mergeDelta merged _ _ _ _) (rest.zipIdx (k + 1)) = _
      rw [mergeDelta_new h.not_mem, ih, List.append_assoc]
      · rfl
      · intro c hc
        rcases List.mem_append.mp hc with hc | hc
        · obtain ⟨i, hi, hindex⟩ := h c hc
          exact ⟨i, Nat.lt_succ_of_lt hi, hindex⟩
        · obtain rfl := List.mem_singleton.mp hc
          exact ⟨k, Nat.lt_succ_self k, rfl⟩

/-- Merging keeps the indices distinct, and adds none but those of the deltas. -/
theorem mergeCalls_indices (ids : Nat → String) (es : List (OllamaCall × Nat)) {merged : List MergedCall}
    (h : (merged.map (·.index)).Nodup) :
    ((mergeCalls ids merged es).map (·.index)).Nodup ∧
      ∀ index ∈ (mergeCalls ids merged es).map (·.index),
        index ∈ merged.map (·.index) ∨ ∃ e ∈ es, index = .json (.num e.2) := by
  induction es generalizing merged with
  | nil => exact ⟨h, fun index hindex => Or.inl hindex⟩
  | cons e rest ih =>
      obtain ⟨hnodup, hmem⟩ := ih (nodup_mergeDelta h (.json (.num e.2)) (.json (.str (ids e.2)))
        (.json (.str e.1.name)) (.json (.str (stringify (.obj e.1.arguments)))))
      refine ⟨hnodup, ?_⟩
      intro index hindex
      rcases hmem index hindex with hold | ⟨e', he', heq⟩
      · rw [indices_mergeDelta] at hold
        split at hold
        · exact Or.inl hold
        · rcases List.mem_append.mp hold with hold | hnew
          · exact Or.inl hold
          · exact Or.inr ⟨e, List.mem_cons_self, List.mem_singleton.mp hnew⟩
      · exact Or.inr ⟨e', List.mem_cons_of_mem e he', heq⟩

theorem delivered_nil (freshId : Nat → String) :
    Delivered freshId [] (Ollama.parser freshId).init Answer.empty where
  text := rfl
  seen := rfl
  none _ := ⟨rfl, rfl, rfl⟩
  once _ := rfl
  distinct := List.nodup_nil
  numbered _ hcall := absurd hcall List.not_mem_nil

theorem OllamaChunk.calls_eq_nil_of_toNat {c : OllamaChunk} (h : c.hasCalls.toNat = 0) : c.calls = [] := by
  unfold hasCalls at h
  cases hcalls : c.calls with
  | nil => rfl
  | cons call rest =>
      rw [hcalls] at h
      cases h

theorem OllamaChunk.callsOf_eq_nil {chunks : List OllamaChunk} (h : chunks.countP (·.hasCalls) = 0) :
    callsOf chunks = [] := by
  apply List.flatMap_eq_nil_iff.mpr
  intro c hc
  have hnot := List.countP_eq_zero.mp h c hc
  unfold hasCalls at hnot
  simpa using hnot

/-- The calls of the first chunk that has any open merged calls of their own. -/
theorem mergeCalls_first {freshId ids : Nat → String} {calls : List OllamaCall} {s s' : Ollama.State}
    (hdrawn : CallsDrawn freshId calls 0 s s' ids) (hids : s.toolCallIds = JsMap.empty) (hzero : s.drawn = 0) :
    mergeCalls ids [] calls.zipIdx = mergedCalls freshId calls := by
  have hbelow : Below 0 ([] : List MergedCall) := fun call hcall => absurd hcall List.not_mem_nil
  rw [mergeCalls_new ids calls hbelow, List.nil_append]
  unfold mergedCalls
  apply List.map_congr_left
  intro e he
  have hlt := List.snd_lt_of_mem_zipIdx he
  have hid := hdrawn.fresh (fun j _ => by rw [hids]; rfl) e.2 (Nat.zero_le _) (by omega)
  rw [hid, hzero, Nat.zero_add, Nat.sub_zero]

/-- **One more chunk.** While no chunk before has calls, those of the chunk open merged calls of their own; the
    calls of a second such chunk do not. -/
theorem delivered_chunk {freshId : Nat → String} {chunks : List OllamaChunk} {s : Ollama.State}
    {answer : Answer} (h : Delivered freshId chunks s answer) {c : OllamaChunk} {chunk : Json}
    (hshows : c.Shows chunk) {ends : List UnifiedStreamEvent}
    (hends : Ollama.yieldDone (s.seenToolCalls || c.hasCalls) chunk = ⟨ends, .ok ()⟩) :
    ∃ events s' answer', Ollama.processChunk freshId chunk s = ⟨events ++ ends, .ok s'⟩ ∧
      events.foldl Answer.add answer = answer' ∧ Delivered freshId (chunks ++ [c]) s' answer' ∧
      answer'.finishReason = answer.finishReason := by
  obtain ⟨ids, s', hrun, hdrawn⟩ := @processChunk_shows freshId c chunk hshows s ends hends
  obtain ⟨hdistinct, hindices⟩ := mergeCalls_indices ids c.calls.zipIdx h.distinct
  have hcount : (chunks ++ [c]).countP (·.hasCalls) = chunks.countP (·.hasCalls) + c.hasCalls.toNat := by
    rw [List.countP_append, List.countP_singleton]
    cases c.hasCalls <;> rfl
  refine ⟨textDeltas c.text ++ c.calls.zipIdx.map fun e => callDelta (ids e.2) e, s',
    { answer with text := answer.text ++ c.text, calls := mergeCalls ids answer.calls c.calls.zipIdx },
    ?_, ?_, ?_, rfl⟩
  · rw [hrun, List.append_assoc]
  · rw [List.foldl_append, foldl_textDeltas, foldl_callDeltas]
  · constructor
    · rw [OllamaChunk.textOf_concat, ← h.text]
    · rw [hdrawn.seen, h.seen, List.any_append]
      simp [OllamaChunk.hasCalls]
    · intro hnone
      obtain ⟨hcalls, hids, hzero⟩ := h.none (by omega)
      have hempty := OllamaChunk.calls_eq_nil_of_toNat (c := c) (by omega)
      rw [hdrawn.kept hempty]
      refine ⟨?_, hids, hzero⟩
      show mergeCalls ids answer.calls c.calls.zipIdx = []
      rw [hempty]
      exact hcalls
    · intro honce
      show mergeCalls ids answer.calls c.calls.zipIdx = _
      rw [OllamaChunk.callsOf_concat]
      by_cases hnone : chunks.countP (·.hasCalls) = 0
      · obtain ⟨hcalls, hids, hzero⟩ := h.none hnone
        rw [hcalls, mergeCalls_first hdrawn hids hzero, OllamaChunk.callsOf_eq_nil hnone, List.nil_append]
      · have hempty := OllamaChunk.calls_eq_nil_of_toNat (c := c) (by omega)
        rw [hempty, List.append_nil]
        exact h.once (by omega)
    · exact hdistinct
    · intro call hcall
      rcases hindices call.index (List.mem_map_of_mem hcall) with hold | ⟨e, he, hindex⟩
      · obtain ⟨old, hmem, heq⟩ := List.mem_map.mp hold
        obtain ⟨d, hd, i, hi, hindex⟩ := h.numbered old hmem
        exact ⟨d, List.mem_append_left [c] hd, i, hi, heq ▸ hindex⟩
      · have hlt : e.2 < c.calls.length := by
          have := List.snd_lt_of_mem_zipIdx he
          omega
        exact ⟨c, List.mem_append_right chunks (List.mem_singleton_self c), e.2, hlt, hindex⟩

/-- **The run over chunks that are not `done`.** -/
theorem delivered_chunks {freshId : Nat → String} {before : List OllamaChunk} {values : List Json}
    (hshows : List.Forall₂ (fun c chunk => OllamaChunk.Shows c chunk ∧ (chunk.prop "done").truthy = false)
      before values) {chunks : List OllamaChunk} {s : Ollama.State} {answer : Answer}
    (h : Delivered freshId chunks s answer) :
    ∃ events s' answer', LineParser.processAll (Ollama.processChunk freshId) values s = ⟨events, .ok s'⟩ ∧
      events.foldl Answer.add answer = answer' ∧ Delivered freshId (chunks ++ before) s' answer' := by
  induction hshows generalizing chunks s answer with
  | nil => exact ⟨[], s, answer, rfl, rfl, by rwa [List.append_nil]⟩
  | @cons c chunk before values hc _ ih =>
      obtain ⟨hshow, hdone⟩ := hc
      have hends : Ollama.yieldDone (s.seenToolCalls || c.hasCalls) chunk = ⟨[], .ok ()⟩ := by
        unfold Ollama.yieldDone
        rw [hdone]
        rfl
      obtain ⟨events, s₁, answer₁, hrun, hfold, hdelivered, -⟩ := delivered_chunk h hshow hends
      obtain ⟨more, s', answer', hmore, hfold', hall⟩ := ih hdelivered
      refine ⟨events ++ more, s', answer', ?_, ?_, ?_⟩
      · show Ollama.processChunk freshId chunk s >>= _ = _
        rw [hrun, List.append_nil, Gen.bind_of_ok rfl, hmore]
      · rw [List.foldl_append, hfold, hfold']
      · rwa [List.append_assoc] at hall

theorem Delivered.congr {freshId : Nat → String} {chunks : List OllamaChunk} {s : Ollama.State}
    {answer answer' : Answer} (h : Delivered freshId chunks s answer) (htext : answer'.text = answer.text)
    (hcalls : answer'.calls = answer.calls) : Delivered freshId chunks s answer' where
  text := htext.trans h.text
  seen := h.seen
  none hnone := hcalls ▸ h.none hnone
  once honce := hcalls ▸ h.once honce
  distinct := hcalls ▸ h.distinct
  numbered := hcalls ▸ h.numbered

/-- What the final chunk ends with: the usage, if it has counts, and `done`. -/
theorem yieldDone_final {final : Json} (hdone : (final.prop "done").truthy = true)
    (hinput : OptNumber (final.prop "prompt_eval_count")) (houtput : OptNumber (final.prop "eval_count"))
    (hasToolCalls : Bool) :
    ∃ ends, Ollama.yieldDone hasToolCalls final = ⟨ends, .ok ()⟩ ∧
      ∀ answer, ∃ usage, ends.foldl Answer.add answer = { answer with
        usage := usage
        finishReason := some (Ollama.mapOllamaFinishReason hasToolCalls (final.prop "done_reason")) } := by
  have hzero : OptNumber (.json (.num 0)) := Or.inr ⟨0, rfl⟩
  obtain ⟨total, htotal⟩ := (hinput.orElse hzero).succeeds_add (houtput.orElse hzero)
  have husage : ∃ usage : Option UsageMetrics, Ollama.yieldUsage final =
      ⟨usage.toList.map UnifiedStreamEvent.usage, .ok ()⟩ := by
    unfold Ollama.yieldUsage
    split
    · refine ⟨some ⟨(final.prop "prompt_eval_count").orElse (.json (.num 0)),
        (final.prop "eval_count").orElse (.json (.num 0)), total⟩, ?_⟩
      dsimp only
      rw [htotal]
      rfl
    · exact ⟨none, rfl⟩
  obtain ⟨usage, husage⟩ := husage
  refine ⟨usage.toList.map UnifiedStreamEvent.usage ++
    [.done (Ollama.mapOllamaFinishReason hasToolCalls (final.prop "done_reason"))], ?_, ?_⟩
  · unfold Ollama.yieldDone
    rw [if_pos hdone, husage]
    rfl
  · intro answer
    cases usage with
    | none => exact ⟨answer.usage, rfl⟩
    | some u => exact ⟨some u, rfl⟩

/-- A run over lines is a run over their chunks. -/
theorem processLines_chunks (freshId : Nat → String) (lines : List String) (s : Ollama.State) :
    (Ollama.parser freshId).processLines lines s =
      LineParser.processAll (Ollama.processChunk freshId) (lines.filterMap Ollama.chunkOf) s := by
  apply LineParser.processLines_filterMap
  exact Ollama.parser_processLine_eq

/-- **The run over a whole stream.** -/
theorem processLines_ollama (freshId : Nat → String) {chunks : List OllamaChunk} {doneReason : JsValue}
    {lines : List String} (h : OllamaStream chunks doneReason lines) :
    ∃ events s', (Ollama.parser freshId).processLines lines (Ollama.parser freshId).init = ⟨events, .ok s'⟩ ∧
      Delivered freshId chunks s' (accumulate events) ∧
      (accumulate events).finishReason =
        some (Ollama.mapOllamaFinishReason (chunks.any (·.hasCalls)) doneReason) := by
  obtain ⟨before, last, values, final, rfl, hvalues, hbefore, hlast, hdone, hreason, hinput, houtput⟩ := h
  obtain ⟨events, s, answer, hrun, hfold, hdelivered⟩ := delivered_chunks hbefore (delivered_nil freshId)
  rw [List.nil_append] at hdelivered
  obtain ⟨ends, hends, hadds⟩ := yieldDone_final hdone hinput houtput (s.seenToolCalls || last.hasCalls)
  obtain ⟨more, s', answer', hmore, hfold', hall, -⟩ := delivered_chunk hdelivered hlast hends
  have hlines : (Ollama.parser freshId).processLines lines (Ollama.parser freshId).init =
      ⟨events ++ (more ++ ends), .ok s'⟩ := by
    rw [processLines_chunks, hvalues, LineParser.processAll_append, hrun, Gen.bind_of_ok rfl]
    show (⟨events ++ (Ollama.processChunk freshId final s >>= pure).events,
      (Ollama.processChunk freshId final s >>= pure).result⟩ : Gen Ollama.State) = _
    rw [bind_pure, hmore]
  obtain ⟨usage, hadd⟩ := hadds answer'
  have hanswer : accumulate (events ++ (more ++ ends)) = { answer' with
      usage := usage
      finishReason := some (Ollama.mapOllamaFinishReason (s.seenToolCalls || last.hasCalls)
        (final.prop "done_reason")) } := by
    unfold accumulate
    rw [List.foldl_append, hfold, List.foldl_append, hfold', hadd]
  have hseen : (s.seenToolCalls || last.hasCalls) = (before ++ [last]).any (·.hasCalls) := by
    rw [hdelivered.seen, List.any_append]
    simp
  refine ⟨events ++ (more ++ ends), s', hlines, ?_, ?_⟩
  · rw [hanswer]
    exact hall.congr rfl rfl
  · rw [hanswer, ← hseen, hreason]

/-! ## The answer -/

/-- The merged call is this tool call of a response, under an id of its own. -/
def SameOllamaCall (merged : MergedCall) (call : UnifiedToolCall) : Prop :=
  (∃ id, merged.ids = [id]) ∧ merged.names = [call.function.name] ∧
    JsValue.json (.str merged.arguments) = call.function.arguments

/-- The stream added up to the response: its text, its finish reason, and each of its tool calls once, in
    order. -/
structure DeliversEveryCall (answer : Answer) (response : UnifiedAiResponse) : Prop where
  text : answer.text = turnText response.content
  calls : List.Forall₂ SameOllamaCall answer.calls (turnCalls response.content)
  ids : (answer.calls.map (·.ids)).Nodup
  finishReason : answer.finishReason = some response.finishReason

theorem length_le_callsOf {chunks : List OllamaChunk} {c : OllamaChunk} (hc : c ∈ chunks) :
    c.calls.length ≤ (OllamaChunk.callsOf chunks).length := by
  obtain ⟨l, r, rfl⟩ := List.append_of_mem hc
  unfold OllamaChunk.callsOf
  rw [List.flatMap_append, List.flatMap_cons, List.length_append, List.length_append]
  omega

theorem length_pos_of_hasCalls {c : OllamaChunk} (h : c.hasCalls = true) : 0 < c.calls.length := by
  unfold OllamaChunk.hasCalls at h
  apply List.length_pos_iff.mpr
  intro hnil
  rw [hnil] at h
  cases h

theorem any_hasCalls (chunks : List OllamaChunk) :
    chunks.any (·.hasCalls) = !(OllamaChunk.callsOf chunks).isEmpty := by
  induction chunks with
  | nil => rfl
  | cons c rest ih =>
      rw [List.any_cons, ih]
      unfold OllamaChunk.hasCalls OllamaChunk.callsOf
      rw [List.flatMap_cons]
      cases c.calls with
      | nil => rfl
      | cons call more => rfl

/-- Where two chunks have calls, none has as many as all together. -/
theorem length_lt_of_two {chunks : List OllamaChunk} (h : 1 < chunks.countP (·.hasCalls)) {c : OllamaChunk}
    (hc : c ∈ chunks) : c.calls.length < (OllamaChunk.callsOf chunks).length := by
  obtain ⟨l, r, rfl⟩ := List.append_of_mem hc
  have hother : 0 < (l ++ r).countP (·.hasCalls) := by
    rw [List.countP_append, List.countP_cons] at h
    rw [List.countP_append]
    split at h <;> omega
  obtain ⟨d, hd, hcalls⟩ := List.countP_pos_iff.mp hother
  have hpos := length_pos_of_hasCalls hcalls
  have hle := length_le_callsOf hd
  unfold OllamaChunk.callsOf at hle ⊢
  rw [List.flatMap_append, List.length_append] at hle
  rw [List.flatMap_append, List.flatMap_cons, List.length_append, List.length_append]
  omega

/-- Calls with distinct indices below `n` are at most `n`. -/
theorem length_le_of_numbered {calls : List MergedCall} {n : Nat} (hdistinct : (calls.map (·.index)).Nodup)
    (hnumbered : ∀ call ∈ calls, ∃ i < n, call.index = .json (.num (i : Nat))) : calls.length ≤ n := by
  have hsubset : calls.map (·.index) ⊆ (List.range n).map fun i => JsValue.json (.num (i : Nat)) := by
    intro index hindex
    obtain ⟨call, hcall, rfl⟩ := List.mem_map.mp hindex
    obtain ⟨i, hi, heq⟩ := hnumbered call hcall
    exact List.mem_map.mpr ⟨i, List.mem_range.mpr hi, heq.symm⟩
  have hle := (List.subperm_of_subset hdistinct hsubset).length_le
  rwa [List.length_map, List.length_map, List.length_range] at hle

/-- What the chunks delivered is the response exactly when at most one of them has calls. -/
theorem deliversEveryCall_iff {freshId : Nat → String} (hfresh : Function.Injective freshId)
    {chunks : List OllamaChunk} {s : Ollama.State} {answer : Answer} (h : Delivered freshId chunks s answer)
    {response : UnifiedAiResponse} {freshId' : Nat → String}
    (hcontent : response.content =
      ollamaContent freshId' (OllamaChunk.textOf chunks) (OllamaChunk.callsOf chunks))
    (hfinish : answer.finishReason = some response.finishReason) :
    DeliversEveryCall answer response ↔ chunks.countP (·.hasCalls) ≤ 1 := by
  have hturn : turnCalls response.content = (OllamaChunk.callsOf chunks).zipIdx.map fun e =>
      ⟨.json (.str (freshId' e.2)), ⟨.json (.str e.1.name),
        .json (.str (stringify (.obj e.1.arguments)))⟩⟩ := by
    rw [hcontent]
    exact turnCalls_ollama freshId' _ _
  constructor
  · -- the numbers of one chunk are too few for the calls of two
    intro hsame
    by_contra htwo
    have hlt : ∀ c ∈ chunks, c.calls.length < (OllamaChunk.callsOf chunks).length :=
      fun c hc => length_lt_of_two (Nat.lt_of_not_le htwo) hc
    have hlength := hsame.calls.length_eq
    rw [hturn, List.length_map, List.length_zipIdx] at hlength
    have hpos : 0 < (OllamaChunk.callsOf chunks).length := by
      cases chunks with
      | nil => exact absurd htwo (by simp)
      | cons c rest => exact Nat.lt_of_le_of_lt (Nat.zero_le _) (hlt c List.mem_cons_self)
    -- each chunk numbers its calls from 0, and none has all of them
    have hnumbered : ∀ call ∈ answer.calls, ∃ i < (OllamaChunk.callsOf chunks).length - 1,
        call.index = .json (.num (i : Nat)) := by
      intro call hcall
      obtain ⟨c, hc, i, hi, hindex⟩ := h.numbered call hcall
      have hbound := hlt c hc
      exact ⟨i, by omega, hindex⟩
    have hle := length_le_of_numbered h.distinct hnumbered
    omega
  · intro honce
    have hcalls := h.once honce
    constructor
    · rw [h.text, hcontent]
      exact (turnText_ollama freshId' _ _).symm
    · rw [hcalls, hturn]
      unfold mergedCalls
      rw [List.forall₂_map_left_iff, List.forall₂_map_right_iff, List.forall₂_same]
      intro e _
      exact ⟨⟨_, rfl⟩, rfl, rfl⟩
    · have hids : answer.calls.map (·.ids) =
          ((OllamaChunk.callsOf chunks).zipIdx.map Prod.snd).map fun i => [JsValue.json (.str (freshId i))] := by
        rw [hcalls]
        unfold mergedCalls
        rw [List.map_map, List.map_map]
        rfl
      rw [hids, List.zipIdx_map_snd]
      apply List.Nodup.map _ List.nodup_range'
      intro i j hij
      exact hfresh (by simpa using hij)
    · exact hfinish

/-- Both sides of the comparison: what the stream delivers, and the response. -/
theorem ollama_delivered_response (freshId : Nat → String) {chunks : List OllamaChunk} {doneReason : JsValue}
    {body : HttpBody} (hclosed : body.ending = .closed) (hstream : OllamaStream chunks doneReason body.lines)
    {raw : Json} (hmessage : OllamaMessage (OllamaChunk.textOf chunks) (OllamaChunk.callsOf chunks) raw)
    (hreason : raw.prop "done_reason" = doneReason) (freshId' : Nat → String) (now : Nat) (provider : String)
    (latencyMs : Rat) :
    ∃ events s response, (Ollama.parser freshId).parseStream body = ⟨events, .finished⟩ ∧
      Ollama.fromOllamaResponse freshId' now raw provider latencyMs = .ok response ∧
      Delivered freshId chunks s (accumulate events) ∧
      response.content = ollamaContent freshId' (OllamaChunk.textOf chunks) (OllamaChunk.callsOf chunks) ∧
      (accumulate events).finishReason = some response.finishReason := by
  obtain ⟨response, hresponse, hcontent, hfinish⟩ :=
    fromOllamaResponse_message hmessage freshId' now provider latencyMs
  obtain ⟨events, s', hrun, hdelivered, hdone⟩ := processLines_ollama freshId hstream
  refine ⟨events, s', response, ?_, hresponse, hdelivered, hcontent, ?_⟩
  · rw [LineParser.parseStream_eq, hrun, hclosed]
  · rw [hdone, hfinish, any_hasCalls, hreason]

/-- **Tool calls over several chunks.** For a stream of Ollama chunks and the message that holds all their
    content and tool calls, the stream delivers what the message is mapped to exactly when at most one chunk
    has tool calls. -/
theorem ollama_stream_delivers_iff {freshId : Nat → String} (hfresh : Function.Injective freshId)
    {chunks : List OllamaChunk} {doneReason : JsValue} {body : HttpBody} (hclosed : body.ending = .closed)
    (hstream : OllamaStream chunks doneReason body.lines) {raw : Json}
    (hmessage : OllamaMessage (OllamaChunk.textOf chunks) (OllamaChunk.callsOf chunks) raw)
    (hreason : raw.prop "done_reason" = doneReason) (freshId' : Nat → String) (now : Nat) (provider : String)
    (latencyMs : Rat) :
    ∃ events response, (Ollama.parser freshId).parseStream body = ⟨events, .finished⟩ ∧
      Ollama.fromOllamaResponse freshId' now raw provider latencyMs = .ok response ∧
      (DeliversEveryCall (accumulate events) response ↔ chunks.countP (·.hasCalls) ≤ 1) := by
  obtain ⟨events, s, response, hparse, hresponse, hdelivered, hcontent, hfinish⟩ :=
    ollama_delivered_response freshId hclosed hstream hmessage hreason freshId' now provider latencyMs
  exact ⟨events, response, hparse, hresponse, deliversEveryCall_iff hfresh hdelivered hcontent hfinish⟩

/-- Printed chunks are the chunks of the body. -/
theorem chunks_lineBody {values : List Json} (h : ∀ v ∈ values, ∃ fields, v = .obj fields ∧ v.Plain) :
    (lineBody values).lines.filterMap Ollama.chunkOf = values := by
  rw [lines_lineBody]
  induction values with
  | nil => rfl
  | cons v rest ih =>
      obtain ⟨⟨fields, rfl, hplain⟩, hrest⟩ := List.forall_mem_cons.mp h
      have hchunk : Ollama.chunkOf (stringify (.obj fields)) = some (.obj fields) := by
        obtain ⟨inner, hinner⟩ := stringify_obj_braces fields
        have hne : stringify (.obj fields) ≠ "" := by
          intro hempty
          rw [hempty] at hinner
          simp at hinner
        unfold Ollama.chunkOf
        rw [trim_object, if_neg hne, jsonParse_stringify_plain hplain]
      rw [List.map_cons, List.filterMap_cons_some hchunk, ih hrest]

/-- A chunk with these tool calls, which have no arguments. -/
def chunkValue (done : Bool) (names : List String) : Json :=
  .obj [("message", .obj [("content", .str ""), ("tool_calls", .arr (names.map fun name =>
      .obj [("function", .obj [("name", .str name), ("arguments", .obj [])])]))]),
    ("done", .bool done)]

/-- What it shows. -/
def namedChunk (names : List String) : OllamaChunk := ⟨"", names.map fun name => ⟨name, []⟩⟩

theorem shows_chunkValue (done : Bool) (names : List String) : (namedChunk names).Shows (chunkValue done names) := by
  refine ⟨Json.noConfusion, Or.inl rfl, Or.inr ⟨_, rfl, ?_⟩⟩
  unfold namedChunk
  rw [List.forall₂_map_left_iff, List.forall₂_map_right_iff, List.forall₂_same]
  intro name _
  exact ⟨_, rfl, rfl, rfl⟩

/-- Two chunks, the second the final one, are a stream. -/
theorem stream_chunkValues {names names' : List String}
    (hplain : ∀ v ∈ [chunkValue false names, chunkValue true names'], v.Plain) :
    OllamaStream [namedChunk names, namedChunk names'] .undefined
      (lineBody [chunkValue false names, chunkValue true names']).lines := by
  have hobjects : ∀ v ∈ [chunkValue false names, chunkValue true names'], ∃ fields, v = .obj fields ∧ v.Plain := by
    intro v hv
    have hv' := hplain v hv
    rcases List.mem_cons.mp hv with rfl | hv
    · exact ⟨_, rfl, hv'⟩
    · obtain rfl := List.mem_singleton.mp hv
      exact ⟨_, rfl, hv'⟩
  have hvalues := chunks_lineBody hobjects
  exact ⟨[namedChunk names], namedChunk names', [chunkValue false names], chunkValue true names', rfl, hvalues,
    .cons ⟨shows_chunkValue false names, rfl⟩ .nil, shows_chunkValue true names', rfl, rfl, Or.inl rfl, Or.inl rfl⟩

/-- Distinct ids. -/
def tallyId (n : Nat) : String := String.ofList (List.replicate n 'i')

theorem tallyId_injective : Function.Injective tallyId := by
  intro m n h
  have hlist := congrArg String.toList h
  unfold tallyId at hlist
  rw [String.toList_ofList, String.toList_ofList] at hlist
  simpa using congrArg List.length hlist

/-- Two calls in one chunk are delivered. -/
theorem ollama_stream_delivers_iff_one_chunk :
    ∃ events response,
      (Ollama.parser tallyId).parseStream (lineBody [chunkValue false ["f", "g"], chunkValue true []]) =
        ⟨events, .finished⟩ ∧
      Ollama.fromOllamaResponse tallyId 0 (chunkValue true ["f", "g"]) "ollama" 1 = .ok response ∧
      (DeliversEveryCall (accumulate events) response ↔
        [namedChunk ["f", "g"], namedChunk []].countP (·.hasCalls) ≤ 1) := by
  have hplain : ∀ v ∈ [chunkValue false ["f", "g"], chunkValue true []], v.Plain := by
    have hcanon : ∀ v ∈ [chunkValue false ["f", "g"], chunkValue true []], v.canon = v := by decide
    have hvalid : ∀ v ∈ [chunkValue false ["f", "g"], chunkValue true []], v.Valid := by
      simp [chunkValue, Json.Valid, ValidItems, ValidFields]
    exact fun v hv => ⟨hvalid v hv, hcanon v hv⟩
  exact ollama_stream_delivers_iff tallyId_injective rfl (stream_chunkValues hplain)
    ⟨⟨_, rfl, rfl, Or.inr ⟨_, rfl, .cons ⟨_, rfl, rfl, rfl⟩ (.cons ⟨_, rfl, rfl, rfl⟩ .nil)⟩⟩, Or.inl rfl,
      Or.inl rfl⟩ rfl tallyId 0 "ollama" 1

/-- **Calls of two chunks are not delivered**: both are number 0 of their chunk. -/
theorem calls_of_two_chunks_merge :
    ¬ ∀ (freshId : Nat → String), Function.Injective freshId → ∀ (chunks : List OllamaChunk)
      (doneReason : JsValue) (body : HttpBody), body.ending = .closed →
      OllamaStream chunks doneReason body.lines → ∀ (raw : Json),
      OllamaMessage (OllamaChunk.textOf chunks) (OllamaChunk.callsOf chunks) raw →
      raw.prop "done_reason" = doneReason → ∀ (freshId' : Nat → String) (now : Nat) (provider : String)
      (latencyMs : Rat), ∃ events response, (Ollama.parser freshId).parseStream body = ⟨events, .finished⟩ ∧
        Ollama.fromOllamaResponse freshId' now raw provider latencyMs = .ok response ∧
        DeliversEveryCall (accumulate events) response := by
  intro h
  have hplain : ∀ v ∈ [chunkValue false ["f"], chunkValue true ["g"]], v.Plain := by
    have hcanon : ∀ v ∈ [chunkValue false ["f"], chunkValue true ["g"]], v.canon = v := by decide
    have hvalid : ∀ v ∈ [chunkValue false ["f"], chunkValue true ["g"]], v.Valid := by
      simp [chunkValue, Json.Valid, ValidItems, ValidFields]
    exact fun v hv => ⟨hvalid v hv, hcanon v hv⟩
  have hstream := stream_chunkValues hplain
  have hmessage : OllamaMessage (OllamaChunk.textOf [namedChunk ["f"], namedChunk ["g"]])
      (OllamaChunk.callsOf [namedChunk ["f"], namedChunk ["g"]]) (chunkValue true ["f", "g"]) :=
    ⟨⟨_, rfl, rfl, Or.inr ⟨_, rfl, .cons ⟨_, rfl, rfl, rfl⟩ (.cons ⟨_, rfl, rfl, rfl⟩ .nil)⟩⟩, Or.inl rfl,
      Or.inl rfl⟩
  obtain ⟨events, response, hparse, hresponse, hsame⟩ :=
    h tallyId tallyId_injective _ _ _ rfl hstream _ hmessage rfl tallyId 0 "ollama" 1
  obtain ⟨events', s, response', hparse', hresponse', hdelivered, hcontent, hfinish⟩ :=
    ollama_delivered_response tallyId rfl hstream hmessage rfl tallyId 0 "ollama" 1
  obtain rfl : events = events' := by
    have heq := hparse.symm.trans hparse'
    injection heq
  obtain rfl : response = response' := Except.ok.inj (hresponse.symm.trans hresponse')
  have hle := (deliversEveryCall_iff tallyId_injective hdelivered hcontent hfinish).mp hsame
  exact absurd hle (by decide)

end Sirius
