import Mathlib.Logic.Relation
import SiriusGateway.Correctness.Cascade
import SiriusGateway.Correctness.OpenAiStream

/-!
# `Correctness.AnswerCascade` — an answer through gateways, streamed or at once

A chat completion reaches its client through any number of gateways, each of which has the one behind it as its
OpenAI provider. Streamed, it is parsed and written again at each of them, with the chunks cut anew; at once, its
body is mapped and formatted again. What the client adds up from the stream is what it reads off the body
(`answer_cascade`).

## Contents
- **Deltas.** What the wire takes from an event does not change the answer.
- **Hops.** `StreamHop`: a gateway on the way of a stream, and `Reaches`: any number of them.
- **Bodies.** The completion behind any number of bodies.
- **The result.**
-/

namespace Sirius

open Js Compat ChatSession

/-! ## Deltas -/

/-- The event carries no empty id and no empty name. -/
def Named : UnifiedStreamEvent → Prop
  | .toolCallDelta _ id name _ => id ≠ .json (.str "") ∧ name ≠ .json (.str "")
  | _ => True

/-- A string that is not empty comes back as it is. -/
theorem whenTruthy_named {v : JsValue} (h : v = .undefined ∨ ∃ s, v = .json (.str s)) (hnamed : v ≠ .json (.str "")) :
    v.whenTruthy = v := by
  obtain rfl | ⟨s, rfl⟩ := h
  · rfl
  · have hs : s ≠ "" := fun heq => hnamed (by rw [heq])
    unfold JsValue.whenTruthy
    rw [if_pos (by simpa [Json.truthy] using hs)]

/-- A string that is lost was empty. -/
theorem deltaText_whenTruthy {v : JsValue} (h : v = .undefined ∨ ∃ s, v = .json (.str s)) :
    deltaText v.whenTruthy = deltaText v := by
  by_cases hnamed : v = .json (.str "")
  · subst hnamed
    rfl
  · rw [whenTruthy_named h hnamed]

/-- What comes back of an event can be written again. -/
theorem encodable_decoded {e e' : UnifiedStreamEvent} (h : Encodable e) (hnamed : Named e)
    (hdecoded : decoded e = some e') : Encodable e' ∧ Named e' := by
  cases e with
  | contentDelta delta =>
      by_cases htext : delta.truthy = true
      · obtain rfl := Option.some.inj ((if_pos htext).symm.trans hdecoded)
        exact ⟨h, trivial⟩
      · cases (if_neg htext).symm.trans hdecoded
  | toolCallDelta index id name argumentsDelta =>
      obtain rfl := Option.some.inj hdecoded
      obtain ⟨hindex, hfields⟩ := h
      have hid := hfields id (by simp)
      have hname := hfields name (by simp)
      rw [whenTruthy_named hid hnamed.1, whenTruthy_named hname hnamed.2]
      refine ⟨⟨hindex, ?_⟩, hnamed⟩
      intro v hv
      simp only [List.mem_cons, List.not_mem_nil, or_false] at hv
      obtain rfl | rfl | rfl := hv
      · exact hid
      · exact hname
      · unfold JsValue.whenTruthy
        split
        · exact hfields argumentsDelta (by simp)
        · exact Or.inl rfl
  | usage usage =>
      obtain rfl := Option.some.inj hdecoded
      exact ⟨h, trivial⟩
  | done finishReason =>
      obtain rfl := Option.some.inj hdecoded
      exact ⟨h, trivial⟩
  | error error code => exact absurd h fun h => h

/-- What the wire takes from an event adds nothing to the answer. -/
theorem add_decoded {e : UnifiedStreamEvent} (h : Encodable e) (hnamed : Named e) (answer : Answer) :
    (decoded e).toList.foldl Answer.add answer = answer.add e := by
  cases e with
  | contentDelta delta =>
      obtain ⟨s, rfl⟩ := h
      by_cases hs : s = ""
      · subst hs
        show answer = { answer with text := answer.text ++ "" }
        rw [String.append_empty]
      · have htext : (JsValue.json (.str s)).truthy = true := by simpa [Json.truthy] using hs
        have hsame : decoded (.contentDelta (.json (.str s))) = some (.contentDelta (.json (.str s))) := if_pos htext
        rw [hsame]
        rfl
  | toolCallDelta index id name argumentsDelta =>
      have hid := h.2 id (by simp)
      have hname := h.2 name (by simp)
      have harguments := h.2 argumentsDelta (by simp)
      show answer.add (.toolCallDelta index id.whenTruthy name.whenTruthy argumentsDelta.whenTruthy) = _
      rw [whenTruthy_named hid hnamed.1, whenTruthy_named hname hnamed.2]
      unfold Answer.add mergeDelta MergedCall.extend
      dsimp only
      rw [deltaText_whenTruthy harguments]
  | usage usage => rfl
  | done finishReason => rfl
  | error error code => exact absurd h fun h => h

/-- **The wire keeps the answer.** -/
theorem accumulate_decoded {events : List UnifiedStreamEvent} (h : ∀ e ∈ events, Encodable e ∧ Named e) :
    accumulate (events.filterMap decoded) = accumulate events := by
  unfold accumulate
  generalize Answer.empty = answer
  induction events generalizing answer with
  | nil => rfl
  | cons e rest ih =>
      obtain ⟨he, hrest⟩ := List.forall_mem_cons.mp h
      have hhead := add_decoded he.1 he.2 answer
      rw [List.foldl_cons, ← hhead, ← ih hrest, ← List.foldl_append]
      congr 1
      rw [List.filterMap_cons]
      cases decoded e <;> rfl

/-! ## Hops -/

/-- A gateway on the way of a stream: its upstream, the state the request meets, and the run of its chat handler. -/
structure StreamHop where
  upstream : Upstream
  base : Env
  request : UnifiedAiRequest
  entry : ChainEntry
  world : World
  clock : Nat → Nat
  responseId : String
  model : String
  labels : List Label
  session : Session

/-- The OpenAI upstream of the gateway answers with `sent`, and the handler, fed by the provider chain, has written
    `body` to a client that stayed. -/
structure StreamHop.Relays (hop : StreamHop) (sent body : ByteBody) : Prop where
  openai : Native.ofKind hop.entry.provider.kind = some .openai
  admits : Admits (hop.upstream.drained hop.base) hop.world hop.entry.provider
  sends : hop.upstream.Sends ⟨0, 0⟩ hop.entry.provider (enrichedRequest hop.request hop.entry) (sent.decode utf8)
  run : Lts.Run (Session.step hop.clock hop.responseId (.str hop.model)) {} hop.labels hop.session
  returned : hop.session.phase = .over
  stays : .close ∉ hop.labels
  fed : ChatSession.received hop.labels = (Sirius.received
    (streamOverChain (hop.upstream.drained hop.base) hop.request [hop.entry] hop.world).actions).map Prod.snd
  bytes : body.bytes = bytesOf hop.session.sent
  closed : body.ending = .closed

/-- Through any number of gateways, `sent` becomes `body`. -/
def Reaches : ByteBody → ByteBody → Prop :=
  Relation.ReflTransGen fun sent body => ∃ hop : StreamHop, hop.Relays sent body

/-- One hop: the events less what the wire takes. -/
theorem StreamHop.Relays.parse {hop : StreamHop} {sent body : ByteBody} (h : hop.Relays sent body)
    {events : List UnifiedStreamEvent} (hparse : OpenAi.parser.parseStream (sent.decode utf8) = ⟨events, .finished⟩)
    (hevents : ∀ e ∈ events, Encodable e) :
    OpenAi.parser.parseStream (body.decode utf8) = ⟨events.filterMap decoded, .finished⟩ := by
  have hreceived := received_of_relayed h.openai h.admits h.sends hparse hevents h.fed
  exact parse_of_received h.run h.returned h.stays hreceived hevents h.bytes h.closed

/-- **Any number of hops keep the answer of a stream.** -/
theorem accumulate_reaches {sent body : ByteBody} (h : Reaches sent body) {events : List UnifiedStreamEvent}
    (hparse : OpenAi.parser.parseStream (sent.decode utf8) = ⟨events, .finished⟩)
    (hevents : ∀ e ∈ events, Encodable e ∧ Named e) :
    ∃ read, OpenAi.parser.parseStream (body.decode utf8) = ⟨read, .finished⟩ ∧
      (∀ e ∈ read, Encodable e ∧ Named e) ∧ accumulate read = accumulate events := by
  induction h with
  | refl => exact ⟨events, hparse, hevents, rfl⟩
  | tail _ hlast ih =>
      obtain ⟨hop, hrelays⟩ := hlast
      obtain ⟨read, hread, hgood, hsame⟩ := ih
      refine ⟨read.filterMap decoded, hrelays.parse hread fun e he => (hgood e he).1, ?_, ?_⟩
      · intro e' he'
        obtain ⟨e, he, hdecoded⟩ := List.mem_filterMap.mp he'
        exact encodable_decoded (hgood e he).1 (hgood e he).2 hdecoded
      · rw [accumulate_decoded hgood, hsame]

/-! ### The events of a completion -/

/-- The count is a number as JSON writes them. -/
def Counted (usage : UsageMetrics) : Prop :=
  ∀ v ∈ [usage.inputTokens, usage.outputTokens, usage.totalTokens], ∃ q, Decimal q ∧ v = .json (.num q)

/-- The lines are a stream for the completion, whose calls have ids and names, and all of whose counts are numbers. -/
def ChatCompletion.StreamsCounted (c : ChatCompletion) (lines : List String) : Prop :=
  ∃ chunks, List.Forall₂ StreamedChunk.Shows chunks (lines.filterMap OpenAi.chunkOf) ∧ c.CutInto chunks ∧
    (∀ call ∈ c.calls, call.id ≠ "" ∧ call.name ≠ "") ∧ ∀ usage ∈ chunks.filterMap StreamedChunk.usage, Counted usage

/-- What the parts of a completion's calls carry is what the calls have. -/
theorem part_of_cutInto {c : ChatCompletion} {chunks : List StreamedChunk} (h : c.CutInto chunks) {part : CallPart}
    (hpart : part ∈ chunks.flatMap StreamedChunk.parts) :
    ∃ call ∈ c.calls, (∀ id, part.id = some id → id = call.id) ∧
      ∀ name, part.name = some name → name = call.name := by
  have hindex : part.index ∈ List.range c.calls.length := by
    rw [← h.indices]
    exact List.mem_eraseDups.mpr (List.mem_map_of_mem hpart)
  have hlt := List.mem_range.mp hindex
  have hcall : (c.calls[part.index], part.index) ∈ c.calls.zipIdx :=
    List.mem_zipIdx_iff_getElem?.mpr (List.getElem?_eq_getElem hlt)
  have hspelled := h.calls _ hcall
  have hmine : part ∈ (chunks.flatMap StreamedChunk.parts).filter fun p => p.index = part.index :=
    List.mem_filter.mpr ⟨hpart, decide_eq_true rfl⟩
  refine ⟨c.calls[part.index], List.getElem_mem hlt, ?_, ?_⟩
  · intro id hid
    have hmem := List.mem_filterMap.mpr ⟨part, hmine, hid⟩
    rw [hspelled.id] at hmem
    exact List.mem_singleton.mp hmem
  · intro name hname
    have hmem := List.mem_filterMap.mpr ⟨part, hmine, hname⟩
    rw [hspelled.name] at hmem
    exact List.mem_singleton.mp hmem

/-- A finish reason that is no name of an inherited member is mapped to one of OpenAI's own. -/
theorem reasonOf_mem {reason : String} (h : reason ∉ inheritedMembers.map Prod.fst) :
    OpenAi.reasonOf reason ∈ ["stop", "length", "tool_calls", "content_filter"] := by
  have hall : ∀ e ∈ OpenAi.FINISH_REASON_MAP, e.2 ∈ ["stop", "length", "tool_calls", "content_filter"] := by decide
  unfold OpenAi.reasonOf
  cases hfind : (OpenAi.FINISH_REASON_MAP ++ inheritedMembers).find? fun e => e.1 = reason with
  | none => exact List.mem_cons_self
  | some e =>
      have hreason : e.1 = reason := by simpa using List.find?_some hfind
      obtain hown | hinherited := List.mem_append.mp (List.mem_of_find?_eq_some hfind)
      · exact hall e hown
      · exact absurd (hreason ▸ List.mem_map_of_mem hinherited) h

/-- The events of a completion can be written. -/
theorem encodable_cutInto {c : ChatCompletion} {chunks : List StreamedChunk} (h : c.CutInto chunks)
    (hcalls : ∀ call ∈ c.calls, call.id ≠ "" ∧ call.name ≠ "")
    (hcounted : ∀ usage ∈ chunks.filterMap StreamedChunk.usage, Counted usage)
    (hreason : c.reason ∉ inheritedMembers.map Prod.fst) :
    ∀ e ∈ chunks.flatMap StreamedChunk.events, Encodable e ∧ Named e := by
  intro e he
  obtain ⟨chunk, hchunk, he⟩ := List.mem_flatMap.mp he
  unfold StreamedChunk.events at he
  simp only [List.mem_append, Option.mem_toList, Option.map_eq_some_iff] at he
  obtain ((htext | hparts) | ⟨usage, husage, rfl⟩) | ⟨reason, hdone, rfl⟩ := he
  · split at htext
    · cases htext
    · obtain rfl := List.mem_singleton.mp htext
      exact ⟨⟨chunk.text, rfl⟩, trivial⟩
  · obtain ⟨part, hpart, rfl⟩ := List.mem_map.mp hparts
    obtain ⟨call, hcall, hid, hname⟩ := part_of_cutInto h (List.mem_flatMap.mpr ⟨chunk, hchunk, hpart⟩)
    have hstr : ∀ s : Option String, optStr s = .undefined ∨ ∃ text, optStr s = .json (.str text) := by
      intro s
      cases s with
      | none => exact Or.inl rfl
      | some text => exact Or.inr ⟨text, rfl⟩
    have hne : ∀ (s : Option String) (text : String), (∀ x, s = some x → x = text) → text ≠ "" →
        optStr s ≠ .json (.str "") := by
      intro s text hs htext
      cases s with
      | none => exact fun heq => by cases heq
      | some x =>
          intro heq
          have hx : x = "" := by simpa [optStr] using heq
          exact htext (hs x rfl ▸ hx)
    refine ⟨⟨⟨part.index, decimal_natCast _, rfl⟩, ?_⟩, hne _ _ hid (hcalls call hcall).1,
      hne _ _ hname (hcalls call hcall).2⟩
    intro v hv
    simp only [List.mem_cons, List.not_mem_nil, or_false] at hv
    obtain rfl | rfl | rfl := hv <;> exact hstr _
  · exact ⟨hcounted usage (List.mem_filterMap.mpr ⟨chunk, hchunk, husage⟩), trivial⟩
  · have hmem : reason ∈ chunks.filterMap StreamedChunk.reason := List.mem_filterMap.mpr ⟨chunk, hchunk, hdone⟩
    rw [h.reason] at hmem
    obtain rfl := List.mem_singleton.mp hmem
    exact ⟨reasonOf_mem hreason, trivial⟩

/-! ## Bodies -/

theorem reasonOf_told {c : ChatCompletion} (h : c.reason ∉ inheritedMembers.map Prod.fst) :
    OpenAi.reasonOf c.told.reason = OpenAi.reasonOf c.reason := by
  by_cases hknown : c.reason ∈ OpenAi.FINISH_REASON_MAP.map Prod.fst
  · rw [told_of_known hknown]
  · have hnone : (OpenAi.FINISH_REASON_MAP ++ inheritedMembers).find? (fun e => e.1 = c.reason) = none := by
      rw [List.find?_eq_none]
      intro e he heq
      have hreason : e.1 = c.reason := of_decide_eq_true heq
      obtain hown | hinherited := List.mem_append.mp he
      · exact hknown (hreason ▸ List.mem_map_of_mem hown)
      · exact h (hreason ▸ List.mem_map_of_mem hinherited)
    have hstop : OpenAi.reasonOf "stop" = "stop" := by decide
    unfold ChatCompletion.told
    rw [if_neg hknown, hstop]
    unfold OpenAi.reasonOf
    rw [hnone]
    rfl

/-- What a client is told is the same answer. -/
theorem answer_told {c : ChatCompletion} (h : c.reason ∉ inheritedMembers.map Prod.fst) :
    c.told.answer = c.answer := by
  unfold ChatCompletion.answer
  rw [reasonOf_told h]
  rfl

/-- **Any number of hops keep the answer of a body.** -/
theorem answer_hops {c : ChatCompletion} {raw : Json} (h : c.Shows raw)
    (hreason : c.reason ∉ inheritedMembers.map Prod.fst) (hops : List Hop) :
    ∃ (last : Json) (d : ChatCompletion), hops.foldlM (fun body hop => hop.relay body) raw = .ok last ∧
      d.Shows last ∧ d.answer = c.answer := by
  induction hops generalizing c raw with
  | nil => exact ⟨raw, c, rfl, h, rfl⟩
  | cons hop rest ih =>
      obtain ⟨body, hbody, hshows, -⟩ := told_shows_relay h hreason hop
      have hown : ∀ reason ∈ OpenAi.FINISH_REASON_MAP.map Prod.fst, reason ∉ inheritedMembers.map Prod.fst := by
        decide
      obtain ⟨last, d, hlast, hd, hanswer⟩ := ih hshows (hown _ (reason_told c))
      refine ⟨last, d, ?_, hd, hanswer.trans (answer_told hreason)⟩
      rw [List.foldlM_cons, hbody]
      exact hlast

/-! ## The result -/

/-- **Streamed or at once, through any number of gateways, a client gets the same answer.** -/
theorem answer_cascade {c : ChatCompletion} {raw : Json} (h : c.Shows raw)
    (hreason : c.reason ∉ inheritedMembers.map Prod.fst) {sent body : ByteBody} (hclosed : sent.ending = .closed)
    (hstream : c.StreamsCounted (sent.decode utf8).lines) (hpath : Reaches sent body) (hops : List Hop)
    (provider : String) (latencyMs : Rat) :
    ∃ last response events, hops.foldlM (fun body hop => hop.relay body) raw = .ok last ∧
      OpenAi.fromOpenAiResponse last provider latencyMs = .ok response ∧
      OpenAi.parser.parseStream (body.decode utf8) = ⟨events, .finished⟩ ∧
      accumulate events = answerOf response := by
  obtain ⟨chunks, hshows, hcut, hcalls, hcounted⟩ := hstream
  have hparse : OpenAi.parser.parseStream (sent.decode utf8) = ⟨chunks.flatMap StreamedChunk.events, .finished⟩ := by
    rw [OpenAi.parser.parseStream_eq, processLines_streamed hshows, ending_decode, hclosed]
  obtain ⟨read, hread, -, hsame⟩ :=
    accumulate_reaches hpath hparse (encodable_cutInto hcut hcalls hcounted hreason)
  obtain ⟨last, d, hlast, hd, hanswer⟩ := answer_hops h hreason hops
  obtain ⟨response, hresponse, hshown⟩ := answerOf_shows hd provider latencyMs
  refine ⟨last, response, read, hlast, hresponse, hread, ?_⟩
  calc accumulate read = accumulate (chunks.flatMap StreamedChunk.events) := hsame
    _ = c.answer := accumulate_cutInto hcut
    _ = d.answer := hanswer.symm
    _ = answerOf response := hshown.symm

/-- A completion with a text and a tool call. -/
def clockCompletion : ChatCompletion := ⟨"Hi", [⟨"a", "now", "\x7b\x7d"⟩], "tool_calls", 1, 2, 3⟩

/-- The body OpenAI sends for it. -/
def clockCompletionBody : Json :=
  .obj [("choices", .arr [.obj [("message", .obj [("content", .str "Hi"), ("tool_calls", .arr [
      .obj [("id", .str "a"), ("function", .obj [("name", .str "now"), ("arguments", .str "\x7b\x7d")])]])]),
      ("finish_reason", .str "tool_calls")]]),
    ("usage", .obj [("prompt_tokens", .num 1), ("completion_tokens", .num 2), ("total_tokens", .num 3)])]

/-- The chunks OpenAI streams for it. -/
def clockChunks : List Json :=
  [.obj [("choices", .arr [.obj [("delta", .obj [("content", .str "Hi"), ("tool_calls", .arr [
      .obj [("index", .num 0), ("id", .str "a"),
        ("function", .obj [("name", .str "now"), ("arguments", .str "\x7b\x7d")])]])]),
      ("finish_reason", .str "tool_calls")]])],
    .obj [("choices", .arr []),
      ("usage", .obj [("prompt_tokens", .num 1), ("completion_tokens", .num 2), ("total_tokens", .num 3)])]]

/-- Chunks as the bytes of their frames. -/
def sentBody (chunks : List Json) : ByteBody := ⟨chunks.map fun chunk => encodeUtf8 (formatSSE chunk), .closed⟩

theorem lines_sentBody (chunks : List Json) : ((sentBody chunks).decode utf8).lines = (frameBody chunks).lines := by
  have htext : ((sentBody chunks).decode utf8).text = (frameBody chunks).text := by
    rw [text_decode]
    show utf8.decodeAll (chunks.map fun chunk => encodeUtf8 (formatSSE chunk)).flatten = _
    rw [← List.flatMap_def, ← List.flatMap_map, flatMap_encodeUtf8]
    apply utf8_decode_encode
    rw [String.toList_ofList]
    cases chunks with
    | nil => exact fun h => nomatch h
    | cons chunk rest =>
        have hhead : (formatSSE chunk).toList.head? = some 'd' := by
          unfold formatSSE
          rw [String.append_assoc, String.toList_append]
          rfl
        rw [List.map_cons, List.flatMap_cons, List.head?_append, hhead, Option.some_or]
        decide
  exact lines_congr htext rfl

/-- What they are parsed as. -/
def clockEvents : List UnifiedStreamEvent :=
  [.contentDelta (.json (.str "Hi")),
    .toolCallDelta (.json (.num 0)) (.json (.str "a")) (.json (.str "now")) (.json (.str "\x7b\x7d")),
    .done "tool_calls", .usage ⟨.json (.num 1), .json (.num 2), .json (.num 3)⟩]

/-- A gateway in front of it. -/
def clockHop (session : Session) : StreamHop where
  upstream := steadyUpstream (.responded ⟨200, "OK", some ((sentBody clockChunks).decode utf8)⟩)
  base := plainEnv
  request := emptyRequest
  entry := openAiEntry
  world := freshWorld
  clock := id
  responseId := "chatcmpl-1"
  model := "m"
  labels := clockEvents.map Label.event ++ [.finished]
  session := session

theorem shows_clock : clockCompletion.Shows clockCompletionBody :=
  ⟨⟨_, [], _, rfl, by decide, rfl, ⟨by decide, Or.inl rfl, Or.inl ⟨_, rfl, .cons ⟨by decide, rfl, rfl, rfl⟩ .nil⟩⟩,
    rfl⟩, ⟨rfl, rfl, rfl⟩⟩

/-- The chunks, and the completion they cut up. -/
theorem cutInto_clock : ∃ chunks : List StreamedChunk,
    List.Forall₂ StreamedChunk.Shows chunks (((sentBody clockChunks).decode utf8).lines.filterMap OpenAi.chunkOf) ∧
      clockCompletion.CutInto chunks ∧ (∀ usage ∈ chunks.filterMap StreamedChunk.usage, Counted usage) ∧
      chunks.flatMap StreamedChunk.events = clockEvents := by
  have hplain : ∀ chunk ∈ clockChunks, ∃ fields, chunk = .obj fields ∧ chunk.Plain := by
    have hdecimal : Decimal 0 ∧ Decimal 1 ∧ Decimal 2 ∧ Decimal 3 :=
      ⟨decimal_natCast 0, decimal_natCast 1, decimal_natCast 2, decimal_natCast 3⟩
    have hcanon : ∀ chunk ∈ clockChunks, chunk.canon = chunk := by decide
    have hvalid : ∀ chunk ∈ clockChunks, ∃ fields, chunk = .obj fields ∧ chunk.Valid := by
      simp [clockChunks, Json.Valid, ValidFields, ValidItems, hdecimal]
    intro chunk hchunk
    obtain ⟨fields, heq, hv⟩ := hvalid chunk hchunk
    exact ⟨fields, heq, hv, hcanon chunk hchunk⟩
  rw [lines_sentBody, chunks_frameBody hplain]
  refine ⟨[⟨"Hi", [⟨0, some "a", some "now", some "\x7b\x7d"⟩], none, some "tool_calls"⟩,
    ⟨"", [], some clockCompletion.usageMetrics, none⟩], .cons ?_ (.cons ?_ .nil), ?_, ?_, by decide⟩
  · exact ⟨by decide, Or.inr ⟨rfl, rfl⟩, Or.inl ⟨rfl, rfl, Or.inl rfl, Or.inl ⟨_, rfl,
      .cons ⟨by decide, rfl, rfl, rfl, rfl⟩ .nil⟩, Or.inl ⟨"tool_calls", rfl, by decide, rfl⟩⟩⟩
  · exact ⟨by decide, Or.inl ⟨_, rfl, rfl, rfl, rfl, rfl⟩, Or.inr ⟨rfl, rfl, rfl, rfl⟩⟩
  · refine ⟨by decide, by decide, ?_, by decide, by decide⟩
    intro e he
    obtain rfl : e = (⟨"a", "now", "\x7b\x7d"⟩, 0) := by simpa [clockCompletion] using he
    exact ⟨by decide, by decide, by decide⟩
  · intro usage husage
    obtain rfl : usage = clockCompletion.usageMetrics := by simpa using husage
    intro v hv
    simp only [ChatCompletion.usageMetrics, clockCompletion, List.mem_cons, List.not_mem_nil, or_false] at hv
    obtain rfl | rfl | rfl := hv
    · exact ⟨1, decimal_natCast 1, rfl⟩
    · exact ⟨2, decimal_natCast 2, rfl⟩
    · exact ⟨3, decimal_natCast 3, rfl⟩

theorem parse_clock : OpenAi.parser.parseStream ((sentBody clockChunks).decode utf8) = ⟨clockEvents, .finished⟩ := by
  obtain ⟨chunks, hshows, -, -, hevents⟩ := cutInto_clock
  rw [OpenAi.parser.parseStream_eq, processLines_streamed hshows, ending_decode, hevents]
  rfl

theorem relays_clock : ∃ t, (clockHop t).Relays (sentBody clockChunks) ⟨[bytesOf t.sent], .closed⟩ := by
  obtain ⟨t, hrun, hover⟩ : ∃ t, Lts.Run (Session.step id "chatcmpl-1" (.str "m")) {}
      (clockEvents.map Label.event ++ [.finished]) t ∧ t.phase = .over := ⟨_, Lts.run_iff_exec.mpr rfl, rfl⟩
  have hadmits : Admits ((clockHop t).upstream.drained plainEnv) freshWorld openAiEntry.provider :=
    ⟨freshWorld.circuitState, rfl⟩
  have hsends : (clockHop t).upstream.Sends ⟨0, 0⟩ openAiEntry.provider (enrichedRequest emptyRequest openAiEntry)
      ((sentBody clockChunks).decode utf8) := ⟨_, _, rfl, rfl, rfl, rfl⟩
  have hparse : Native.openai.parseStream ((clockHop t).upstream.freshId ⟨0, 0⟩)
      ((sentBody clockChunks).decode utf8) = ⟨clockEvents, .finished⟩ := parse_clock
  have hattempt : attemptOf ((clockHop t).upstream.drained plainEnv) 0 openAiEntry.provider
      (enrichedRequest emptyRequest openAiEntry) 0 = ⟨clockEvents, .finished⟩ := attemptOf_sends rfl hsends hparse
  have hstays : Label.close ∉ clockEvents.map Label.event ++ [.finished] := by decide
  refine ⟨t, rfl, hadmits, hsends, hrun, hover, hstays, ?_, List.append_nil _, rfl⟩
  show ChatSession.received (clockEvents.map Label.event ++ [.finished]) = List.map Prod.snd (Sirius.received
    (streamOverChain ((clockHop t).upstream.drained plainEnv) emptyRequest [openAiEntry] freshWorld).actions)
  rw [received_of_finished hadmits (by rw [hattempt]; decide) (by rw [hattempt]), hattempt]
  rfl

/-- Streamed through one gateway, at once through two. -/
theorem answer_cascade_clock :
    ∃ (body : ByteBody) (last : Json) (response : UnifiedAiResponse) (events : List UnifiedStreamEvent),
      Reaches (sentBody clockChunks) body ∧
      [(⟨"inner", 1, fun _ => "u", 0⟩ : Hop), ⟨"outer", 2, fun _ => "v", 1⟩].foldlM
        (fun body hop => hop.relay body) clockCompletionBody = .ok last ∧
      OpenAi.fromOpenAiResponse last "openai" 1 = .ok response ∧
      OpenAi.parser.parseStream (body.decode utf8) = ⟨events, .finished⟩ ∧
      accumulate events = answerOf response := by
  obtain ⟨t, hrelays⟩ := relays_clock
  obtain ⟨chunks, hchunks, hcut, hcounted, -⟩ := cutInto_clock
  obtain ⟨last, response, events, hlast, hresponse, hread, hsame⟩ :=
    answer_cascade shows_clock (by decide) rfl ⟨chunks, hchunks, hcut, by decide, hcounted⟩ (.single ⟨_, hrelays⟩)
      [⟨"inner", 1, fun _ => "u", 0⟩, ⟨"outer", 2, fun _ => "v", 1⟩] "openai" 1
  exact ⟨_, last, response, events, .single ⟨_, hrelays⟩, hlast, hresponse, hread, hsame⟩

end Sirius
