import SiriusGateway.Correctness.BadLines
import SiriusGateway.Correctness.SseRoundTrip
import SiriusGateway.Js.Trailing

/-!
# `Correctness.SseFraming` — standard SSE streams

`parseOpenAiStream` finds an event in a line that, trimmed, starts with `data: `, and skips the line of the
`[DONE]` sentinel like any line without an event. Here the streams of the SSE grammar are set against it: a `data`
field may lack the space behind its colon, a field may have any name, and lines end in LF or CRLF.

## Contents
- **The grammar.** `SseStream`: lines with at most one `data` field each, the sentinel, and whatever follows.
- **Lines.** What the parser sees of a line of the grammar (`framedEvents_data`), and the lines it gets to see
  (`SseStream.lines_eq`).
- **Runs.** What a line adds to a run (`collects`), which stops at a line the parser throws on.
- **Streams.** `ReadAsSent` and `SseStream.Framed`; the result `readAsSent_iff`.
-/

namespace Sirius

open Js

/-! ## The grammar -/

inductive LineBreak where
  | lf
  | crlf
  deriving DecidableEq

def LineBreak.text : LineBreak → String
  | lf => "\n"
  | crlf => "\r\n"

/-- A `data` field, with or without the space behind its colon. -/
def dataField (spaced : Bool) (payload : String) : String :=
  (if spaced then "data: " else "data:") ++ payload

/-- A line of a stream: the `data` field of an event, or any other line (a blank one, a comment, another
    field). -/
inductive SseLine where
  | data (payload : String) (spaced : Bool)
  | other (text : String)
  deriving DecidableEq

/-- No line break is in the text. -/
def Unbroken (text : String) : Prop := '\n' ∉ text.toList ∧ '\r' ∉ text.toList

namespace SseLine

/-- The line, without its line break. -/
def text : SseLine → String
  | data payload spaced => dataField spaced payload
  | other text => text

def payload? : SseLine → Option String
  | data payload _ => some payload
  | other _ => none

/-- The payload of an event is JSON; a space that the colon can take is the colon's. Any other line is not a
    `data` field. -/
def Standard : SseLine → Prop
  | data payload spaced =>
      Unbroken payload ∧ (jsonParse payload).isSome = true ∧
        (spaced = false → payload.toList.head? ≠ some ' ')
  | other text => Unbroken text ∧ text ≠ "data" ∧ ¬"data:".toList <+: text.toList

/-- A blank line ends an event before the next one begins. -/
def Separated : Bool → List SseLine → Prop
  | pending, [] => pending = false
  | pending, data _ _ :: rest => pending = false ∧ Separated true rest
  | pending, other text :: rest => Separated (pending && text != "") rest

end SseLine

/-- The lines as they are sent. -/
def textOf : List (SseLine × LineBreak) → String
  | [] => ""
  | e :: rest => e.1.text ++ e.2.text ++ textOf rest

/-- The payloads of the events, in order. -/
def payloadsOf (lines : List (SseLine × LineBreak)) : List String := lines.filterMap (·.1.payload?)

/-- A standard stream: its events among other lines, the `[DONE]` line, and any text behind it. -/
structure SseStream where
  lines : List (SseLine × LineBreak)
  doneSpaced : Bool
  doneBreak : LineBreak
  further : String
  standard : ∀ e ∈ lines, e.1.Standard
  separated : SseLine.Separated false (lines.map (·.1))

/-- The stream up to and including the `[DONE]` line. -/
def SseStream.textToDone (stream : SseStream) : String :=
  textOf stream.lines ++ (dataField stream.doneSpaced "[DONE]" ++ stream.doneBreak.text)

def SseStream.text (stream : SseStream) : String := stream.textToDone ++ stream.further

/-! ## Lines -/

/-- The events of a payload. -/
def payloadEvents (payload : String) : List UnifiedStreamEvent :=
  (jsonParse payload).elim [] fun chunk => (OpenAi.processChunk chunk).events

/-- The events of the payload that the parser finds in a line. -/
def framedEvents (line : String) : List UnifiedStreamEvent := (sseData line).elim [] payloadEvents

theorem events_processLine (line : String) : (OpenAi.processLine line).events = framedEvents line := by
  unfold framedEvents OpenAi.processLine
  cases sseData line with
  | none => rfl
  | some payload =>
      have hdone : jsonParse "[DONE]" = none := by decide +kernel
      dsimp only [Option.elim_some]
      unfold payloadEvents
      split
      · rename_i hpayload
        rw [hpayload, hdone]
        rfl
      · cases jsonParse payload <;> rfl

theorem framedEvents_eq_nil_iff {line : String} :
    framedEvents line = [] ↔ ∀ payload, sseData line = some payload → payloadEvents payload = [] := by
  unfold framedEvents
  cases sseData line with
  | none => exact iff_of_true rfl fun payload h => nomatch h
  | some payload => exact ⟨fun h payload' hpayload => Option.some.inj hpayload ▸ h, fun h => h payload rfl⟩

/-- The white space in front of a line feed. -/
def LineBreak.behind : LineBreak → String
  | lf => ""
  | crlf => "\r"

theorem LineBreak.blank_behind (lineBreak : LineBreak) : Blank lineBreak.behind.toList := by
  cases lineBreak with
  | lf => exact fun c hc => nomatch hc
  | crlf => exact List.forall_mem_singleton.mpr (by decide)

theorem LineBreak.text_eq (lineBreak : LineBreak) : lineBreak.text = lineBreak.behind ++ "\n" := by
  cases lineBreak <;> rfl

/-- White space behind a line is not looked at. -/
theorem sseData_append {w : String} (hw : Blank w.toList) (line : String) : sseData (line ++ w) = sseData line := by
  unfold sseData
  rw [trim_append hw]

/-- A line as the parser sees it. -/
def rawLine (e : SseLine × LineBreak) : String := e.1.text ++ e.2.behind

theorem sseData_rawLine (e : SseLine × LineBreak) : sseData (rawLine e) = sseData e.1.text :=
  sseData_append e.2.blank_behind e.1.text

/-- A `data` field without the space is none to the parser. -/
theorem sseData_unspaced {text : String} {c : Char} {more : List Char} (htext : text.toList = more ++ [c])
    (hc : isSpace c = false) (hhead : text.toList.head? ≠ some ' ') : sseData ("data:" ++ text) = none := by
  have hlist : ("data:" ++ text).toList = 'd' :: (("ata:".toList ++ more) ++ [c]) := by
    rw [String.toList_append, htext]
    simp
  have hdata : ¬("data:" ++ text).startsWith "data: " = true := by
    rw [String.startsWith_string_iff, String.toList_append]
    rintro ⟨rest, hrest⟩
    apply hhead
    have hspace : "data:".toList ++ (' ' :: rest) = "data:".toList ++ text.toList := hrest
    rw [← List.append_cancel_left hspace]
    rfl
  unfold sseData
  simp only [trim_eq_self hlist (by decide) hc, if_neg hdata, ite_self]

/-- **The events found in a `data` field** are those of its payload, or none for want of a space. -/
theorem framedEvents_data {payload : String} {spaced : Bool} (h : (SseLine.data payload spaced).Standard) :
    framedEvents (dataField spaced payload) = if spaced then payloadEvents payload else [] := by
  obtain ⟨-, hjson, hspace⟩ := h
  obtain ⟨v, hv⟩ := Option.isSome_iff_exists.mp hjson
  -- the payload without the white space behind it is the same value
  obtain ⟨more, c, blanks, hlist, hc, hblanks⟩ := exists_blank_behind (not_blank_of_jsonParse hv)
  have hpayload : payload = String.ofList (more ++ [c]) ++ String.ofList blanks := by
    apply String.toList_injective
    rw [String.toList_append, String.toList_ofList, String.toList_ofList, hlist]
  have hw : Blank (String.ofList blanks).toList := by rwa [String.toList_ofList]
  have hsolid : (String.ofList (more ++ [c])).toList = more ++ [c] := String.toList_ofList
  have hparse : jsonParse (String.ofList (more ++ [c])) = some v := jsonParse_append hw (hpayload ▸ hv)
  have hframe : sseData (dataField spaced payload) = sseData (dataField spaced (String.ofList (more ++ [c]))) := by
    have hfield : dataField spaced payload =
        dataField spaced (String.ofList (more ++ [c])) ++ String.ofList blanks := by
      unfold dataField
      rw [String.append_assoc, ← hpayload]
    rw [hfield, sseData_append hw]
  unfold framedEvents
  rw [hframe]
  cases spaced with
  | true =>
      have hdata : sseData (dataField true (String.ofList (more ++ [c]))) = some (String.ofList (more ++ [c])) :=
        sseData_frame hsolid hc
      rw [hdata, if_pos rfl]
      show payloadEvents (String.ofList (more ++ [c])) = payloadEvents payload
      unfold payloadEvents
      rw [hparse, hv]
  | false =>
      have hhead : (String.ofList (more ++ [c])).toList.head? ≠ some ' ' := by
        rw [hsolid]
        intro hblank
        apply hspace rfl
        rw [hlist, List.head?_append, hblank]
        rfl
      have hdata : sseData (dataField false (String.ofList (more ++ [c]))) = none :=
        sseData_unspaced hsolid hc hhead
      rw [hdata]
      rfl

/-- The sentinel has no events, and nothing to throw on. -/
theorem sseData_done (spaced : Bool) (lineBreak : LineBreak) :
    OpenAi.chunkOf (dataField spaced "[DONE]" ++ lineBreak.behind) = none := by
  cases spaced <;> cases lineBreak <;> decide +kernel

theorem newline_not_mem_done (spaced : Bool) (lineBreak : LineBreak) :
    '\n' ∉ (dataField spaced "[DONE]" ++ lineBreak.behind).toList := by
  cases spaced <;> cases lineBreak <;> decide +kernel

/-! ### The lines of a stream -/

theorem newline_not_mem_rawLine {e : SseLine × LineBreak} (h : e.1.Standard) : '\n' ∉ (rawLine e).toList := by
  have htext : '\n' ∉ e.1.text.toList := by
    obtain ⟨line, lineBreak⟩ := e
    cases line with
    | data payload spaced =>
        intro hmem
        unfold SseLine.text dataField at hmem
        rw [String.toList_append] at hmem
        rcases List.mem_append.mp hmem with hmem | hmem
        · cases spaced <;> exact absurd hmem (by decide)
        · exact h.1.1 hmem
    | other text => exact h.1.1
  unfold rawLine
  rw [String.toList_append, List.mem_append]
  rintro (hmem | hmem)
  · exact htext hmem
  · cases hbreak : e.2 <;> rw [hbreak] at hmem <;> exact absurd hmem (by decide)

theorem HttpBody.text_single (text : String) (ending : BodyEnding) : HttpBody.text ⟨[text], ending⟩ = text := by
  unfold HttpBody.text
  rw [List.flatMap_singleton, String.ofList_toList]

/-- A line in front of a body. -/
theorem HttpBody.lines_line {body : HttpBody} {line rest : String} (hline : '\n' ∉ line.toList)
    (htext : body.text = line ++ "\n" ++ rest) :
    body.lines = line :: HttpBody.lines ⟨[rest], body.ending⟩ := by
  obtain ⟨first, more, hcut⟩ := List.exists_cons_of_ne_nil (splitLines_ne_nil rest)
  unfold HttpBody.lines
  rw [htext, HttpBody.text_single, splitLines_line hline, hcut]
  rfl

theorem lines_textOf {lines : List (SseLine × LineBreak)} (h : ∀ e ∈ lines, e.1.Standard) {rest : String}
    {body : HttpBody} (htext : body.text = textOf lines ++ rest) :
    body.lines = lines.map rawLine ++ HttpBody.lines ⟨[rest], body.ending⟩ := by
  induction lines generalizing body with
  | nil =>
      have hrest : body.text = rest := htext.trans String.empty_append
      unfold HttpBody.lines
      rw [hrest, HttpBody.text_single]
      rfl
  | cons e lines ih =>
      have hcut : body.text = rawLine e ++ "\n" ++ (textOf lines ++ rest) := by
        rw [htext, textOf, rawLine, LineBreak.text_eq]
        simp only [String.append_assoc]
      rw [HttpBody.lines_line (newline_not_mem_rawLine (h e List.mem_cons_self)) hcut,
        ih (fun d hd => h d (List.mem_cons_of_mem e hd)) (HttpBody.text_single _ _)]
      rfl

/-! ## Runs -/

/-- The parser throws on none of the lines. -/
def Calm (lines : List String) : Prop := ∀ line ∈ lines, Native.openai.Readable line

theorem succeeds_processLine_iff (line : String) :
    (OpenAi.processLine line).result.Succeeds ↔ Native.openai.Readable line := by
  rw [OpenAi.processLine_eq]
  cases hchunk : OpenAi.chunkOf line with
  | none => exact iff_of_true ⟨(), rfl⟩ fun v hv => nomatch hchunk.symm.trans hv
  | some chunk =>
      refine OpenAi.succeeds_processChunk_iff.trans ⟨fun h v hv => ?_, fun h => h chunk hchunk⟩
      obtain rfl := Option.some.inj (hchunk.symm.trans hv)
      exact h

theorem succeeds_processLines_iff (lines : List String) :
    (OpenAi.parser.processLines lines ()).result.Succeeds ↔ Calm lines := by
  induction lines with
  | nil => exact iff_of_true ⟨(), rfl⟩ fun line hline => absurd hline List.not_mem_nil
  | cons line rest ih =>
      rw [LineParser.processLines, OpenAi.parser_processLine, Gen.succeeds_bind_iff]
      unfold Calm at ih ⊢
      rw [List.forall_mem_cons, ← ih, ← succeeds_processLine_iff]
      constructor
      · rintro ⟨u, hline, hrest⟩
        exact ⟨⟨u, hline⟩, hrest⟩
      · rintro ⟨⟨u, hline⟩, hrest⟩
        exact ⟨u, hline, hrest⟩

/-- The events of the lines. -/
def lineEvents (lines : List String) : List UnifiedStreamEvent := (OpenAi.parser.processLines lines ()).events

theorem events_eq_lineEvents (body : HttpBody) : (OpenAi.parser.parseStream body).events = lineEvents body.lines :=
  OpenAi.parser.events_parseStream body

/-- What a line adds to the events of those before it: nothing when the parser has thrown. -/
def added (before : List String) (line : String) : List UnifiedStreamEvent :=
  match (OpenAi.parser.processLines before ()).result with
  | .ok _ => framedEvents line
  | .error _ => []

theorem added_of_calm {before : List String} (h : Calm before) (line : String) :
    added before line = framedEvents line := by
  obtain ⟨u, hu⟩ := (succeeds_processLines_iff before).mpr h
  unfold added
  rw [hu]

theorem added_of_not_calm {before : List String} (h : ¬Calm before) (line : String) : added before line = [] := by
  rw [← succeeds_processLines_iff] at h
  unfold added
  cases hresult : (OpenAi.parser.processLines before ()).result with
  | error e => rfl
  | ok u => exact absurd ⟨u, hresult⟩ h

/-- **The events of a run** are collected line by line. -/
theorem collects : List.Collects lineEvents added := by
  refine ⟨rfl, fun before line => ?_⟩
  unfold lineEvents added
  rw [LineParser.processLines_append]
  cases hresult : (OpenAi.parser.processLines before ()).result with
  | error e => rw [Gen.bind_of_error hresult, List.append_nil]
  | ok u =>
      have hline : (OpenAi.parser.processLines [line] u).events = (OpenAi.processLine line).events := by
        have hpure : OpenAi.parser.processLines [] = pure := rfl
        rw [LineParser.processLines, OpenAi.parser_processLine, hpure, bind_pure]
      rw [Gen.bind_of_ok hresult, ← events_processLine, ← hline]

/-- Lines that the parser throws on none of are left behind. -/
theorem lineEvents_append {before : List String} (h : Calm before) (after : List String) :
    lineEvents (before ++ after) = lineEvents before ++ lineEvents after := by
  obtain ⟨u, hu⟩ := (succeeds_processLines_iff before).mpr h
  unfold lineEvents
  rw [LineParser.processLines_append, Gen.bind_of_ok hu]

/-- Behind a line that the parser throws on, no line is read. -/
theorem lineEvents_append_of_not_calm {before : List String} (h : ¬Calm before) (after : List String) :
    lineEvents (before ++ after) = lineEvents before := by
  rw [← succeeds_processLines_iff] at h
  unfold lineEvents
  rw [LineParser.processLines_append]
  cases hresult : (OpenAi.parser.processLines before ()).result with
  | error e => rw [Gen.bind_of_error hresult]
  | ok u => exact absurd ⟨u, hresult⟩ h

/-- A line without a chunk might as well not be there. -/
theorem lineEvents_cons {line : String} (h : OpenAi.chunkOf line = none) (rest : List String) :
    lineEvents (line :: rest) = lineEvents rest := by
  have hpure : OpenAi.processLine line = pure () := by
    rw [OpenAi.processLine_eq, h]
    rfl
  unfold lineEvents
  rw [LineParser.processLines, OpenAi.parser_processLine, hpure, pure_bind]

/-! ## Streams -/

/-- The texts of the lines. -/
def textsOf (lines : List (SseLine × LineBreak)) : List String := lines.map (·.1.text)

/-- The events of the stream are those of its payloads in order, at its end and at every line before it, and what
    follows the sentinel adds none. -/
structure ReadAsSent (stream : SseStream) (body : HttpBody) : Prop where
  soFar : ∀ before after, stream.lines = before ++ after →
    (OpenAi.parser.parseStream ⟨[textOf before], .leftOpen⟩).events = (payloadsOf before).flatMap payloadEvents
  whole : (OpenAi.parser.parseStream body).events = (payloadsOf stream.lines).flatMap payloadEvents
  nothingAfterDone : (OpenAi.parser.parseStream body).events =
    (OpenAi.parser.parseStream ⟨[stream.textToDone], .leftOpen⟩).events

/-- The stream is framed the way the parser expects it: a `data` field with events has the space, no other line
    turns into one when trimmed, none of them stands behind a line the parser throws on, and no line with events
    follows the sentinel. -/
structure SseStream.Framed (stream : SseStream) (ending : BodyEnding) : Prop where
  data : ∀ before payload spaced lineBreak after,
    stream.lines = before ++ (.data payload spaced, lineBreak) :: after →
      payloadEvents payload ≠ [] → spaced = true ∧ Calm (textsOf before)
  other : ∀ before text lineBreak after, stream.lines = before ++ (.other text, lineBreak) :: after →
    Calm (textsOf before) → ∀ payload, sseData text = some payload → payloadEvents payload = []
  further : Calm (textsOf stream.lines) → ∀ before line after,
    HttpBody.lines ⟨[stream.further], ending⟩ = before ++ line :: after →
      Calm before → ∀ payload, sseData line = some payload → payloadEvents payload = []

/-- The events a line of the grammar stands for. -/
def owed (e : SseLine × LineBreak) : List UnifiedStreamEvent := e.1.payload?.elim [] payloadEvents

theorem flatMap_payloadsOf (lines : List (SseLine × LineBreak)) :
    (payloadsOf lines).flatMap payloadEvents = lines.flatMap owed := by
  induction lines with
  | nil => rfl
  | cons e rest ih =>
      obtain ⟨line, lineBreak⟩ := e
      cases line with
      | data payload spaced =>
          show payloadEvents payload ++ (payloadsOf rest).flatMap payloadEvents = _
          rw [ih]
          rfl
      | other text =>
          show (payloadsOf rest).flatMap payloadEvents = [] ++ rest.flatMap owed
          rw [ih, List.nil_append]

theorem readable_rawLine (e : SseLine × LineBreak) :
    Native.openai.Readable (rawLine e) ↔ Native.openai.Readable e.1.text := by
  have hchunk : OpenAi.chunkOf (rawLine e) = OpenAi.chunkOf e.1.text := by
    unfold OpenAi.chunkOf
    rw [sseData_rawLine]
  unfold Native.Readable
  show (∀ v, OpenAi.chunkOf (rawLine e) = some v → _) ↔ ∀ v, OpenAi.chunkOf e.1.text = some v → _
  rw [hchunk]

theorem calm_rawLines (lines : List (SseLine × LineBreak)) :
    Calm (lines.map rawLine) ↔ Calm (textsOf lines) := by
  unfold Calm textsOf
  rw [List.forall_mem_map, List.forall_mem_map]
  exact forall₂_congr fun e _ => readable_rawLine e

namespace SseStream

variable {stream : SseStream}

theorem framedEvents_rawLine (e : SseLine × LineBreak) : framedEvents (rawLine e) = framedEvents e.1.text := by
  unfold framedEvents
  rw [sseData_rawLine]

/-- An event is not lost: it has no events to lose, or its line is read and has the space. -/
theorem adds_data_iff {payload : String} {spaced : Bool} (h : (SseLine.data payload spaced).Standard)
    (lineBreak : LineBreak) (before : List (SseLine × LineBreak)) :
    added (before.map rawLine) (rawLine (.data payload spaced, lineBreak)) = payloadEvents payload ↔
      (payloadEvents payload ≠ [] → spaced = true ∧ Calm (textsOf before)) := by
  have hframed : framedEvents (rawLine (.data payload spaced, lineBreak)) =
      if spaced then payloadEvents payload else [] :=
    (framedEvents_rawLine _).trans (framedEvents_data h)
  by_cases hcalm : Calm (textsOf before)
  · rw [added_of_calm ((calm_rawLines before).mpr hcalm), hframed, and_iff_left hcalm]
    cases spaced with
    | true => exact iff_of_true rfl fun _ => rfl
    | false => exact ⟨fun h hne => absurd h.symm hne, fun h => (not_not.mp fun hne => nomatch h hne).symm⟩
  · rw [added_of_not_calm fun h => hcalm ((calm_rawLines before).mp h)]
    exact ⟨fun h hne => absurd h.symm hne, fun h => (not_not.mp fun hne => hcalm (h hne).2).symm⟩

/-- Another line adds nothing: it is not read, or has no events when trimmed. -/
theorem adds_nothing_iff (line : String) (before : List String) :
    added before line = [] ↔
      (Calm before → ∀ payload, sseData line = some payload → payloadEvents payload = []) := by
  rw [← framedEvents_eq_nil_iff]
  by_cases hcalm : Calm before
  · rw [added_of_calm hcalm, imp_iff_right hcalm]
  · exact iff_of_true (added_of_not_calm hcalm line) fun h => absurd h hcalm

/-- The lines of the stream add what they stand for exactly when they are framed so. -/
theorem adds_owed_iff :
    (∀ before e after, stream.lines = before ++ e :: after →
        added (before.map rawLine) (rawLine e) = owed e) ↔
      (∀ before payload spaced lineBreak after,
        stream.lines = before ++ (.data payload spaced, lineBreak) :: after →
          payloadEvents payload ≠ [] → spaced = true ∧ Calm (textsOf before)) ∧
        ∀ before text lineBreak after, stream.lines = before ++ (.other text, lineBreak) :: after →
          Calm (textsOf before) → ∀ payload, sseData text = some payload → payloadEvents payload = [] := by
  have hstandard : ∀ {before e after}, stream.lines = before ++ e :: after → e.1.Standard := by
    intro before e after hlines
    apply stream.standard
    rw [hlines]
    exact List.mem_append_right _ List.mem_cons_self
  have hother : ∀ before text lineBreak, added (before.map rawLine) (rawLine (.other text, lineBreak)) = [] ↔
      (Calm (textsOf before) → ∀ payload, sseData text = some payload → payloadEvents payload = []) := by
    intro before text lineBreak
    rw [adds_nothing_iff, calm_rawLines, sseData_rawLine]
    exact Iff.rfl
  constructor
  · intro hall
    refine ⟨fun before payload spaced lineBreak after hlines => ?_, fun before text lineBreak after hlines => ?_⟩
    · exact (adds_data_iff (hstandard hlines) lineBreak before).mp (hall before _ after hlines)
    · exact (hother before text lineBreak).mp (hall before _ after hlines)
  · rintro ⟨hevents, hothers⟩ before ⟨line, lineBreak⟩ after hlines
    cases line with
    | data payload spaced =>
        exact (adds_data_iff (hstandard hlines) lineBreak before).mpr
          (hevents before payload spaced lineBreak after hlines)
    | other text => exact (hother before text lineBreak).mpr (hothers before text lineBreak after hlines)

/-- **The lines of a stream**: those of the grammar, the sentinel, and what follows. -/
theorem lines_eq {body : HttpBody} (htext : body.text = stream.text) :
    body.lines = stream.lines.map rawLine ++ (dataField stream.doneSpaced "[DONE]" ++ stream.doneBreak.behind) ::
      HttpBody.lines ⟨[stream.further], body.ending⟩ := by
  have hcut : body.text = textOf stream.lines ++
      (dataField stream.doneSpaced "[DONE]" ++ stream.doneBreak.behind ++ "\n" ++ stream.further) := by
    rw [htext]
    unfold text textToDone
    rw [LineBreak.text_eq]
    simp only [String.append_assoc]
  rw [lines_textOf stream.standard hcut]
  apply congrArg
  exact HttpBody.lines_line (newline_not_mem_done stream.doneSpaced stream.doneBreak) (HttpBody.text_single _ _)

theorem lines_soFar {before after : List (SseLine × LineBreak)} (h : stream.lines = before ++ after) :
    HttpBody.lines ⟨[textOf before], .leftOpen⟩ = before.map rawLine := by
  have hstandard : ∀ e ∈ before, e.1.Standard := by
    intro e he
    apply stream.standard
    rw [h]
    exact List.mem_append_left after he
  have htext : HttpBody.text ⟨[textOf before], .leftOpen⟩ = textOf before ++ "" :=
    (HttpBody.text_single _ _).trans String.append_empty.symm
  have hnothing : HttpBody.lines ⟨[""], .leftOpen⟩ = [] := by decide +kernel
  rw [lines_textOf hstandard htext, hnothing, List.append_nil]

/-- The sentinel adds nothing to the lines in front of it. -/
theorem lineEvents_toDone (stream : SseStream) :
    lineEvents (HttpBody.lines ⟨[stream.textToDone], .leftOpen⟩) = lineEvents (stream.lines.map rawLine) := by
  have htext : HttpBody.text ⟨[stream.textToDone], .leftOpen⟩ = textOf stream.lines ++
      (dataField stream.doneSpaced "[DONE]" ++ stream.doneBreak.behind ++ "\n" ++ "") := by
    rw [HttpBody.text_single, textToDone, LineBreak.text_eq, String.append_empty]
    simp only [String.append_assoc]
  have hnothing : HttpBody.lines ⟨[""], .leftOpen⟩ = [] := by decide +kernel
  rw [lines_textOf stream.standard htext,
    HttpBody.lines_line (newline_not_mem_done stream.doneSpaced stream.doneBreak) (HttpBody.text_single _ _),
    hnothing]
  by_cases hcalm : Calm (stream.lines.map rawLine)
  · rw [lineEvents_append hcalm, lineEvents_cons (sseData_done _ _)]
    exact List.append_nil _
  · exact lineEvents_append_of_not_calm hcalm _

/-- What follows the sentinel adds nothing when it is not read, or nothing in it has events. -/
theorem lineEvents_further_iff {body : HttpBody} (htext : body.text = stream.text) :
    lineEvents body.lines = lineEvents (stream.lines.map rawLine) ↔
      (Calm (textsOf stream.lines) → ∀ before line after,
        HttpBody.lines ⟨[stream.further], body.ending⟩ = before ++ line :: after →
          Calm before → ∀ payload, sseData line = some payload → payloadEvents payload = []) := by
  rw [lines_eq htext, ← calm_rawLines]
  by_cases hcalm : Calm (stream.lines.map rawLine)
  · rw [lineEvents_append hcalm, lineEvents_cons (sseData_done _ _), imp_iff_right hcalm, List.append_right_eq_self,
      collects.eq_nil_iff]
    refine forall_congr' fun before => forall_congr' fun line => forall_congr' fun after =>
      imp_congr_right fun _ => ?_
    exact adds_nothing_iff line before
  · exact iff_of_true (lineEvents_append_of_not_calm hcalm _) fun h => absurd h hcalm

end SseStream

open SseStream in
/-- **The events of a stream are those of its payloads** exactly when it is framed the way the parser expects. -/
theorem readAsSent_iff {stream : SseStream} {body : HttpBody} (htext : body.text = stream.text) :
    ReadAsSent stream body ↔ stream.Framed body.ending := by
  have hcollects := collects.map rawLine
  have hsoFar : (∀ before after, stream.lines = before ++ after →
      (OpenAi.parser.parseStream ⟨[textOf before], .leftOpen⟩).events = (payloadsOf before).flatMap payloadEvents) ↔
        ∀ before e after, stream.lines = before ++ e :: after →
          added (before.map rawLine) (rawLine e) = owed e := by
    rw [← hcollects.forall_prefix_iff]
    refine forall_congr' fun before => forall_congr' fun after => imp_congr_right fun hlines => ?_
    rw [events_eq_lineEvents, lines_soFar hlines, flatMap_payloadsOf]
  have hdone : (OpenAi.parser.parseStream ⟨[stream.textToDone], .leftOpen⟩).events =
      lineEvents (stream.lines.map rawLine) :=
    (events_eq_lineEvents _).trans (lineEvents_toDone stream)
  constructor
  · rintro ⟨hsofar, -, hafter⟩
    obtain ⟨hdata, hother⟩ := adds_owed_iff.mp (hsoFar.mp hsofar)
    rw [events_eq_lineEvents, hdone] at hafter
    exact ⟨hdata, hother, (lineEvents_further_iff htext).mp hafter⟩
  · rintro ⟨hdata, hother, hfurther⟩
    have hsofar := hsoFar.mpr (adds_owed_iff.mpr ⟨hdata, hother⟩)
    have hevents := (lineEvents_further_iff htext).mpr hfurther
    -- at the last line the events so far are all of them
    have hall := hsofar stream.lines [] (List.append_nil _).symm
    rw [events_eq_lineEvents, lines_soFar (List.append_nil _).symm] at hall
    refine ⟨hsofar, ?_, ?_⟩
    · rw [events_eq_lineEvents, hevents, hall]
    · rw [events_eq_lineEvents, hevents, hdone]

/-- A stream of one event. -/
def greeting (spaced : Bool) : SseStream where
  lines :=
    [(.data "\x7b\"choices\":[\x7b\"delta\":\x7b\"content\":\"Hi\"\x7d\x7d]\x7d" spaced, .lf), (.other "", .lf)]
  doneSpaced := true
  doneBreak := .lf
  further := "\n"
  standard := by
    refine List.forall_mem_cons.mpr ⟨⟨⟨by decide +kernel, by decide +kernel⟩, by decide +kernel, ?_⟩,
      List.forall_mem_singleton.mpr ⟨⟨by decide, by decide⟩, by decide, by decide⟩⟩
    exact fun _ => by decide +kernel
  separated := ⟨rfl, rfl⟩

/-- With the space the event is read. -/
theorem readAsSent_spaced : ReadAsSent (greeting true) ⟨[(greeting true).text], .closed⟩ := by
  have hblank : sseData "" = none := by decide +kernel
  apply (readAsSent_iff (HttpBody.text_single _ _)).mpr
  refine ⟨fun before payload spaced lineBreak after hlines _ => ?_,
    fun before text lineBreak after hlines _ payload hpayload => ?_,
    fun _ before line after hlines _ payload hpayload => ?_⟩
  · cases before with
    | nil =>
        cases hlines
        exact ⟨rfl, fun line hline => nomatch hline⟩
    | cons e before =>
        have hmem : (SseLine.data payload spaced, lineBreak) ∈ [(SseLine.other "", LineBreak.lf)] := by
          rw [(List.cons.inj hlines).2]
          exact List.mem_append_right before List.mem_cons_self
        cases List.mem_singleton.mp hmem
  · have hmem : (SseLine.other text, lineBreak) ∈ (greeting true).lines := by
      rw [hlines]
      exact List.mem_append_right before List.mem_cons_self
    rcases List.mem_cons.mp hmem with hdata | hother
    · cases hdata
    · cases List.mem_singleton.mp hother
      cases hblank.symm.trans hpayload
  · have hfurther : HttpBody.lines ⟨["\n"], .closed⟩ = [""] := by decide +kernel
    have hline : line ∈ [""] := by
      rw [← hfurther]
      exact hlines ▸ List.mem_append_right before List.mem_cons_self
    rw [List.mem_singleton.mp hline, hblank] at hpayload
    cases hpayload

/-- Without the space the event is lost. -/
theorem greeting_lost :
    (greeting false).text =
        "data:\x7b\"choices\":[\x7b\"delta\":\x7b\"content\":\"Hi\"\x7d\x7d]\x7d\n\ndata: [DONE]\n\n" ∧
      (payloadsOf (greeting false).lines).flatMap payloadEvents = [.contentDelta (.json (.str "Hi"))] ∧
      (OpenAi.parser.parseStream ⟨[(greeting false).text], .closed⟩).events = [] := by
  refine ⟨by decide +kernel, by decide +kernel, by decide +kernel⟩

end Sirius
