import SiriusGateway.Js.Parse
import SiriusGateway.Lib.Lists
import SiriusGateway.Lib.Succeeds
import SiriusGateway.Policy.Execute

/-!
# `Adapters.EventStream` — reading a streamed body line by line

The read loop the three native stream parsers share: chunks are appended to a buffer, the buffer is cut at
newlines, its last piece is kept, and what is left when the body closes is one more line. The parsers differ
in the state they keep and in what a line yields, which is a `LineParser`.

## Contents
- **Generators.** `Gen`: the events a generator yields, and how it ends; `Quiet` and `Clean` with their
  rules.
- **The loop.** `HttpBody`, `LineParser`, `parseStream`.
- **Lines.** `HttpBody.lines`, and `parseStream_eq`: where the chunks are cut makes no difference. A run over
  lines is a run over the values they carry (`processLines_filterMap`).
-/

namespace Sirius

open Js

/-! ## Generators -/

/-- A generator run to its end: the events it yields, and its result or what it throws. -/
structure Gen (α : Type) where
  events : List UnifiedStreamEvent
  result : Throws α

namespace Gen

variable {α β : Type}

/-- `yield event`. -/
def yield (event : UnifiedStreamEvent) : Gen Unit := ⟨[event], .ok ()⟩

/-- Code that yields nothing and may throw. -/
def lift (x : Throws α) : Gen α := ⟨[], x⟩

/-- Run `f` on the result; a throw ends the generator. -/
def bind (g : Gen α) (f : α → Gen β) : Gen β :=
  match g.result with
  | .error e => ⟨g.events, .error e⟩
  | .ok a => ⟨g.events ++ (f a).events, (f a).result⟩

instance : Monad Gen where
  pure a := ⟨[], .ok a⟩
  bind := Gen.bind

@[simp] theorem events_pure (a : α) : (pure a : Gen α).events = [] := rfl
@[simp] theorem result_pure (a : α) : (pure a : Gen α).result = .ok a := rfl
@[simp] theorem events_yield (e : UnifiedStreamEvent) : (yield e).events = [e] := rfl
@[simp] theorem result_yield (e : UnifiedStreamEvent) : (yield e).result = .ok () := rfl
@[simp] theorem events_lift (x : Throws α) : (lift x).events = [] := rfl
@[simp] theorem result_lift (x : Throws α) : (lift x).result = x := rfl

/-- Code that does not throw is its value. -/
theorem lift_ok (a : α) : lift (.ok a) = pure a := rfl

theorem bind_of_ok {g : Gen α} {f : α → Gen β} {a : α} (h : g.result = .ok a) :
    g >>= f = ⟨g.events ++ (f a).events, (f a).result⟩ := by
  show g.bind f = _
  unfold Gen.bind
  rw [h]

theorem bind_of_error {g : Gen α} {f : α → Gen β} {e : JsError} (h : g.result = .error e) :
    g >>= f = ⟨g.events, .error e⟩ := by
  show g.bind f = _
  unfold Gen.bind
  rw [h]

/-- What returns has gone through both parts. -/
theorem bind_eq_ok {g : Gen α} {f : α → Gen β} {b : β} (h : (g >>= f).result = .ok b) :
    ∃ a, g.result = .ok a ∧ (f a).result = .ok b := by
  cases hg : g.result with
  | error e =>
      rw [bind_of_error hg] at h
      cases h
  | ok a =>
      rw [bind_of_ok hg] at h
      exact ⟨a, rfl, h⟩

/-- A generator returns when its first part does, and its second on what the first returns. -/
theorem succeeds_bind_iff {g : Gen α} {f : α → Gen β} :
    (g >>= f).result.Succeeds ↔ ∃ a, g.result = .ok a ∧ (f a).result.Succeeds := by
  constructor
  · rintro ⟨b, hb⟩
    obtain ⟨a, ha, hf⟩ := bind_eq_ok hb
    exact ⟨a, ha, b, hf⟩
  · rintro ⟨a, ha, hf⟩
    rw [bind_of_ok ha]
    exact hf

/-- A part that always returns, with a value the rest does not look at. -/
theorem succeeds_bind_of_succeeds {g : Gen α} {f : α → Gen β} {C : Prop} (hg : g.result.Succeeds)
    (hf : ∀ a, g.result = .ok a → ((f a).result.Succeeds ↔ C)) : (g >>= f).result.Succeeds ↔ C := by
  obtain ⟨a, ha⟩ := hg
  rw [succeeds_bind_iff]
  constructor
  · rintro ⟨a', ha', h⟩
    exact (hf a' ha').mp h
  · exact fun h => ⟨a, ha, (hf a ha).mpr h⟩

instance : LawfulMonad Gen := LawfulMonad.mk' Gen
  (by
    intro α g
    obtain ⟨events, result⟩ := g
    cases result with
    | error e => rfl
    | ok a =>
        show (⟨events ++ [], .ok a⟩ : Gen α) = ⟨events, .ok a⟩
        rw [List.append_nil])
  (by
    intro α β a f
    rfl)
  (by
    intro α β γ g f k
    cases h : g.result with
    | error e => rw [bind_of_error h, bind_of_error rfl, bind_of_error h]
    | ok a =>
        rw [bind_of_ok h, bind_of_ok (f := fun a => f a >>= k) h]
        cases h' : (f a).result with
        | error e => rw [bind_of_error rfl, bind_of_error h']
        | ok b =>
            rw [bind_of_ok rfl, bind_of_ok h']
            simp [List.append_assoc])

/-! ### Terminal events -/

/-- The terminal events. -/
def terminals (g : Gen α) : List UnifiedStreamEvent := g.events.filter (·.isTerminal)

/-- No event is terminal. -/
def Quiet (g : Gen α) : Prop := g.terminals = []

theorem quiet_pure (a : α) : Quiet (pure a : Gen α) := rfl
theorem quiet_lift (x : Throws α) : Quiet (lift x) := rfl

theorem quiet_yield {e : UnifiedStreamEvent} (h : e.isTerminal = false) : Quiet (yield e) := by
  unfold Quiet terminals
  simp [h]

theorem Quiet.bind {g : Gen α} {f : α → Gen β} (hg : Quiet g) (hf : ∀ a, Quiet (f a)) :
    Quiet (g >>= f) := by
  unfold Quiet terminals at *
  cases h : g.result with
  | error e => rwa [bind_of_error h]
  | ok a =>
      rw [bind_of_ok h]
      show (g.events ++ (f a).events).filter _ = []
      rw [List.filter_append, hg, hf a, List.append_nil]

/-- **A generator behind a quiet one** yields all terminal events there are. -/
theorem Quiet.terminals_bind {g : Gen α} {f : α → Gen β} {b : β} (hg : Quiet g)
    (h : (g >>= f).result = .ok b) :
    ∃ a, g.result = .ok a ∧ (f a).result = .ok b ∧ (g >>= f).terminals = (f a).terminals := by
  cases hr : g.result with
  | error e =>
      rw [bind_of_error hr] at h
      cases h
  | ok a =>
      rw [bind_of_ok hr] at h ⊢
      refine ⟨a, rfl, h, ?_⟩
      unfold Quiet terminals at hg
      unfold terminals
      rw [List.filter_append, hg, List.nil_append]

/-! ### Clean runs -/

/-- The generator does not throw, and no event of it stops the observer. -/
def Clean (g : Gen α) : Prop := g.result.Succeeds ∧ ∀ e ∈ g.events, e.wellTyped = true

theorem clean_pure (a : α) : Clean (pure a : Gen α) := ⟨⟨a, rfl⟩, fun _ h => absurd h List.not_mem_nil⟩

theorem clean_lift {x : Throws α} (h : x.Succeeds) : Clean (lift x) :=
  ⟨h, fun _ h => absurd h List.not_mem_nil⟩

theorem clean_yield {e : UnifiedStreamEvent} (h : e.wellTyped = true) : Clean (yield e) :=
  ⟨⟨(), rfl⟩, fun _ he => List.mem_singleton.mp he ▸ h⟩

theorem Clean.bind {g : Gen α} {f : α → Gen β} (hg : Clean g)
    (hf : ∀ a, g.result = .ok a → Clean (f a)) : Clean (g >>= f) := by
  obtain ⟨⟨a, ha⟩, hevents⟩ := hg
  obtain ⟨hresult, hmore⟩ := hf a ha
  rw [bind_of_ok ha]
  refine ⟨hresult, fun e he => ?_⟩
  rcases List.mem_append.mp he with he | he
  · exact hevents e he
  · exact hmore e he

end Gen

/-! ## The loop -/

/-- How a body ends after its chunks. -/
inductive BodyEnding where
  | closed
  /-- The connection breaks: the next read throws. -/
  | reset (message : String)
  /-- The next read stays pending. -/
  | leftOpen
  deriving DecidableEq

/-- A response body: its decoded chunks, and its end. -/
structure HttpBody where
  chunks : List String
  ending : BodyEnding
  deriving DecidableEq

/-- A stream parser: the state it keeps between lines, and what a line yields. -/
structure LineParser (σ : Type) where
  init : σ
  processLine : String → σ → Gen σ

/-- The payload of an SSE `data:` line; blank lines, comments and other fields have none. -/
def sseData (line : String) : Option String :=
  let trimmed := trim line
  if trimmed = "" ∨ trimmed.startsWith ":" then none
  else if trimmed.startsWith "data: " then some (String.ofList (trimmed.toList.drop 6))
  else none

/-- `text.split('\n')`. -/
def splitLines (text : String) : List String := (text.toList.splitOn '\n').map String.ofList

namespace LineParser

variable {σ : Type} (p : LineParser σ)

/-- `for (const line of lines) yield* processLine(line, …)`. -/
def processLines : List String → σ → Gen σ
  | [], s => pure s
  | line :: rest, s => p.processLine line s >>= processLines rest

/-- The `while (true)` loop up to the end of the chunks: what is left in the buffer, and the state. -/
def readChunks : List String → String → σ → Gen (String × σ)
  | [], buffer, s => pure (buffer, s)
  | chunk :: rest, buffer, s => do
      let pieces := splitLines (buffer ++ chunk)
      let s ← p.processLines pieces.dropLast s
      readChunks rest (pieces.getLastD "") s

/-- The read loop over a whole body. -/
def parseStream (body : HttpBody) : StreamAttempt :=
  let read := do
    let (buffer, s) ← p.readChunks body.chunks "" p.init
    if body.ending = BodyEnding.closed ∧ trim buffer ≠ "" then p.processLine buffer s else pure s
  match read.result, body.ending with
  | .error e, _ => ⟨read.events, .threw e.message⟩
  | .ok _, .closed => ⟨read.events, .finished⟩
  | .ok _, .reset message => ⟨read.events, .threw message⟩
  | .ok _, .leftOpen => ⟨read.events, .stalled⟩

end LineParser

/-! ## Lines -/

/-- The text of the chunks. -/
def HttpBody.text (body : HttpBody) : String := String.ofList (body.chunks.flatMap String.toList)

/-- The lines a parser gets to see: those a newline ends, and on a closed body the rest, unless it is
    blank. -/
def HttpBody.lines (body : HttpBody) : List String :=
  let pieces := splitLines body.text
  let last := pieces.getLastD ""
  pieces.dropLast ++ (if body.ending = .closed ∧ trim last ≠ "" then [last] else [])

theorem splitLines_ne_nil (text : String) : splitLines text ≠ [] := by
  unfold splitLines
  rw [ne_eq, List.map_eq_nil_iff]
  exact List.splitOn_ne_nil '\n' text.toList

/-- The last piece of a text, cut again, is itself. -/
theorem splitLines_append (a b : String) :
    splitLines (a ++ b) = (splitLines a).dropLast ++ splitLines ((splitLines a).getLastD "" ++ b) := by
  have hlast : ((splitLines a).getLastD "").toList = (a.toList.splitOn '\n').getLastD [] := by
    unfold splitLines
    rw [List.getLastD_eq_getLast?, List.getLastD_eq_getLast?, List.getLast?_map]
    cases (a.toList.splitOn '\n').getLast? <;> simp
  unfold splitLines at *
  rw [String.toList_append, String.toList_append, hlast, List.splitOn_append, List.map_append,
    List.map_dropLast]

theorem splitLines_getLastD (a : String) :
    splitLines ((splitLines a).getLastD "") = [(splitLines a).getLastD ""] := by
  have h := splitLines_append a ""
  rw [String.append_empty, String.append_empty] at h
  have hcut := List.dropLast_concat_getLast (splitLines_ne_nil a)
  rw [List.getLastD_eq_getLast?, List.getLast?_eq_some_getLast (splitLines_ne_nil a),
    Option.getD_some] at h ⊢
  exact (List.append_cancel_left (hcut.trans h)).symm

namespace LineParser

variable {σ : Type} (p : LineParser σ)

theorem processLines_append (l r : List String) (s : σ) :
    p.processLines (l ++ r) s = p.processLines l s >>= p.processLines r := by
  induction l generalizing s with
  | nil => rfl
  | cons line rest ih =>
      simp only [List.cons_append, processLines, bind_assoc]
      exact congrArg _ (funext ih)

variable {α : Type}

/-- The values a stream carries, processed one after another. -/
def processAll (step : α → σ → Gen σ) : List α → σ → Gen σ
  | [], s => pure s
  | v :: rest, s => step v s >>= processAll step rest

theorem processAll_append (step : α → σ → Gen σ) (l r : List α) (s : σ) :
    processAll step (l ++ r) s = processAll step l s >>= processAll step r := by
  induction l generalizing s with
  | nil => rfl
  | cons v rest ih =>
      simp only [List.cons_append, processAll, bind_assoc]
      exact congrArg _ (funext ih)

/-- A run over lines is a run over the values they carry, when a line without one does nothing. -/
theorem processLines_filterMap {step : α → σ → Gen σ} {valueOf : String → Option α}
    (h : ∀ line s, p.processLine line s = (valueOf line).elim (pure s) fun v => step v s)
    (lines : List String) (s : σ) : p.processLines lines s = processAll step (lines.filterMap valueOf) s := by
  induction lines generalizing s with
  | nil => rfl
  | cons line rest ih =>
      show p.processLine line s >>= p.processLines rest = _
      rw [h]
      cases hvalue : valueOf line with
      | none =>
          rw [List.filterMap_cons_none hvalue, ← ih s]
          exact pure_bind s _
      | some v =>
          rw [List.filterMap_cons_some hvalue]
          exact congrArg _ (funext ih)

/-- Values that do nothing may be left out. -/
theorem processAll_filter {step : α → σ → Gen σ} {isRead : α → Bool} {values : List α}
    (h : ∀ v ∈ values, isRead v = false → ∀ s, step v s = pure s) (s : σ) :
    processAll step values s = processAll step (values.filter isRead) s := by
  induction values generalizing s with
  | nil => rfl
  | cons v rest ih =>
      obtain ⟨hv, hrest⟩ := List.forall_mem_cons.mp h
      show step v s >>= processAll step rest = _
      cases hread : isRead v with
      | false =>
          rw [List.filter_cons_of_neg (by rw [hread]; exact Bool.false_ne_true), hv hread s, pure_bind]
          exact ih hrest s
      | true =>
          rw [List.filter_cons_of_pos hread]
          exact congrArg _ (funext fun s' => ih hrest s')

/-- **Where the chunks are cut makes no difference**: the loop processes the lines of the whole text. -/
theorem readChunks_eq (chunks : List String) (buffer : String) (s : σ)
    (hbuffer : splitLines buffer = [buffer]) :
    p.readChunks chunks buffer s =
      (do
        let pieces := splitLines (buffer ++ String.ofList (chunks.flatMap String.toList))
        let s ← p.processLines pieces.dropLast s
        return (pieces.getLastD "", s)) := by
  induction chunks generalizing buffer s with
  | nil =>
      have hnil : buffer ++ String.ofList (List.flatMap String.toList []) = buffer :=
        String.append_empty
      simp only [hnil, hbuffer]
      rfl
  | cons chunk rest ih =>
      have hcons : buffer ++ String.ofList ((chunk :: rest).flatMap String.toList) =
          buffer ++ chunk ++ String.ofList (rest.flatMap String.toList) := by
        rw [List.flatMap_cons, String.ofList_append, String.ofList_toList, String.append_assoc]
      have hne := splitLines_ne_nil
        ((splitLines (buffer ++ chunk)).getLastD "" ++ String.ofList (rest.flatMap String.toList))
      rw [hcons]
      simp only [readChunks, splitLines_append (buffer ++ chunk),
        ih _ _ (splitLines_getLastD (buffer ++ chunk)), List.dropLast_append_of_ne_nil hne,
        processLines_append, bind_assoc, List.getLastD_append_of_ne_nil hne]

/-- **The read loop processes the body's lines.** -/
theorem parseStream_eq (body : HttpBody) :
    p.parseStream body =
      match (p.processLines body.lines p.init).result, body.ending with
      | .error e, _ => ⟨(p.processLines body.lines p.init).events, .threw e.message⟩
      | .ok _, .closed => ⟨(p.processLines body.lines p.init).events, .finished⟩
      | .ok _, .reset message => ⟨(p.processLines body.lines p.init).events, .threw message⟩
      | .ok _, .leftOpen => ⟨(p.processLines body.lines p.init).events, .stalled⟩ := by
  have hread : (do
      let (buffer, s) ← p.readChunks body.chunks "" p.init
      if body.ending = BodyEnding.closed ∧ trim buffer ≠ "" then p.processLine buffer s else pure s) =
      p.processLines body.lines p.init := by
    have hempty : ("" : String) ++ String.ofList (body.chunks.flatMap String.toList) = body.text :=
      String.empty_append
    rw [readChunks_eq p body.chunks "" p.init (by decide), hempty]
    unfold HttpBody.lines
    simp only [processLines_append, bind_assoc, pure_bind]
    congr 1
    funext s
    split
    · simp only [processLines, bind_pure]
    · rfl
  unfold parseStream
  rw [hread]

theorem events_parseStream (body : HttpBody) :
    (p.parseStream body).events = (p.processLines body.lines p.init).events := by
  rw [p.parseStream_eq body]
  split <;> rfl

/-- On a body that does not break off, only a line can make the parser throw. -/
theorem not_threw_iff {body : HttpBody} (h : ∀ message, body.ending ≠ .reset message) :
    (∀ message, (p.parseStream body).ending ≠ .threw message) ↔
      (p.processLines body.lines p.init).result.Succeeds := by
  rw [p.parseStream_eq body]
  cases hrun : (p.processLines body.lines p.init).result with
  | error e => exact iff_of_false (fun hthrew => hthrew e.message rfl) (Except.not_succeeds_error e)
  | ok s =>
      refine iff_of_true (fun message => ?_) (Except.succeeds_ok s)
      cases hending : body.ending with
      | closed => exact fun h => nomatch h
      | reset message => exact absurd hending (h message)
      | leftOpen => exact fun h => nomatch h

/-! ### What a run of lines yields -/

/-- What a parser's completion marker does: a line that goes through yields one `done` when it carries the
    marker, and no terminal event otherwise. -/
def Marks (isMarker : String → Bool) : Prop :=
  ∀ line s s', (p.processLine line s).result = .ok s' →
    if isMarker line then ∃ reason, (p.processLine line s).terminals = [.done reason]
    else (p.processLine line s).terminals = []

/-- **The terminal events of a run** that goes through: one `done` for every marker. -/
theorem Marks.terminals_processLines {p : LineParser σ} {isMarker : String → Bool} (h : p.Marks isMarker)
    {lines : List String} {s s' : σ} (hok : (p.processLines lines s).result = .ok s') :
    (p.processLines lines s).terminals.length = lines.countP isMarker ∧
      ∀ e ∈ (p.processLines lines s).terminals, e.isDone = true := by
  induction lines generalizing s with
  | nil => exact ⟨rfl, fun e he => absurd he List.not_mem_nil⟩
  | cons line rest ih =>
      simp only [processLines] at hok ⊢
      cases hline : (p.processLine line s).result with
      | error e =>
          rw [Gen.bind_of_error hline] at hok
          cases hok
      | ok s₁ =>
          rw [Gen.bind_of_ok hline] at hok ⊢
          obtain ⟨hlen, hdone⟩ := ih hok
          have hmark := h line s s₁ hline
          unfold Gen.terminals at hmark hlen hdone ⊢
          rw [List.filter_append, List.length_append, hlen, List.countP_cons]
          cases hm : isMarker line with
          | true =>
              rw [hm, if_pos rfl] at hmark
              obtain ⟨reason, hmark⟩ := hmark
              rw [hmark]
              refine ⟨by rw [List.length_singleton, if_pos rfl, Nat.add_comm], ?_⟩
              intro e he
              rcases List.mem_append.mp he with he | he
              · rw [List.mem_singleton.mp he]
                rfl
              · exact hdone e he
          | false =>
              rw [hm, if_neg Bool.false_ne_true] at hmark
              rw [hmark, List.nil_append]
              exact ⟨by simp, hdone⟩

/-- **A run over lines that are each clean**, in states the lines before them leave. -/
theorem clean_processLines {I : σ → Prop} {WellFormed : String → Prop}
    (hstep : ∀ line s, WellFormed line → I s →
      (p.processLine line s).Clean ∧ ∀ s', (p.processLine line s).result = .ok s' → I s')
    {lines : List String} {s : σ} (hlines : ∀ line ∈ lines, WellFormed line) (hs : I s) :
    (p.processLines lines s).Clean := by
  induction lines generalizing s with
  | nil => exact Gen.clean_pure s
  | cons line rest ih =>
      obtain ⟨hclean, hinv⟩ := hstep line s (hlines line List.mem_cons_self) hs
      exact hclean.bind fun s' hs' =>
        ih (fun l hl => hlines l (List.mem_cons_of_mem _ hl)) (hinv s' hs')

end LineParser

end Sirius
