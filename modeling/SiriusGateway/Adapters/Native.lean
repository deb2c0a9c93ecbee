import SiriusGateway.Adapters.Anthropic
import SiriusGateway.Adapters.Nova
import SiriusGateway.Adapters.Ollama
import SiriusGateway.Adapters.OpenAi

/-!
# `Adapters.Native` — the adapters over HTTP

`createResponse` and `streamResponse` of the OpenAI, Anthropic and Ollama adapters: map the request, fetch,
look at the status, read the body. The three differ in their mappers, their error texts and their body
formats. `Upstream.env` puts them under the policy, each attempt with what `fetch` does for it.

## Contents
- **HTTP.** `HttpResponse`, `FetchResult`, `readText`.
- **The adapters.** `mapRequest`, `refusal`, `createResponse`, `streamResponse`.
- **Streams.** The completion markers and well-formed lines of the three formats, and what a parser makes of
  a body (`parseStream_of_ok`, `parseStream_of_wellFormed`).
- **Under the policy.** `Upstream`, and `Upstream.env`, which puts it behind a run.
-/

namespace Sirius

open Js

/-! ## HTTP -/

/-- What `fetch` resolves to. -/
structure HttpResponse where
  status : Nat
  statusText : String
  body : Option HttpBody
  deriving DecidableEq

/-- `res.ok`. -/
def HttpResponse.ok (res : HttpResponse) : Bool := 200 ≤ res.status && res.status < 300

/-- What `fetch` does when its signal has not fired. -/
inductive FetchResult where
  | responded (res : HttpResponse)
  /-- It rejects: the connection fails. -/
  | failed (message : String)
  | pending
  deriving DecidableEq

/-- Reading a body to its end. -/
inductive BodyRead where
  | text (text : String)
  | failed (message : String)
  | pending
  deriving DecidableEq

/-- `res.text()`. -/
def HttpResponse.readText (res : HttpResponse) : BodyRead :=
  match res.body with
  | none => .text ""
  | some body =>
      match body.ending with
      | .closed => .text body.text
      | .reset message => .failed message
      | .leftOpen => .pending

/-- The request a provider's upstream gets. -/
inductive WireRequest where
  | openAi (request : OpenAi.ChatRequest)
  | anthropic (request : Anthropic.Request)
  | ollama (request : Ollama.ChatRequest)
  | nova (request : Nova.Request)
  deriving DecidableEq

/-- The request an adapter sends, for a stream or not. The native adapters set `stream`; the from-file shim
    does so on streams, and llamactl leaves it to the request. -/
def mapRequest (kind : AdapterKind) (request : UnifiedAiRequest) (stream : Bool) : Throws WireRequest :=
  let asked := { request with stream := .bool stream }
  match kind with
  | .openai => (OpenAi.toOpenAiRequest asked).map .openAi
  | .anthropic => (Anthropic.toAnthropicRequest asked).map .anthropic
  | .ollama => (Ollama.toOllamaRequest asked).map .ollama
  | .llamactl => (Nova.siriusRequestToNova request).map .nova
  | .fromFile _ =>
      (Nova.toNovaRequest request (if stream then .bool true else request.stream)).map .nova

/-! ## The adapters -/

/-- The native adapters. -/
inductive Native where
  | openai
  | anthropic
  | ollama
  deriving DecidableEq

namespace Native

/-- The kind of the adapter's module. -/
def kind : Native → AdapterKind
  | .openai => .openai
  | .anthropic => .anthropic
  | .ollama => .ollama

/-- The adapter of a kind, if it is a native one. -/
def ofKind : AdapterKind → Option Native
  | .openai => some .openai
  | .anthropic => some .anthropic
  | .ollama => some .ollama
  | _ => none

@[simp] theorem ofKind_kind (n : Native) : ofKind n.kind = some n := by cases n <;> rfl

/-- The name its error texts begin with. -/
def label : Native → String
  | .openai => "OpenAI"
  | .anthropic => "Anthropic"
  | .ollama => "Ollama"

/-- What the error text of a refusal says after the status: the upstream's message where there is one.
    `none` when the body of the refusal never ends. -/
def refusalDetail (n : Native) (res : HttpResponse) : Option (Throws String) :=
  match n, res.readText with
  | _, .pending => none
  | .ollama, .failed _ => some (.ok res.statusText)
  | .ollama, .text text => some (.ok text)
  | _, .failed _ => some (.ok res.statusText)
  | _, .text text =>
      match jsonParse text with
      | none => some (.ok res.statusText)
      | some error =>
          some ((optProp (optProp error "error") "message").orElse (.json (.str res.statusText))).toStr

/-- The error text of a refusal. -/
def refusal (n : Native) (res : HttpResponse) : Option (Throws String) :=
  (n.refusalDetail res).map fun detail =>
    detail.map fun text => s!"{n.label} API error {res.status}: {text}"

/-- The stream parser on a body. -/
def parseStream (freshId : Nat → String) (n : Native) (body : HttpBody) : StreamAttempt :=
  match n with
  | .openai => OpenAi.parser.parseStream body
  | .anthropic => Anthropic.parser.parseStream body
  | .ollama => (Ollama.parser freshId).parseStream body

/-- The response mapper on a body. -/
def fromResponse (freshId : Nat → String) (now : Nat) (n : Native) (raw : Json) (provider : String)
    (latencyMs : Rat) : Throws UnifiedAiResponse :=
  match n with
  | .openai => OpenAi.fromOpenAiResponse raw provider latencyMs
  | .anthropic => Anthropic.fromAnthropicResponse raw provider latencyMs
  | .ollama => Ollama.fromOllamaResponse freshId now raw provider latencyMs

end Native

/-! ## Streams -/

/-- How the parser's stream ends when no line makes it throw. -/
def BodyEnding.streamEnding : BodyEnding → StreamEnding
  | .closed => .finished
  | .reset message => .threw message
  | .leftOpen => .stalled

/-- **A run of lines that goes through**: the stream ends as the body does, with one `done` for every
    completion marker. -/
theorem LineParser.parseStream_of_ok {σ : Type} {p : LineParser σ} {isMarker : String → Bool}
    (hmarks : p.Marks isMarker) {body : HttpBody} {s : σ}
    (h : (p.processLines body.lines p.init).result = .ok s) :
    (p.parseStream body).ending = body.ending.streamEnding ∧
      ((p.parseStream body).events.filter (·.isTerminal)).length = body.lines.countP isMarker ∧
      ∀ e ∈ (p.parseStream body).events.filter (·.isTerminal), e.isDone = true := by
  have hterm := hmarks.terminals_processLines h
  rw [p.parseStream_eq body, h]
  cases body.ending <;> exact ⟨rfl, hterm⟩

/-- A stream either ends as its body does, or a line makes the parser throw. -/
theorem LineParser.parseStream_cases {σ : Type} (p : LineParser σ) (body : HttpBody) :
    (∃ s, (p.processLines body.lines p.init).result = .ok s) ∨
      ∃ message, (p.parseStream body).ending = .threw message := by
  cases h : (p.processLines body.lines p.init).result with
  | ok s => exact Or.inl ⟨s, rfl⟩
  | error e =>
      refine Or.inr ⟨e.message, ?_⟩
      rw [p.parseStream_eq body, h]

namespace Native

variable {freshId : Nat → String} {n : Native} {body : HttpBody}

/-- The line carries the format's completion marker. -/
def isMarker : Native → String → Bool
  | .openai => OpenAi.isMarker
  | .anthropic => Anthropic.isMarker
  | .ollama => Ollama.isMarker

/-- The line is one of the format. -/
def WellFormed : Native → String → Prop
  | .openai => OpenAi.WellFormed
  | .anthropic => Anthropic.WellFormed
  | .ollama => Ollama.WellFormed

/-- What the parser makes of a body, unless a line makes it throw: the end of the body, and one `done` for
    every completion marker. -/
structure Parsed (n : Native) (body : HttpBody) (attempt : StreamAttempt) : Prop where
  ending : attempt.ending = body.ending.streamEnding
  terminals : (attempt.events.filter (·.isTerminal)).length = body.lines.countP n.isMarker
  done : ∀ e ∈ attempt.events.filter (·.isTerminal), e.isDone = true

theorem parsed_of_ok {σ : Type} {p : LineParser σ} {s : σ} (hmarks : p.Marks n.isMarker)
    (h : (p.processLines body.lines p.init).result = .ok s) : n.Parsed body (p.parseStream body) :=
  have hspec := LineParser.parseStream_of_ok hmarks h
  ⟨hspec.1, hspec.2.1, hspec.2.2⟩

/-- **A native stream** is parsed, or a line makes the parser throw. -/
theorem parseStream_cases (freshId : Nat → String) (n : Native) (body : HttpBody) :
    n.Parsed body (n.parseStream freshId body) ∨
      ∃ message, (n.parseStream freshId body).ending = .threw message := by
  cases n with
  | openai =>
      exact (OpenAi.parser.parseStream_cases body).imp_left fun ⟨_, h⟩ =>
        parsed_of_ok (n := .openai) OpenAi.parser_marks h
  | anthropic =>
      exact (Anthropic.parser.parseStream_cases body).imp_left fun ⟨_, h⟩ =>
        parsed_of_ok (n := .anthropic) Anthropic.parser_marks h
  | ollama =>
      exact ((Ollama.parser freshId).parseStream_cases body).imp_left fun ⟨_, h⟩ =>
        parsed_of_ok (n := .ollama) Ollama.parser_marks h

/-- The events of a stream are those of its lines. -/
theorem typed_of_clean {σ : Type} {p : LineParser σ} (h : (p.processLines body.lines p.init).Clean) :
    ∀ e ∈ (p.parseStream body).events, e.wellTyped = true := by
  obtain ⟨⟨s, hs⟩, htyped⟩ := h
  rw [p.parseStream_eq body, hs]
  cases body.ending <;> exact htyped

theorem clean_openAi {lines : List String} (h : ∀ line ∈ lines, OpenAi.WellFormed line) :
    (OpenAi.parser.processLines lines OpenAi.parser.init).Clean :=
  OpenAi.parser.clean_processLines (I := fun _ => True) (s := OpenAi.parser.init)
    (fun _ s hline _ => ⟨OpenAi.clean_processLine hline s, fun _ _ => trivial⟩) h trivial

theorem clean_anthropic {lines : List String} (h : ∀ line ∈ lines, Anthropic.WellFormed line) :
    (Anthropic.parser.processLines lines Anthropic.parser.init).Clean :=
  Anthropic.parser.clean_processLines (s := Anthropic.parser.init)
    (fun _ _ hline hs => Anthropic.steps_processLine hline hs) h (Or.inl rfl)

theorem clean_ollama {lines : List String} (h : ∀ line ∈ lines, Ollama.WellFormed line) :
    ((Ollama.parser freshId).processLines lines (Ollama.parser freshId).init).Clean :=
  (Ollama.parser freshId).clean_processLines (I := fun _ => True) (s := (Ollama.parser freshId).init)
    (fun _ s hline _ => ⟨Ollama.clean_processLine hline s, fun _ _ => trivial⟩) h trivial

/-- **A stream of well-formed lines** is parsed, and nothing in it stops the observer. -/
theorem parseStream_of_wellFormed (freshId : Nat → String) (h : ∀ line ∈ body.lines, n.WellFormed line) :
    n.Parsed body (n.parseStream freshId body) ∧
      ∀ e ∈ (n.parseStream freshId body).events, e.wellTyped = true := by
  cases n with
  | openai =>
      obtain ⟨s, hs⟩ := (clean_openAi h).1
      exact ⟨parsed_of_ok (n := .openai) OpenAi.parser_marks hs, typed_of_clean (clean_openAi h)⟩
  | anthropic =>
      obtain ⟨s, hs⟩ := (clean_anthropic h).1
      exact ⟨parsed_of_ok (n := .anthropic) Anthropic.parser_marks hs, typed_of_clean (clean_anthropic h)⟩
  | ollama =>
      obtain ⟨s, hs⟩ := (@clean_ollama freshId _ h).1
      exact ⟨parsed_of_ok (n := .ollama) Ollama.parser_marks hs, typed_of_clean (@clean_ollama freshId _ h)⟩

end Native

/-- The message of a `fetch` whose signal has fired. -/
def abortMessage : String := "This operation was aborted"

/-! ## Under the policy -/

/-- What lies behind the adapters: what `fetch` does for each attempt, the ids and times the adapters draw,
    and the providers that are reached through nova. -/
structure Upstream where
  fetch : AttemptId → AiProvider → WireRequest → FetchResult
  nova : AttemptId → AiProvider → WireRequest → Bool → CallAttempt
  novaStream : AttemptId → AiProvider → WireRequest → Bool → StreamAttempt
  freshId : AttemptId → Nat → String := fun _ i => s!"tc-{i}"
  now : AttemptId → Nat := fun _ => 0
  latencyMs : AttemptId → Rat := fun _ => 0

namespace Upstream

variable (up : Upstream)

/-- `streamResponse` of a native adapter once `fetch` has settled. -/
def streamReply (id : AttemptId) (n : Native) : FetchResult → StreamAttempt
  | .failed message => ⟨[], .threw message⟩
  | .pending => ⟨[], .stalled⟩
  | .responded res =>
      if res.ok then
        match res.body with
        | none => ⟨[.error "Response body is null"], .finished⟩
        | some body => n.parseStream (up.freshId id) body
      else
        match n.refusal res with
        | none => ⟨[], .stalled⟩
        | some (.error e) => ⟨[], .threw e.message⟩
        | some (.ok message) => ⟨[.error message], .finished⟩

/-- `createResponse` of a native adapter once `fetch` has settled. -/
def callReply (id : AttemptId) (n : Native) (provider : String) : FetchResult → CallAttempt
  | .failed message => .threw message
  | .pending => .timedOut
  | .responded res =>
      if res.ok then
        match res.readText with
        | .pending => .timedOut
        | .failed message => .threw message
        | .text text =>
            match parseJson (.json (.str text)) with
            | .error e => .threw e.message
            | .ok raw =>
                match n.fromResponse (up.freshId id) (up.now id) raw provider (up.latencyMs id) with
                | .error e => .threw e.message
                | .ok response => .returned response
      else
        match n.refusal res with
        | none => .timedOut
        | some (.error e) => .threw e.message
        | some (.ok message) => .threw message

/-- `streamResponse(request, signal)` of an adapter. -/
def streamResponse (id : AttemptId) (provider : AiProvider) (request : UnifiedAiRequest) (live : Bool) :
    StreamAttempt :=
  match mapRequest provider.kind request true with
  | .error e => ⟨[], .threw e.message⟩
  | .ok wire =>
      match Native.ofKind provider.kind with
      | none => up.novaStream id provider wire live
      | some n => if live then up.streamReply id n (up.fetch id provider wire) else ⟨[], .threw abortMessage⟩

/-- `createResponse(request, context)` of an adapter. -/
def createResponse (id : AttemptId) (provider : AiProvider) (request : UnifiedAiRequest) (live : Bool) :
    CallAttempt :=
  match mapRequest provider.kind request false with
  | .error e => .threw e.message
  | .ok wire =>
      match Native.ofKind provider.kind with
      | none => up.nova id provider wire live
      | some n =>
          if live then up.callReply id n provider.name (up.fetch id provider wire) else .threw abortMessage

/-- The adapters under the policy. -/
def env (base : Env) : Env :=
  { base with call := up.createResponse, stream := up.streamResponse }

end Upstream

end Sirius
