import SiriusGateway.Adapters.Embeddings
import SiriusGateway.Compat.Format
import SiriusGateway.Gateway.Controllers
import SiriusGateway.Gateway.Service
import SiriusGateway.Observability.Recorders

/-!
# `Gateway.UnaryHandlers` — the handlers that answer with one body

`ChatCompletionsController.chatCompletions` and `ResponsesController.responses` on a request that does not stream,
and `EmbeddingsController.createEmbeddings`. The three go through the same steps: parse the body, await the
gateway, format its answer, record the usage, send. What differs is a `UnaryHandler`.

A server runs any number of such requests at once, over one usage recorder. A request's steps between two awaits
happen in one go; connections close, and scheduled writes run, at any time between.

## Contents
- **The handlers.** `UnaryHandler`, and the three of them.
- **One request.** `UnarySession` and its step.
- **The server.** `UnaryServer` and its step.
-/

namespace Sirius

open Js Compat

/-! ## The handlers -/

/-- What differs between the handlers. -/
structure UnaryHandler (Request Response Body : Type) where
  parse : Json → String → Throws Request
  /-- `request.stream`: such a request is answered with a stream. -/
  streams : Request → Bool
  format : Response → Throws Body
  /-- The argument of `usageRecorder.record`. -/
  usage : Response → String → UsageRecorderInput

/-- What the gateway returns, with `metadata?.usageObservation`. -/
structure Observed (Response : Type) where
  response : Response
  usageObservation : JsValue := .undefined

/-- The usage of a chat or responses answer. -/
def gatewayUsage (kind : String) (answer : Observed GatewayResponse) (requestId : String) : UsageRecorderInput where
  provider := .json (.str answer.response.gatewayMeta.provider)
  model := .json (.str answer.response.gatewayMeta.model)
  kind := kind
  promptTokens := answer.response.response.usage.inputTokens
  completionTokens := answer.response.response.usage.outputTokens
  totalTokens := answer.response.response.usage.totalTokens
  latencyMs := answer.response.response.latencyMs
  requestId := some requestId
  route := some answer.response.gatewayMeta.strategy
  observation := answer.usageObservation

/-- `chatCompletions`. -/
def chatCompletions (uuid : Nat → String) (created : Nat) :
    UnaryHandler UnifiedAiRequest (Observed GatewayResponse) Json where
  parse := parseChatCompletionRequest
  streams request := request.stream.truthy
  format answer := formatChatCompletionResponse uuid created answer.response.response
  usage := gatewayUsage "chat"

/-- `responses`. -/
def responses (uuid : Nat → String) (created : Nat) :
    UnaryHandler UnifiedAiRequest (Observed GatewayResponse) Json where
  parse := parseResponsesRequest
  streams request := request.stream.truthy
  format answer := .ok (formatResponsesResponse uuid created answer.response.response)
  usage := gatewayUsage "responses"

/-- `createEmbeddings`. -/
def embeddings :
    UnaryHandler UnifiedEmbeddingRequest (Observed UnifiedEmbeddingResponse) OpenAi.EmbeddingResponse where
  parse := parseEmbeddingRequest
  streams _ := false
  format answer := .ok (formatEmbeddingResponse answer.response)
  usage answer requestId :=
    { provider := .json (.str answer.response.provider)
      model := answer.response.model
      kind := "embedding"
      promptTokens := answer.response.usage.inputTokens
      completionTokens := answer.response.usage.outputTokens
      totalTokens := answer.response.usage.totalTokens
      latencyMs := answer.response.latencyMs
      requestId := some requestId
      observation := answer.usageObservation }

/-! ## One request -/

/-- `res.send(…)`, with its status and its `X-Request-Id`. -/
structure UnaryAnswer (Body : Type) where
  status : Nat
  requestId : String
  body : Body ⊕ Json
  deriving DecidableEq

/-- What an error is answered with: an `HttpException` with its own status and body, any other as a 500. -/
def errorAnswer (Body : Type) (requestId : String) : JsError → UnaryAnswer Body
  | .http status message type code =>
      ⟨status, requestId, .inr (wireObject [("error", .json (wireObject [("message", .json (.str message)),
        ("type", .json (.str type)), ("param", .json .null),
        ("code", .json (code.elim .null .str))]))])⟩
  | error => ⟨500, requestId, .inr (formatError 500 error.message)⟩

/-- Where a handler stands. -/
inductive UnaryPhase where
  | idle
  | awaiting (requestId : String)
  | ended
  deriving DecidableEq

/-- A request: where its handler stands, whether its connection is closed, and what was sent. -/
structure UnarySession (Body : Type) where
  phase : UnaryPhase := .idle
  destroyed : Bool := false
  sent : List (UnaryAnswer Body) := []

/-- What can happen to a request. -/
inductive UnaryLabel (Response : Type) where
  | arrived (body : Json) (requestId : String)
  /-- The gateway returns; the clock of the recorder shows `ts`. -/
  | resolved (answer : Response) (ts : String)
  /-- The gateway throws; it throws no `HttpException`. -/
  | rejected (message : String)
  /-- The client's connection closes. -/
  | close

namespace UnarySession

variable {Request Response Body : Type}

/-- The `catch`. -/
def fail (s : UnarySession Body) (requestId : String) (error : JsError) : UnarySession Body :=
  if s.destroyed then { s with phase := .ended }
  else { s with phase := .ended, sent := s.sent ++ [errorAnswer Body requestId error] }

/-- The step, and the call of `usageRecorder.record` in it. A body that asks for a stream does not arrive
    here. -/
def step (handler : UnaryHandler Request Response Body) (s : UnarySession Body) :
    UnaryLabel Response → Option (UnarySession Body × Option (String × UsageRecorderInput))
  | .arrived body requestId =>
      match s.phase with
      | .idle =>
          match handler.parse body requestId with
          | .error error => some (s.fail requestId error, none)
          | .ok request =>
              if handler.streams request then none else some ({ s with phase := .awaiting requestId }, none)
      | _ => none
  | .resolved answer ts =>
      match s.phase with
      | .awaiting requestId =>
          match handler.format answer with
          | .error error => some (s.fail requestId error, none)
          | .ok body =>
              some ({ s with phase := .ended, sent := s.sent ++ [⟨200, requestId, .inl body⟩] },
                some (ts, handler.usage answer requestId))
      | _ => none
  | .rejected message =>
      match s.phase with
      | .awaiting requestId => some (s.fail requestId (.error message), none)
      | _ => none
  | .close => if s.destroyed then none else some ({ s with destroyed := true }, none)

end UnarySession

/-! ## The server -/

/-- The three endpoints. -/
inductive UnaryEndpoint where
  | chatCompletions
  | responses
  | embeddings
  deriving DecidableEq

namespace UnaryEndpoint

/-- What the endpoint's parser returns. -/
abbrev Request : UnaryEndpoint → Type
  | .chatCompletions | .responses => UnifiedAiRequest
  | .embeddings => UnifiedEmbeddingRequest

/-- What the gateway returns for the endpoint. -/
abbrev Response : UnaryEndpoint → Type
  | .chatCompletions | .responses => Observed GatewayResponse
  | .embeddings => Observed UnifiedEmbeddingResponse

/-- What the endpoint sends. -/
abbrev Body : UnaryEndpoint → Type
  | .chatCompletions | .responses => Json
  | .embeddings => OpenAi.EmbeddingResponse

/-- The handler of the endpoint; `uuid` and `created` are what it draws. -/
def handler (uuid : Nat → String) (created : Nat) : (e : UnaryEndpoint) → UnaryHandler e.Request e.Response e.Body
  | .chatCompletions => Sirius.chatCompletions uuid created
  | .responses => Sirius.responses uuid created
  | .embeddings => Sirius.embeddings

end UnaryEndpoint

/-- Every request of the server: its endpoint, and what its handler draws. -/
structure Incoming where
  endpoint : Nat → UnaryEndpoint
  uuid : Nat → Nat → String
  created : Nat → Nat

/-- The handler of a request. -/
def Incoming.handler (incoming : Incoming) (i : Nat) :
    UnaryHandler (incoming.endpoint i).Request (incoming.endpoint i).Response (incoming.endpoint i).Body :=
  (incoming.endpoint i).handler (incoming.uuid i) (incoming.created i)

variable (contracts : UsageContracts) (incoming : Incoming)

/-- The requests, the recorder, and the calls of `record` so far, each with the request it was made for. -/
structure UnaryServer where
  session : ∀ i, UnarySession (incoming.endpoint i).Body
  recorder : UsageRecorder
  calls : List (Nat × String × UsageRecorderInput)

/-- Nothing has arrived. -/
def UnaryServer.start : UnaryServer incoming := ⟨fun _ => {}, {}, []⟩

/-- What can happen: a step of a request, or a scheduled write. -/
inductive ServerLabel where
  | request (i : Nat) (label : UnaryLabel (incoming.endpoint i).Response)
  | microtask

variable {incoming}

/-- The step. -/
def UnaryServer.step (s : UnaryServer incoming) : ServerLabel incoming → Option (UnaryServer incoming)
  | .request i label =>
      ((s.session i).step (incoming.handler i) label).map fun (session, call) =>
        let sessions := Function.update s.session i session
        match call with
        | none => { s with session := sessions }
        | some (ts, input) =>
            ⟨sessions, s.recorder.record contracts ts input, s.calls ++ [(i, ts, input)]⟩
  | .microtask => s.recorder.microtask.map fun recorder => { s with recorder := recorder }

end Sirius
