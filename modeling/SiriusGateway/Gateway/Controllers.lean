import SiriusGateway.Compat.Format

/-!
# `Gateway.Controllers` — what a streaming client is sent

The stream branches of `ChatCompletionsController.chatCompletions` and `ResponsesController.responses`, from
`gateway.streamResponse` on: the frames they write for the events they pull. The client may drop the
connection at any time, so every event comes with the `aborted` flag as the loop finds it.

## Contents
- **Frames.** `Frame`, and the loop's view of the stream: `Pulled`, `LoopEnd`.
- **Chat completions.** `chatLoop` is the loop, `chatCompletionsStream` the branch.
- **Responses.** `responsesLoop` and `responsesStream`.
-/

namespace Sirius

open Js Compat

/-! ## Frames -/

/-- A frame as it is written: a value behind `data: `, or the sentinel. -/
inductive Frame where
  | data (value : Json)
  | sentinel
  deriving DecidableEq

/-- The text of the frame. -/
def Frame.text : Frame → String
  | .data value => formatSSE value
  | .sentinel => formatSSEDone

/-- The value of the frame. -/
def Frame.value : Frame → Option Json
  | .data value => some value
  | .sentinel => none

/-- An event of the stream, and whether the connection was closed when the loop got it. -/
structure Pulled where
  event : UnifiedStreamEvent
  aborted : Bool := false
  deriving DecidableEq

/-- How the loop over the stream is left. -/
inductive LoopEnd where
  /-- The stream ends or the loop breaks off; the flag is `aborted` as it is then. -/
  | left (aborted : Bool)
  /-- The stream throws; the flag is `res.raw.destroyed`. -/
  | threw (message : String) (destroyed : Bool)
  deriving DecidableEq

/-- `formatError(status, message)`. -/
def formatError (status : Nat) (message : String) : Json :=
  wireObject [("error", .json (wireObject [("message", .json (.str message)),
    ("type", .json (.str (errorTypeOf status))), ("param", .json .null), ("code", .json .null)]))]

/-! ## Chat completions -/

/-- The event is a `content_delta` or a `tool_call_delta`. -/
def UnifiedStreamEvent.isDelta : UnifiedStreamEvent → Bool
  | .contentDelta _ => true
  | .toolCallDelta _ _ _ _ => true
  | _ => false

section Chat

variable (clock : Nat → Nat) (responseId : String) (model : Json)

/-- `errorChunk`. -/
def errorChunk (created : Nat) : Json :=
  streamChunk created responseId model [("choices", streamChoice (wireObject []) (.json (.str "error")))]

/-- The loop: what it writes from an event on, where `k` chunks have been built and `firstChunkEmitted` says
    whether the role chunk is among them. `clock k` is the time at which the `k`-th is built. -/
def chatLoop : Bool → Nat → List Pulled → List Frame
  | _, _, [] => []
  | firstChunkEmitted, k, p :: rest =>
      if p.aborted then []
      else
        match p.event with
        | .error _ _ => [.data (errorChunk responseId model (clock k))]
        | event =>
            if !firstChunkEmitted && event.isDelta then
              .data (formatFirstStreamChunk (clock k) responseId model) ::
                ((formatStreamChunk (clock (k + 1)) event responseId model).map Frame.data).toList ++
                  chatLoop true (k + 2) rest
            else
              ((formatStreamChunk (clock k) event responseId model).map Frame.data).toList ++
                chatLoop firstChunkEmitted (k + 1) rest

/-- What is written once the loop is left, by the branch or by the handler around it. -/
def chatEnding : LoopEnd → List Frame
  | .left aborted => if aborted then [] else [.sentinel]
  | .threw message destroyed => if destroyed then [] else [.data (formatError 500 message), .sentinel]

/-- The stream branch of `chatCompletions`. -/
def chatCompletionsStream (pulled : List Pulled) (ending : LoopEnd) : List Frame :=
  chatLoop clock responseId model false 0 pulled ++ chatEnding ending

end Chat

/-! ## Responses -/

/-- The error frame, of the loop and of the handler around it. -/
def responsesError (message : String) : Json :=
  wireObject [("type", .json (.str "error")),
    ("error", .json (wireObject [("message", .json (.str message))]))]

section Responses

variable (responseId : String)

/-- What is written for an event that is no error. -/
def responsesFrame : UnifiedStreamEvent → Option Json
  | .contentDelta delta =>
      some (wireObject [("type", .json (.str "response.output_text.delta")), ("output_index", .json (.num 0)),
        ("content_index", .json (.num 0)), ("delta", delta)])
  | .done _ =>
      some (wireObject [("type", .json (.str "response.completed")),
        ("response", .json (wireObject [("id", .json (.str responseId)), ("status", .json (.str "completed"))]))])
  | _ => none

/-- The loop of `responses`. -/
def responsesLoop : List Pulled → List Frame
  | [] => []
  | p :: rest =>
      if p.aborted then []
      else
        match p.event with
        | .error message _ => [.data (responsesError message)]
        | event => ((responsesFrame responseId event).map Frame.data).toList ++ responsesLoop rest

/-- What is written once that loop is left. -/
def responsesEnding : LoopEnd → List Frame
  | .left _ => []
  | .threw message destroyed => if destroyed then [] else [.data (responsesError message)]

/-- The stream branch of `responses`. -/
def responsesStream (pulled : List Pulled) (ending : LoopEnd) : List Frame :=
  responsesLoop responseId pulled ++ responsesEnding ending

end Responses

end Sirius
