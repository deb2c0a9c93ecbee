import SiriusGateway.Gateway.Controllers
import SiriusGateway.Lib.Relay
import SiriusGateway.Lib.Runs

/-!
# `Gateway.Sessions` — the stream handlers and their clients' connections

The stream branches of `chatCompletions` and `responses` as transition systems. Between two labels a handler awaits
the stream; while it does, the client's connection may close, which the two `close` listeners and
`res.raw.destroyed` record. Everything else a handler does in one go.

## Contents
- **Chat completions.** `ChatSession`.
- **Responses.** `ResponsesSession`: the handler as a relay of the gateway's stream. It keeps no variables between
  two events.
-/

namespace Sirius

open Js Compat

/-! ## Chat completions -/

namespace ChatSession

/-- A call on `res.raw`: a write of one frame, or `end()`. -/
inductive Sent where
  | frame (frame : Frame)
  | ended
  deriving DecidableEq

/-- Where the handler stands: it awaits the next event, or the stream's `return()` behind a `break`, or it has
    returned. -/
inductive Phase where
  | pulling
  | leaving
  | over
  deriving DecidableEq

/-- What can happen while the handler awaits. -/
inductive Label where
  | event (event : UnifiedStreamEvent)
  /-- The stream has no further event. -/
  | finished
  | threw (message : String)
  /-- The stream's `return()` is through; it throws nothing. -/
  | returned
  /-- The client's connection closes. -/
  | close
  deriving DecidableEq

/-- The handler's variables, the state of the connection and what has been sent. -/
structure Session where
  phase : Phase := .pulling
  aborted : Bool := false
  destroyed : Bool := false
  firstChunkEmitted : Bool := false
  /-- The chunks built so far. -/
  built : Nat := 0
  sent : List Sent := []
  deriving DecidableEq

namespace Session

/-- `res.raw.write(compat.formatSSE(chunk))` for a chunk just built. -/
def writeChunk (s : Session) (chunk : Json) : Session :=
  { s with built := s.built + 1, sent := s.sent ++ [.frame (.data chunk)] }

/-- Behind the loop: `if (!aborted) { write(formatSSEDone()); end(); }`. -/
def finish (s : Session) : Session :=
  if s.aborted then { s with phase := .over }
  else { s with phase := .over, sent := s.sent ++ [.frame .sentinel, .ended] }

/-- The `catch`, once the head is written. -/
def fail (s : Session) (message : String) : Session :=
  if s.destroyed then { s with phase := .over }
  else { s with
    phase := .over
    sent := s.sent ++ [.frame (.data (formatError 500 message)), .frame .sentinel, .ended] }

variable (clock : Nat → Nat) (responseId : String) (model : Json)

/-- The role chunk, once, in front of a delta. -/
def writeRole (s : Session) (event : UnifiedStreamEvent) : Session :=
  if !s.firstChunkEmitted && event.isDelta then
    { s.writeChunk (formatFirstStreamChunk (clock s.built) responseId model) with firstChunkEmitted := true }
  else s

/-- The chunk of an event that is no error. -/
def writeEvent (s : Session) (event : UnifiedStreamEvent) : Session :=
  match formatStreamChunk (clock s.built) event responseId model with
  | some chunk => s.writeChunk chunk
  | none => { s with built := s.built + 1 }

/-- The body of the loop. -/
def handle (s : Session) (event : UnifiedStreamEvent) : Session :=
  if s.aborted then { s with phase := .leaving }
  else
    match event with
    | .error _ _ =>
        { s.writeChunk (errorChunk responseId model (clock s.built)) with phase := .leaving }
    | event => (s.writeRole clock responseId model event).writeEvent clock responseId model event

/-- The step. Once the handler has returned nothing more happens. -/
def step (s : Session) : Label → Option Session
  | .event event => if s.phase = .pulling then some (s.handle clock responseId model event) else none
  | .finished => if s.phase = .pulling then some s.finish else none
  | .threw message => if s.phase = .pulling then some (s.fail message) else none
  | .returned => if s.phase = .leaving then some s.finish else none
  | .close =>
      if s.phase = .over ∨ s.destroyed = true then none
      else some { s with aborted := true, destroyed := true }

end Session

end ChatSession

/-! ## Responses -/

namespace ResponsesSession

open ChatSession (Sent)

/-- `res.raw.write(...)` of a value behind `data: `. -/
def frame (value : Json) : Sent := .frame (.data value)

/-- What is written for an event. -/
def framesOf (responseId : String) : UnifiedStreamEvent → List Sent
  | .error message _ => [frame (responsesError message)]
  | event => ((responsesFrame responseId event).map frame).toList

/-- The message of an error event; behind it the loop breaks off. -/
def errorMessage : UnifiedStreamEvent → Option String
  | .error message _ => some message
  | _ => none

/-- The stream branch of `responses`, once the head is written. -/
def handler (responseId : String) : Relay.Handler Unit UnifiedStreamEvent Sent where
  handle own event := (own, framesOf responseId event)
  breaks event := (errorMessage event).isSome
  finish := [.ended]
  fail message := [frame (responsesError message), .ended]

/-- The handler's loop and its client. -/
abbrev Session := Relay.State Unit Sent

/-- One step. -/
abbrev step (responseId : String) : Session → Relay.Label UnifiedStreamEvent → Option Session :=
  Relay.step (handler responseId)

/-- The head is written, and nothing else. -/
def start : Session := { own := () }

end ResponsesSession

end Sirius
