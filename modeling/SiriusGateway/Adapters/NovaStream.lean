import SiriusGateway.Adapters.Nova
import SiriusGateway.Policy.Execute

/-!
# `Adapters.NovaStream` — streams of a nova core

`streamResponse` of the from-file shim and of the llamactl adapter. Both read the same kind of stream; the core
behind them is a parameter, with or without a `streamResponse` of its own.
-/

namespace Sirius

open Js

namespace Nova

/-- `nova.UnifiedStreamEvent`. A chunk is what the core has parsed, whatever its shape. -/
inductive StreamEvent where
  | chunk (raw : JsValue)
  | toolCall
  | error (message : String) (code : Option String)
  | done (finishReason completion : Option String)
  deriving DecidableEq

/-- A stream run to its end: the events it yields, and what it throws behind them, if it throws. -/
structure Stream where
  events : List StreamEvent
  thrown : Option String := none
  deriving DecidableEq

/-- `streamResponse` of a nova core, where it has one. -/
abbrev StreamMethod := Option (Request → Stream)

/-- `chunk.choices[0]?.delta.content`. -/
def deltaContent (chunk : JsValue) : Throws JsValue := do
  let choices ← getProp chunk "choices"
  let choice ← (getProp choices "0").map fun _ => first choices
  if choice.isNullish then return .undefined
  else getProp (← getProp choice "delta") "content"

/-- The event for a delta, if it is a text. -/
def contentDelta (delta : JsValue) : Option UnifiedStreamEvent :=
  match delta with
  | .json (.str text) => if text = "" then none else some (.contentDelta (.json (.str text)))
  | _ => none

/-- The event for an `error`; an empty code is left out. -/
def errorEvent (message : String) (code : Option String) : UnifiedStreamEvent :=
  .error message (code.filter (· ≠ ""))

/-- `novaStreamEventToSirius(ev)`, which the shim's loop repeats. -/
def novaStreamEventToSirius : StreamEvent → Throws (Option UnifiedStreamEvent)
  | .chunk raw => (deltaContent raw).map contentDelta
  | .error message code => .ok (some (errorEvent message code))
  | .done finishReason _ => .ok (some (.done (finishReason.getD "stop")))
  | .toolCall => .ok none

end Nova

namespace Llamactl

/-- `upstreamEof()`. -/
def upstreamEof : UnifiedStreamEvent :=
  .error "upstream stream ended without a completion signal" (some "upstream_eof")

/-- The event for what the loop has thrown. -/
def caught (message : String) : UnifiedStreamEvent := .error message (some "upstream_eof")

/-- The loop over the stream, with its `catch`. `errorYielded` is set right before a return only. -/
def streamEvents (thrown : Option String) : List Nova.StreamEvent → List UnifiedStreamEvent
  | [] =>
      match thrown with
      | none => [upstreamEof]
      | some message => [caught message]
  | ev :: events =>
      match ev with
      | .error message code => [Nova.errorEvent message code]
      | .done finishReason completion =>
          if completion = some "upstream" then [.done (finishReason.getD "stop")] else [upstreamEof]
      | ev =>
          match Nova.novaStreamEventToSirius ev with
          | .error e => [caught e.message]
          | .ok translated => translated.toList ++ streamEvents thrown events

/-- `LlamactlAdapter.streamResponse(request)`, collected. -/
def streamResponse (name : String) (core : Nova.StreamMethod) (request : UnifiedAiRequest) : StreamAttempt :=
  match Nova.siriusRequestToNova request with
  | .error e => ⟨[], .threw e.message⟩
  | .ok novaReq =>
      match core with
      | none => ⟨[.error s!"{name}: upstream does not support streaming" (some "stream_unsupported")], .finished⟩
      | some method =>
          let stream := method novaReq
          ⟨streamEvents stream.thrown stream.events, .finished⟩

end Llamactl

namespace FromFile

/-- The loop over the stream: it runs to the end of it, or to an event that cannot be read. -/
def streamEvents (thrown : Option String) : List Nova.StreamEvent → StreamAttempt
  | [] => ⟨[], thrown.elim .finished .threw⟩
  | ev :: events =>
      match Nova.novaStreamEventToSirius ev with
      | .error e => ⟨[], .threw e.message⟩
      | .ok translated =>
          let rest := streamEvents thrown events
          ⟨translated.toList ++ rest.events, rest.ending⟩

/-- `toSiriusAdapter(name, core).streamResponse(req)`, collected. -/
def streamResponse (core : Nova.StreamMethod) (request : UnifiedAiRequest) : StreamAttempt :=
  match Nova.toNovaRequest request (.bool true) with
  | .error e => ⟨[], .threw e.message⟩
  | .ok novaReq =>
      match core with
      | none => ⟨[.done "stop"], .finished⟩
      | some method =>
          let stream := method novaReq
          streamEvents stream.thrown stream.events

end FromFile

end Sirius
