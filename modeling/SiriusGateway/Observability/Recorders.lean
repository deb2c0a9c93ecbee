import Mathlib.Algebra.Order.Ring.Rat
import SiriusGateway.Js.Value
import SiriusGateway.Lib.JsMap
import SiriusGateway.Lib.Runs

/-!
# `Observability.Recorders` — what is recorded of upstream calls

The latencies that routing reads, and one usage row for one upstream call (`UsageRecorderService.record`). The
schemas and the projection of usage rows come from a package of their own and stay parameters. A row is validated
when `record` is called; its write waits in the microtask queue.

## Contents
- **Latencies.** `LatencyTracker`: the last ten of each provider. Averages are exact rationals.
- **Rows.** `UsageContracts`, the candidates, and `recorded`: what a call of `record` comes to.
- **The recorder.** `record` and `microtask`.
-/

namespace Sirius

/-! ## Latencies -/

/-- `LatencyTracker`. -/
structure LatencyTracker where
  latencies : JsMap String (List Rat)

namespace LatencyTracker

/-- `WINDOW_SIZE`. -/
def windowSize : Nat := 10

/-- A tracker without history. -/
def empty : LatencyTracker := ⟨JsMap.empty⟩

/-- `record(provider, latencyMs)`: push, and shift the oldest out of a full window. -/
def record (t : LatencyTracker) (provider : String) (latencyMs : Rat) : LatencyTracker :=
  let history := (t.latencies.get provider).getD [] ++ [latencyMs]
  ⟨t.latencies.set provider (if history.length > windowSize then history.drop 1 else history)⟩

/-- `getAverageLatency(provider)`. -/
def getAverageLatency (t : LatencyTracker) (provider : String) : Option Rat :=
  match t.latencies.get provider with
  | none => none
  | some history => if history = [] then none else some (history.sum / history.length)

end LatencyTracker

open Js

/-! ## Rows -/

/-- A candidate: an object literal, with its properties in order. -/
abbrev Candidate := List (String × JsValue)

/-- What the contracts package provides: the schemas, each with the value it makes of what it accepts, and the
    projection, which is `null` when a count was not observed. -/
structure UsageContracts where
  UsageRecordSchema : Candidate → Option Json
  UsageObservationV1Schema : JsValue → Option Json
  UsageRecordV2Schema : Candidate → Option Json
  projectUsageRecordV2ToV1 : Json → Option Json

/-- `UsageRecorderInput`. -/
structure UsageRecorderInput where
  provider : JsValue
  model : JsValue
  kind : String
  promptTokens : JsValue
  completionTokens : JsValue
  totalTokens : JsValue
  latencyMs : Rat
  requestId : Option String := none
  route : Option String := none
  user : Option String := none
  observation : JsValue := .undefined
  deriving DecidableEq

namespace UsageRecorderInput

variable (input : UsageRecorderInput)

/-- `if (input.… !== undefined) candidate.… = input.…`, for the three optional tags. -/
def tags : Candidate :=
  (input.requestId.map fun s => ("request_id", JsValue.json (.str s))).toList ++
    (input.route.map fun s => ("route", JsValue.json (.str s))).toList ++
      (input.user.map fun s => ("user", JsValue.json (.str s))).toList

/-- The candidate of `record`, at the time `ts`. -/
def candidate (ts : String) : Candidate :=
  [("ts", .json (.str ts)), ("provider", input.provider), ("model", input.model), ("kind", .json (.str input.kind)),
    ("prompt_tokens", input.promptTokens), ("completion_tokens", input.completionTokens),
    ("total_tokens", input.totalTokens), ("latency_ms", .json (.num input.latencyMs))] ++ input.tags

/-- The candidate of `recordWithObservation`, with the observation as its schema read it. -/
def candidateV2 (ts : String) (observation : Json) : Candidate :=
  [("v", .json (.num 2)), ("ts", .json (.str ts)), ("provider", input.provider), ("model", input.model),
    ("kind", .json (.str input.kind)), ("latency_ms", .json (.num input.latencyMs)),
    ("observation", .json observation)] ++ input.tags

end UsageRecorderInput

/-- What a call of `record` comes to: a row to write, a warning, or nothing. -/
inductive Recorded where
  | row (record : Json)
  | warned (msg : String)
  | nothing
  deriving DecidableEq

variable (contracts : UsageContracts)

/-- `recordWithObservation(input)`: the V2 record is built and checked, only its projection is written. -/
def recordWithObservation (ts : String) (input : UsageRecorderInput) : Recorded :=
  match contracts.UsageObservationV1Schema input.observation with
  | none => .warned "usage observation failed validation — skipping write"
  | some observation =>
      match contracts.UsageRecordV2Schema (input.candidateV2 ts observation) with
      | none => .warned "usage record v2 failed validation — skipping write"
      | some v2 => (contracts.projectUsageRecordV2ToV1 v2).elim .nothing .row

/-- `record(input)`, up to the microtask. -/
def recorded (ts : String) (input : UsageRecorderInput) : Recorded :=
  if input.observation.isDefined then recordWithObservation contracts ts input
  else
    match contracts.UsageRecordSchema (input.candidate ts) with
    | none => .warned "usage record failed validation — skipping write"
    | some record => .row record

/-- The row of a call. -/
def Recorded.row? : Recorded → Option Json
  | .row record => some record
  | _ => none

/-! ## The recorder -/

/-- The recorder: the rows whose writes are scheduled, the rows written, and the warnings logged. -/
structure UsageRecorder where
  scheduled : List Json := []
  written : List Json := []
  warnings : List String := []
  deriving DecidableEq

namespace UsageRecorder

/-- `record(input)`. -/
def record (r : UsageRecorder) (ts : String) (input : UsageRecorderInput) : UsageRecorder :=
  match recorded contracts ts input with
  | .row record => { r with scheduled := r.scheduled ++ [record] }
  | .warned msg => { r with warnings := r.warnings ++ [msg] }
  | .nothing => r

/-- The oldest scheduled write runs. -/
def microtask (r : UsageRecorder) : Option UsageRecorder :=
  match r.scheduled with
  | [] => none
  | record :: rest => some { r with scheduled := rest, written := r.written ++ [record] }

/-- The rows of the recorder, in the order they are written in. -/
def rows (r : UsageRecorder) : List Json := r.written ++ r.scheduled

theorem rows_record (r : UsageRecorder) (ts : String) (input : UsageRecorderInput) :
    (r.record contracts ts input).rows = r.rows ++ (recorded contracts ts input).row?.toList := by
  unfold record rows
  cases recorded contracts ts input with
  | row record => exact (List.append_assoc ..).symm
  | warned msg => exact (List.append_nil _).symm
  | nothing => exact (List.append_nil _).symm

/-- A write moves a row, and changes none. -/
theorem rows_microtask {r r' : UsageRecorder} (h : r.microtask = some r') : r'.rows = r.rows := by
  unfold microtask at h
  unfold rows
  cases hscheduled : r.scheduled with
  | nil =>
      rw [hscheduled] at h
      cases h
  | cons record rest =>
      rw [hscheduled] at h
      obtain rfl := Option.some.inj h
      exact List.append_assoc ..

end UsageRecorder

end Sirius
