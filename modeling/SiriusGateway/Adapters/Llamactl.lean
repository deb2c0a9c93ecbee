import SiriusGateway.Adapters.Nova
import SiriusGateway.Lib.JsMap

/-!
# `Adapters.Llamactl` — calls of one llamactl adapter

`LlamactlAdapter` as a transition system over its `createResponse` and `createEmbeddings` calls. All calls
share the map `observations`, which nova's `onUsageObservation` callback writes. A call runs up to the await of
its nova call in one step, and from there to its end in another; in between, snapshots may come in.

What nova answers has the types of its contracts. An observation is an object, of any type `ω`.

## Contents
- **Answers of nova.** `Nova.Response`, `Nova.EmbeddingResponse`, and what the adapter makes of them.
- **Observations.** `Snapshot` and `onUsageObservation`.
- **The system.** Its calls, its labels and its step.
-/

namespace Sirius

open Js

namespace Nova

/-! ## Answers of nova -/

/-- `usage` of an answer. -/
structure Usage where
  promptTokens : JsValue
  completionTokens : JsValue := .undefined
  totalTokens : JsValue

/-- An entry of `choices`: its message's content and its `finish_reason`. -/
structure Choice where
  content : JsValue
  finishReason : Option String

/-- `nova.UnifiedAiResponse`. -/
structure Response where
  id : JsValue
  model : JsValue
  choices : List Choice
  usage : Option Usage
  latencyMs : Option Rat

/-- `nova.UnifiedEmbeddingResponse`; of a row of `data` only its `embedding` is read. -/
structure EmbeddingResponse where
  model : JsValue
  data : List JsValue
  usage : Option Usage
  latencyMs : Option Rat

/-- A count of `usage`, or 0. -/
def countOf (usage : Option Usage) (count : Usage → JsValue) : JsValue :=
  ((usage.map count).getD .undefined).orElse (.json (.num 0))

/-- `novaResponseToSirius(res, providerName)`. -/
def novaResponseToSirius (res : Response) (providerName : String) : UnifiedAiResponse :=
  let choice := res.choices.head?
  let content : JsValue :=
    match choice.map Choice.content with
    | some (JsValue.json (.str s)) => .json (.str s)
    | _ => .json (.str "")
  { id := res.id
    model := res.model
    provider := providerName
    content := [.text content]
    finishReason := (choice.bind (·.finishReason)).getD "stop"
    usage := ⟨countOf res.usage (·.promptTokens), countOf res.usage (·.completionTokens),
      countOf res.usage (·.totalTokens)⟩
    latencyMs := res.latencyMs.getD 0 }

end Nova

/-- `UnifiedEmbeddingResponse`. -/
structure UnifiedEmbeddingResponse where
  id : String
  model : JsValue
  provider : String
  embeddings : List (List Json)
  usage : UsageMetrics
  latencyMs : Rat

namespace Llamactl

/-- The result of `createEmbeddings`, read at `now`. -/
def embeddingsOf (res : Nova.EmbeddingResponse) (providerName : String) (now : Nat) : UnifiedEmbeddingResponse where
  id := s!"emb-{now}"
  model := res.model
  provider := providerName
  embeddings := res.data.map fun embedding => match embedding with
    | .json (.arr numbers) => numbers
    | _ => []
  usage := ⟨Nova.countOf res.usage (·.promptTokens), .json (.num 0), Nova.countOf res.usage (·.totalTokens)⟩
  latencyMs := res.latencyMs.getD 0

/-! ## Observations -/

/-- What `onUsageObservation` is called with. -/
structure Snapshot (ω : Type) where
  attemptId : Option String
  observation : ω

variable {ω : Type}

/-- The attempt the snapshot is tagged with; an empty `attempt_id` is none, as for a stream attempt. -/
def Snapshot.tag (snapshot : Snapshot ω) : Option String := snapshot.attemptId.filter (· ≠ "")

/-- `onUsageObservation(snapshot)`: a snapshot without a tag is dropped. -/
def onUsageObservation (observations : JsMap String ω) (snapshot : Snapshot ω) : JsMap String ω :=
  match snapshot.tag with
  | some attemptId => observations.set attemptId snapshot.observation
  | none => observations

theorem onUsageObservation_self {observations : JsMap String ω} {snapshot : Snapshot ω} {id : String}
    (htag : snapshot.tag = some id) :
    (onUsageObservation observations snapshot).get id = some snapshot.observation := by
  unfold onUsageObservation
  rw [htag]
  exact JsMap.get_set_self _ _ _

theorem onUsageObservation_ne {observations : JsMap String ω} {snapshot : Snapshot ω} {id : String}
    (htag : snapshot.tag ≠ some id) :
    (onUsageObservation observations snapshot).get id = observations.get id := by
  unfold onUsageObservation
  split
  · rename_i tag hsome
    apply JsMap.get_set_ne
    rintro rfl
    exact htag hsome
  · rfl

/-! ## The system -/

/-- A call of the adapter. -/
inductive Call where
  | createResponse (request : UnifiedAiRequest)
  | createEmbeddings

/-- What a call returns. -/
inductive Answer where
  | response (response : UnifiedAiResponse)
  | embeddings (response : UnifiedEmbeddingResponse)

/-- The answer with its `metadata.usageObservation`. -/
structure Answered (ω : Type) where
  answer : Answer
  usageObservation : Option ω

/-- Where a call stands. -/
inductive Phase (ω : Type) where
  | awaitingResponse
  | awaitingEmbeddings
  | settled (result : Except String (Answered ω))

/-- The call awaits nova. -/
def Phase.awaiting : Phase ω → Bool
  | .awaitingResponse => true
  | .awaitingEmbeddings => true
  | .settled _ => false

/-- How a nova call settles. -/
inductive Reply where
  | response (res : Nova.Response)
  | embeddings (res : Nova.EmbeddingResponse)
  | rejected (message : String)

/-- What can happen next. A call is named by its attempt id. -/
inductive Label (ω : Type) where
  | call (attemptId : String) (call : Call)
  | observe (snapshot : Snapshot ω)
  | settle (attemptId : String) (reply : Reply) (now : Nat)

/-- The adapter and its calls; `embeds` says whether its nova provider has `createEmbeddings`. -/
structure System (ω : Type) where
  name : String
  embeds : Bool
  observations : JsMap String ω
  calls : JsMap String (Phase ω)

namespace System

/-- A new adapter. -/
def initial (name : String) (embeds : Bool) : System ω := ⟨name, embeds, JsMap.empty, JsMap.empty⟩

/-- The call is in flight. -/
def inFlight (s : System ω) (attemptId : String) : Bool := (s.calls.get attemptId).any Phase.awaiting

/-- The call up to its nova call: where it then stands. -/
def start (s : System ω) : Call → Phase ω
  | .createResponse request =>
      match Nova.siriusRequestToNova request with
      | .error e => .settled (.error e.message)
      | .ok _ => .awaitingResponse
  | .createEmbeddings =>
      if s.embeds then .awaitingEmbeddings else .settled (.error s!"{s.name}: embeddings not supported")

/-- The reply to the call, as its method returns it. -/
def answer (s : System ω) (now : Nat) : Phase ω → Reply → Option (Except String Answer)
  | .awaitingResponse, .response res => some (.ok (.response (Nova.novaResponseToSirius res s.name)))
  | .awaitingEmbeddings, .embeddings res => some (.ok (.embeddings (embeddingsOf res s.name now)))
  | .awaitingResponse, .rejected message => some (.error message)
  | .awaitingEmbeddings, .rejected message => some (.error message)
  | _, _ => none

/-- The rest of the call: it takes its observation, and the `finally` deletes it. -/
def settle (s : System ω) (attemptId : String) (result : Except String Answer) : System ω :=
  { s with
    observations := s.observations.delete attemptId
    calls := s.calls.set attemptId
      (.settled (result.map fun answer => ⟨answer, s.observations.get attemptId⟩)) }

/-- The step. An attempt id is used once, and nova tags a snapshot with the attempt of a call that has not
    settled yet. -/
def step (s : System ω) : Label ω → Option (System ω)
  | .call attemptId call =>
      match s.calls.get attemptId with
      | some _ => none
      | none => some { s with calls := s.calls.set attemptId (s.start call) }
  | .observe snapshot =>
      match snapshot.tag with
      | none => some { s with observations := onUsageObservation s.observations snapshot }
      | some attemptId =>
          if s.inFlight attemptId then
            some { s with observations := onUsageObservation s.observations snapshot }
          else none
  | .settle attemptId reply now =>
      (s.calls.get attemptId).bind fun phase =>
        (s.answer now phase reply).map fun result => s.settle attemptId result

end System

end Llamactl

end Sirius
