import SiriusGateway.Adapters.Llamactl

/-!
# `Adapters.Embeddings` — embeddings between the two wire formats

What the decoders make of an upstream's embeddings answer, and the body the client gets.

An answer of the OpenAI format is read with the types it declares: an entry of `data` has its `index` and an
`embedding` that is an array. The adapters built on nova get the same entries as rows of nova's answer.

## Contents
- **The wire format.** `OpenAi.EmbeddingData`, `OpenAi.EmbeddingResponse`, and its rows at nova.
- **The decoders.** `fromOpenAiEmbeddingResponse`, and `createEmbeddings` of the other two adapters.
- **The encoder.** `formatEmbeddingResponse`.
-/

namespace Sirius

open Js

/-! ## The wire format -/

namespace OpenAi

/-- `OpenAiEmbeddingData`. -/
structure EmbeddingData where
  object : String := "embedding"
  index : Nat
  embedding : List Json
  deriving DecidableEq

/-- `OpenAiEmbeddingResponse`; the upstream's `usage` may be missing. -/
structure EmbeddingResponse where
  object : String := "list"
  data : List EmbeddingData
  model : JsValue
  usage : Option Nova.Usage

end OpenAi

/-- The answer of nova with these rows. -/
def Nova.EmbeddingResponse.ofOpenAi (payload : OpenAi.EmbeddingResponse) (latencyMs : Option Rat) :
    Nova.EmbeddingResponse where
  model := payload.model
  data := payload.data.map fun row => .json (.arr row.embedding)
  usage := payload.usage
  latencyMs := latencyMs

/-! ## The decoders -/

/-- `fromOpenAiEmbeddingResponse(raw, provider, latencyMs)`, at the time `now`. -/
def OpenAi.fromOpenAiEmbeddingResponse (raw : OpenAi.EmbeddingResponse) (provider : String) (latencyMs : Rat)
    (now : Nat) : UnifiedEmbeddingResponse where
  id := s!"emb-{now}"
  model := raw.model
  provider := provider
  embeddings := raw.data.map (·.embedding)
  usage :=
    { inputTokens := Nova.countOf raw.usage (·.promptTokens)
      outputTokens := .json (.num 0)
      totalTokens := ((raw.usage.map Nova.Usage.totalTokens).getD .undefined).orElse
        (Nova.countOf raw.usage Nova.Usage.promptTokens) }
  latencyMs := latencyMs

/-- The `createEmbeddings` method of a nova provider; it may lack the method. -/
abbrev Nova.EmbeddingMethod := Option (UnifiedEmbeddingRequest → Except String Nova.EmbeddingResponse)

/-- `createEmbeddings` around a nova provider: without the method it throws. -/
def Nova.createEmbeddings (name : String) (core : Nova.EmbeddingMethod) (request : UnifiedEmbeddingRequest)
    (now : Nat) : Except String UnifiedEmbeddingResponse :=
  match core with
  | none => .error s!"{name}: embeddings not supported"
  | some method => (method request).map fun res => Llamactl.embeddingsOf res name now

/-- `LlamactlAdapter.createEmbeddings(request)`. -/
def Llamactl.createEmbeddings (name : String) (core : Nova.EmbeddingMethod) (request : UnifiedEmbeddingRequest)
    (now : Nat) : Except String UnifiedEmbeddingResponse :=
  Nova.createEmbeddings name core request now

/-- `toSiriusAdapter(name, core).createEmbeddings(req)`. -/
def FromFile.createEmbeddings (name : String) (core : Nova.EmbeddingMethod) (request : UnifiedEmbeddingRequest)
    (now : Nat) : Except String UnifiedEmbeddingResponse :=
  Nova.createEmbeddings name core request now

/-! ## The encoder -/

/-- `formatEmbeddingResponse(response)`: an entry's index is its position. -/
def Compat.formatEmbeddingResponse (response : UnifiedEmbeddingResponse) : OpenAi.EmbeddingResponse where
  data := response.embeddings.mapIdx fun index embedding => { index := index, embedding := embedding }
  model := response.model
  usage := some
    { promptTokens := response.usage.inputTokens
      totalTokens := response.usage.totalTokens }

end Sirius
