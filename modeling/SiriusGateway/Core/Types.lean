import SiriusGateway.Js.Value
import SiriusGateway.Lib.JsMap

/-!
# `Core.Types` — the unified vocabulary

The gateway's own request, response, stream, model and routing types, and the registry of adapters. A
field whose value comes from a client body or an upstream payload is a `JsValue`: the TypeScript
annotation on it is a promise the running program does not check.
-/

namespace Sirius

open Js

/-! ## Messages and requests -/

/-- `UnifiedToolCall['function']`. -/
structure UnifiedFunctionCall where
  name : JsValue
  arguments : JsValue
  deriving DecidableEq

/-- `UnifiedToolCall`; its `type` is always `'function'`. -/
structure UnifiedToolCall where
  id : JsValue
  function : UnifiedFunctionCall
  deriving DecidableEq

/-- `UnifiedMessage`. `content` is a string or an array of parts when the client respects the types. -/
structure UnifiedMessage where
  role : JsValue
  content : JsValue
  name : JsValue := .undefined
  toolCallId : JsValue := .undefined
  toolCalls : Option (List UnifiedToolCall) := none
  deriving DecidableEq

/-- `UnifiedTool['function']`. -/
structure UnifiedFunction where
  name : JsValue
  description : JsValue
  parameters : JsValue
  strict : JsValue
  deriving DecidableEq

/-- `UnifiedTool`. -/
structure UnifiedTool where
  type : JsValue
  function : UnifiedFunction
  deriving DecidableEq

/-- `UnifiedResponseFormat['jsonSchema']`. -/
structure UnifiedJsonSchema where
  name : JsValue
  schema : JsValue
  strict : JsValue
  deriving DecidableEq

/-- `UnifiedResponseFormat`. -/
structure UnifiedResponseFormat where
  type : JsValue
  jsonSchema : Option UnifiedJsonSchema := none
  deriving DecidableEq

/-- `UnifiedAiRequest`. -/
structure UnifiedAiRequest where
  requestId : String
  model : Json
  messages : List UnifiedMessage
  stream : Json
  temperature : JsValue := .undefined
  topP : JsValue := .undefined
  maxTokens : JsValue := .undefined
  stop : Option (List Json) := none
  tools : Option (List UnifiedTool) := none
  toolChoice : JsValue := .undefined
  responseFormat : Option UnifiedResponseFormat := none
  /-- `streamOptions.includeUsage`, when `streamOptions` is present. -/
  streamOptions : Option JsValue := none
  user : JsValue := .undefined
  metadata : JsValue := .undefined
  deriving DecidableEq

/-- `UnifiedEmbeddingRequest`. -/
structure UnifiedEmbeddingRequest where
  requestId : String
  model : Json
  input : Json
  dimensions : JsValue := .undefined
  user : JsValue := .undefined
  deriving DecidableEq

/-! ## Responses and stream events -/

/-- `UsageMetrics`. -/
structure UsageMetrics where
  inputTokens : JsValue
  outputTokens : JsValue
  totalTokens : JsValue
  deriving DecidableEq

/-- `UnifiedContent`. -/
inductive UnifiedContent where
  | text (text : JsValue)
  | toolCall (toolCall : UnifiedToolCall)
  deriving DecidableEq

/-- `UnifiedAiResponse`. -/
structure UnifiedAiResponse where
  id : JsValue
  model : JsValue
  provider : String
  content : List UnifiedContent
  finishReason : String
  usage : UsageMetrics
  latencyMs : Rat
  deriving DecidableEq

/-- `UnifiedStreamEvent`. -/
inductive UnifiedStreamEvent where
  | contentDelta (delta : JsValue)
  | toolCallDelta (index id name argumentsDelta : JsValue)
  | usage (usage : UsageMetrics)
  | done (finishReason : String)
  | error (error : String) (code : Option String := none)
  deriving DecidableEq

/-- The event ends the stream for the client: `done` or `error`. -/
def UnifiedStreamEvent.isTerminal : UnifiedStreamEvent → Bool
  | .done _ => true
  | .error _ _ => true
  | _ => false

/-- The event is a `done`. -/
def UnifiedStreamEvent.isDone : UnifiedStreamEvent → Bool
  | .done _ => true
  | _ => false

/-- The event has the type its interface declares where the stream observer looks: a content delta
    carries a string. -/
def UnifiedStreamEvent.wellTyped : UnifiedStreamEvent → Bool
  | .contentDelta (.json (.str _)) => true
  | .contentDelta _ => false
  | _ => true

/-! ## Models, health and routing -/

/-- `ModelCapabilities`. -/
structure ModelCapabilities where
  chat : Bool
  streaming : Bool
  tools : Bool
  embeddings : Bool
  vision : Bool
  jsonMode : Bool
  deriving DecidableEq, Repr

/-- `capabilities[cap] === true` for a capability named by a string. -/
def ModelCapabilities.has (c : ModelCapabilities) (cap : String) : Bool :=
  if cap = "chat" then c.chat
  else if cap = "streaming" then c.streaming
  else if cap = "tools" then c.tools
  else if cap = "embeddings" then c.embeddings
  else if cap = "vision" then c.vision
  else if cap = "jsonMode" then c.jsonMode
  else false

/-- `ModelCapabilityMatrix`. -/
structure ModelCapabilityMatrix where
  modelId : String
  provider : String
  displayName : Option String := none
  aliases : List String
  capabilities : ModelCapabilities
  contextWindow : Nat
  maxOutputTokens : Nat
  costPer1kInput : Option Rat := none
  costPer1kOutput : Option Rat := none
  deriving DecidableEq

/-- `ModelInfo`, an entry of a provider's `listModels()`. -/
structure ModelInfo where
  id : String
  provider : String
  created : Option Int := none
  ownedBy : Option String := none
  deriving DecidableEq

/-- `ProviderStatus`. -/
inductive ProviderStatus where
  | healthy
  | degraded
  | down
  deriving DecidableEq

/-- `ProviderHealth`, the fields routing reads. -/
structure ProviderHealth where
  provider : String
  status : ProviderStatus
  latencyMs : Option Rat := none
  deriving DecidableEq

/-- `RoutingDecision`. -/
structure RoutingDecision where
  selectedProvider : String
  selectedModel : String
  strategy : String
  reason : String
  fallbackChain : List String
  attemptNumber : Nat
  deriving DecidableEq

/-- Which module built an adapter. -/
inductive AdapterKind where
  | openai
  | anthropic
  | ollama
  | llamactl
  | fromFile (kind : String)
  deriving DecidableEq

/-- `AiProvider`: a registered adapter, identified by its name. -/
structure AiProvider where
  name : String
  kind : AdapterKind
  deriving DecidableEq

/-! ## The registered adapters -/

/-- `ProviderRegistry`: adapters by name. They enter through `register`, which files them under their own name,
    so a lookup returns an adapter of the name asked for. -/
structure ProviderRegistry where
  providers : JsMap String AiProvider
  named : ∀ e ∈ providers.entries, e.2.name = e.1

namespace ProviderRegistry

/-- A registry with no adapter. -/
def empty : ProviderRegistry := ⟨JsMap.empty, fun _ he => absurd he List.not_mem_nil⟩

/-- `register(provider)`. -/
def register (r : ProviderRegistry) (provider : AiProvider) : ProviderRegistry where
  providers := r.providers.set provider.name provider
  named := by
    intro e he
    rcases JsMap.mem_entries_set.mp he with rfl | ⟨he, _⟩
    · rfl
    · exact r.named e he

/-- `unregister(name)`. -/
def unregister (r : ProviderRegistry) (name : String) : ProviderRegistry where
  providers := r.providers.delete name
  named := fun e he => r.named e (List.mem_filter.mp he).1

/-- `get(name)`. -/
def get (r : ProviderRegistry) (name : String) : Option AiProvider := r.providers.get name

/-- `getAll()`, oldest registration first. -/
def getAll (r : ProviderRegistry) : List AiProvider := r.providers.values

/-- A lookup returns an adapter of the name asked for. -/
theorem name_of_get {r : ProviderRegistry} {name : String} {p : AiProvider}
    (h : r.get name = some p) : p.name = name :=
  r.named (name, p) (JsMap.get_eq_some_iff.mp h)

/-- Every listed adapter is found under its own name. -/
theorem get_of_mem_getAll {r : ProviderRegistry} {p : AiProvider} (h : p ∈ r.getAll) :
    r.get p.name = some p := by
  obtain ⟨k, hk⟩ := JsMap.mem_values_iff.mp h
  rw [name_of_get (r := r) hk]
  exact hk

@[simp] theorem get_register_self (r : ProviderRegistry) (p : AiProvider) :
    (r.register p).get p.name = some p := JsMap.get_set_self ..

theorem get_register_ne (r : ProviderRegistry) {p : AiProvider} {name : String}
    (h : name ≠ p.name) : (r.register p).get name = r.get name := JsMap.get_set_ne _ _ h

end ProviderRegistry

end Sirius
