import SiriusGateway.Lib.JsMap
import SiriusGateway.Js.Value
import SiriusGateway.Js.Parse
import SiriusGateway.Js.Scalars
import SiriusGateway.Js.RoundTrip
import SiriusGateway.Js.TextDecoder
import SiriusGateway.Core.Types
import SiriusGateway.ModelRegistry.Discovery
import SiriusGateway.Observability.Recorders
import SiriusGateway.Routing.Service
import SiriusGateway.Policy.Execute
import SiriusGateway.Gateway.Service
import SiriusGateway.Adapters.Content
import SiriusGateway.Adapters.EventStream
import SiriusGateway.Adapters.OpenAi
import SiriusGateway.Adapters.Anthropic
import SiriusGateway.Adapters.Ollama
import SiriusGateway.Adapters.Nova
import SiriusGateway.Adapters.Native
import SiriusGateway.Compat.Service
import SiriusGateway.Compat.Format
import SiriusGateway.Adapters.Answers
import SiriusGateway.Correctness.Splice
import SiriusGateway.Correctness.Mappers
import SiriusGateway.Correctness.Replay
import SiriusGateway.Correctness.ModelNames
import SiriusGateway.Correctness.Breaker
import SiriusGateway.Correctness.BreakerLog
import SiriusGateway.Correctness.Routing
import SiriusGateway.Correctness.Discovery
import SiriusGateway.Correctness.Drained
import SiriusGateway.Correctness.Accounting
import SiriusGateway.Correctness.Terminal
import SiriusGateway.Correctness.Failover
import SiriusGateway.Correctness.CallerAbort
import SiriusGateway.Correctness.LiveAttempts
import SiriusGateway.Correctness.CallBudget
import SiriusGateway.Correctness.CallFailover
import SiriusGateway.FromFile.Loader
import SiriusGateway.FromFile.Reconcile
import SiriusGateway.Correctness.FromFile
import SiriusGateway.Correctness.Listing
import SiriusGateway.Correctness.DiscoveryOrder
import SiriusGateway.Correctness.Chunking
import SiriusGateway.Correctness.SseRoundTrip
import SiriusGateway.Correctness.Accumulated
import SiriusGateway.Correctness.AnthropicStream
import SiriusGateway.Correctness.ToolCalls
import SiriusGateway.Correctness.OllamaStream
import SiriusGateway.Gateway.Controllers
import SiriusGateway.Correctness.ResponsesStream
import SiriusGateway.Correctness.UsageChunks
import SiriusGateway.Correctness.UsageLines
import SiriusGateway.Correctness.UsageRuns
import SiriusGateway.Adapters.Llamactl
import SiriusGateway.Correctness.Observations
import SiriusGateway.Compat.ChatBody
import SiriusGateway.Compat.Acceptance
import SiriusGateway.Correctness.Passthrough
import SiriusGateway.Adapters.NovaStream
import SiriusGateway.Correctness.NovaStreams
import SiriusGateway.Js.Sort
import SiriusGateway.Routing.Arrays
import SiriusGateway.Correctness.Ranking
import SiriusGateway.Correctness.ResponsesInput
import SiriusGateway.Correctness.AnthropicRequest
import SiriusGateway.Gateway.Sessions
import SiriusGateway.Correctness.ChatTranscript
import SiriusGateway.Correctness.ClientErrors
import SiriusGateway.Correctness.ChatMessages
import SiriusGateway.Correctness.BadLines
import SiriusGateway.Js.Fuel
import SiriusGateway.Js.Trailing
import SiriusGateway.Correctness.SseFraming
import SiriusGateway.Correctness.Dominance
import SiriusGateway.Lib.Upserts
import SiriusGateway.Correctness.RegistryLog
import SiriusGateway.Gateway.Embeddings
import SiriusGateway.Correctness.UpstreamAlike
import SiriusGateway.Adapters.Embeddings
import SiriusGateway.Correctness.EmbeddingOrder
import SiriusGateway.Gateway.Models
import SiriusGateway.Correctness.ModelEndpoints
import SiriusGateway.Mcp.Server
import SiriusGateway.Correctness.Deregister
import SiriusGateway.FromFile.Adapters
import SiriusGateway.Correctness.BootReload
import SiriusGateway.Correctness.Cascade
import SiriusGateway.Lib.Groups
import SiriusGateway.Correctness.OpenAiStream
import SiriusGateway.Gateway.UnaryHandlers
import SiriusGateway.Correctness.UsageRows
import SiriusGateway.Correctness.StreamReference
import SiriusGateway.Gateway.Auth
import SiriusGateway.Mcp.Deployment
import SiriusGateway.Correctness.Deployment
import SiriusGateway.Lib.Relay
import SiriusGateway.Correctness.ResponsesTranscript
import SiriusGateway.Lib.Timers
import SiriusGateway.Gateway.Timers
import SiriusGateway.Correctness.Placement
import SiriusGateway.Correctness.Deadlines
import SiriusGateway.Correctness.FrontDoors
import SiriusGateway.Correctness.RequestCascade
import SiriusGateway.Gateway.Discovery
import SiriusGateway.Correctness.ReloadDiscovery
import SiriusGateway.Correctness.AnswerCascade
import SiriusGateway.Gateway.ModelListing
import SiriusGateway.Correctness.NameCascade
import SiriusGateway.Lib.Lists
import SiriusGateway.Gateway.Health
import SiriusGateway.Correctness.HealthReport
