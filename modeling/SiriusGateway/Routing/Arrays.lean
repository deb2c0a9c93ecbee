import SiriusGateway.Routing.Strategies

/-!
# `Routing.Arrays` — the ranking strategies on the arrays of their context

The five strategies that rank, statement by statement: each copies or filters `context.candidates`, sorts in
place with a comparator that subtracts, and reads the result. `select` and `buildFallbackChain` each rank
anew. The arithmetic they compute in is a parameter.
-/

namespace Sirius

open Js

/-- The strategies that rank their candidates. -/
inductive RankingStrategy where
  | fastest
  | cheapest
  | balanced
  | localFirst
  | privacyFirst
  deriving DecidableEq

/-- The registered strategy. -/
def RankingStrategy.strategy : RankingStrategy → RoutingStrategy
  | .fastest => .fastest
  | .cheapest => .cheapest
  | .balanced => .balanced
  | .localFirst => .localFirst
  | .privacyFirst => .privacyFirst

/-- A program over the arrays of candidates in memory. -/
abbrev Ranked := StateM (Arrays RoutingCandidate)

/-! ## Comparators -/

/-- `c.health.status !== 'down'`. -/
def isUp (c : RoutingCandidate) : Bool := c.health.status ≠ .down

variable (r : Arithmetic)

/-- `(a, b) => (a.health.latencyMs ?? Infinity) - (b.health.latencyMs ?? Infinity)`. -/
def byLatency (a b : RoutingCandidate) : JsNumber := (latencyOf r a).sub r (latencyOf r b)

/-- `(a, b) => this.totalCost(a) - this.totalCost(b)`. -/
def byCost (a b : RoutingCandidate) : JsNumber := (costOf r a).sub r (costOf r b)

/-! ## Rankings -/

/-- `FastestStrategy.sortByLatency(candidates)`. -/
def FastestStrategy.sortByLatency (candidates : Nat) : Ranked Nat := do
  let copy ← Arrays.spread [candidates]
  let healthy ← Arrays.filter isUp copy
  Arrays.sort (byLatency r) healthy

/-- `CheapestStrategy.sortByCost(candidates)`. -/
def CheapestStrategy.sortByCost (candidates : Nat) : Ranked Nat := do
  let copy ← Arrays.spread [candidates]
  let healthy ← Arrays.filter isUp copy
  Arrays.sort (byCost r) healthy

/-- A candidate with its score. -/
structure ScoredCandidate where
  candidate : RoutingCandidate
  score : JsNumber

/-- `BalancedStrategy.score(candidates)`; the array of scores never leaves the strategy, so it is a list. -/
def BalancedStrategy.score (candidates : Nat) : Ranked (List ScoredCandidate) := do
  let healthy ← Arrays.filter isUp candidates
  let healthy := (← get).read healthy
  if healthy.length = 0 then return []
  let costs := healthy.map (costOf r)
  let latencies := healthy.map (latencyOf r)
  let maxCost := maxFinite costs
  let maxLatency := maxFinite latencies
  let scored := (healthy.zip (costs.zip latencies)).map fun (candidate, cost, latency) =>
    { candidate := candidate, score := scoreOf r maxCost maxLatency cost latency : ScoredCandidate }
  return sortWith (fun a b => a.score.sub r b.score) scored

/-- `LocalFirstStrategy.rank(candidates)`. -/
def LocalFirstStrategy.rank (candidates : Nat) : Ranked Nat := do
  let healthy ← Arrays.filter isUp candidates
  let locals ← Arrays.sort (byLatency r) (← Arrays.filter isLocal healthy)
  let cloud ← Arrays.sort (byLatency r) (← Arrays.filter (fun c => !isLocal c) healthy)
  Arrays.spread [locals, cloud]

/-- `PrivacyFirstStrategy.rank(candidates)`: its last `sort` is of `healthy` itself. -/
def PrivacyFirstStrategy.rank (candidates : Nat) : Ranked Nat := do
  let healthy ← Arrays.filter isUp candidates
  let locals ← Arrays.sort (byLatency r) (← Arrays.filter isLocal healthy)
  if ((← get).read locals).length > 0 then return locals
  Arrays.sort (byLatency r) healthy

/-! ## The strategies -/

namespace RankingStrategy

/-- `ranked[0] ?? null`. -/
def first (ranked : Nat) : Ranked (Option RoutingCandidate) := do
  let m ← get
  return (m.read ranked).head?

/-- `strategy.select(context)`, where `candidates` refers to `context.candidates`. -/
def select (s : RankingStrategy) (candidates : Nat) : Ranked (Option RoutingCandidate) :=
  match s with
  | .fastest => do first (← FastestStrategy.sortByLatency r candidates)
  | .cheapest => do first (← CheapestStrategy.sortByCost r candidates)
  | .balanced => do return (← BalancedStrategy.score r candidates).head?.map (·.candidate)
  | .localFirst => do first (← LocalFirstStrategy.rank r candidates)
  | .privacyFirst => do first (← PrivacyFirstStrategy.rank r candidates)

/-- `strategy.buildFallbackChain(context)`. -/
def buildFallbackChain (s : RankingStrategy) (candidates : Nat) : Ranked Nat :=
  match s with
  | .fastest => do Arrays.slice 1 (← FastestStrategy.sortByLatency r candidates)
  | .cheapest => do Arrays.slice 1 (← CheapestStrategy.sortByCost r candidates)
  | .balanced => do Arrays.alloc (((← BalancedStrategy.score r candidates).drop 1).map (·.candidate))
  | .localFirst => do Arrays.slice 1 (← LocalFirstStrategy.rank r candidates)
  | .privacyFirst => do Arrays.slice 1 (← PrivacyFirstStrategy.rank r candidates)

end RankingStrategy

end Sirius
