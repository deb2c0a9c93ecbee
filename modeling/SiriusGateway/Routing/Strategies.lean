import SiriusGateway.Core.Types
import SiriusGateway.Js.Sort

/-!
# `Routing.Strategies` — picking a provider among the candidates

The six routing strategies. Every one but `pinned` ranks the candidates and takes the head of the ranking
as its selection and the tail as its fallback chain.

`Array.prototype.sort` is stable, and a comparator `key(a) - key(b)` orders by the key with `Infinity`
last (`Infinity - Infinity` is `NaN`, which counts as equal); `sortBy` is that sort. Costs, latencies and
scores are numbers of an arithmetic: the program adds and divides doubles, and two sums that are equal as
rationals may differ there. The price and the latency a candidate comes with are rationals; each stands for
the number nearest to it.
-/

namespace Sirius

open Js

/-- `RoutingCandidate`. -/
structure RoutingCandidate where
  model : ModelCapabilityMatrix
  health : ProviderHealth
  deriving DecidableEq

/-- `RoutingContext`. -/
structure RoutingContext where
  requestedModel : String
  requiredCapabilities : List String
  candidates : List RoutingCandidate

/-! ## Keys and sorting -/

/-- Stable ascending sort by a key. -/
def sortBy {K : Type} [LinearOrder K] (key : RoutingCandidate → K) (l : List RoutingCandidate) :
    List RoutingCandidate := l.insertionSort fun a b => key a ≤ key b

/-- `candidates.filter((c) => c.health.status !== 'down')`. -/
def notDown (candidates : List RoutingCandidate) : List RoutingCandidate :=
  candidates.filter fun c => c.health.status ≠ .down

section Keys

variable (r : Arithmetic)

/-- `c.health.latencyMs ?? Infinity`. -/
def latencyOf (c : RoutingCandidate) : JsNumber :=
  match c.health.latencyMs with
  | some latency => .finite (r.literal latency)
  | none => .infinity false

/-- `price ?? 0`. -/
def priceOf : Option Rat → JsNumber
  | some price => .finite (r.literal price)
  | none => .finite 0

/-- `totalCost(candidate)`: unknown only when both prices are. -/
def costOf (c : RoutingCandidate) : JsNumber :=
  match c.model.costPer1kInput, c.model.costPer1kOutput with
  | none, none => .infinity false
  | input, output => (priceOf r input).add r (priceOf r output)

/-- The finite ones among the numbers below `Infinity`. -/
def finiteOnes (values : List JsNumber) : List Rat :=
  values.filterMap fun
    | .finite q => some q
    | _ => none

/-- `Math.max(...values.filter((v) => v < Infinity), 1)`; `-Infinity` is never the greatest. -/
def maxFinite (values : List JsNumber) : Rat := (finiteOnes values).foldl max 1

/-- `value < Infinity ? value / max : 1`. -/
def normalizedBy (max : Rat) : JsNumber → JsNumber
  | .finite q => r.result (q / max)
  | .infinity true => .infinity true
  | _ => .finite 1

/-- `0.5 * normCost + 0.5 * normLatency`. -/
def scoreOf (maxCost maxLatency : Rat) (cost latency : JsNumber) : JsNumber :=
  ((normalizedBy r maxCost cost).half r).add r ((normalizedBy r maxLatency latency).half r)

/-- The score `BalancedStrategy.score` gives a candidate among the healthy ones. -/
def balancedScore (healthy : List RoutingCandidate) (c : RoutingCandidate) : JsNumber :=
  scoreOf r (maxFinite (healthy.map (costOf r))) (maxFinite (healthy.map (latencyOf r))) (costOf r c)
    (latencyOf r c)

end Keys

/-- `LOCAL_PROVIDERS.has(provider)`. -/
def isLocal (c : RoutingCandidate) : Bool := c.model.provider ∈ ["ollama"]

/-! ## Rankings -/

section Rankings

variable (r : Arithmetic)

/-- The stable sort by latency. -/
def sortedByLatency (l : List RoutingCandidate) : List RoutingCandidate :=
  sortBy (fun c => (latencyOf r c).order) l

/-- `FastestStrategy.sortByLatency`. -/
def sortByLatency (candidates : List RoutingCandidate) : List RoutingCandidate :=
  sortedByLatency r (notDown candidates)

/-- `CheapestStrategy.sortByCost`. -/
def sortByCost (candidates : List RoutingCandidate) : List RoutingCandidate :=
  sortBy (fun c => (costOf r c).order) (notDown candidates)

/-- `BalancedStrategy.score`, the candidates in ranked order. -/
def rankBalanced (candidates : List RoutingCandidate) : List RoutingCandidate :=
  sortBy (fun c => (balancedScore r (notDown candidates) c).order) (notDown candidates)

/-- `LocalFirstStrategy.rank`. -/
def rankLocalFirst (candidates : List RoutingCandidate) : List RoutingCandidate :=
  sortedByLatency r ((notDown candidates).filter fun c => isLocal c) ++
    sortedByLatency r ((notDown candidates).filter fun c => !isLocal c)

/-- `PrivacyFirstStrategy.rank`: cloud candidates only when there is no local one. -/
def rankPrivacyFirst (candidates : List RoutingCandidate) : List RoutingCandidate :=
  let locals := sortedByLatency r ((notDown candidates).filter fun c => isLocal c)
  if locals.length > 0 then locals else sortedByLatency r (notDown candidates)

end Rankings

/-! ## The strategies -/

/-- The registered strategies. -/
inductive RoutingStrategy where
  | pinned
  | fastest
  | cheapest
  | balanced
  | localFirst
  | privacyFirst
  deriving DecidableEq

namespace RoutingStrategy

/-- `strategy.name`. -/
def name : RoutingStrategy → String
  | .pinned => "pinned"
  | .fastest => "fastest"
  | .cheapest => "cheapest"
  | .balanced => "balanced"
  | .localFirst => "local-first"
  | .privacyFirst => "privacy-first"

/-- `PinnedStrategy.select`. -/
def selectPinned (context : RoutingContext) : Option RoutingCandidate :=
  match notDown context.candidates with
  | [only] => some only
  | healthy =>
      (healthy.find? fun c => c.model.modelId = context.requestedModel).or healthy.head?

/-- The ranking of a strategy that has one. -/
def rank (r : Arithmetic) : RoutingStrategy → List RoutingCandidate → List RoutingCandidate
  | .pinned => notDown
  | .fastest => sortByLatency r
  | .cheapest => sortByCost r
  | .balanced => rankBalanced r
  | .localFirst => rankLocalFirst r
  | .privacyFirst => rankPrivacyFirst r

/-- `strategy.select(context)`. -/
def select (s : RoutingStrategy) (context : RoutingContext) : Option RoutingCandidate :=
  match s with
  | .pinned => selectPinned context
  | s => (s.rank .double context.candidates).head?

/-- `strategy.buildFallbackChain(context)`; `pinned` provides none. -/
def buildFallbackChain (s : RoutingStrategy) (context : RoutingContext) : List RoutingCandidate :=
  match s with
  | .pinned => []
  | s => (s.rank .double context.candidates).drop 1

end RoutingStrategy

/-! ## What a ranking contains -/

theorem mem_sortBy {K : Type} [LinearOrder K] {key : RoutingCandidate → K} {l : List RoutingCandidate}
    {c : RoutingCandidate} : c ∈ sortBy key l ↔ c ∈ l := List.mem_insertionSort _

/-- A ranking repeats no candidate. -/
theorem RoutingStrategy.rank_subperm (r : Arithmetic) (s : RoutingStrategy) (l : List RoutingCandidate) :
    (s.rank r l).Subperm (notDown l) := by
  have hsort : ∀ {K : Type} [LinearOrder K] (key : RoutingCandidate → K) (l : List RoutingCandidate),
      (sortBy key l).Perm l := fun key l => List.perm_insertionSort _ l
  cases s with
  | pinned => exact List.Subperm.refl _
  | fastest => exact (hsort _ _).subperm
  | cheapest => exact (hsort _ _).subperm
  | balanced => exact (hsort _ _).subperm
  | localFirst =>
      refine List.Perm.subperm (((hsort _ _).append (hsort _ _)).trans ?_)
      exact List.filter_append_perm ..
  | privacyFirst =>
      simp only [RoutingStrategy.rank, rankPrivacyFirst]
      split
      · exact (hsort _ _).subperm.trans List.filter_sublist.subperm
      · exact (hsort _ _).subperm

/-- A ranking of something is something. -/
theorem RoutingStrategy.rank_ne_nil {r : Arithmetic} {s : RoutingStrategy} {l : List RoutingCandidate}
    (h : notDown l ≠ []) : s.rank r l ≠ [] := by
  have hsort : ∀ {K : Type} [LinearOrder K] (key : RoutingCandidate → K),
      sortBy key (notDown l) ≠ [] := by
    intro K _ key hnil
    obtain ⟨c, hc⟩ := List.exists_mem_of_ne_nil _ h
    exact absurd (mem_sortBy.mpr hc) (hnil ▸ List.not_mem_nil)
  cases s with
  | pinned => exact h
  | fastest => exact hsort _
  | cheapest => exact hsort _
  | balanced => exact hsort _
  | localFirst =>
      intro hnil
      obtain ⟨c, hc⟩ := List.exists_mem_of_ne_nil _ h
      have hmem : c ∈ rankLocalFirst r l := by
        unfold rankLocalFirst sortedByLatency
        rw [List.mem_append, mem_sortBy, mem_sortBy, List.mem_filter, List.mem_filter]
        cases isLocal c <;> simp [hc]
      exact absurd hmem ((show rankLocalFirst r l = [] from hnil) ▸ List.not_mem_nil)
  | privacyFirst =>
      simp only [RoutingStrategy.rank, rankPrivacyFirst]
      split
      · rename_i hlen
        exact List.ne_nil_of_length_pos hlen
      · exact hsort _

/-- The selected candidate and the fallbacks are distinct candidates that are not down. -/
theorem RoutingStrategy.select_cons_fallback_subperm {s : RoutingStrategy} {context : RoutingContext}
    {selected : RoutingCandidate} (h : s.select context = some selected) :
    (selected :: s.buildFallbackChain context).Subperm (notDown context.candidates) := by
  have hranked : (s.rank .double context.candidates).head? = some selected →
      (selected :: (s.rank .double context.candidates).drop 1).Subperm (notDown context.candidates) := by
    intro hhead
    obtain ⟨rest, heq⟩ := List.head?_eq_some_iff.mp hhead
    have hsub := s.rank_subperm .double context.candidates
    rw [heq] at hsub ⊢
    exact hsub
  cases s with
  | pinned =>
      have hmem : selected ∈ notDown context.candidates := by
        simp only [RoutingStrategy.select, RoutingStrategy.selectPinned] at h
        split at h
        · rename_i only heq
          rw [heq, ← Option.some.inj h]
          exact List.mem_cons_self
        · rcases Option.or_eq_some_iff.mp h with hfind | ⟨-, hhead⟩
          · exact List.mem_of_find?_eq_some hfind
          · exact List.mem_of_head? hhead
      exact List.singleton_subperm_iff.mpr hmem
  | fastest => exact hranked h
  | cheapest => exact hranked h
  | balanced => exact hranked h
  | localFirst => exact hranked h
  | privacyFirst => exact hranked h

theorem RoutingStrategy.select_pinned_eq (context : RoutingContext) :
    RoutingStrategy.pinned.select context = RoutingStrategy.selectPinned context := rfl

end Sirius
