import SiriusGateway.Correctness.Ranking
import Mathlib.Tactic.Linarith

/-!
# `Correctness.Dominance` — the balanced strategy and candidates that are better all round

The balanced strategy adds a cost and a latency, each relative to the greatest known one. That greatest value is
never below 1, so the two are fractions; an unknown value counts as the whole. In exact arithmetic the sum grows
with both parts, and strictly where both values are known. So nobody the strategy ranks first is dominated.

## Contents
- **Dominance.** `NoWorse` and `Dominates`.
- **Exact numbers.** What the program computes when nothing is rounded.
- **Fractions.** `normalized` lies between 0 and 1 and keeps the order.
- **Scores.** What dominance says about them.
- **Result.** `balanced_respects_dominance`.
-/

namespace Sirius

open Js

/-! ## Dominance -/

/-- The latency, `⊤` when it is unknown. -/
def latencyKey (c : RoutingCandidate) : WithTop Rat :=
  match c.health.latencyMs with
  | some latency => (latency : WithTop Rat)
  | none => ⊤

/-- The exact cost, `⊤` when it is unknown. -/
def totalCost (c : RoutingCandidate) : WithTop Rat :=
  match c.model.costPer1kInput, c.model.costPer1kOutput with
  | none, none => ⊤
  | input, output => ((input.getD 0 + output.getD 0 : Rat) : WithTop Rat)

/-- The candidate is no worse than the other in cost and in latency; an unknown value is worse than any known
    one. -/
def NoWorse (a b : RoutingCandidate) : Prop := totalCost a ≤ totalCost b ∧ latencyKey a ≤ latencyKey b

/-- The first value is smaller, and both are known. -/
def KnownLess (x y : WithTop Rat) : Prop := x < y ∧ y < ⊤

/-- No worse, and strictly better in cost or in latency, both values known. -/
def Dominates (a b : RoutingCandidate) : Prop :=
  NoWorse a b ∧ (KnownLess (totalCost a) (totalCost b) ∨ KnownLess (latencyKey a) (latencyKey b))

/-! ## Exact numbers -/

/-- A number, or `Infinity`. -/
def numberOf : WithTop Rat → JsNumber
  | some q => .finite q
  | none => .infinity false

/-- A value relative to a maximum; an unknown one is the whole. -/
def normalized (value : WithTop Rat) (max : Rat) : Rat :=
  match value with
  | some v => v / max
  | none => 1

theorem latencyOf_exact (c : RoutingCandidate) : latencyOf .exact c = numberOf (latencyKey c) := by
  unfold latencyOf latencyKey
  cases c.health.latencyMs <;> rfl

theorem costOf_exact (c : RoutingCandidate) : costOf .exact c = numberOf (totalCost c) := by
  unfold costOf totalCost
  cases c.model.costPer1kInput <;> cases c.model.costPer1kOutput <;> rfl

theorem normalizedBy_exact (max : Rat) (x : WithTop Rat) :
    normalizedBy .exact max (numberOf x) = .finite (normalized x max) := by
  cases x <;> rfl

theorem order_finite_le {p q : Rat} : (JsNumber.finite p).order ≤ (JsNumber.finite q).order ↔ p ≤ q := by
  simp [JsNumber.order]

/-- The greatest known cost, at least 1. -/
def maxCostOf (healthy : List RoutingCandidate) : Rat := maxFinite (healthy.map (costOf .exact))

/-- The greatest known latency, at least 1. -/
def maxLatencyOf (healthy : List RoutingCandidate) : Rat := maxFinite (healthy.map (latencyOf .exact))

/-- The exact score of a candidate among the healthy ones. -/
def exactScore (healthy : List RoutingCandidate) (c : RoutingCandidate) : Rat :=
  1 / 2 * normalized (totalCost c) (maxCostOf healthy) + 1 / 2 * normalized (latencyKey c) (maxLatencyOf healthy)

theorem balancedScore_exact (healthy : List RoutingCandidate) (c : RoutingCandidate) :
    balancedScore .exact healthy c = .finite (exactScore healthy c) := by
  unfold balancedScore scoreOf
  rw [costOf_exact, latencyOf_exact, normalizedBy_exact, normalizedBy_exact]
  rfl

/-! ## Fractions -/

section Fractions

variable {values : List JsNumber} {x y : WithTop Rat}

theorem maxFinite_pos (values : List JsNumber) : 0 < maxFinite values :=
  lt_of_lt_of_le one_pos (one_le_maxFinite values)

/-- **A normalized value is a fraction.** -/
theorem normalized_bounds (hx : numberOf x ∈ values) (hnonneg : 0 ≤ x) :
    0 ≤ normalized x (maxFinite values) ∧ normalized x (maxFinite values) ≤ 1 := by
  have hmax := maxFinite_pos values
  cases x with
  | top => exact ⟨zero_le_one, le_rfl⟩
  | coe v =>
      have hv : 0 ≤ v := by simpa using hnonneg
      refine ⟨div_nonneg hv hmax.le, ?_⟩
      show v / maxFinite values ≤ 1
      rw [div_le_one hmax]
      exact le_maxFinite hx

/-- Normalizing keeps the order; an unknown value is above every fraction. -/
theorem normalized_le (hx : numberOf x ∈ values) (hnonneg : 0 ≤ x) (hle : x ≤ y) :
    normalized x (maxFinite values) ≤ normalized y (maxFinite values) := by
  cases y with
  | top => exact (normalized_bounds hx hnonneg).2
  | coe w =>
      cases x with
      | top => simp at hle
      | coe v =>
          apply div_le_div_of_nonneg_right
          · simpa using hle
          · exact (maxFinite_pos values).le

/-- Between known values it keeps it strictly. -/
theorem normalized_lt (hlt : KnownLess x y) :
    normalized x (maxFinite values) < normalized y (maxFinite values) := by
  obtain ⟨hless, hknown⟩ := hlt
  cases y with
  | top => exact absurd hknown (lt_irrefl _)
  | coe w =>
      cases x with
      | top => simp at hless
      | coe v =>
          apply div_lt_div_of_pos_right
          · simpa using hless
          · exact maxFinite_pos values

end Fractions

/-! ## Scores -/

/-- No cost and no latency is negative. -/
def NonNegative (candidates : List RoutingCandidate) : Prop :=
  ∀ c ∈ candidates, 0 ≤ totalCost c ∧ 0 ≤ latencyKey c

section Scores

variable {healthy : List RoutingCandidate} {a b : RoutingCandidate}

/-- The exact cost of a healthy candidate is among those the maximum is taken of. -/
theorem mem_costs (ha : a ∈ healthy) : numberOf (totalCost a) ∈ healthy.map (costOf .exact) :=
  costOf_exact a ▸ List.mem_map_of_mem ha

theorem mem_latencies (ha : a ∈ healthy) : numberOf (latencyKey a) ∈ healthy.map (latencyOf .exact) :=
  latencyOf_exact a ▸ List.mem_map_of_mem ha

/-- A candidate no worse than another has no greater score. -/
theorem exactScore_le (hnonneg : NonNegative healthy) (ha : a ∈ healthy) (h : NoWorse a b) :
    exactScore healthy a ≤ exactScore healthy b := by
  have hcost := normalized_le (mem_costs ha) (hnonneg a ha).1 h.1
  have hlatency := normalized_le (mem_latencies ha) (hnonneg a ha).2 h.2
  simp only [exactScore, maxCostOf, maxLatencyOf]
  linarith

/-- **A candidate that dominates another has the smaller score.** -/
theorem exactScore_lt (hnonneg : NonNegative healthy) (ha : a ∈ healthy) (h : Dominates a b) :
    exactScore healthy a < exactScore healthy b := by
  obtain ⟨hworse, hbetter⟩ := h
  have hcost := normalized_le (mem_costs ha) (hnonneg a ha).1 hworse.1
  have hlatency := normalized_le (mem_latencies ha) (hnonneg a ha).2 hworse.2
  simp only [exactScore, maxCostOf, maxLatencyOf]
  rcases hbetter with hless | hless
  · have hstrict := @normalized_lt (healthy.map (costOf .exact)) _ _ hless
    linarith
  · have hstrict := @normalized_lt (healthy.map (latencyOf .exact)) _ _ hless
    linarith

/-- In a ranking by score a candidate stands before all it dominates. -/
theorem lt_of_dominates {ranking : List RoutingCandidate} {i j : Nat}
    (hsort : healthy.IsStableSort (exactScore healthy) ranking) (hnonneg : NonNegative healthy)
    (ha : ranking[i]? = some a) (hb : ranking[j]? = some b) (h : Dominates a b) : i < j := by
  obtain ⟨hi, rfl⟩ := List.getElem?_eq_some_iff.mp ha
  obtain ⟨hj, rfl⟩ := List.getElem?_eq_some_iff.mp hb
  apply hsort.lt_of_key_lt hi hj
  exact exactScore_lt hnonneg (hsort.mem_iff.mp (List.getElem_mem hi)) h

/-- Nobody dominates the first of the ranking. -/
theorem not_dominates_head {ranking : List RoutingCandidate} {best : RoutingCandidate}
    (hsort : healthy.IsStableSort (exactScore healthy) ranking) (hnonneg : NonNegative healthy)
    (hbest : ranking.head? = some best) (ha : a ∈ healthy) : ¬ Dominates a best := by
  intro h
  obtain ⟨rest, hranking⟩ := List.head?_eq_some_iff.mp hbest
  obtain ⟨i, hi⟩ := List.mem_iff_getElem?.mp (hsort.mem_iff.mpr ha)
  have hfirst : ranking[0]? = some best := by rw [hranking]; rfl
  exact Nat.not_lt_zero i (lt_of_dominates hsort hnonneg hi hfirst h)

end Scores

/-! ## Result -/

/-- **Balanced scoring respects dominance**, in exact arithmetic. The maxima the strategy divides by are at least
    1, every normalized cost and latency is a number between 0 and 1, a candidate no worse than another scores no
    more, and one that dominates another is ranked before it. So no healthy candidate dominates the selected
    one. -/
theorem balanced_respects_dominance (m : Arrays RoutingCandidate) (candidates : Nat)
    (hnonneg : NonNegative (m.read candidates)) :
    let healthy := (m.read candidates).filter isUp
    let maxCost := maxFinite (healthy.map (costOf .exact))
    let maxLatency := maxFinite (healthy.map (latencyOf .exact))
    let scored := ((BalancedStrategy.score .exact candidates).run m).1
    let selected := ((RankingStrategy.balanced.select .exact candidates).run m).1
    (1 ≤ maxCost ∧ 1 ≤ maxLatency) ∧
    (scored.map (·.candidate)).Perm healthy ∧
    (∀ s ∈ scored, ∃ normCost normLatency : Rat,
      normalizedBy .exact maxCost (costOf .exact s.candidate) = .finite normCost ∧
      normalizedBy .exact maxLatency (latencyOf .exact s.candidate) = .finite normLatency ∧
      (0 ≤ normCost ∧ normCost ≤ 1) ∧ (0 ≤ normLatency ∧ normLatency ≤ 1) ∧
      s.score = .finite (1 / 2 * normCost + 1 / 2 * normLatency)) ∧
    (∀ s ∈ scored, ∀ t ∈ scored, NoWorse s.candidate t.candidate → s.score.order ≤ t.score.order) ∧
    (∀ (i j : Nat) (s t : ScoredCandidate), scored[i]? = some s → scored[j]? = some t →
      Dominates s.candidate t.candidate → i < j) ∧
    ∀ best, selected = some best → ∀ c ∈ healthy, ¬ Dominates c best := by
  intro healthy maxCost maxLatency scored selected
  have hup : NonNegative healthy := fun c hc => hnonneg c (List.mem_filter.mp hc).1
  have hsort : healthy.IsStableSort (exactScore healthy) (rankBalanced .exact (m.read candidates)) :=
    (isStableSort_sortBy _ healthy).of_le_iff fun a b => by
      rw [balancedScore_exact, balancedScore_exact]
      exact order_finite_le.symm
  obtain ⟨new, hrun⟩ := @run_score .exact m candidates
  have hscored : scored = (rankBalanced .exact (m.read candidates)).map (scoredOf .exact healthy) :=
    congrArg Prod.fst hrun
  -- every entry of the ranking is a healthy candidate with its score
  have hmem : ∀ s ∈ scored, s.candidate ∈ healthy ∧ s.score = .finite (exactScore healthy s.candidate) := by
    intro s hs
    obtain ⟨c, hc, rfl⟩ := List.mem_map.mp (hscored ▸ hs)
    exact ⟨hsort.mem_iff.mp hc, balancedScore_exact healthy c⟩
  refine ⟨⟨one_le_maxFinite _, one_le_maxFinite _⟩, ?_, ?_, ?_, ?_, ?_⟩
  · rw [hscored, map_candidate_scoredOf]
    exact hsort.perm
  · intro s hs
    obtain ⟨hc, hscore⟩ := hmem s hs
    refine ⟨_, _, ?_, ?_, normalized_bounds (mem_costs hc) (hup _ hc).1,
      normalized_bounds (mem_latencies hc) (hup _ hc).2, hscore⟩
    · rw [costOf_exact, normalizedBy_exact]
    · rw [latencyOf_exact, normalizedBy_exact]
  · intro s hs t ht hworse
    rw [(hmem s hs).2, (hmem t ht).2]
    exact order_finite_le.mpr (exactScore_le hup (hmem s hs).1 hworse)
  · intro i j s t hs ht hdominates
    rw [hscored, List.getElem?_map] at hs ht
    obtain ⟨a, ha, rfl⟩ := Option.map_eq_some_iff.mp hs
    obtain ⟨b, hb, rfl⟩ := Option.map_eq_some_iff.mp ht
    exact lt_of_dominates hsort hup ha hb hdominates
  · intro best hbest c hc
    obtain ⟨new', hselect⟩ := (@run_strategy .exact .balanced m candidates).1
    exact not_dominates_head hsort hup ((congrArg Prod.fst hselect).symm.trans hbest) hc

/-- A candidate of this price and latency, each possibly unknown. -/
def pricedCandidate (provider : String) (cost latency : Option Rat) : RoutingCandidate where
  model :=
    { modelId := "shared", provider := provider, aliases := [], contextWindow := 8192, maxOutputTokens := 4096
      capabilities := ⟨true, true, false, false, false, false⟩
      costPer1kInput := cost }
  health := ⟨provider, .healthy, latency⟩

/-- An unpriced candidate, one as slow that has a price, and one as slow that is cheaper. -/
def pricedContext : Arrays RoutingCandidate :=
  [[pricedCandidate "unpriced" none (some 50), pricedCandidate "dear" (some 4) (some 50),
    pricedCandidate "cheap" (some 2) (some 50)]]

/-- The cheap one dominates the dear one, and is selected. -/
theorem balanced_respects_dominance_priced :
    NonNegative (pricedContext.read 0) ∧
      ∃ best, ((RankingStrategy.balanced.select .exact 0).run pricedContext).1 = some best ∧
        best.model.provider = "cheap" ∧ ∀ c ∈ (pricedContext.read 0).filter isUp, ¬ Dominates c best := by
  have hnonneg : NonNegative (pricedContext.read 0) := by
    intro c hc
    simp only [pricedContext, Arrays.read_cons_zero, List.mem_cons, List.not_mem_nil, or_false] at hc
    rcases hc with rfl | rfl | rfl <;> simp [pricedCandidate, totalCost, latencyKey]
  obtain ⟨new, hselect⟩ := (@run_strategy .exact .balanced pricedContext 0).1
  have hfirst : (RoutingStrategy.balanced.rank .exact (pricedContext.read 0)).head? =
      some (pricedCandidate "cheap" (some 2) (some 50)) := by decide +kernel
  have hbest : ((RankingStrategy.balanced.select .exact 0).run pricedContext).1 =
      some (pricedCandidate "cheap" (some 2) (some 50)) := by
    rw [hselect]
    exact hfirst
  obtain ⟨-, -, -, -, -, hselected⟩ := balanced_respects_dominance pricedContext 0 hnonneg
  exact ⟨hnonneg, _, hbest, rfl, hselected _ hbest⟩

end Sirius
