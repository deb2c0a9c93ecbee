import SiriusGateway.Lib.Lists
import SiriusGateway.Routing.Arrays
import Mathlib.Algebra.Order.Field.Basic

/-!
# `Correctness.Ranking` — one ranking behind select and fallback chain

Each ranking strategy ranks twice for a request, once in `select` and once in `buildFallbackChain`, on arrays
it sorts in place. Both times it arrives at the stable sort of the eligible candidates by its key, and it
writes to no array but its own.

## Contents
- **Comparators.** Sorting with them is `sortBy` of `Routing.Strategies`.
- **Programs.** What each ranking leaves in memory (`Leaves`), and which list that is.
- **Keys.** `RankingStrategy.key` and `eligible`; the rankings are stable sorts (`isStableSort_rank`).
- **Result.** `ranking_consistent`.
-/

namespace Sirius

open Js

variable {r : Arithmetic}

/-! ## Comparators -/

/-- A latency is a number or unknown. -/
theorem has_latencyOf (c : RoutingCandidate) : r.Has (latencyOf r c) := by
  unfold latencyOf
  split
  · exact Arithmetic.has_literal _
  · exact Arithmetic.has_infinity false

/-- A price is a finite number. -/
theorem priceOf_eq_finite (price : Option Rat) : ∃ q, priceOf r price = .finite q := by
  cases price with
  | none => exact ⟨0, rfl⟩
  | some q => exact ⟨r.literal q, rfl⟩

/-- A cost is a number, an overflow or unknown. -/
theorem has_costOf (c : RoutingCandidate) : r.Has (costOf r c) := by
  unfold costOf
  split
  · exact Arithmetic.has_infinity false
  · obtain ⟨p, hp⟩ := @priceOf_eq_finite r c.model.costPer1kInput
    obtain ⟨q, hq⟩ := @priceOf_eq_finite r c.model.costPer1kOutput
    rw [hp, hq]
    exact Arithmetic.has_result (p + q)

theorem isStableSort_sortBy {K : Type} [LinearOrder K] (key : RoutingCandidate → K) (l : List RoutingCandidate) :
    l.IsStableSort key (sortBy key l) := List.IsStableSort.insertionSort key l

/-- Sorting by a difference of numbers is `sortBy` their order. -/
theorem sortWith_sub (key : RoutingCandidate → JsNumber) (hkey : ∀ c, r.Has (key c))
    (l : List RoutingCandidate) :
    sortWith (fun a b => (key a).sub r (key b)) l = sortBy (fun c => (key c).order) l :=
  (isStableSort_sortWith key l fun c _ => hkey c).unique (isStableSort_sortBy _ l)

theorem sortWith_byLatency (l : List RoutingCandidate) : sortWith (byLatency r) l = sortedByLatency r l :=
  sortWith_sub (latencyOf r) has_latencyOf l

theorem sortWith_byCost (l : List RoutingCandidate) :
    sortWith (byCost r) l = sortBy (fun c => (costOf r c).order) l :=
  sortWith_sub (costOf r) has_costOf l

theorem filter_isUp (l : List RoutingCandidate) : l.filter isUp = notDown l := rfl

/-! ## Programs -/

/-- The program adds arrays to the memory; the one it returns holds the ranking of what it is given. -/
def Leaves (ranked : Nat → Ranked Nat) (ranking : List RoutingCandidate → List RoutingCandidate) : Prop :=
  ∀ (m : Arrays RoutingCandidate) (candidates : Nat), ∃ ref new, (ranked candidates).run m = (ref, m ++ new) ∧
    (m ++ new : Arrays RoutingCandidate).read ref = ranking (m.read candidates)

theorem leaves_sortByLatency : Leaves (FastestStrategy.sortByLatency r) (sortByLatency r) := by
  intro m candidates
  refine ⟨m.length + 1, [m.read candidates, sortByLatency r (m.read candidates)], ?_, by simp⟩
  simp only [FastestStrategy.sortByLatency, Arrays.run_bind, Arrays.run_spread, Arrays.run_filter, Arrays.run_sort,
    sortWith_byLatency, filter_isUp]
  simp [sortByLatency]

theorem leaves_sortByCost : Leaves (CheapestStrategy.sortByCost r) (sortByCost r) := by
  intro m candidates
  refine ⟨m.length + 1, [m.read candidates, sortByCost r (m.read candidates)], ?_, by simp⟩
  simp only [CheapestStrategy.sortByCost, Arrays.run_bind, Arrays.run_spread, Arrays.run_filter, Arrays.run_sort,
    sortWith_byCost, filter_isUp]
  simp [sortByCost]

theorem leaves_rankLocalFirst : Leaves (LocalFirstStrategy.rank r) (rankLocalFirst r) := by
  intro m candidates
  let healthy := notDown (m.read candidates)
  refine ⟨m.length + 3, [healthy, sortedByLatency r (healthy.filter isLocal),
    sortedByLatency r (healthy.filter fun c => !isLocal c), rankLocalFirst r (m.read candidates)], ?_, by simp⟩
  simp only [LocalFirstStrategy.rank, Arrays.run_bind, Arrays.run_spread, Arrays.run_filter, Arrays.run_sort,
    sortWith_byLatency, filter_isUp]
  simp [rankLocalFirst, healthy]

/-- The last `sort` overwrites `healthy`, which the strategy has made itself. -/
theorem leaves_rankPrivacyFirst : Leaves (PrivacyFirstStrategy.rank r) (rankPrivacyFirst r) := by
  intro m candidates
  let healthy := notDown (m.read candidates)
  let locals := sortedByLatency r (healthy.filter isLocal)
  have hrun : (PrivacyFirstStrategy.rank r candidates).run m =
      (if locals.length > 0 then pure (m.length + 1) else Arrays.sort (byLatency r) m.length : Ranked Nat).run
        (m ++ [healthy, locals]) := by
    simp only [PrivacyFirstStrategy.rank, Arrays.run_bind, Arrays.run_filter, Arrays.run_sort, Arrays.run_get,
      sortWith_byLatency, filter_isUp]
    simp [healthy, locals]
  rw [hrun]
  by_cases hlocals : locals.length > 0
  · refine ⟨m.length + 1, [healthy, locals], ?_, ?_⟩
    · rw [if_pos hlocals, Arrays.run_pure]
    · simp [rankPrivacyFirst, hlocals, healthy, locals]
  · refine ⟨m.length, [sortedByLatency r healthy, locals], ?_, ?_⟩
    · rw [if_neg hlocals, Arrays.run_sort, sortWith_byLatency]
      simp
    · rw [rankPrivacyFirst, if_neg hlocals]
      simp [healthy]

/-! ### The scores of `balanced` -/

/-- No finite value is above the maximum the strategy divides by, and that is at least 1. -/
theorem le_maxFinite {values : List JsNumber} {q : Rat} (h : .finite q ∈ values) : q ≤ maxFinite values := by
  refine (List.le_foldl_max (finiteOnes values) 1).2 q ?_
  unfold finiteOnes
  exact List.mem_filterMap.mpr ⟨_, h, rfl⟩

theorem one_le_maxFinite (values : List JsNumber) : 1 ≤ maxFinite values :=
  (List.le_foldl_max (finiteOnes values) 1).1

/-- Half of a normalized value is not `NaN`, nor above all numbers. -/
theorem half_normalizedBy {values : List JsNumber} {x : JsNumber} (hx : x ∈ values) :
    (normalizedBy r (maxFinite values) x).half r ≠ .nan ∧
      (normalizedBy r (maxFinite values) x).half r ≠ .infinity false := by
  have hhalf : ∀ {p : Rat}, p ≤ 2 → ((JsNumber.finite p).half r ≠ .nan ∧
      (JsNumber.finite p).half r ≠ .infinity false) := by
    intro p hp
    exact ⟨r.result_ne_nan _, (r.result_of_le_one (by linarith)).1⟩
  cases x with
  | nan => exact hhalf one_le_two
  | infinity negative =>
      cases negative with
      | true => exact ⟨nofun, nofun⟩
      | false => exact hhalf one_le_two
  | finite q =>
      have hle : q / maxFinite values ≤ 1 :=
        (div_le_one (one_pos.trans_le (one_le_maxFinite values))).mpr (le_maxFinite hx)
      obtain ⟨hbelow, htwo⟩ := r.result_of_le_one hle
      rw [normalizedBy]
      cases hresult : r.result (q / maxFinite values) with
      | nan => exact absurd hresult (r.result_ne_nan _)
      | infinity negative =>
          cases negative with
          | true => exact ⟨nofun, nofun⟩
          | false => exact absurd hresult hbelow
      | finite p => exact hhalf (htwo p hresult)

/-- The score of a healthy candidate is not `NaN`. -/
theorem has_balancedScore {healthy : List RoutingCandidate} {c : RoutingCandidate} (hc : c ∈ healthy) :
    r.Has (balancedScore r healthy c) :=
  JsNumber.has_add (half_normalizedBy (List.mem_map_of_mem hc)) (half_normalizedBy (List.mem_map_of_mem hc))

/-- A healthy candidate with its score. -/
def scoredOf (r : Arithmetic) (healthy : List RoutingCandidate) (c : RoutingCandidate) : ScoredCandidate :=
  ⟨c, balancedScore r healthy c⟩

/-- The healthy candidates with their scores, before they are sorted. -/
theorem scored_eq (healthy : List RoutingCandidate) :
    (healthy.zip ((healthy.map (costOf r)).zip (healthy.map (latencyOf r)))).map (fun (candidate, cost, latency) =>
      (⟨candidate, scoreOf r (maxFinite (healthy.map (costOf r))) (maxFinite (healthy.map (latencyOf r))) cost
        latency⟩ : ScoredCandidate)) = healthy.map (scoredOf r healthy) := by
  have hzip : healthy.zip ((healthy.map (costOf r)).zip (healthy.map (latencyOf r))) =
      healthy.map fun c => (c, costOf r c, latencyOf r c) := by
    rw [List.zip_map']
    conv_lhs => arg 1; rw [← List.map_id healthy]
    rw [List.zip_map']
    rfl
  rw [hzip, List.map_map]
  rfl

/-- Sorting the scored candidates sorts the candidates by their scores. -/
theorem sortWith_score (healthy : List RoutingCandidate) :
    sortWith (fun a b => a.score.sub r b.score) (healthy.map (scoredOf r healthy)) =
      (sortBy (fun c => (balancedScore r healthy c).order) healthy).map (scoredOf r healthy) := by
  have hscores : ∀ a ∈ healthy.map (scoredOf r healthy), r.Has a.score := by
    intro a ha
    obtain ⟨c, hc, rfl⟩ := List.mem_map.mp ha
    exact has_balancedScore hc
  have hsorted := isStableSort_sortWith (fun a : ScoredCandidate => a.score) _ hscores
  have hcandidates := isStableSort_sortBy (fun c => (balancedScore r healthy c).order) healthy
  exact hsorted.unique (hcandidates.map (scoredOf r healthy) fun c _ => rfl)

/-- The scores of `balanced` add one array to the memory; they come in the order of its ranking. -/
theorem run_score (m : Arrays RoutingCandidate) (candidates : Nat) :
    ∃ new, (BalancedStrategy.score r candidates).run m =
      ((rankBalanced r (m.read candidates)).map (scoredOf r (notDown (m.read candidates))), m ++ new) := by
  have hread : (m ++ [notDown (m.read candidates)] : Arrays RoutingCandidate).read m.length =
      notDown (m.read candidates) := by simp
  refine ⟨[notDown (m.read candidates)], ?_⟩
  by_cases hnone : (notDown (m.read candidates)).length = 0
  · simp only [BalancedStrategy.score, Arrays.run_bind, Arrays.run_filter, Arrays.run_get, filter_isUp, hread,
      hnone, ↓reduceIte, Arrays.run_pure]
    rw [rankBalanced, List.length_eq_zero_iff.mp hnone]
    rfl
  · simp only [BalancedStrategy.score, Arrays.run_bind, Arrays.run_filter, Arrays.run_get, filter_isUp, hread,
      hnone, ↓reduceIte, Arrays.run_pure]
    rw [scored_eq, sortWith_score]
    rfl

theorem map_candidate_scoredOf (healthy l : List RoutingCandidate) :
    (l.map (scoredOf r healthy)).map (·.candidate) = l := by
  rw [List.map_map]
  exact List.map_id l

/-! ## Keys -/

namespace RankingStrategy

/-- The candidates a strategy ranks: those that are not down, and of them for privacy-first the local ones if
    there is one. -/
def eligible (s : RankingStrategy) (candidates : List RoutingCandidate) : List RoutingCandidate :=
  match s with
  | .privacyFirst =>
      if ∃ c ∈ notDown candidates, isLocal c = true then (notDown candidates).filter isLocal
      else notDown candidates
  | _ => notDown candidates

/-- What a strategy ranks by: a class of candidates first, a number second. -/
def key (r : Arithmetic) (s : RankingStrategy) (candidates : List RoutingCandidate) (c : RoutingCandidate) :
    ℕ ×ₗ WithBot (WithTop ℚ) :=
  match s with
  | .fastest => toLex (0, (latencyOf r c).order)
  | .cheapest => toLex (0, (costOf r c).order)
  | .balanced => toLex (0, (balancedScore r (notDown candidates) c).order)
  | .localFirst => toLex (if isLocal c then 0 else 1, (latencyOf r c).order)
  | .privacyFirst => toLex (0, (latencyOf r c).order)

end RankingStrategy

theorem toLex_zero_le_iff {K : Type} [LinearOrder K] {x y : K} :
    toLex ((0 : ℕ), x) ≤ toLex ((0 : ℕ), y) ↔ x ≤ y := by
  simp [Prod.Lex.toLex_le_toLex]

/-- **A strategy's ranking is the stable sort** of what is eligible by its key. -/
theorem isStableSort_rank (s : RankingStrategy) (candidates : List RoutingCandidate) :
    (s.eligible candidates).IsStableSort (s.key r candidates) (s.strategy.rank r candidates) := by
  have hone : ∀ {K : Type} [LinearOrder K] {key : RoutingCandidate → K} {key' : RoutingCandidate → ℕ ×ₗ K}
      (l : List RoutingCandidate), (∀ a b, key' a ≤ key' b ↔ key a ≤ key b) → l.IsStableSort key' (sortBy key l) :=
    fun l hkey => (isStableSort_sortBy _ l).of_le_iff hkey
  cases s with
  | fastest => exact hone _ fun a b => toLex_zero_le_iff
  | cheapest => exact hone _ fun a b => toLex_zero_le_iff
  | balanced => exact hone _ fun a b => toLex_zero_le_iff
  | localFirst => exact (isStableSort_sortBy _ _).append (isStableSort_sortBy _ _)
  | privacyFirst =>
      have hlocal : (sortedByLatency r ((notDown candidates).filter isLocal)).length > 0 ↔
          ∃ c ∈ notDown candidates, isLocal c = true := by
        rw [sortedByLatency, (isStableSort_sortBy _ _).perm.length_eq, gt_iff_lt, List.length_filter_pos_iff]
      simp only [RankingStrategy.eligible, RankingStrategy.strategy, RoutingStrategy.rank, rankPrivacyFirst, hlocal]
      split
      · exact hone _ fun a b => toLex_zero_le_iff
      · exact hone _ fun a b => toLex_zero_le_iff

/-! ## Result -/

/-- `select` and `buildFallbackChain` on a ranking that a program leaves in memory. -/
theorem run_of_leaves {ranked : Nat → Ranked Nat} {ranking : List RoutingCandidate → List RoutingCandidate}
    (h : Leaves ranked ranking) (m : Arrays RoutingCandidate) (candidates : Nat) :
    (∃ new, (do RankingStrategy.first (← ranked candidates)).run m =
        ((ranking (m.read candidates)).head?, m ++ new)) ∧
      ∃ ref new, (do Arrays.slice 1 (← ranked candidates)).run m = (ref, m ++ new) ∧
        (m ++ new : Arrays RoutingCandidate).read ref = (ranking (m.read candidates)).tail := by
  obtain ⟨ref, new, hrun, hread⟩ := h m candidates
  refine ⟨⟨new, ?_⟩, (m ++ new).length, new ++ [(ranking (m.read candidates)).tail], ?_, ?_⟩
  · rw [Arrays.run_bind, hrun, RankingStrategy.first, Arrays.run_bind, Arrays.run_get, Arrays.run_pure, hread]
  · rw [Arrays.run_bind, hrun, Arrays.run_slice, hread, List.drop_one, List.append_assoc]
  · rw [← List.append_assoc, Arrays.read_first_new, Arrays.read_cons_zero]

/-- What one call of each method does to the memory. -/
theorem run_strategy (s : RankingStrategy) (m : Arrays RoutingCandidate) (candidates : Nat) :
    (∃ new, (s.select r candidates).run m = ((s.strategy.rank r (m.read candidates)).head?, m ++ new)) ∧
      ∃ ref new, (s.buildFallbackChain r candidates).run m = (ref, m ++ new) ∧
        (m ++ new : Arrays RoutingCandidate).read ref = (s.strategy.rank r (m.read candidates)).tail := by
  cases s with
  | fastest => exact run_of_leaves leaves_sortByLatency m candidates
  | cheapest => exact run_of_leaves leaves_sortByCost m candidates
  | localFirst => exact run_of_leaves leaves_rankLocalFirst m candidates
  | privacyFirst => exact run_of_leaves leaves_rankPrivacyFirst m candidates
  | balanced =>
      obtain ⟨new, hrun⟩ := @run_score r m candidates
      have hranking := @map_candidate_scoredOf r (notDown (m.read candidates)) (rankBalanced r (m.read candidates))
      refine ⟨⟨new, ?_⟩, (m ++ new).length, new ++ [(rankBalanced r (m.read candidates)).tail], ?_, ?_⟩
      · rw [RankingStrategy.select, Arrays.run_bind, hrun, Arrays.run_pure, ← List.head?_map, hranking]
        rfl
      · rw [RankingStrategy.buildFallbackChain, Arrays.run_bind, hrun, Arrays.run_alloc, List.map_drop, hranking,
          List.drop_one, List.append_assoc]
      · rw [← List.append_assoc, Arrays.read_first_new, Arrays.read_cons_zero]
        rfl

/-- **The ranking strategies return one consistent ranking**: for a request, `select` and then
    `buildFallbackChain` read head and tail of the stable sort of the eligible candidates, and no array that was
    there is written to, the context's list among them. The keys are the numbers the program computes: costs
    and scores are sums of doubles, and tie where those are equal. -/
theorem ranking_consistent (s : RankingStrategy) (m : Arrays RoutingCandidate) (candidates : Fin m.length) :
    let given := m.read candidates
    let (selected, m₁) := (s.select .double candidates).run m
    let (chain, m₂) := (s.buildFallbackChain .double candidates).run m₁
    ∃ ranking, (s.eligible given).IsStableSort (s.key .double given) ranking ∧
      selected = ranking.head? ∧ m₂.read chain = ranking.tail ∧
      m <+: m₁ ∧ m₁ <+: m₂ ∧ m₂.read candidates = given := by
  intro given
  obtain ⟨new, hselect⟩ := (@run_strategy .double s m candidates).1
  have hgiven : (m ++ new : Arrays RoutingCandidate).read candidates = given :=
    m.read_append candidates new candidates.2
  obtain ⟨ref, new', hchain, hread⟩ := (@run_strategy .double s (m ++ new) candidates).2
  rw [hgiven] at hread
  simp only [hselect, hchain]
  refine ⟨s.strategy.rank .double given, isStableSort_rank s given, rfl, hread, List.prefix_append _ _,
    List.prefix_append _ _, ?_⟩
  rw [List.append_assoc]
  exact m.read_append candidates (new ++ new') candidates.2

-- a cost of 1 and a latency of 2, against a cost of 3 and no latency, both relative to 10: equal sums, but not of
-- doubles
example : (scoreOf .double 10 10 (.finite 3) (.finite 0)).order <
    (scoreOf .double 10 10 (.finite 1) (.finite 2)).order := by decide +kernel

end Sirius
