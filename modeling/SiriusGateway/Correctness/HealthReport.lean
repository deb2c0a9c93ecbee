import SiriusGateway.Gateway.Health
import SiriusGateway.Lib.Lists
import SiriusGateway.Lib.Runs

/-!
# `Correctness.HealthReport` — the health report follows the logs

Whatever requests, reloads and other health checks do in between: a report of `GET /providers/health` has one entry
for each provider that was registered when the request came in. Its latency is the mean of the provider's last ten
latencies recorded before the checks were collected, and its breaker is what the provider's breaker log says when the
request is answered (`report_follows_logs`).

## Contents
- **The logs.** What the labels taken so far say about the registry, the breakers and the latencies.
- **What a report is to say**, from the logs and the checks.
- **The latency tracker.** It holds the last ten latencies of each provider.
- **The invariant.** `FollowsLogs`: the state against the logs, and `Stage`: how far a request has come.
- **The report.** What follows the logs is reported as expected.
- **The result**, and a provider that fails while another answers.
-/

namespace Sirius

open LatencyTracker

/-! ## The logs -/

namespace HealthLabel

/-- A request for the health comes in. -/
def isAsked : HealthLabel → Bool
  | .asked => true
  | _ => false

/-- Who is registered after the labels. -/
def providersAfter (providers : ProviderRegistry) (labels : List HealthLabel) : ProviderRegistry :=
  labels.foldl (fun r label => match label with
    | .registry r' => r'
    | _ => r) providers

/-- The steps of the breakers, newest first. -/
def breakerLog (labels : List HealthLabel) : List BreakerStep :=
  (labels.filterMap fun label => match label with
    | .breaker step => some step
    | _ => none).reverse

/-- The latencies recorded for a provider, oldest first. -/
def latencyLog (provider : String) (labels : List HealthLabel) : List Rat :=
  labels.filterMap fun label => match label with
    | .latency p latencyMs => if p = provider then some latencyMs else none
    | _ => none

end HealthLabel

/-- The mean of the last ten latencies, when there are any. -/
def recentMean (latencies : List Rat) : Option Rat :=
  if latencies = [] then none
  else some ((latencies.rtake windowSize).sum / (latencies.rtake windowSize).length)

/-! ## What a report is to say -/

/-- The check found its provider well. -/
def isHealthy : HealthCheck → Bool
  | .ok answer => answer.status = .healthy
  | .error _ => false

/-- The entry of a provider: its latencies are those recorded before the checks were collected, its breaker is that of
    the answer. -/
def expectedEntry (cfg : PolicyConfig) (collected answered : List HealthLabel) (p : AiProvider)
    (check : HealthCheck) : ReportedHealth where
  provider := p.name
  status := match check with
    | .ok answer => answer.status
    | .error _ => .down
  latencyMs := match check with
    | .ok answer => (recentMean (HealthLabel.latencyLog p.name collected)).or answer.latencyMs
    | .error _ => none
  isOpen := cfg.circuitBreakerThreshold ≤ failuresSince cfg p.name (HealthLabel.breakerLog answered)
  failures := failuresSince cfg p.name (HealthLabel.breakerLog answered)
  error := match check with
    | .ok answer => answer.error
    | .error reason => some reason

/-- The report on the providers asked. -/
def expectedReport (cfg : PolicyConfig) (collected answered : List HealthLabel) (asked : List AiProvider)
    (checks : List HealthCheck) : HealthReport where
  status := if checks.all isHealthy then "ok" else "degraded"
  providers := List.zipWith (expectedEntry cfg collected answered) asked checks

/-! ## The latency tracker -/

namespace LatencyTracker

/-- The latencies it holds for a provider. -/
def history (t : LatencyTracker) (provider : String) : List Rat := (t.latencies.get provider).getD []

theorem history_record_self (t : LatencyTracker) (provider : String) (latencyMs : Rat) :
    (t.record provider latencyMs).history provider = (t.history provider).pushWindow windowSize latencyMs := by
  unfold history record
  rw [JsMap.get_set_self]
  rfl

theorem history_record_ne (t : LatencyTracker) {provider other : String} (h : other ≠ provider) (latencyMs : Rat) :
    (t.record provider latencyMs).history other = t.history other := by
  unfold history record
  rw [JsMap.get_set_ne _ _ h]

/-- An average is that of the history. -/
theorem getAverageLatency_eq (t : LatencyTracker) (provider : String) :
    t.getAverageLatency provider =
      if t.history provider = [] then none
      else some ((t.history provider).sum / (t.history provider).length) := by
  unfold getAverageLatency history
  cases t.latencies.get provider <;> rfl

/-- **The average is the mean of the last ten latencies.** -/
theorem getAverageLatency_of_history {t : LatencyTracker} {provider : String} {latencies : List Rat}
    (h : t.history provider = latencies.rtake windowSize) : t.getAverageLatency provider = recentMean latencies := by
  have hnil : latencies.rtake windowSize = [] ↔ latencies = [] := by
    rw [← List.length_eq_zero_iff, ← List.length_eq_zero_iff, List.length_rtake]
    unfold windowSize
    omega
  unfold recentMean
  simp only [getAverageLatency_eq, h, hnil]

end LatencyTracker

/-! ## The invariant -/

namespace HealthSystem

open HealthLabel

variable {cfg : PolicyConfig} {providers : ProviderRegistry} {s t : HealthSystem} {past : List HealthLabel}

/-- The registry, the breakers and the latencies are what the labels say. -/
structure FollowsLogs (cfg : PolicyConfig) (providers : ProviderRegistry) (past : List HealthLabel)
    (s : HealthSystem) : Prop where
  registry : s.providers = providersAfter providers past
  breakers : s.circuitState = stateAfter cfg (breakerLog past)
  latencies : ∀ p, s.latencyTracker.history p = (latencyLog p past).rtake windowSize

theorem follows_start : FollowsLogs cfg providers [] (start providers) := ⟨rfl, rfl, fun _ => rfl⟩

/-- What a step on one request changes. -/
theorem onRequest_eq_some {k : Nat} {f : HealthRequest → Option HealthRequest} (h : s.onRequest k f = some t) :
    ∃ r r', s.requests[k]? = some r ∧ f r = some r' ∧ t = { s with requests := s.requests.set k r' } := by
  obtain ⟨r', hr', rfl⟩ := Option.map_eq_some_iff.mp h
  obtain ⟨r, hr, hf⟩ := Option.bind_eq_some_iff.mp hr'
  exact ⟨r, r', hr, hf, rfl⟩

/-- A label that is none of the three leaves the logs alone. -/
theorem FollowsLogs.quiet {label : HealthLabel} {requests : List HealthRequest} (h : FollowsLogs cfg providers past s)
    (hregistry : providersAfter providers (past ++ [label]) = providersAfter providers past)
    (hbreakers : breakerLog (past ++ [label]) = breakerLog past)
    (hlatencies : ∀ p, latencyLog p (past ++ [label]) = latencyLog p past) :
    FollowsLogs cfg providers (past ++ [label]) { s with requests := requests } := by
  constructor
  · rw [hregistry]
    exact h.registry
  · rw [hbreakers]
    exact h.breakers
  · intro p
    rw [hlatencies]
    exact h.latencies p

/-- **Every step writes its log.** -/
theorem follows_step {label : HealthLabel} (h : FollowsLogs cfg providers past s)
    (hstep : step cfg s label = some t) : FollowsLogs cfg providers (past ++ [label]) t := by
  cases label with
  | registry r =>
      obtain rfl := Option.some.inj hstep
      refine ⟨?_, ?_, ?_⟩
      · simp [providersAfter]
      · simpa [breakerLog] using h.breakers
      · simpa [latencyLog] using h.latencies
  | breaker b =>
      obtain rfl := Option.some.inj hstep
      refine ⟨?_, ?_, ?_⟩
      · simpa [providersAfter] using h.registry
      · simp [breakerLog, stateAfter, h.breakers]
      · simpa [latencyLog] using h.latencies
  | latency provider latencyMs =>
      obtain rfl := Option.some.inj hstep
      refine ⟨?_, ?_, ?_⟩
      · simpa [providersAfter] using h.registry
      · simpa [breakerLog] using h.breakers
      · intro p
        show (s.latencyTracker.record provider latencyMs).history p = _
        by_cases hp : provider = p
        · subst hp
          rw [history_record_self, h.latencies, List.pushWindow_rtake]
          simp [latencyLog]
        · rw [history_record_ne _ (Ne.symm hp), h.latencies]
          simp [latencyLog, hp]
  | asked =>
      obtain rfl := Option.some.inj hstep
      apply h.quiet <;> simp [providersAfter, breakerLog, latencyLog]
  | settled k i probe =>
      obtain ⟨r, r', -, -, rfl⟩ := onRequest_eq_some hstep
      apply h.quiet <;> simp [providersAfter, breakerLog, latencyLog]
  | collected k =>
      obtain ⟨r, r', -, -, rfl⟩ := onRequest_eq_some hstep
      apply h.quiet <;> simp [providersAfter, breakerLog, latencyLog]
  | answered k =>
      obtain ⟨r, r', -, -, rfl⟩ := onRequest_eq_some hstep
      apply h.quiet <;> simp [providersAfter, breakerLog, latencyLog]

/-- The check of the adapter at a place of those asked has come back along the labels. -/
def CameBack (k : Nat) (asked : List AiProvider) (labels : List HealthLabel) (i : Nat) (check : HealthCheck) : Prop :=
  ∃ p probe, asked[i]? = some p ∧ .settled k i probe ∈ labels ∧ healthCheck p probe = some check

/-- All of a request's checks have come back, and `getProviderHealth()` has made its answers of them. -/
structure Gathered (k : Nat) (before between : List HealthLabel) (r : HealthRequest) (checks : List HealthCheck)
    (tracker : LatencyTracker) : Prop where
  settled : r.checks = checks.map some
  came : ∀ i check, checks[i]? = some check → CameBack k r.asked between i check
  latencies : ∀ p, tracker.history p = (latencyLog p (before ++ .asked :: between)).rtake windowSize
  health : r.health = some (List.zipWith (healthOf tracker) r.asked checks)

/-- **How far a request has come**, along the labels `before` it came in and those behind. -/
inductive Stage (cfg : PolicyConfig) (k : Nat) (before : List HealthLabel) : List HealthLabel → HealthRequest → Prop
  | waiting {after : List HealthLabel} {r : HealthRequest} (hhealth : r.health = none) (hreport : r.report = none)
      (hcame : ∀ i check, r.checks[i]? = some (some check) → CameBack k r.asked after i check) :
      Stage cfg k before after r
  | collected {between behind : List HealthLabel} {r : HealthRequest} {checks : List HealthCheck}
      {tracker : LatencyTracker} (hgathered : Gathered k before between r checks tracker)
      (hreport : r.report = none) :
      Stage cfg k before (between ++ .collected k :: behind) r
  | answered {between behind rest : List HealthLabel} {r : HealthRequest} {checks : List HealthCheck}
      {tracker : LatencyTracker} (hgathered : Gathered k before between r checks tracker)
      (hreport : r.report = some (providersHealth
        (stateAfter cfg (breakerLog (before ++ .asked :: (between ++ .collected k :: behind))))
        (List.zipWith (healthOf tracker) r.asked checks))) :
      Stage cfg k before (between ++ .collected k :: behind ++ .answered k :: rest) r

section Stages

variable {k : Nat} {before after : List HealthLabel} {r : HealthRequest}

/-- Others' steps leave a request where it is. -/
theorem Stage.later (h : Stage cfg k before after r) (label : HealthLabel) :
    Stage cfg k before (after ++ [label]) r := by
  cases h with
  | waiting hhealth hreport hcame =>
      refine .waiting hhealth hreport fun i check hcheck => ?_
      obtain ⟨p, probe, hp, hmem, hprobe⟩ := hcame i check hcheck
      exact ⟨p, probe, hp, List.mem_append_left _ hmem, hprobe⟩
  | collected hgathered hreport =>
      rw [List.append_assoc, List.cons_append]
      exact .collected hgathered hreport
  | answered hgathered hreport =>
      rw [List.append_assoc, List.cons_append]
      exact .answered hgathered hreport

/-- A check that settles. -/
theorem Stage.settled {i : Nat} {p : AiProvider} {probe : HealthProbe} {check : HealthCheck}
    (h : Stage cfg k before after r) (hp : r.asked[i]? = some p) (hpending : r.checks[i]? = some none)
    (hcheck : healthCheck p probe = some check) :
    Stage cfg k before (after ++ [.settled k i probe]) { r with checks := r.checks.set i (some check) } := by
  have hwaits : ∀ {checks : List HealthCheck}, r.checks ≠ checks.map some := by
    rintro checks hchecks
    rw [hchecks, List.getElem?_map] at hpending
    obtain ⟨check, -, hnone⟩ := Option.map_eq_some_iff.mp hpending
    cases hnone
  cases h with
  | waiting hhealth hreport hcame =>
      refine .waiting hhealth hreport fun j check' hcheck' => ?_
      rw [List.getElem?_set] at hcheck'
      split at hcheck'
      · rename_i hj
        subst hj
        split at hcheck'
        · obtain rfl := Option.some.inj (Option.some.inj hcheck')
          exact ⟨p, probe, hp, List.mem_append_right _ List.mem_cons_self, hcheck⟩
        · cases hcheck'
      · obtain ⟨p', probe', hp', hmem, hprobe⟩ := hcame j check' hcheck'
        exact ⟨p', probe', hp', List.mem_append_left _ hmem, hprobe⟩
  | collected hgathered => exact absurd hgathered.settled hwaits
  | answered hgathered => exact absurd hgathered.settled hwaits

/-- The checks are collected. -/
theorem Stage.collect {checks : List HealthCheck} (h : Stage cfg k before after r) (hnone : r.health = none)
    (hchecks : r.checks = checks.map some)
    (hfollows : ∀ p, s.latencyTracker.history p = (latencyLog p (before ++ .asked :: after)).rtake windowSize) :
    Stage cfg k before (after ++ [.collected k])
      { r with health := some (List.zipWith (healthOf s.latencyTracker) r.asked checks) } := by
  cases h with
  | waiting hhealth hreport hcame =>
      refine .collected ⟨hchecks, ?_, hfollows, rfl⟩ hreport
      intro i check hcheck
      apply hcame i check
      rw [hchecks, List.getElem?_map, hcheck]
      rfl
  | collected hgathered => cases hgathered.health.symm.trans hnone
  | answered hgathered => cases hgathered.health.symm.trans hnone

/-- The request is answered. -/
theorem Stage.answer {health : List HealthAnswer} (h : Stage cfg k before after r) (hhealth : r.health = some health)
    (hnone : r.report = none)
    (hbreakers : s.circuitState = stateAfter cfg (breakerLog (before ++ .asked :: after))) :
    Stage cfg k before (after ++ [.answered k])
      { r with report := some (providersHealth s.circuitState health) } := by
  cases h with
  | waiting hwaits => cases hwaits.symm.trans hhealth
  | collected hgathered =>
      obtain rfl := Option.some.inj (hgathered.health.symm.trans hhealth)
      refine .answered ⟨hgathered.settled, hgathered.came, hgathered.latencies, hgathered.health⟩ ?_
      rw [hbreakers]
  | answered _ hreport => cases hreport.symm.trans hnone

end Stages

/-- A request stands where the labels behind its own `asked` have brought it. -/
def Traced (cfg : PolicyConfig) (providers : ProviderRegistry) (past : List HealthLabel) (k : Nat)
    (r : HealthRequest) : Prop :=
  ∃ before after, past = before ++ .asked :: after ∧ before.countP isAsked = k ∧
    r.asked = (providersAfter providers before).getAll ∧ r.checks.length = r.asked.length ∧ Stage cfg k before after r

/-- Somebody else's step. -/
theorem Traced.later {k : Nat} {r : HealthRequest} (h : Traced cfg providers past k r) (label : HealthLabel) :
    Traced cfg providers (past ++ [label]) k r := by
  obtain ⟨before, after, rfl, hk, hasked, hlength, hstage⟩ := h
  exact ⟨before, after ++ [label], by simp, hk, hasked, hlength, hstage.later label⟩

/-- **The invariant**: the logs, and every request along them. -/
structure Reports (cfg : PolicyConfig) (providers : ProviderRegistry) (past : List HealthLabel) (s : HealthSystem) :
    Prop where
  logs : FollowsLogs cfg providers past s
  count : s.requests.length = past.countP isAsked
  traced : ∀ k r, s.requests[k]? = some r → Traced cfg providers past k r

theorem reports_start : Reports cfg providers [] (start providers) := ⟨follows_start, rfl, fun _ _ h => nomatch h⟩

/-- A step that touches no request. -/
theorem Reports.others {label : HealthLabel} (h : Reports cfg providers past s) (hstep : step cfg s label = some t)
    (hrequests : t.requests = s.requests) (hlabel : label.isAsked = false) :
    Reports cfg providers (past ++ [label]) t := by
  refine ⟨follows_step h.logs hstep, ?_, ?_⟩
  · rw [hrequests, h.count, List.countP_append, List.countP_singleton, hlabel]
    rfl
  · intro k r hr
    rw [hrequests] at hr
    exact (h.traced k r hr).later label

/-- A step of one request, along the labels behind its own `asked`. -/
theorem Reports.request {label : HealthLabel} {k : Nat} {r r' : HealthRequest} (h : Reports cfg providers past s)
    (hstep : step cfg s label = some t) (hr : s.requests[k]? = some r) (hrequests : t.requests = s.requests.set k r')
    (hlabel : label.isAsked = false) (hasked : r'.asked = r.asked) (hlength : r'.checks.length = r.checks.length)
    (hstage : ∀ before after, past = before ++ .asked :: after → Stage cfg k before after r →
      Stage cfg k before (after ++ [label]) r') :
    Reports cfg providers (past ++ [label]) t := by
  refine ⟨follows_step h.logs hstep, ?_, ?_⟩
  · rw [hrequests, List.length_set, h.count, List.countP_append, List.countP_singleton, hlabel]
    rfl
  · intro j x hx
    rw [hrequests, List.getElem?_set] at hx
    split at hx
    · rename_i hj
      subst hj
      split at hx
      · obtain rfl := Option.some.inj hx
        obtain ⟨before, after, hpast, hk, hfrom, hsame, hat⟩ := h.traced k r hr
        refine ⟨before, after ++ [label], by simp [hpast], hk, hasked.trans hfrom, ?_, hstage before after hpast hat⟩
        rw [hlength, hsame, hasked]
      · cases hx
    · exact (h.traced j x hx).later label

/-- **Every step keeps the invariant.** -/
theorem reports_step {label : HealthLabel} (h : Reports cfg providers past s) (hstep : step cfg s label = some t) :
    Reports cfg providers (past ++ [label]) t := by
  cases label with
  | registry r => exact h.others hstep (Option.some.inj hstep ▸ rfl) rfl
  | breaker b => exact h.others hstep (Option.some.inj hstep ▸ rfl) rfl
  | latency provider latencyMs => exact h.others hstep (Option.some.inj hstep ▸ rfl) rfl
  | asked =>
      refine ⟨follows_step h.logs hstep, ?_, ?_⟩
      · obtain rfl := Option.some.inj hstep
        simp [h.count, isAsked]
      · intro k r hr
        obtain rfl := Option.some.inj hstep
        obtain hold | ⟨hk, hnew⟩ := List.getElem?_concat_cases hr
        · exact (h.traced k r hold).later .asked
        · subst hnew
          refine ⟨past, [], rfl, ?_, ?_, ?_, ?_⟩
          · rw [hk, h.count]
          · simp [h.logs.registry]
          · simp
          · refine .waiting rfl rfl fun i check hcheck => ?_
            -- nobody has come back yet
            obtain ⟨-, -, hnone⟩ := List.mem_map.mp (List.mem_of_getElem? hcheck)
            cases hnone
  | settled k i probe =>
      obtain ⟨r, r', hr, hf, ht⟩ := onRequest_eq_some hstep
      have hrequests : t.requests = s.requests.set k r' := congrArg HealthSystem.requests ht
      split at hf
      · rename_i p hp hpending
        obtain ⟨check, hcheck, rfl⟩ := Option.map_eq_some_iff.mp hf
        refine h.request hstep hr hrequests rfl rfl List.length_set fun before after _ hat => ?_
        exact hat.settled hp hpending hcheck
      · cases hf
  | collected k =>
      obtain ⟨r, r', hr, hf, ht⟩ := onRequest_eq_some hstep
      have hrequests : t.requests = s.requests.set k r' := congrArg HealthSystem.requests ht
      split at hf
      · rename_i checks hnone hchecks
        obtain rfl := Option.some.inj hf
        refine h.request hstep hr hrequests rfl rfl rfl fun before after hpast hat => ?_
        apply hat.collect hnone (List.eq_map_some_of_mapM hchecks)
        rw [← hpast]
        exact h.logs.latencies
      · cases hf
  | answered k =>
      obtain ⟨r, r', hr, hf, ht⟩ := onRequest_eq_some hstep
      have hrequests : t.requests = s.requests.set k r' := congrArg HealthSystem.requests ht
      split at hf
      · rename_i health hhealth hnone
        obtain rfl := Option.some.inj hf
        refine h.request hstep hr hrequests rfl rfl rfl fun before after hpast hat => ?_
        apply hat.answer hhealth hnone
        rw [← hpast]
        exact h.logs.breakers
      · cases hf

/-! ## The report -/

/-- The tracker and the breakers that follow the logs give the expected entry. -/
theorem reportedHealth_healthOf (hthreshold : 1 ≤ cfg.circuitBreakerThreshold) {collected answered : List HealthLabel}
    {tracker : LatencyTracker} (htracker : ∀ p, tracker.history p = (latencyLog p collected).rtake windowSize)
    {p : AiProvider} {check : HealthCheck} (hcheck : ∀ answer, check = .ok answer → answer.provider = p.name) :
    reportedHealth (stateAfter cfg (breakerLog answered)) (healthOf tracker p check) =
      expectedEntry cfg collected answered p check := by
  have hname : (healthOf tracker p check).provider = p.name := by
    cases check with
    | ok answer => exact hcheck answer rfl
    | error reason => rfl
  have hagrees := agrees_stateAfter hthreshold p.name (breakerLog answered)
  have hopen : ((stateAfter cfg (breakerLog answered)).getCircuitBreakerState p.name).isOpen =
      decide (cfg.circuitBreakerThreshold ≤ failuresSince cfg p.name (breakerLog answered)) := by
    rw [Bool.eq_iff_iff, decide_eq_true_iff]
    exact hagrees.isOpen
  unfold reportedHealth expectedEntry
  simp only [hname, hagrees.failures, hopen]
  cases check with
  | ok answer => simp [healthOf, hcheck answer rfl, getAverageLatency_of_history (htracker p.name)]
  | error reason => rfl

/-- A check is reported healthy when it is. -/
theorem healthy_healthOf (tracker : LatencyTracker) (p : AiProvider) (check : HealthCheck) :
    decide ((healthOf tracker p check).status = .healthy) = isHealthy check := by
  cases check <;> rfl

/-- All are reported healthy when all checks are. -/
theorem all_healthy_healthOf (tracker : LatencyTracker) {asked : List AiProvider} {checks : List HealthCheck}
    (hlength : checks.length = asked.length) :
    (List.zipWith (healthOf tracker) asked checks).all (fun h => h.status = .healthy) = checks.all isHealthy := by
  induction checks generalizing asked with
  | nil => simp
  | cons check rest ih =>
      cases asked with
      | nil => cases hlength
      | cons p asked =>
          rw [List.zipWith_cons_cons, List.all_cons, List.all_cons, healthy_healthOf, ih (Nat.succ.inj hlength)]

/-- All adapters that were asked have come back: the report is the expected one. -/
theorem providersHealth_eq (hthreshold : 1 ≤ cfg.circuitBreakerThreshold)
    {collected answered between : List HealthLabel} {tracker : LatencyTracker}
    (htracker : ∀ p, tracker.history p = (latencyLog p collected).rtake windowSize)
    {k : Nat} {asked : List AiProvider} {checks : List HealthCheck} (hlength : checks.length = asked.length)
    (hcame : ∀ i check, checks[i]? = some check → CameBack k asked between i check) :
    providersHealth (stateAfter cfg (breakerLog answered)) (List.zipWith (healthOf tracker) asked checks) =
      expectedReport cfg collected answered asked checks := by
  have hentries : (List.zipWith (healthOf tracker) asked checks).map
      (reportedHealth (stateAfter cfg (breakerLog answered))) =
        List.zipWith (expectedEntry cfg collected answered) asked checks := by
    rw [List.map_zipWith]
    apply List.ext_getElem
    · simp
    · intro i hi hi'
      rw [List.getElem_zipWith, List.getElem_zipWith]
      apply reportedHealth_healthOf hthreshold htracker
      intro answer hanswer
      have hchecks : i < checks.length := by
        rw [List.length_zipWith] at hi
        omega
      obtain ⟨p, probe, hp, -, hprobe⟩ := hcame i checks[i] (List.getElem?_eq_getElem hchecks)
      rw [hanswer] at hprobe
      rw [provider_healthCheck hprobe, (List.getElem?_eq_some_iff.mp hp).2]
  unfold providersHealth expectedReport
  rw [hentries, all_healthy_healthOf tracker hlength]

end HealthSystem

/-! ## The result -/

open HealthSystem HealthLabel

/-- **The health report follows the logs.** In every run, a report of the `k`-th request has one entry for each
    provider that was registered when the request came in, from the check of that provider that came back to it; the
    latencies are those recorded before the checks were collected, and the breakers are as they stand when it is
    answered. -/
theorem report_follows_logs {cfg : PolicyConfig} (hthreshold : 1 ≤ cfg.circuitBreakerThreshold)
    {providers : ProviderRegistry} {labels : List HealthLabel} {t : HealthSystem}
    (h : Lts.Run (HealthSystem.step cfg) (start providers) labels t) {k : Nat} {r : HealthRequest}
    (hr : t.requests[k]? = some r) {report : HealthReport} (hreport : r.report = some report) :
    ∃ before between behind rest checks,
      labels = before ++ .asked :: (between ++ .collected k :: behind ++ .answered k :: rest) ∧
      before.countP isAsked = k ∧
      checks.length = (providersAfter providers before).getAll.length ∧
      (∀ i check, checks[i]? = some check → CameBack k (providersAfter providers before).getAll between i check) ∧
      report = expectedReport cfg (before ++ .asked :: between)
        (before ++ .asked :: (between ++ .collected k :: behind))
        (providersAfter providers before).getAll checks := by
  have hreports : Reports cfg providers labels t := h.history (fun _ _ _ _ => reports_step) [] reports_start
  obtain ⟨before, after, rfl, hk, hasked, hlength, hstage⟩ := hreports.traced k r hr
  cases hstage with
  | waiting _ hnone => cases hnone.symm.trans hreport
  | collected _ hnone => cases hnone.symm.trans hreport
  | @answered between behind rest _ checks _ hgathered hmade =>
      obtain rfl := Option.some.inj (hmade.symm.trans hreport)
      have hsame : checks.length = r.asked.length := by
        rw [← hlength, hgathered.settled, List.length_map]
      refine ⟨before, between, behind, rest, checks, rfl, hk, ?_, ?_, ?_⟩
      · rw [← hasked]
        exact hsame
      · rw [← hasked]
        exact hgathered.came
      · rw [← hasked]
        exact providersHealth_eq hthreshold hgathered.latencies hsame hgathered.came

/-- Two adapters. -/
def twoAdapters : ProviderRegistry :=
  (ProviderRegistry.empty.register ⟨"openai", .openai⟩).register ⟨"ollama", .ollama⟩

/-- A request while one provider answers others and the other one is down. -/
def refusedLabels : List HealthLabel :=
  [.latency "openai" 100, .asked, .settled 0 1 (.ping (.failed "fetch failed") 3),
    .breaker ⟨.recordFailure, "ollama", 10⟩, .latency "openai" 300, .settled 0 0 (.listing none 25), .collected 0,
    .latency "openai" 500, .breaker ⟨.recordFailure, "ollama", 20⟩, .answered 0]

/-- The latency of the first is the mean of what was recorded when the checks were collected; the breaker of the
    second counts the failure that came behind them. -/
def refusedReport : HealthReport where
  status := "degraded"
  providers :=
    [⟨"openai", .healthy, some 200, false, 0, none⟩, ⟨"ollama", .down, some 3, true, 2, some "fetch failed"⟩]

theorem report_follows_logs_refused :
    ∃ before between behind rest checks,
      refusedLabels = before ++ .asked :: (between ++ .collected 0 :: behind ++ .answered 0 :: rest) ∧
      before.countP isAsked = 0 ∧
      refusedReport = expectedReport strictPolicy (before ++ .asked :: between)
        (before ++ .asked :: (between ++ .collected 0 :: behind))
        (providersAfter twoAdapters before).getAll checks := by
  obtain ⟨t, r, hrun, hr, hreport⟩ : ∃ t r,
      Lts.Run (HealthSystem.step strictPolicy) (start twoAdapters) refusedLabels t ∧ t.requests[0]? = some r ∧
        r.report = some refusedReport :=
    ⟨_, _, .cons rfl (.cons rfl (.cons rfl (.cons rfl (.cons rfl (.cons rfl (.cons rfl (.cons rfl (.cons rfl
      (.cons rfl (.nil _)))))))))), rfl, by decide +kernel⟩
  obtain ⟨before, between, behind, rest, checks, hlabels, hasked, -, -, hmade⟩ :=
    report_follows_logs (by decide) hrun hr hreport
  exact ⟨before, between, behind, rest, checks, hlabels, hasked, hmade⟩

end Sirius
