import SiriusGateway.Adapters.Llamactl
import SiriusGateway.Lib.Runs

/-!
# `Correctness.Observations` — whose usage observation a call carries

The concurrent calls of a llamactl adapter share one map of observations. Whatever the order in which calls
start, snapshots come in and calls settle, a call that succeeds carries the last observation of its own
attempt, and the map holds nothing of a call that has settled (`observations_isolated`).

## Contents
- **The last observation.** `lastObserved`, over the labels of a run.
- **The invariant.** `Isolated`, and that each kind of step keeps it.
- **Every run.**
-/

namespace Sirius

open Js Lts

namespace Llamactl

variable {ω : Type} {past : List (Label ω)} {s t : System ω} {l : Label ω}

/-! ## The last observation -/

/-- The observation the label brings for an attempt. -/
def observed (attemptId : String) : Label ω → Option ω
  | .observe snapshot => if snapshot.tag = some attemptId then some snapshot.observation else none
  | _ => none

/-- The last observation delivered for an attempt. -/
def lastObserved (labels : List (Label ω)) (attemptId : String) : Option ω :=
  (labels.filterMap (observed attemptId)).getLast?

theorem lastObserved_concat_none {attemptId : String} (h : observed attemptId l = none) :
    lastObserved (past ++ [l]) attemptId = lastObserved past attemptId := by
  unfold lastObserved
  rw [List.filterMap_append, List.filterMap_cons_none h, List.filterMap_nil, List.append_nil]

theorem lastObserved_concat_some {attemptId : String} {observation : ω}
    (h : observed attemptId l = some observation) :
    lastObserved (past ++ [l]) attemptId = some observation := by
  unfold lastObserved
  rw [List.filterMap_append, List.filterMap_cons_some h, List.filterMap_nil, List.getLast?_concat]

/-! ## The invariant -/

/-- The map holds the last observation of each call in flight, and nothing else; a call that has succeeded took
    its own; nothing is delivered for an attempt that has not been made. -/
structure Isolated (past : List (Label ω)) (s : System ω) : Prop where
  keys : ∀ id ∈ s.observations.keys, s.inFlight id = true
  pending : ∀ id, s.inFlight id = true → s.observations.get id = lastObserved past id
  settled : ∀ id answered, s.calls.get id = some (.settled (.ok answered)) →
    answered.usageObservation = lastObserved past id
  fresh : ∀ id, s.calls.get id = none → lastObserved past id = none

theorem inFlight_iff {id : String} :
    s.inFlight id = true ↔ ∃ phase, s.calls.get id = some phase ∧ phase.awaiting = true := by
  unfold System.inFlight
  rw [Option.any_eq_true]

/-- **What a step can do**, and when. -/
theorem step_cases (h : System.step s l = some t) :
    (∃ id call, l = .call id call ∧ s.calls.get id = none ∧
      t = { s with calls := s.calls.set id (s.start call) }) ∨
    (∃ snapshot, l = .observe snapshot ∧ (∀ id, snapshot.tag = some id → s.inFlight id = true) ∧
      t = { s with observations := onUsageObservation s.observations snapshot }) ∨
    ∃ id reply now result, l = .settle id reply now ∧ s.inFlight id = true ∧ t = s.settle id result := by
  cases l with
  | call id call =>
      left
      simp only [System.step] at h
      split at h
      · cases h
      · rename_i hnone
        exact ⟨id, call, rfl, hnone, (Option.some.inj h).symm⟩
  | observe snapshot =>
      right
      left
      simp only [System.step] at h
      split at h
      · rename_i htag
        refine ⟨snapshot, rfl, ?_, (Option.some.inj h).symm⟩
        intro id hid
        rw [htag] at hid
        cases hid
      · rename_i id htag
        split at h
        · rename_i hflight
          refine ⟨snapshot, rfl, ?_, (Option.some.inj h).symm⟩
          intro id' hid
          rw [htag] at hid
          exact Option.some.inj hid ▸ hflight
        · cases h
  | settle id reply now =>
      right
      right
      obtain ⟨phase, hphase, h⟩ := Option.bind_eq_some_iff.mp h
      obtain ⟨result, hresult, rfl⟩ := Option.map_eq_some_iff.mp h
      refine ⟨id, reply, now, result, rfl, inFlight_iff.mpr ⟨phase, hphase, ?_⟩, rfl⟩
      -- a settled call has no answer any more
      cases phase with
      | awaitingResponse => rfl
      | awaitingEmbeddings => rfl
      | settled result' => cases reply <;> cases hresult

/-- A call that settles at once has failed. -/
theorem start_ne_answered (call : Call) (answered : Answered ω) : s.start call ≠ .settled (.ok answered) := by
  cases call with
  | createResponse request =>
      simp only [System.start]
      split <;> exact nofun
  | createEmbeddings =>
      simp only [System.start]
      split <;> exact nofun

/-- What the invariant says of one attempt. -/
structure IsolatedAt (past : List (Label ω)) (s : System ω) (id : String) : Prop where
  keys : id ∈ s.observations.keys → s.inFlight id = true
  pending : s.inFlight id = true → s.observations.get id = lastObserved past id
  settled : ∀ answered, s.calls.get id = some (.settled (.ok answered)) →
    answered.usageObservation = lastObserved past id
  fresh : s.calls.get id = none → lastObserved past id = none

theorem Isolated.at (hs : Isolated past s) (id : String) : IsolatedAt past s id :=
  ⟨hs.keys id, hs.pending id, hs.settled id, hs.fresh id⟩

theorem isolated_of_at (h : ∀ id, IsolatedAt past s id) : Isolated past s :=
  ⟨fun id => (h id).keys, fun id => (h id).pending, fun id => (h id).settled, fun id => (h id).fresh⟩

/-- **The frame.** An attempt whose call and whose observation the step leaves alone stays isolated. -/
theorem IsolatedAt.frame {id : String} (hs : IsolatedAt past s id)
    (hcall : t.calls.get id = s.calls.get id) (hget : t.observations.get id = s.observations.get id)
    (hlast : lastObserved (past ++ [l]) id = lastObserved past id) : IsolatedAt (past ++ [l]) t id := by
  have hinFlight : t.inFlight id = s.inFlight id := congrArg (fun phase => phase.any Phase.awaiting) hcall
  refine ⟨?_, ?_, ?_, ?_⟩
  · intro hmem
    obtain ⟨observation, hfound⟩ := JsMap.mem_keys_iff.mp hmem
    rw [hget] at hfound
    rw [hinFlight]
    exact hs.keys (JsMap.mem_keys_iff.mpr ⟨observation, hfound⟩)
  · intro hflight
    rw [hinFlight] at hflight
    rw [hget, hlast]
    exact hs.pending hflight
  · intro answered hanswered
    rw [hcall] at hanswered
    rw [hlast]
    exact hs.settled answered hanswered
  · intro hnone
    rw [hcall] at hnone
    rw [hlast]
    exact hs.fresh hnone

/-- The map holds nothing of an attempt that has not been made. -/
theorem IsolatedAt.get_of_fresh {id : String} (hs : IsolatedAt past s id) (hnone : s.calls.get id = none) :
    s.observations.get id = none := by
  apply JsMap.get_eq_none_iff.mpr
  intro hmem
  obtain ⟨phase, hphase, -⟩ := inFlight_iff.mp (hs.keys hmem)
  rw [hnone] at hphase
  cases hphase

/-- A call that starts touches no observation. -/
theorem Isolated.call (hs : Isolated past s) {id : String} {call : Call} (hnone : s.calls.get id = none) :
    Isolated (past ++ [.call id call]) { s with calls := s.calls.set id (s.start call) } := by
  have hlast : ∀ id', lastObserved (past ++ [.call id call]) id' = lastObserved past id' :=
    fun id' => lastObserved_concat_none rfl
  apply isolated_of_at
  intro id'
  by_cases hne : id' = id
  · -- nothing has been delivered for it, and nothing is in the map
    subst hne
    have hget : s.observations.get id' = none := (hs.at id').get_of_fresh hnone
    have hstart : (s.calls.set id' (s.start call)).get id' = some (s.start call) := JsMap.get_set_self _ _ _
    refine ⟨?_, ?_, ?_, ?_⟩
    · intro hmem
      exact absurd hmem (JsMap.get_eq_none_iff.mp hget)
    · intro _
      rw [hlast, hs.fresh id' hnone]
      exact hget
    · intro answered hanswered
      exact absurd (Option.some.inj (hstart.symm.trans hanswered)) (start_ne_answered call answered)
    · intro hcall
      cases hstart.symm.trans hcall
  · exact (hs.at id').frame (JsMap.get_set_ne _ _ hne) rfl (hlast id')

/-- A snapshot replaces the observation of its own attempt, which is in flight. -/
theorem Isolated.observe (hs : Isolated past s) {snapshot : Snapshot ω}
    (hflight : ∀ id, snapshot.tag = some id → s.inFlight id = true) :
    Isolated (past ++ [.observe snapshot])
      { s with observations := onUsageObservation s.observations snapshot } := by
  apply isolated_of_at
  intro id
  by_cases htag : snapshot.tag = some id
  · have hlast : lastObserved (past ++ [.observe snapshot]) id = some snapshot.observation :=
      lastObserved_concat_some (if_pos htag)
    obtain ⟨phase, hphase, hawaiting⟩ := inFlight_iff.mp (hflight id htag)
    refine ⟨?_, ?_, ?_, ?_⟩
    · intro _
      exact hflight id htag
    · intro _
      rw [hlast]
      exact onUsageObservation_self htag
    · intro answered hanswered
      -- a call in flight has not settled
      cases hphase.symm.trans hanswered
      cases hawaiting
    · intro hnone
      cases hphase.symm.trans hnone
  · exact (hs.at id).frame rfl (onUsageObservation_ne htag) (lastObserved_concat_none (if_neg htag))

/-- A call that settles takes its own observation with it. -/
theorem Isolated.settle (hs : Isolated past s) {id : String} (hflight : s.inFlight id = true) (reply : Reply)
    (now : Nat) (result : Except String Answer) :
    Isolated (past ++ [.settle id reply now]) (s.settle id result) := by
  have hlast : ∀ id', lastObserved (past ++ [.settle id reply now]) id' = lastObserved past id' :=
    fun id' => lastObserved_concat_none rfl
  apply isolated_of_at
  intro id'
  by_cases hne : id' = id
  · subst hne
    have hdone : (s.settle id' result).calls.get id' = some (.settled
        (result.map fun answer => ⟨answer, s.observations.get id'⟩)) := JsMap.get_set_self _ _ _
    have hgone : (s.settle id' result).observations.get id' = none := JsMap.get_delete_self _ _
    refine ⟨?_, ?_, ?_, ?_⟩
    · intro hmem
      exact absurd hmem (JsMap.get_eq_none_iff.mp hgone)
    · intro hinFlight
      obtain ⟨phase, hphase, hawaiting⟩ := inFlight_iff.mp hinFlight
      cases hdone.symm.trans hphase
      cases hawaiting
    · intro answered hanswered
      rw [hlast]
      cases result with
      | error message => cases hdone.symm.trans hanswered
      | ok answer =>
          cases hdone.symm.trans hanswered
          exact hs.pending id' hflight
    · intro hnone
      cases hdone.symm.trans hnone
  · exact (hs.at id').frame (JsMap.get_set_ne _ _ hne) (JsMap.get_delete_ne _ hne) (hlast id')

theorem Isolated.step (hs : Isolated past s) (h : System.step s l = some t) : Isolated (past ++ [l]) t := by
  rcases step_cases h with ⟨id, call, rfl, hnone, rfl⟩ | ⟨snapshot, rfl, hflight, rfl⟩ |
    ⟨id, reply, now, result, rfl, hflight, rfl⟩
  · exact hs.call hnone
  · exact hs.observe hflight
  · exact hs.settle hflight reply now result

/-! ## Every run -/

theorem isolated_initial (name : String) (embeds : Bool) :
    Isolated ([] : List (Label ω)) (System.initial name embeds) where
  keys := fun id h => absurd h List.not_mem_nil
  pending := by
    intro id h
    exact absurd h Bool.false_ne_true
  settled := by
    intro id answered h
    have hnone : (System.initial name embeds : System ω).calls.get id = none := JsMap.get_empty id
    rw [hnone] at h
    cases h
  fresh := fun _ _ => rfl

/-- **Observations are isolated.** After any run of one adapter, every successful call carries the last
    observation delivered for its own attempt, or none if none was, and the map holds only keys of calls in
    flight. -/
theorem observations_isolated {name : String} {embeds : Bool} {labels : List (Label ω)}
    (hrun : Run System.step (System.initial name embeds) labels s) :
    (∀ id answered, s.calls.get id = some (.settled (.ok answered)) →
      answered.usageObservation = lastObserved labels id) ∧
    ∀ id ∈ s.observations.keys, s.inFlight id = true := by
  have h := hrun.history (fun past s l t hs h => Isolated.step hs h) [] (isolated_initial name embeds)
  exact ⟨h.settled, h.keys⟩

/-- Two calls that cross: the short one settles while the long one waits, whose observation is in the map. -/
def crossedLabels : List (Label Nat) :=
  [.call "att-long" (.createEmbeddings), .call "att-short" (.createEmbeddings), .observe ⟨some "att-long", 40⟩,
    .observe ⟨none, 7⟩, .observe ⟨some "att-short", 2⟩,
    .settle "att-short" (.embeddings ⟨.undefined, [], none, none⟩) 0,
    .settle "att-long" (.embeddings ⟨.undefined, [], none, none⟩) 0]

/-- The adapter after them. -/
def crossed : System Nat :=
  (exec System.step (System.initial "llamactl-fake" true) crossedLabels).getD (System.initial "llamactl-fake" true)

theorem run_crossed : Run System.step (System.initial "llamactl-fake" true) crossedLabels crossed := by
  apply run_iff_exec.mpr
  rfl

/-- Both calls settle, each with what was observed of it, and no key is left behind. -/
theorem observations_isolated_crossed :
    (∃ long short, crossed.calls.get "att-long" = some (.settled (.ok long)) ∧ long.usageObservation = some 40 ∧
      crossed.calls.get "att-short" = some (.settled (.ok short)) ∧ short.usageObservation = some 2) ∧
    ∀ id ∈ crossed.observations.keys, crossed.inFlight id = true := by
  obtain ⟨hsettled, hkeys⟩ := observations_isolated run_crossed
  obtain ⟨long, hlong⟩ : ∃ long, crossed.calls.get "att-long" = some (.settled (.ok long)) := ⟨_, rfl⟩
  obtain ⟨short, hshort⟩ : ∃ short, crossed.calls.get "att-short" = some (.settled (.ok short)) := ⟨_, rfl⟩
  have hobserved : lastObserved crossedLabels "att-long" = some 40 ∧
      lastObserved crossedLabels "att-short" = some 2 := by decide
  exact ⟨⟨long, short, hlong, (hsettled "att-long" long hlong).trans hobserved.1, hshort,
    (hsettled "att-short" short hshort).trans hobserved.2⟩, hkeys⟩

end Llamactl

end Sirius
