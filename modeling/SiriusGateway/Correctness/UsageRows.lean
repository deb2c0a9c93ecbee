import SiriusGateway.Gateway.UnaryHandlers

/-!
# `Correctness.UsageRows` — one answer and one usage row for a request

Any number of requests run at once, with their steps, closing connections and scheduled writes interleaved. Each
is answered at most once, and how is decided by what happened to it alone (`answered_once`). The usage file has,
in the order of the 200s, the row of every request that was answered with one, as far as the contracts let a row
through, and no other (`usage_rows_of_run`).

## Contents
- **One request.** `Settled`, the invariant `Tracks`, and what a step keeps.
- **The server.** `tracks_of_run`, and the results.
-/

namespace Sirius

open Js Compat

/-! ## One request -/

section Session

variable {Request Response Body : Type} (handler : UnaryHandler Request Response Body)
  (happened : UnaryLabel Response → Prop)

/-- The error comes from what happened: the body was refused, the answer could not be formatted, or the gateway
    threw. -/
def Causes (error : JsError) : Prop :=
  (∃ body requestId, happened (.arrived body requestId) ∧ handler.parse body requestId = .error error) ∨
    (∃ answer ts, happened (.resolved answer ts) ∧ handler.format answer = .error error) ∨
      ∃ message, happened (.rejected message) ∧ error = .error message

/-- What a request that is over has sent and recorded. -/
inductive Settled : List (UnaryAnswer Body) → List (String × UsageRecorderInput) → Prop
  | answered {body : Json} {requestId : String} {answer : Response} {ts : String} {formatted : Body}
      (harrived : happened (.arrived body requestId)) (hresolved : happened (.resolved answer ts))
      (hformat : handler.format answer = .ok formatted) :
      Settled [⟨200, requestId, .inl formatted⟩] [(ts, handler.usage answer requestId)]
  | failed {body : Json} {requestId : String} {error : JsError} (harrived : happened (.arrived body requestId))
      (hcause : Causes handler happened error) : Settled [errorAnswer Body requestId error] []
  | gone (hclose : happened .close) : Settled [] []

/-- Where the request stands agrees with what it has sent and recorded. -/
structure Tracks (s : UnarySession Body) (calls : List (String × UsageRecorderInput)) : Prop where
  phase : match s.phase with
    | .idle => s.sent = [] ∧ calls = []
    | .awaiting requestId => s.sent = [] ∧ calls = [] ∧ ∃ body, happened (.arrived body requestId)
    | .ended => Settled handler happened s.sent calls
  destroyed : s.destroyed = true → happened .close

variable {handler happened}

theorem Causes.mono {happened' : UnaryLabel Response → Prop} (hle : ∀ l, happened l → happened' l) {error : JsError}
    (h : Causes handler happened error) : Causes handler happened' error := by
  rcases h with ⟨body, requestId, h, hparse⟩ | ⟨answer, ts, h, hformat⟩ | ⟨message, h, rfl⟩
  · exact Or.inl ⟨body, requestId, hle _ h, hparse⟩
  · exact Or.inr (Or.inl ⟨answer, ts, hle _ h, hformat⟩)
  · exact Or.inr (Or.inr ⟨message, hle _ h, rfl⟩)

theorem Settled.mono {happened' : UnaryLabel Response → Prop} (hle : ∀ l, happened l → happened' l)
    {sent : List (UnaryAnswer Body)} {calls : List (String × UsageRecorderInput)}
    (h : Settled handler happened sent calls) : Settled handler happened' sent calls := by
  cases h with
  | answered harrived hresolved hformat => exact .answered (hle _ harrived) (hle _ hresolved) hformat
  | failed harrived hcause => exact .failed (hle _ harrived) (hcause.mono hle)
  | gone hclose => exact .gone (hle _ hclose)

theorem Tracks.mono {happened' : UnaryLabel Response → Prop} (hle : ∀ l, happened l → happened' l)
    {s : UnarySession Body} {calls : List (String × UsageRecorderInput)} (h : Tracks handler happened s calls) :
    Tracks handler happened' s calls := by
  refine ⟨?_, fun hd => hle _ (h.destroyed hd)⟩
  have hphase := h.phase
  cases hs : s.phase with
  | idle =>
      rw [hs] at hphase
      exact hphase
  | awaiting requestId =>
      rw [hs] at hphase
      obtain ⟨hsent, hcalls, body, harrived⟩ := hphase
      exact ⟨hsent, hcalls, body, hle _ harrived⟩
  | ended =>
      rw [hs] at hphase
      exact hphase.mono hle

/-- The `catch` of a request that has sent nothing settles it. -/
theorem tracks_fail {s : UnarySession Body} (hsent : s.sent = []) (hdestroyed : s.destroyed = true → happened .close)
    {body : Json} {requestId : String} (harrived : happened (.arrived body requestId)) {error : JsError}
    (hcause : Causes handler happened error) : Tracks handler happened (s.fail requestId error) [] := by
  unfold UnarySession.fail
  by_cases hd : s.destroyed = true
  · rw [if_pos hd]
    refine ⟨?_, hdestroyed⟩
    show Settled handler happened s.sent []
    rw [hsent]
    exact .gone (hdestroyed hd)
  · rw [if_neg hd]
    refine ⟨?_, hdestroyed⟩
    show Settled handler happened (s.sent ++ _) []
    rw [hsent]
    exact .failed harrived hcause

/-- **A step of the request.** -/
theorem tracks_step {s : UnarySession Body} {calls : List (String × UsageRecorderInput)}
    (h : Tracks handler happened s calls) {label : UnaryLabel Response} {s' : UnarySession Body}
    {call : Option (String × UsageRecorderInput)} (hstep : s.step handler label = some (s', call)) :
    Tracks handler (fun l => happened l ∨ l = label) s' (calls ++ call.toList) := by
  have hle : ∀ l, happened l → happened l ∨ l = label := fun l => Or.inl
  have h' := h.mono hle
  have hphase := h'.phase
  cases label with
  | arrived body requestId =>
      simp only [UnarySession.step] at hstep
      cases hs : s.phase with
      | idle =>
          simp only [hs] at hstep hphase
          obtain ⟨hsent, rfl⟩ := hphase
          cases hparse : handler.parse body requestId with
          | error error =>
              simp only [hparse, Option.some.injEq, Prod.mk.injEq] at hstep
              obtain ⟨rfl, rfl⟩ := hstep
              exact tracks_fail hsent h'.destroyed (Or.inr rfl) (Or.inl ⟨body, requestId, Or.inr rfl, hparse⟩)
          | ok request =>
              simp only [hparse] at hstep
              split at hstep
              · cases hstep
              · simp only [Option.some.injEq, Prod.mk.injEq] at hstep
                obtain ⟨rfl, rfl⟩ := hstep
                exact ⟨⟨hsent, rfl, body, Or.inr rfl⟩, h'.destroyed⟩
      | awaiting _ => simp [hs] at hstep
      | ended => simp [hs] at hstep
  | resolved answer ts =>
      simp only [UnarySession.step] at hstep
      cases hs : s.phase with
      | awaiting requestId =>
          simp only [hs] at hstep hphase
          obtain ⟨hsent, rfl, body, harrived⟩ := hphase
          cases hformat : handler.format answer with
          | error error =>
              simp only [hformat, Option.some.injEq, Prod.mk.injEq] at hstep
              obtain ⟨rfl, rfl⟩ := hstep
              exact tracks_fail hsent h'.destroyed harrived (Or.inr (Or.inl ⟨answer, ts, Or.inr rfl, hformat⟩))
          | ok formatted =>
              simp only [hformat, Option.some.injEq, Prod.mk.injEq] at hstep
              obtain ⟨rfl, rfl⟩ := hstep
              refine ⟨?_, h'.destroyed⟩
              show Settled handler _ (s.sent ++ _) _
              rw [hsent]
              exact .answered harrived (Or.inr rfl) hformat
      | idle => simp [hs] at hstep
      | ended => simp [hs] at hstep
  | rejected message =>
      simp only [UnarySession.step] at hstep
      cases hs : s.phase with
      | awaiting requestId =>
          simp only [hs, Option.some.injEq, Prod.mk.injEq] at hstep hphase
          obtain ⟨rfl, rfl⟩ := hstep
          obtain ⟨hsent, rfl, body, harrived⟩ := hphase
          exact tracks_fail hsent h'.destroyed harrived (Or.inr (Or.inr ⟨message, Or.inr rfl, rfl⟩))
      | idle => simp [hs] at hstep
      | ended => simp [hs] at hstep
  | close =>
      simp only [UnarySession.step] at hstep
      split at hstep
      · cases hstep
      · obtain ⟨rfl, rfl⟩ := Prod.mk.inj (Option.some.inj hstep)
        rw [Option.toList_none, List.append_nil]
        exact ⟨h'.phase, fun _ => Or.inr rfl⟩

end Session

/-! ## The server -/

section Server

variable {contracts : UsageContracts} {incoming : Incoming}

/-- The calls of `record` made for a request. -/
def callsOf (i : Nat) (calls : List (Nat × String × UsageRecorderInput)) : List (String × UsageRecorderInput) :=
  (calls.filter fun call => call.1 = i).map Prod.snd

theorem callsOf_concat (i j : Nat) (calls : List (Nat × String × UsageRecorderInput))
    (call : String × UsageRecorderInput) :
    callsOf i (calls ++ [(j, call)]) = callsOf i calls ++ if j = i then [call] else [] := by
  unfold callsOf
  rw [List.filter_append, List.map_append]
  by_cases hij : j = i
  · simp [hij]
  · simp [hij]

/-- The row of a call of `record`. -/
def rowOf (contracts : UsageContracts) (call : Nat × String × UsageRecorderInput) : Option Json :=
  (recorded contracts call.2.1 call.2.2).row?

/-- What a run keeps: the recorder has the rows of the calls, and every request is where its own labels put it. -/
structure ServerKept (contracts : UsageContracts) (labels : List (ServerLabel incoming)) (s : UnaryServer incoming) :
    Prop where
  rows : s.recorder.rows = s.calls.filterMap (rowOf contracts)
  tracks : ∀ i, Tracks (incoming.handler i) (fun l => .request i l ∈ labels) (s.session i) (callsOf i s.calls)

theorem serverKept_start : ServerKept contracts [] (UnaryServer.start incoming) :=
  ⟨rfl, fun _ => ⟨⟨rfl, rfl⟩, nofun⟩⟩

theorem serverKept_step {past : List (ServerLabel incoming)} {s t : UnaryServer incoming}
    {label : ServerLabel incoming} (h : ServerKept contracts past s) (hstep : s.step contracts label = some t) :
    ServerKept contracts (past ++ [label]) t := by
  have hpast : ∀ {i} (l : UnaryLabel (incoming.endpoint i).Response), ServerLabel.request i l ∈ past →
      ServerLabel.request i l ∈ past ++ [label] := fun l hl => List.mem_append_left _ hl
  cases label with
  | microtask =>
      obtain ⟨recorder, hrecorder, rfl⟩ := Option.map_eq_some_iff.mp hstep
      exact ⟨(UsageRecorder.rows_microtask hrecorder).trans h.rows, fun i => (h.tracks i).mono hpast⟩
  | request i label =>
      obtain ⟨⟨session, call⟩, hsession, rfl⟩ := Option.map_eq_some_iff.mp hstep
      have hlabels : ∀ l, ServerLabel.request i l ∈ past ∨ l = label →
          ServerLabel.request i l ∈ past ++ [ServerLabel.request i label] := by
        rintro l (hl | rfl)
        · exact List.mem_append_left _ hl
        · exact List.mem_append_right _ (List.mem_singleton_self _)
      have hown := (tracks_step (h.tracks i) hsession).mono hlabels
      cases call with
      | none =>
          refine ⟨h.rows, fun j => ?_⟩
          by_cases hj : j = i
          · subst hj
            rw [Option.toList_none, List.append_nil] at hown
            show Tracks _ _ (Function.update s.session j session j) _
            rwa [Function.update_self]
          · show Tracks _ _ (Function.update s.session i session j) _
            rw [Function.update_of_ne hj]
            exact (h.tracks j).mono hpast
      | some call =>
          obtain ⟨ts, input⟩ := call
          refine ⟨?_, fun j => ?_⟩
          · show (s.recorder.record contracts ts input).rows = (s.calls ++ [(i, ts, input)]).filterMap _
            rw [UsageRecorder.rows_record, h.rows, List.filterMap_append]
            rfl
          · show Tracks _ _ (Function.update s.session i session j) (callsOf j (s.calls ++ [(i, ts, input)]))
            rw [callsOf_concat]
            by_cases hj : j = i
            · subst hj
              rwa [Function.update_self, if_pos rfl]
            · rw [Function.update_of_ne hj, if_neg (Ne.symm hj), List.append_nil]
              exact (h.tracks j).mono hpast

theorem serverKept_of_run {labels : List (ServerLabel incoming)} {t : UnaryServer incoming}
    (h : Lts.Run (UnaryServer.step contracts) (UnaryServer.start incoming) labels t) :
    ServerKept contracts labels t :=
  h.history (I := ServerKept contracts) (fun _ _ _ _ hs hstep => serverKept_step hs hstep) [] serverKept_start

/-- A request that is not over has sent and recorded nothing. -/
theorem unsettled_of_tracks {Request Response Body : Type} {handler : UnaryHandler Request Response Body}
    {happened : UnaryLabel Response → Prop} {s : UnarySession Body} {calls : List (String × UsageRecorderInput)}
    (h : Tracks handler happened s calls) (hphase : s.phase ≠ .ended) : s.sent = [] ∧ calls = [] := by
  have htracks := h.phase
  cases hs : s.phase with
  | idle =>
      rw [hs] at htracks
      exact htracks
  | awaiting requestId =>
      rw [hs] at htracks
      exact ⟨htracks.1, htracks.2.1⟩
  | ended => exact absurd hs hphase

theorem settled_of_tracks {Request Response Body : Type} {handler : UnaryHandler Request Response Body}
    {happened : UnaryLabel Response → Prop} {s : UnarySession Body} {calls : List (String × UsageRecorderInput)}
    (h : Tracks handler happened s calls) (hphase : s.phase = .ended) : Settled handler happened s.sent calls := by
  have htracks := h.phase
  rw [hphase] at htracks
  exact htracks

/-- **Every request is answered at most once**, in any interleaving: one that is over was answered with what the
    gateway returned and recorded once, or with the error that came up and not recorded, or its client had gone.
    Another has neither sent nor recorded anything. -/
theorem answered_once {labels : List (ServerLabel incoming)} {t : UnaryServer incoming}
    (h : Lts.Run (UnaryServer.step contracts) (UnaryServer.start incoming) labels t) (i : Nat) :
    if (t.session i).phase = .ended then
      Settled (incoming.handler i) (fun l => .request i l ∈ labels) (t.session i).sent (callsOf i t.calls)
    else (t.session i).sent = [] ∧ callsOf i t.calls = [] := by
  have htracks := (serverKept_of_run h).tracks i
  split
  · exact settled_of_tracks htracks ‹_›
  · exact unsettled_of_tracks htracks ‹_›

/-- What a request has recorded, by what it has sent. -/
theorem callsOf_of_run {labels : List (ServerLabel incoming)} {t : UnaryServer incoming}
    (h : Lts.Run (UnaryServer.step contracts) (UnaryServer.start incoming) labels t) (i : Nat) :
    (callsOf i t.calls).length ≤ 1 ∧
      (callsOf i t.calls ≠ [] ↔ ∃ requestId body, (t.session i).sent = [⟨200, requestId, .inl body⟩]) := by
  have htracks := (serverKept_of_run h).tracks i
  by_cases hphase : (t.session i).phase = .ended
  · have hsettled := settled_of_tracks htracks hphase
    generalize (t.session i).sent = sent at hsettled ⊢
    generalize callsOf i t.calls = calls at hsettled ⊢
    cases hsettled with
    | @answered _ requestId _ _ formatted _ _ _ =>
        exact ⟨Nat.le_refl 1, iff_of_true (List.cons_ne_nil _ _) ⟨requestId, formatted, rfl⟩⟩
    | @failed _ requestId error _ _ =>
        refine ⟨Nat.zero_le 1, iff_of_false (not_not_intro rfl) ?_⟩
        rintro ⟨requestId', body, heq⟩
        have hbody := congrArg UnaryAnswer.body (List.cons.inj heq).1
        cases error <;> cases hbody
    | gone _ => exact ⟨Nat.zero_le 1, iff_of_false (not_not_intro rfl) (by rintro ⟨_, _, heq⟩; cases heq)⟩
  · obtain ⟨hsent, hcalls⟩ := unsettled_of_tracks htracks hphase
    rw [hsent, hcalls]
    exact ⟨Nat.zero_le 1, iff_of_false (not_not_intro rfl) (by rintro ⟨_, _, heq⟩; cases heq)⟩

/-- **The usage rows.** In any interleaving, what was written and what still waits are the rows of the recorded
    requests in their order; recorded, once each, are exactly the requests that were answered with a 200. -/
theorem usage_rows_of_run {labels : List (ServerLabel incoming)} {t : UnaryServer incoming}
    (h : Lts.Run (UnaryServer.step contracts) (UnaryServer.start incoming) labels t) :
    t.recorder.written ++ t.recorder.scheduled = t.calls.filterMap (rowOf contracts) ∧
      (t.calls.map Prod.fst).Nodup ∧
      ∀ i, i ∈ t.calls.map Prod.fst ↔
        ∃ requestId body, (t.session i).sent = [⟨200, requestId, .inl body⟩] := by
  have hcount : ∀ i, (callsOf i t.calls).length = (t.calls.map Prod.fst).count i := by
    intro i
    unfold callsOf
    rw [List.length_map, ← List.countP_eq_length_filter, List.count_eq_countP, List.countP_map]
    refine List.countP_congr fun call _ => ?_
    simp [Function.comp]
  refine ⟨(serverKept_of_run h).rows, List.nodup_iff_count_le_one.mpr fun i => ?_, fun i => ?_⟩
  · rw [← hcount]
    exact (callsOf_of_run h i).1
  · rw [← (callsOf_of_run h i).2, ← List.length_pos_iff, hcount, List.count_pos_iff]

end Server

/-- Embeddings requests only. -/
def embeddingsOnly : Incoming := ⟨fun _ => .embeddings, fun _ _ => "u", fun _ => 0⟩

/-- A schema that takes every candidate, and no observation. -/
def openContracts : UsageContracts where
  UsageRecordSchema candidate := some (wireObject candidate)
  UsageObservationV1Schema _ := none
  UsageRecordV2Schema _ := none
  projectUsageRecordV2ToV1 _ := none

/-- An embeddings body. -/
def embeddingsBody : Json := .obj [("model", .str "m"), ("input", .str "a")]

/-- What the gateway returns for it. -/
def embeddingsAnswer : Observed UnifiedEmbeddingResponse where
  response := {
    id := "emb-0"
    model := .json (.str "m")
    provider := "openai"
    embeddings := [[.num 1]]
    usage := ⟨.json (.num 2), .json (.num 0), .json (.num 2)⟩
    latencyMs := 3 }

/-- Two requests at once: the first client leaves, and its call fails; the second is answered and its row
    written. -/
def crossedRequests : List (ServerLabel embeddingsOnly) :=
  [.request 0 (.arrived embeddingsBody "r0"), .request 1 (.arrived embeddingsBody "r1"),
    .request 1 (.resolved embeddingsAnswer "t"), .request 0 .close, .request 0 (.rejected "aborted"), .microtask]

theorem run_crossed : ∃ t, Lts.Run (UnaryServer.step openContracts) (UnaryServer.start embeddingsOnly)
    crossedRequests t :=
  ⟨_, Lts.run_iff_exec.mpr rfl⟩

theorem answered_once_crossed :
    ∃ t, Lts.Run (UnaryServer.step openContracts) (UnaryServer.start embeddingsOnly) crossedRequests t ∧
      if (t.session 1).phase = .ended then
        Settled (embeddingsOnly.handler 1) (fun l => .request 1 l ∈ crossedRequests) (t.session 1).sent
          (callsOf 1 t.calls)
      else (t.session 1).sent = [] ∧ callsOf 1 t.calls = [] := by
  obtain ⟨t, ht⟩ := run_crossed
  exact ⟨t, ht, answered_once ht 1⟩

theorem usage_rows_of_run_crossed :
    ∃ t, Lts.Run (UnaryServer.step openContracts) (UnaryServer.start embeddingsOnly) crossedRequests t ∧
      t.recorder.written ++ t.recorder.scheduled = t.calls.filterMap (rowOf openContracts) ∧
      (t.calls.map Prod.fst).Nodup ∧
      ∀ i, i ∈ t.calls.map Prod.fst ↔
        ∃ requestId body, (t.session i).sent = [⟨200, requestId, .inl body⟩] := by
  obtain ⟨t, ht⟩ := run_crossed
  exact ⟨t, ht, usage_rows_of_run ht⟩

end Sirius
