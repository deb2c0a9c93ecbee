import SiriusGateway.Correctness.Drained

/-!
# `Correctness.Terminal` — one terminal event

A native stream ends as its body does, with one `done` for every completion marker, and the gateway adds an
error event to a stream that breaks off. A drained run with one adapter therefore shows one terminal event
exactly when the bodies it reads close just where they carry the marker (`one_terminal_event_iff`): a body
cut short that closes shows none, and one that carries the marker and then hangs or breaks shows two.

## Contents
- **Terminal events.** `terminalsOf`, `EndsOnce`.
- **One attempt.** `AttemptEnd`: the ways a native attempt can end.
- **The run.** `one_terminal_event_iff`, by its last attempt.
-/

namespace Sirius

open Js

/-! ## Terminal events -/

/-- The terminal events the consumer receives. -/
def terminalsOf (actions : List Action) : List UnifiedStreamEvent :=
  ((received actions).map Prod.snd).filter (·.isTerminal)

theorem terminalsOf_append (l r : List Action) : terminalsOf (l ++ r) = terminalsOf l ++ terminalsOf r := by
  unfold terminalsOf
  rw [received_append, List.map_append, List.filter_append]

/-- The body carries the completion marker. -/
def HttpBody.Marked (n : Native) (body : HttpBody) : Prop := ∃ line ∈ body.lines, n.isMarker line = true

/-- The consumer receives one terminal event, and it is a `done` only if an attempt's body carried the
    completion marker. -/
def EndsOnce (up : Upstream) (n : Native) (actions : List Action) : Prop :=
  ∃ e, terminalsOf actions = [e] ∧ (e.isDone = true →
    ∃ id p r body, .invoke id p r true ∈ actions ∧ up.Sends id p r body ∧ body.Marked n)

variable {up : Upstream} {n : Native} {body : HttpBody} {id : AttemptId} {provider : AiProvider}
  {request : UnifiedAiRequest}

theorem Upstream.Sends.unique {body' : HttpBody} (h : up.Sends id provider request body)
    (h' : up.Sends id provider request body') : body' = body := by
  obtain ⟨wire, res, hmap, hfetch, -, hbody⟩ := h
  obtain ⟨wire', res', hmap', hfetch', -, hbody'⟩ := h'
  obtain rfl := Except.ok.inj (hmap.symm.trans hmap')
  obtain rfl := FetchResult.responded.inj (hfetch.symm.trans hfetch')
  exact Option.some.inj (hbody'.symm.trans hbody)

/-! ## One attempt -/

/-- The body is of well-formed lines, with at most one completion marker. -/
def HttpBody.Plausible (n : Native) (body : HttpBody) : Prop :=
  (∀ line ∈ body.lines, n.WellFormed line) ∧ body.lines.countP n.isMarker ≤ 1

/-- The ways a native attempt can end: as its body does, with an error event in place of one, or with
    nothing at all. -/
inductive AttemptEnd (up : Upstream) (n : Native) (id : AttemptId) (provider : AiProvider)
    (request : UnifiedAiRequest) (a : StreamAttempt) : Prop
  | parsed {body : HttpBody} (hsends : up.Sends id provider request body) (hparsed : n.Parsed body a)
  | reported {message : String} (hnone : ∀ body, ¬ up.Sends id provider request body)
      (hevents : a.events = [.error message]) (hend : a.ending = .finished)
  | silent (hnone : ∀ body, ¬ up.Sends id provider request body) (hevents : a.events = [])
      (hend : a.ending ≠ .finished)

/-- **An attempt of a native adapter ends one of these ways**, and nothing in it stops the observer. -/
theorem streamResponse_end (hn : Native.ofKind provider.kind = some n)
    (hwell : ∀ body, up.Sends id provider request body → ∀ line ∈ body.lines, n.WellFormed line) :
    AttemptEnd up n id provider request (up.streamResponse id provider request true) ∧
      (up.streamResponse id provider request true).typed = true := by
  by_cases hsends : ∃ body, up.Sends id provider request body
  · obtain ⟨body, hsends⟩ := hsends
    obtain ⟨hparsed, htyped⟩ := Native.parseStream_of_wellFormed (up.freshId id)
      (hwell body hsends)
    rw [hsends.streamResponse_eq hn]
    exact ⟨.parsed hsends hparsed, List.all_eq_true.mpr htyped⟩
  · have hnone := not_exists.mp hsends
    cases hmap : mapRequest provider.kind request true with
    | error e =>
        have heq : up.streamResponse id provider request true = ⟨[], .threw e.message⟩ := by
          simp [Upstream.streamResponse, hmap]
        rw [heq]
        exact ⟨.silent hnone rfl (threw_ne_finished _), rfl⟩
    | ok wire =>
        have heq : up.streamResponse id provider request true =
            up.streamReply id n (up.fetch id provider wire) := by
          simp [Upstream.streamResponse, hmap, hn]
        rw [heq]
        cases hfetch : up.fetch id provider wire with
        | failed message => exact ⟨.silent hnone rfl (threw_ne_finished _), rfl⟩
        | pending => exact ⟨.silent hnone rfl stalled_ne_finished, rfl⟩
        | responded res =>
            cases hok : res.ok with
            | true =>
                cases hbody : res.body with
                | some body => exact absurd ⟨wire, res, hmap, hfetch, hok, hbody⟩ (hnone body)
                | none =>
                    simp only [Upstream.streamReply, hok, hbody, if_true]
                    exact ⟨.reported hnone rfl rfl, rfl⟩
            | false =>
                simp only [Upstream.streamReply, hok, Bool.false_eq_true, if_false]
                cases n.refusal res with
                | none => exact ⟨.silent hnone rfl stalled_ne_finished, rfl⟩
                | some text =>
                    cases text with
                    | error e => exact ⟨.silent hnone rfl (threw_ne_finished _), rfl⟩
                    | ok message => exact ⟨.reported hnone rfl rfl, rfl⟩

theorem streamEnding_eq_finished_iff : body.ending.streamEnding = .finished ↔ body.ending = .closed := by
  cases body.ending with
  | closed => exact ⟨fun _ => rfl, fun _ => rfl⟩
  | reset message => exact ⟨nofun, nofun⟩
  | leftOpen => exact ⟨nofun, nofun⟩

theorem marked_iff_countP : body.Marked n ↔ 0 < body.lines.countP n.isMarker := by
  rw [List.countP_pos_iff]
  exact Iff.rfl

/-- A silent throw reads no body that carries the marker, and none that closes. -/
theorem AttemptEnd.not_marked {a : StreamAttempt} (h : AttemptEnd up n id provider request a)
    (hevents : a.events = []) (hend : a.ending ≠ .finished)
    (hsends : up.Sends id provider request body) : ¬ body.ending = .closed ∧ ¬ body.Marked n := by
  cases h with
  | parsed hsends' hparsed =>
      obtain rfl := hsends'.unique hsends
      refine ⟨fun hclosed => hend ?_, fun hmarked => ?_⟩
      · rw [hparsed.ending, streamEnding_eq_finished_iff]
        exact hclosed
      · have hcount := hparsed.terminals
        rw [hevents] at hcount
        have hpos := marked_iff_countP.mp hmarked
        simp only [List.filter_nil, List.length_nil] at hcount
        omega
  | reported hnone => exact absurd hsends (hnone body)
  | silent hnone => exact absurd hsends (hnone body)

/-! ## The run -/

/-- The bodies of the attempt close just where they carry the completion marker. -/
def ClosesMarked (up : Upstream) (n : Native) (id : AttemptId) (provider : AiProvider)
    (request : UnifiedAiRequest) : Prop :=
  ∀ body, up.Sends id provider request body → (body.ending = .closed ↔ body.Marked n)

/-- A `done` of an attempt's stream is owed to a marker. -/
theorem AttemptEnd.marked_of_done {a : StreamAttempt} (h : AttemptEnd up n id provider request a)
    {e : UnifiedStreamEvent} (he : e ∈ a.events.filter (·.isTerminal)) (hdone : e.isDone = true) :
    ∃ body, up.Sends id provider request body ∧ body.Marked n := by
  cases h with
  | @parsed body hsends hparsed =>
      refine ⟨body, hsends, marked_iff_countP.mpr ?_⟩
      rw [← hparsed.terminals]
      exact List.length_pos_of_mem he
  | reported hnone hevents hend =>
      rw [hevents] at he
      rw [List.mem_singleton.mp (List.mem_of_mem_filter he)] at hdone
      cases hdone
  | silent hnone hevents hend =>
      rw [hevents] at he
      exact absurd he List.not_mem_nil

/-- A stream that ends shows one terminal event exactly when the body is as it should be. -/
theorem AttemptEnd.finished_iff {a : StreamAttempt} (h : AttemptEnd up n id provider request a)
    (hwell : ∀ body, up.Sends id provider request body → body.Plausible n) (hend : a.ending = .finished) :
    (a.events.filter (·.isTerminal)).length = 1 ↔ ClosesMarked up n id provider request := by
  cases h with
  | @parsed body hsends hparsed =>
      have hclosed : body.ending = .closed := streamEnding_eq_finished_iff.mp (hparsed.ending ▸ hend)
      rw [hparsed.terminals]
      constructor
      · intro hcount body' hsends'
        obtain rfl := hsends.unique hsends'
        exact iff_of_true hclosed (marked_iff_countP.mpr (hcount ▸ Nat.one_pos))
      · intro hcond
        exact Nat.le_antisymm (hwell body hsends).2 (marked_iff_countP.mp ((hcond body hsends).mp hclosed))
  | reported hnone hevents hend' =>
      rw [hevents]
      exact iff_of_true rfl fun body hsends => absurd hsends (hnone body)
  | silent hnone hevents hend' => exact absurd hend hend'

/-- Of an attempt that breaks off, the gateway's error event is the only terminal one exactly when the body
    is as it should be. -/
theorem AttemptEnd.broken_iff {a : StreamAttempt} (h : AttemptEnd up n id provider request a)
    (hend : a.ending ≠ .finished) :
    a.events.filter (·.isTerminal) = [] ↔ ClosesMarked up n id provider request := by
  cases h with
  | @parsed body hsends hparsed =>
      have hopen : ¬ body.ending = .closed := by
        rwa [hparsed.ending, ne_eq, streamEnding_eq_finished_iff] at hend
      rw [← List.length_eq_zero_iff, hparsed.terminals]
      constructor
      · intro hcount body' hsends'
        obtain rfl := hsends.unique hsends'
        refine iff_of_false hopen fun hmarked => ?_
        have hpos := marked_iff_countP.mp hmarked
        omega
      · intro hcond
        have hmarked : ¬ body.Marked n := fun hm => hopen ((hcond body hsends).mpr hm)
        rw [marked_iff_countP] at hmarked
        omega
  | reported hnone hevents hend' => exact absurd hend' hend
  | silent hnone hevents hend' =>
      rw [hevents]
      exact iff_of_true rfl fun body hsends => absurd hsends (hnone body)

section LastAttempt

variable {env : Env} {position remaining attempt last : Nat} {o : Outcome StreamResult}
  (hlast : LastAttempt env position provider request remaining attempt o last)
include hlast

/-- The consumer receives the terminal events of the last attempt. -/
theorem LastAttempt.terminals : terminalsOf o.actions =
    (attemptOf env position provider request last).events.filter (·.isTerminal) := by
  unfold terminalsOf
  rw [hlast.shown]

variable (hends : ∀ i, AttemptEnd up n ⟨position, i⟩ provider request
  (attemptOf env position provider request i))
include hends

/-- The bodies of a run are as they should be when those of the last attempt are. -/
theorem LastAttempt.closesMarked_iff {more : List Action} (hquiet : ∀ id p r, .invoke id p r true ∉ more) :
    (∀ id p r, .invoke id p r true ∈ o.actions ++ more → ClosesMarked up n id p r) ↔
      ClosesMarked up n ⟨position, last⟩ provider request := by
  apply hlast.forall_invoked_iff _ hquiet
  -- an attempt that throws silently has no body that closes, and none that is marked
  intro i hsilent body hsends
  obtain ⟨hopen, hmarked⟩ := (hends i).not_marked hsilent.1 hsilent.not_quiet.1 hsends
  exact iff_of_false hopen hmarked

/-- **The gateway's error event ends a run that breaks off**, alone just where the bodies are as they should
    be. -/
theorem LastAttempt.endsOnce_of_failure {failure : String}
    (hfail : o.result.ending.failure = some failure) (message : String) :
    EndsOnce up n (o.actions ++ [.deliverError message]) ↔
      ∀ id p r, .invoke id p r true ∈ o.actions ++ [.deliverError message] → ClosesMarked up n id p r := by
  have hopen := hlast.not_finished_of_failure hfail
  have hterm : terminalsOf (o.actions ++ [.deliverError message]) =
      terminalsOf o.actions ++ [.error message] := terminalsOf_append _ _
  rw [hlast.closesMarked_iff hends (by simp), ← (hends last).broken_iff hopen, ← hlast.terminals, EndsOnce,
    hterm]
  constructor
  · rintro ⟨e, he, -⟩
    have hlen := congrArg List.length he
    rw [List.length_append] at hlen
    exact List.length_eq_zero_iff.mp (by simpa using hlen)
  · intro hnil
    exact ⟨.error message, by rw [hnil]; rfl, fun hdone => absurd hdone Bool.false_ne_true⟩

/-- **A run that completes shows the last attempt's terminal events**, one just where the bodies are as they
    should be. -/
theorem LastAttempt.endsOnce_of_completed
    (hwell : ∀ body, up.Sends ⟨position, last⟩ provider request body → body.Plausible n)
    (hcompleted : o.result.ending = .completed) (name : String) :
    EndsOnce up n (o.actions ++ [.recordLatency position name]) ↔
      ∀ id p r, .invoke id p r true ∈ o.actions ++ [.recordLatency position name] →
        ClosesMarked up n id p r := by
  have hfinished := hlast.finished_of_completed hcompleted
  have hterm : terminalsOf (o.actions ++ [.recordLatency position name]) = terminalsOf o.actions := by
    rw [terminalsOf_append]
    exact List.append_nil _
  rw [hlast.closesMarked_iff hends (by simp), ← (hends last).finished_iff hwell hfinished,
    ← hlast.terminals, EndsOnce, hterm]
  constructor
  · rintro ⟨e, he, -⟩
    rw [he]
    rfl
  · intro hone
    obtain ⟨e, he⟩ := List.length_eq_one_iff.mp hone
    refine ⟨e, he, fun hdone => ?_⟩
    obtain ⟨body, hsends, hmarked⟩ :=
      (hends last).marked_of_done (hlast.terminals ▸ he ▸ List.mem_singleton_self e) hdone
    exact ⟨_, _, _, body, List.mem_append_left _ hlast.invoked, hsends, hmarked⟩

end LastAttempt

/-- **One terminal event.** In a drained run with one native adapter, over bodies of well-formed lines with
    at most one completion marker each, the consumer receives one terminal event, a `done` only if the
    marker was sent, exactly when every body sent to an attempt of the run closes just where it carries the
    marker. -/
theorem one_terminal_event_iff (up : Upstream) (base : Env) (request : UnifiedAiRequest) (w : World)
    {entry : ChainEntry} (hn : Native.ofKind entry.provider.kind = some n)
    (hwell : ∀ id body, up.Sends id entry.provider (enrichedRequest request entry) body →
      body.Plausible n) :
    EndsOnce up n (streamOverChain (up.drained base) request [entry] w).actions ↔
      ∀ id p r, .invoke id p r true ∈
        (streamOverChain (up.drained base) request [entry] w).actions → ClosesMarked up n id p r := by
  have hd := up.drained_drained base
  have hends : ∀ i, AttemptEnd up n ⟨0, i⟩ entry.provider (enrichedRequest request entry)
        (attemptOf (up.drained base) 0 entry.provider (enrichedRequest request entry) i) ∧
      (attemptOf (up.drained base) 0 entry.provider (enrichedRequest request entry) i).typed = true :=
    fun i => streamResponse_end hn fun body hsends => (hwell ⟨0, i⟩ body hsends).1
  have hattempts := fun i => (hends i).1
  have hrun := @soloRun (up.drained base) request hd entry (fun i => (hends i).2) w
  generalize (streamOverChain (up.drained base) request [entry] w).actions = actions at hrun ⊢
  cases hrun with
  | refused message =>
      -- the error of the exhausted chain, and nothing is invoked
      refine iff_of_true ⟨_, rfl, fun hdone => absurd hdone Bool.false_ne_true⟩ ?_
      intro id p r hmem
      simp at hmem
  | completed hlast hcompleted =>
      exact hlast.endsOnce_of_completed hattempts (hwell _) hcompleted entry.provider.name
  | failed message hlast hfail => exact hlast.endsOnce_of_failure hattempts hfail message

/-- An upstream that answers every request with this body. -/
def answering (body : HttpBody) : Upstream := steadyUpstream (.responded ⟨200, "OK", some body⟩)

theorem sends_answering {sent : HttpBody} (h : (answering sent).Sends id provider request body) :
    body = sent := by
  obtain ⟨wire, res, -, hfetch, -, hbody⟩ := h
  cases hfetch
  exact (Option.some.inj hbody).symm

/-- The one chunk of a body cut short. -/
def cutChunk : Json :=
  .obj [("choices", .arr [.obj [("delta", .obj [("content", .str "Hel")])]])]

/-- A body that closes after its first content delta. -/
def cutBody : HttpBody :=
  ⟨["data: \x7b\"choices\":[\x7b\"delta\":\x7b\"content\":\"Hel\"\x7d\x7d]\x7d\n"], .closed⟩

theorem cutBody_plausible : cutBody.Plausible .openai := by
  have hlines : cutBody.lines = ["data: \x7b\"choices\":[\x7b\"delta\":\x7b\"content\":\"Hel\"\x7d\x7d]\x7d"] := by
    decide
  have hchunk : OpenAi.chunkOf "data: \x7b\"choices\":[\x7b\"delta\":\x7b\"content\":\"Hel\"\x7d\x7d]\x7d" =
      some cutChunk := by
    decide +kernel
  have hwell : OpenAi.WellFormedChunk cutChunk := by
    refine ⟨by decide, fun _ => by decide, Or.inr ⟨"Hel", by decide⟩, ?_, ?_⟩
    · exact Or.inl (by decide)
    · exact Or.inl (by decide)
  refine ⟨fun line hline chunk h => ?_, by decide +kernel⟩
  rw [hlines, List.mem_singleton] at hline
  rw [hline, hchunk] at h
  exact Option.some.inj h ▸ hwell

theorem one_terminal_event_iff_cut :
    EndsOnce (answering cutBody) .openai (streamOverChain ((answering cutBody).drained plainEnv)
        emptyRequest [openAiEntry] freshWorld).actions ↔
      ∀ id p r, .invoke id p r true ∈ (streamOverChain ((answering cutBody).drained plainEnv)
          emptyRequest [openAiEntry] freshWorld).actions →
        ClosesMarked (answering cutBody) .openai id p r :=
  one_terminal_event_iff (answering cutBody) plainEnv emptyRequest freshWorld rfl
    (fun _ _ h => sends_answering h ▸ cutBody_plausible)

/-- **A truncated stream looks complete**: its deltas are delivered, and neither `done` nor an error. -/
theorem truncation_shows_no_terminal_event :
    ¬ ∀ (up : Upstream) (base : Env) (request : UnifiedAiRequest) (w : World) (entry : ChainEntry)
        (n : Native), Native.ofKind entry.provider.kind = some n →
      (∀ id body, up.Sends id entry.provider (enrichedRequest request entry) body → body.Plausible n) →
      EndsOnce up n (streamOverChain (up.drained base) request [entry] w).actions := by
  intro h
  obtain ⟨e, he, -⟩ := h (answering cutBody) plainEnv emptyRequest freshWorld
    openAiEntry .openai rfl (fun _ _ h => sends_answering h ▸ cutBody_plausible)
  have hnone : terminalsOf (streamOverChain ((answering cutBody).drained plainEnv) emptyRequest
      [openAiEntry] freshWorld).actions = [] := by decide +kernel
  rw [hnone] at he
  cases he

end Sirius
