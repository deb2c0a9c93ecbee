import SiriusGateway.Gateway.Sessions
import SiriusGateway.Lib.Lists

/-!
# `Correctness.ChatTranscript` — the frames of one chat stream

What the chat handler has sent when it returns, for any events, any end of the stream, and a client that stays
or closes its connection at any moment.

## Contents
- **Frames.** The loop's frames for a client that stays (`chatLoop_framed`), as `Framed` spells them out.
- **Runs.** A run sends what `chatCompletionsStream` writes for the events it pulls (`sent_of_run`); behind a
  close it sends nothing (`sent_of_closed`).
- **Result.** `chat_transcript`.
-/

namespace Sirius

open Js Compat ChatSession

/-! ## Frames -/

/-- The event is an `error`. -/
def UnifiedStreamEvent.isError : UnifiedStreamEvent → Bool
  | .error _ _ => true
  | _ => false

section Frames

variable (responseId : String) (model : Json)

/-- The frame is the chunk of the event, built at some time. -/
def IsChunk (event : UnifiedStreamEvent) (frame : Frame) : Prop :=
  ∃ created chunk, formatStreamChunk created event responseId model = some chunk ∧ frame = .data chunk

/-- The frames of events without an error: a chunk for each, and a role chunk right before the first delta. -/
def Framed (events : List UnifiedStreamEvent) (frames : List Frame) : Prop :=
  if events.any (·.isDelta) then
    ∃ quiet first rest created framesQuiet framesRest, events = quiet ++ first :: rest ∧
      (∀ event ∈ quiet, event.isDelta = false) ∧ first.isDelta = true ∧
      List.Forall₂ (IsChunk responseId model) quiet framesQuiet ∧
      List.Forall₂ (IsChunk responseId model) (first :: rest) framesRest ∧
      frames = framesQuiet ++ .data (formatFirstStreamChunk created responseId model) :: framesRest
  else List.Forall₂ (IsChunk responseId model) events frames

variable {responseId model}

theorem isChunk_format {event : UnifiedStreamEvent} (h : event.isError = false) (created : Nat) :
    ∃ frame, ((formatStreamChunk created event responseId model).map Frame.data).toList = [frame] ∧
      IsChunk responseId model event frame := by
  cases event with
  | error message code => cases h
  | contentDelta delta => exact ⟨_, rfl, created, _, rfl, rfl⟩
  | toolCallDelta index id name arguments => exact ⟨_, rfl, created, _, rfl, rfl⟩
  | usage usage => exact ⟨_, rfl, created, _, rfl, rfl⟩
  | done finishReason => exact ⟨_, rfl, created, _, rfl, rfl⟩

/-- A quiet event in front leaves the role chunk where it is. -/
theorem Framed.cons_quiet {event : UnifiedStreamEvent} {events : List UnifiedStreamEvent} {frame : Frame}
    {frames : List Frame} (hquiet : event.isDelta = false) (hframe : IsChunk responseId model event frame)
    (h : Framed responseId model events frames) : Framed responseId model (event :: events) (frame :: frames) := by
  unfold Framed at h ⊢
  rw [List.any_cons, hquiet, Bool.false_or]
  split at h
  · rename_i hany
    rw [if_pos hany]
    obtain ⟨quiet, first, rest, created, framesQuiet, framesRest, rfl, hall, hfirst, hq, hr, rfl⟩ := h
    exact ⟨event :: quiet, first, rest, created, frame :: framesQuiet, framesRest, rfl,
      List.forall_mem_cons.mpr ⟨hquiet, hall⟩, hfirst, .cons hframe hq, hr, rfl⟩
  · rename_i hany
    rw [if_neg hany]
    exact .cons hframe h

/-- One event that is no error. -/
theorem chatLoop_cons (clock : Nat → Nat) {event : UnifiedStreamEvent} (h : event.isError = false) (emitted : Bool)
    (k : Nat) (rest : List Pulled) :
    chatLoop clock responseId model emitted k (⟨event, false⟩ :: rest) =
      if !emitted && event.isDelta then
        .data (formatFirstStreamChunk (clock k) responseId model) ::
          ((formatStreamChunk (clock (k + 1)) event responseId model).map Frame.data).toList ++
            chatLoop clock responseId model true (k + 2) rest
      else ((formatStreamChunk (clock k) event responseId model).map Frame.data).toList ++
        chatLoop clock responseId model emitted (k + 1) rest := by
  cases event with
  | error message code => cases h
  | contentDelta delta => rfl
  | toolCallDelta index id name arguments => rfl
  | usage usage => rfl
  | done finishReason => rfl

/-- The frame for the first error, if there is one. -/
def errorFrames (responseId : String) (model : Json) (created : Nat) (events : List UnifiedStreamEvent) :
    List Frame :=
  if events.any (·.isError) then [.data (errorChunk responseId model created)] else []

theorem errorFrames_cons {event : UnifiedStreamEvent} (h : event.isError = false) (created : Nat)
    (events : List UnifiedStreamEvent) :
    errorFrames responseId model created (event :: events) = errorFrames responseId model created events := by
  rw [errorFrames, List.any_cons, h]
  rfl

/-- The loop on the events of a client that stays, once the role chunk is out. -/
theorem chatLoop_chunks (clock : Nat → Nat) (events : List UnifiedStreamEvent) (k : Nat) :
    ∃ frames created, List.Forall₂ (IsChunk responseId model) (events.takeWhile fun event => !event.isError) frames ∧
      chatLoop clock responseId model true k (events.map fun event => ⟨event, false⟩) =
        frames ++ errorFrames responseId model created events := by
  induction events generalizing k with
  | nil => exact ⟨[], 0, .nil, rfl⟩
  | cons event events ih =>
      cases herror : event.isError with
      | true =>
          cases event with
          | error message code => exact ⟨[], clock k, by simp [herror], by simp [chatLoop, errorFrames, herror]⟩
          | _ => cases herror
      | false =>
          obtain ⟨frame, hchunk, hframe⟩ := @isChunk_format responseId model event herror (clock k)
          obtain ⟨frames, created, hframes, hloop⟩ := ih (k + 1)
          refine ⟨frame :: frames, created, ?_, ?_⟩
          · rw [List.takeWhile_cons_of_pos (by rw [herror]; rfl)]
            exact .cons hframe hframes
          · rw [List.map_cons, chatLoop_cons clock herror, if_neg (by simp), hchunk, hloop, errorFrames_cons herror]
            rfl

/-- **The loop on the events of a client that stays**, by induction up to the first delta. -/
theorem chatLoop_framed (clock : Nat → Nat) (events : List UnifiedStreamEvent) (k : Nat) :
    ∃ frames created, Framed responseId model (events.takeWhile fun event => !event.isError) frames ∧
      chatLoop clock responseId model false k (events.map fun event => ⟨event, false⟩) =
        frames ++ errorFrames responseId model created events := by
  induction events generalizing k with
  | nil => exact ⟨[], 0, .nil, rfl⟩
  | cons event events ih =>
      cases herror : event.isError with
      | true =>
          cases event with
          | error message code =>
              refine ⟨[], clock k, ?_, by simp [chatLoop, errorFrames, herror]⟩
              rw [List.takeWhile_cons_of_neg (by rw [herror]; exact Bool.false_ne_true)]
              exact .nil
          | _ => cases herror
      | false =>
          have hkept : (event :: events).takeWhile (fun event => !event.isError) =
              event :: events.takeWhile fun event => !event.isError :=
            List.takeWhile_cons_of_pos (by rw [herror]; rfl)
          rw [hkept, List.map_cons, chatLoop_cons clock herror]
          cases hdelta : event.isDelta with
          | true =>
              -- the first delta: the role chunk is written before it, and never again
              obtain ⟨frame, hchunk, hframe⟩ := @isChunk_format responseId model event herror (clock (k + 1))
              obtain ⟨frames, created, hframes, hloop⟩ := chatLoop_chunks clock events (k + 2)
              refine ⟨.data (formatFirstStreamChunk (clock k) responseId model) :: frame :: frames, created, ?_, ?_⟩
              · unfold Framed
                rw [List.any_cons, hdelta, Bool.true_or, if_pos rfl]
                exact ⟨[], event, _, clock k, [], frame :: frames, rfl, nofun, hdelta, .nil,
                  .cons hframe hframes, rfl⟩
              · rw [if_pos (by simp), hchunk, hloop, errorFrames_cons herror]
                rfl
          | false =>
              obtain ⟨frame, hchunk, hframe⟩ := @isChunk_format responseId model event herror (clock k)
              obtain ⟨frames, created, hframes, hloop⟩ := ih (k + 1)
              refine ⟨frame :: frames, created, hframes.cons_quiet hdelta hframe, ?_⟩
              rw [if_neg (by simp), hchunk, hloop, errorFrames_cons herror]
              rfl

end Frames

/-! ## Runs -/

namespace ChatSession

/-- The events the handler has received. -/
def received (labels : List Label) : List UnifiedStreamEvent :=
  labels.filterMap fun
    | .event event => some event
    | _ => none

/-- The events as the loop pulls them, from where the connection is closed or not. -/
def pulledOf : Bool → List Label → List Pulled
  | _, [] => []
  | aborted, .event event :: rest => ⟨event, aborted⟩ :: pulledOf aborted rest
  | _, .close :: rest => pulledOf true rest
  | aborted, .finished :: rest => pulledOf aborted rest
  | aborted, .threw _ :: rest => pulledOf aborted rest
  | aborted, .returned :: rest => pulledOf aborted rest

/-- How the loop is left, from where the connection is closed or not. -/
def endingOf : Bool → List Label → LoopEnd
  | aborted, [] => .left aborted
  | aborted, .event _ :: rest => endingOf aborted rest
  | _, .close :: rest => endingOf true rest
  | aborted, .finished :: _ => .left aborted
  | aborted, .threw message :: _ => .threw message aborted
  | aborted, .returned :: _ => .left aborted

/-- The writes of the frames. -/
def writes (frames : List Frame) : List Sent := frames.map Sent.frame

/-- The call of `end()` behind the last frame. -/
def endCall (ending : LoopEnd) : List Sent := if chatEnding ending = [] then [] else [.ended]

section Runs

variable {clock : Nat → Nat} {responseId : String} {model : Json}

theorem sent_finish (s : Session) :
    s.finish.sent = s.sent ++ writes (chatEnding (.left s.aborted)) ++ endCall (.left s.aborted) := by
  unfold Session.finish chatEnding endCall
  cases s.aborted <;> simp [writes, chatEnding]

theorem sent_fail (s : Session) (message : String) :
    (s.fail message).sent =
      s.sent ++ writes (chatEnding (.threw message s.destroyed)) ++ endCall (.threw message s.destroyed) := by
  unfold Session.fail chatEnding endCall
  cases s.destroyed <;> simp [writes, chatEnding]

/-- The steps, with where each is taken from. -/
theorem step_cases {s t : Session} {label : Label} (h : s.step clock responseId model label = some t) :
    (∃ event, label = .event event ∧ s.phase = .pulling ∧ t = s.handle clock responseId model event) ∨
      (label = .finished ∧ s.phase = .pulling ∧ t = s.finish) ∨
      (∃ message, label = .threw message ∧ s.phase = .pulling ∧ t = s.fail message) ∨
      (label = .returned ∧ s.phase = .leaving ∧ t = s.finish) ∨
      (label = .close ∧ s.phase ≠ .over ∧ t = { s with aborted := true, destroyed := true }) := by
  cases label with
  | event event =>
      obtain ⟨hphase, rfl⟩ := Option.ite_some_none_eq_some.mp h
      exact Or.inl ⟨event, rfl, hphase, rfl⟩
  | finished =>
      obtain ⟨hphase, rfl⟩ := Option.ite_some_none_eq_some.mp h
      exact Or.inr (Or.inl ⟨rfl, hphase, rfl⟩)
  | threw message =>
      obtain ⟨hphase, rfl⟩ := Option.ite_some_none_eq_some.mp h
      exact Or.inr (Or.inr (Or.inl ⟨message, rfl, hphase, rfl⟩))
  | returned =>
      obtain ⟨hphase, rfl⟩ := Option.ite_some_none_eq_some.mp h
      exact Or.inr (Or.inr (Or.inr (Or.inl ⟨rfl, hphase, rfl⟩)))
  | close =>
      simp only [Session.step] at h
      split at h
      · cases h
      · rename_i hopen
        exact Or.inr (Or.inr (Or.inr (Or.inr ⟨rfl, fun hover => hopen (Or.inl hover), (Option.some.inj h).symm⟩)))

/-- A handler that has returned does nothing more. -/
theorem run_of_over {s t : Session} {labels : List Label}
    (h : Lts.Run (Session.step clock responseId model) s labels t) (hover : s.phase = .over) :
    labels = [] ∧ t = s := by
  cases h with
  | nil => exact ⟨rfl, rfl⟩
  | cons hd _ =>
      rcases step_cases hd with ⟨_, -, hphase, -⟩ | ⟨-, hphase, -⟩ | ⟨_, -, hphase, -⟩ | ⟨-, hphase, -⟩ |
        ⟨-, hphase, -⟩
      · rw [hover] at hphase
        cases hphase
      · rw [hover] at hphase
        cases hphase
      · rw [hover] at hphase
        cases hphase
      · rw [hover] at hphase
        cases hphase
      · exact absurd hover hphase

@[simp] theorem phase_finish (s : Session) : s.finish.phase = .over := by
  unfold Session.finish
  split <;> rfl

@[simp] theorem phase_fail (s : Session) (message : String) : (s.fail message).phase = .over := by
  unfold Session.fail
  split <;> rfl

/-- With the connection closed an event is only read. -/
theorem handle_aborted {s : Session} (h : s.aborted = true) (event : UnifiedStreamEvent) :
    s.handle clock responseId model event = { s with phase := .leaving } := if_pos h

/-- What one turn of the loop writes for an event that is no error. -/
theorem handle_open {s : Session} {event : UnifiedStreamEvent} (hopen : s.aborted = false)
    (herror : event.isError = false) :
    let u := s.handle clock responseId model event
    (u.phase = s.phase ∧ u.aborted = false ∧ u.destroyed = s.destroyed) ∧
      ∃ frames, u.sent = s.sent ++ writes frames ∧
        ∀ rest, chatLoop clock responseId model s.firstChunkEmitted s.built (⟨event, false⟩ :: rest) =
          frames ++ chatLoop clock responseId model u.firstChunkEmitted u.built rest := by
  have hhandle : s.handle clock responseId model event =
      (s.writeRole clock responseId model event).writeEvent clock responseId model event := by
    unfold Session.handle
    rw [if_neg (Bool.eq_false_iff.mp hopen)]
    cases event with
    | error message code => cases herror
    | _ => rfl
  obtain ⟨chunk, hchunk⟩ : ∃ chunk : Nat → Json, ∀ created,
      formatStreamChunk created event responseId model = some (chunk created) := by
    cases event with
    | error message code => cases herror
    | contentDelta delta => exact ⟨_, fun _ => rfl⟩
    | toolCallDelta index id name arguments => exact ⟨_, fun _ => rfl⟩
    | usage usage => exact ⟨_, fun _ => rfl⟩
    | done finishReason => exact ⟨_, fun _ => rfl⟩
  intro u
  have hu : u = (s.writeRole clock responseId model event).writeChunk
      (chunk (clock (s.writeRole clock responseId model event).built)) := by
    show s.handle clock responseId model event = _
    rw [hhandle, Session.writeEvent, hchunk]
  -- the role chunk goes out in front of the first delta
  by_cases hrole : (!s.firstChunkEmitted && event.isDelta) = true
  · have hs : s.writeRole clock responseId model event =
        { s.writeChunk (formatFirstStreamChunk (clock s.built) responseId model) with firstChunkEmitted := true } :=
      if_pos hrole
    rw [hu, hs]
    refine ⟨⟨rfl, hopen, rfl⟩, [.data (formatFirstStreamChunk (clock s.built) responseId model),
      .data (chunk (clock (s.built + 1)))], ?_, ?_⟩
    · simp [Session.writeChunk, writes]
    · intro rest
      rw [chatLoop_cons clock herror, if_pos hrole, hchunk]
      rfl
  · have hs : s.writeRole clock responseId model event = s := if_neg hrole
    rw [hu, hs]
    refine ⟨⟨rfl, hopen, rfl⟩, [.data (chunk (clock s.built))], rfl, ?_⟩
    intro rest
    rw [chatLoop_cons clock herror, if_neg hrole, hchunk]
    rfl

/-- What a run sends from a state on, until the handler has returned. -/
def Sends (s t : Session) (frames : List Frame) (ending : LoopEnd) : Prop :=
  t.sent = s.sent ++ writes (frames ++ chatEnding ending) ++ endCall ending

/-- What was written before is written before. -/
theorem Sends.of_write {s u t : Session} {frames more : List Frame} {ending : LoopEnd} (h : Sends u t more ending)
    (hsent : u.sent = s.sent ++ writes frames) : Sends s t (frames ++ more) ending := by
  unfold Sends at h ⊢
  rw [h, hsent]
  simp only [writes, List.map_append, List.append_assoc]

/-- The handler returns from where it stands. -/
theorem Sends.of_over {s u t : Session} {labels : List Label} {ending : LoopEnd}
    (h : Lts.Run (Session.step clock responseId model) u labels t) (hover : u.phase = .over)
    (hsent : u.sent = s.sent ++ writes (chatEnding ending) ++ endCall ending) : Sends s t [] ending := by
  obtain ⟨-, rfl⟩ := run_of_over h hover
  exact hsent

/-- **A run sends what `chatCompletionsStream` writes** for the events it pulls. By induction on the run, from
    the loop and from behind a `break`. -/
theorem sends_of_run {s t : Session} {labels : List Label}
    (h : Lts.Run (Session.step clock responseId model) s labels t) (hover : t.phase = .over)
    (hclosed : s.destroyed = s.aborted) :
    (s.phase = .pulling → Sends s t
      (chatLoop clock responseId model s.firstChunkEmitted s.built (pulledOf s.aborted labels))
      (endingOf s.aborted labels)) ∧
    (s.phase = .leaving → Sends s t [] (endingOf s.aborted labels)) := by
  induction h with
  | nil s =>
      rw [hover]
      exact ⟨nofun, nofun⟩
  | @cons s u t label labels hd hrest ih =>
      rcases step_cases hd with ⟨event, rfl, hphase, rfl⟩ | ⟨rfl, hphase, rfl⟩ | ⟨message, rfl, hphase, rfl⟩ |
        ⟨rfl, hphase, rfl⟩ | ⟨rfl, -, rfl⟩
      · rw [hphase]
        refine ⟨fun _ => ?_, nofun⟩
        cases hopen : s.aborted with
        | true =>
            -- the client has left: the event is dropped and the loop breaks
            rw [handle_aborted hopen] at ih
            have hsends := (ih hover hclosed).2 rfl
            simp only [hopen] at hsends
            exact hsends
        | false =>
            cases herror : event.isError with
            | true =>
                cases event with
                | error message code =>
                    have hhandle : s.handle clock responseId model (.error message code) =
                        { s.writeChunk (errorChunk responseId model (clock s.built)) with phase := .leaving } :=
                      if_neg (Bool.eq_false_iff.mp hopen)
                    -- an error is written as a chunk of its own, and the loop breaks
                    rw [hhandle] at ih
                    have hsends := @Sends.of_write s _ t [.data (errorChunk responseId model (clock s.built))] [] _
                      ((ih hover hclosed).2 rfl) rfl
                    simp only [Session.writeChunk, hopen] at hsends
                    simpa only [pulledOf, endingOf, chatLoop, Bool.false_eq_true, if_false, List.append_nil]
                      using hsends
                | _ => cases herror
            | false =>
                obtain ⟨⟨hphase', haborted, hdestroyed⟩, frames, hsent, hloop⟩ :=
                  @handle_open clock responseId model s event hopen herror
                have hsends := (ih hover (by rw [hdestroyed, hclosed, hopen, haborted])).1 (hphase'.trans hphase)
                rw [haborted] at hsends
                rw [pulledOf, endingOf, hloop]
                exact hsends.of_write hsent
      · obtain ⟨rfl, -⟩ := run_of_over hrest (phase_finish s)
        rw [hphase]
        exact ⟨fun _ => Sends.of_over hrest (phase_finish s) (sent_finish s), nofun⟩
      · obtain ⟨rfl, -⟩ := run_of_over hrest (phase_fail s message)
        have hsent := sent_fail s message
        rw [hclosed] at hsent
        rw [hphase]
        exact ⟨fun _ => Sends.of_over hrest (phase_fail s message) hsent, nofun⟩
      · rw [hphase]
        exact ⟨nofun, fun _ => Sends.of_over hrest (phase_finish s) (sent_finish s)⟩
      · exact ih hover rfl

/-! ### A client that stays -/

/-- The labels of a run of the whole handler, for a client that stays. -/
inductive Staying : List Label → Prop
  | finished : Staying [.finished]
  | threw (message : String) : Staying [.threw message]
  | error (message : String) (code : Option String) : Staying [.event (.error message code), .returned]
  | event (event : UnifiedStreamEvent) {labels : List Label} (h : event.isError = false) (rest : Staying labels) :
      Staying (.event event :: labels)

/-- Behind a `break` the handler only waits for `return()`. -/
theorem returned_of_leaving {s t : Session} {labels : List Label}
    (h : Lts.Run (Session.step clock responseId model) s labels t) (hover : t.phase = .over)
    (hleaving : s.phase = .leaving) (hstays : .close ∉ labels) : labels = [.returned] := by
  cases h with
  | nil =>
      rw [hleaving] at hover
      cases hover
  | cons hd hrest =>
      rcases step_cases hd with ⟨_, -, hphase, -⟩ | ⟨-, hphase, -⟩ | ⟨_, -, hphase, -⟩ | ⟨rfl, -, rfl⟩ | ⟨rfl, -, -⟩
      · rw [hleaving] at hphase
        cases hphase
      · rw [hleaving] at hphase
        cases hphase
      · rw [hleaving] at hphase
        cases hphase
      · obtain ⟨rfl, -⟩ := run_of_over hrest (phase_finish s)
        rfl
      · exact absurd List.mem_cons_self hstays

theorem staying_of_run {s t : Session} {labels : List Label}
    (h : Lts.Run (Session.step clock responseId model) s labels t) (hover : t.phase = .over)
    (hpulling : s.phase = .pulling) (hopen : s.aborted = false) (hstays : .close ∉ labels) : Staying labels := by
  induction h with
  | nil s =>
      rw [hpulling] at hover
      cases hover
  | @cons s u t label labels hd hrest ih =>
      have hstays' : .close ∉ labels := fun hmem => hstays (List.mem_cons_of_mem _ hmem)
      rcases step_cases hd with ⟨event, rfl, hphase, rfl⟩ | ⟨rfl, hphase, rfl⟩ | ⟨message, rfl, hphase, rfl⟩ |
        ⟨rfl, hphase, rfl⟩ | ⟨rfl, -, rfl⟩
      · cases herror : event.isError with
        | true =>
            cases event with
            | error message code =>
                have hleaving : (s.handle clock responseId model (.error message code)).phase = .leaving := by
                  unfold Session.handle
                  rw [if_neg (Bool.eq_false_iff.mp hopen)]
                rw [returned_of_leaving hrest hover hleaving hstays']
                exact .error message code
            | _ => cases herror
        | false =>
            obtain ⟨⟨hphase', haborted, -⟩, -⟩ := @handle_open clock responseId model s event hopen herror
            exact .event event herror (ih hover (hphase'.trans hpulling) haborted hstays')
      · obtain ⟨rfl, -⟩ := run_of_over hrest (phase_finish s)
        exact .finished
      · obtain ⟨rfl, -⟩ := run_of_over hrest (phase_fail s message)
        exact .threw message
      · rw [hpulling] at hphase
        cases hphase
      · exact absurd List.mem_cons_self hstays

/-- The frame for how the stream went wrong, if it did. -/
inductive ErrorFrames (responseId : String) (model : Json) (labels : List Label) : List Frame → Prop
  | none (hreceived : ∀ event ∈ received labels, event.isError = false)
      (hthrew : ∀ message, .threw message ∉ labels) : ErrorFrames responseId model labels []
  | event (created : Nat) (hreceived : ∃ event ∈ received labels, event.isError = true) :
      ErrorFrames responseId model labels [.data (errorChunk responseId model created)]
  | threw (message : String) (hthrew : .threw message ∈ labels) :
      ErrorFrames responseId model labels [.data (formatError 500 message)]

theorem pulledOf_staying {labels : List Label} (h : .close ∉ labels) :
    pulledOf false labels = (received labels).map fun event => ⟨event, false⟩ := by
  induction labels with
  | nil => rfl
  | cons label labels ih =>
      have hrest := ih fun hmem => h (List.mem_cons_of_mem _ hmem)
      cases label with
      | close => exact absurd List.mem_cons_self h
      | event event => exact congrArg (_ :: ·) hrest
      | finished => exact hrest
      | threw message => exact hrest
      | returned => exact hrest

/-- The frames behind the chunks, for a client that stays. -/
theorem ending_staying {labels : List Label} (h : Staying labels) (created : Nat) :
    ∃ errors, ErrorFrames responseId model labels errors ∧
      errorFrames responseId model created (received labels) ++ chatEnding (endingOf false labels) =
        errors ++ [.sentinel] ∧ endCall (endingOf false labels) = [.ended] := by
  induction h with
  | finished => exact ⟨[], .none nofun (by simp), rfl, rfl⟩
  | threw message => exact ⟨_, .threw message List.mem_cons_self, rfl, rfl⟩
  | error message code => exact ⟨_, .event created ⟨_, List.mem_cons_self, rfl⟩, rfl, rfl⟩
  | @event event labels herror _ ih =>
      obtain ⟨errors, herrors, heq, hend⟩ := ih
      refine ⟨errors, ?_, ?_, hend⟩
      · cases herrors with
        | none hreceived hthrew =>
            exact .none (List.forall_mem_cons.mpr ⟨herror, hreceived⟩) fun message hmem =>
              hthrew message ((List.mem_cons.mp hmem).resolve_left nofun)
        | event created hreceived =>
            obtain ⟨e, hmem, he⟩ := hreceived
            exact .event created ⟨e, List.mem_cons_of_mem _ hmem, he⟩
        | threw message hthrew => exact .threw message (List.mem_cons_of_mem _ hthrew)
      · rw [← heq]
        exact congrArg (· ++ _) (errorFrames_cons herror created _)

/-! ### A client that closes its connection -/

/-- Behind a close nothing is sent. -/
theorem sent_of_closed {s t : Session} {labels : List Label}
    (h : Lts.Run (Session.step clock responseId model) s labels t) (haborted : s.aborted = true)
    (hdestroyed : s.destroyed = true) : t.sent = s.sent := by
  have hinv := h.invariant (I := fun u => u.aborted = true ∧ u.destroyed = true ∧ u.sent = s.sent)
    (fun u label v hu hd => by
      obtain ⟨ha, hde, hsent⟩ := hu
      rcases step_cases hd with ⟨event, rfl, -, rfl⟩ | ⟨rfl, -, rfl⟩ | ⟨message, rfl, -, rfl⟩ | ⟨rfl, -, rfl⟩ |
        ⟨rfl, -, rfl⟩
      · rw [handle_aborted ha]
        exact ⟨ha, hde, hsent⟩
      · rw [Session.finish, if_pos ha]
        exact ⟨ha, hde, hsent⟩
      · rw [Session.fail, if_pos hde]
        exact ⟨ha, hde, hsent⟩
      · rw [Session.finish, if_pos ha]
        exact ⟨ha, hde, hsent⟩
      · exact ⟨rfl, rfl, hsent⟩)
    ⟨haborted, hdestroyed, rfl⟩
  exact hinv.2.2

/-- Only chunks have been sent: no sentinel, and the response is not ended. -/
def OnlyChunks (sent : List Sent) : Prop := ∀ entry ∈ sent, ∃ chunk, entry = .frame (.data chunk)

theorem OnlyChunks.writeChunk {s : Session} (h : OnlyChunks s.sent) (chunk : Json) :
    OnlyChunks (s.writeChunk chunk).sent := by
  intro entry hmem
  obtain hmem | hmem := List.mem_append.mp hmem
  · exact h entry hmem
  · exact ⟨chunk, List.mem_singleton.mp hmem⟩

theorem OnlyChunks.handle {s : Session} (h : OnlyChunks s.sent) (event : UnifiedStreamEvent) :
    OnlyChunks (s.handle clock responseId model event).sent := by
  have hrole : OnlyChunks (s.writeRole clock responseId model event).sent := by
    unfold Session.writeRole
    split
    · exact h.writeChunk _
    · exact h
  have hevent : OnlyChunks
      ((s.writeRole clock responseId model event).writeEvent clock responseId model event).sent := by
    unfold Session.writeEvent
    split
    · exact hrole.writeChunk _
    · exact hrole
  unfold Session.handle
  split
  · exact h
  · split
    · exact h.writeChunk _
    · exact hevent

/-- Until the handler returns it has sent chunks only. -/
theorem onlyChunks_of_run {t : Session} {labels : List Label}
    (h : Lts.Run (Session.step clock responseId model) {} labels t) (hphase : t.phase ≠ .over) :
    OnlyChunks t.sent := by
  have hinv := h.invariant (I := fun u => u.phase ≠ .over → OnlyChunks u.sent)
    (fun u label v hu hd hv => by
      rcases step_cases hd with ⟨event, rfl, hpulling, rfl⟩ | ⟨rfl, -, rfl⟩ | ⟨message, rfl, -, rfl⟩ | ⟨rfl, -, rfl⟩ |
        ⟨rfl, hopen, rfl⟩
      · refine OnlyChunks.handle (hu ?_) event
        rw [hpulling]
        nofun
      · exact absurd (phase_finish u) hv
      · exact absurd (phase_fail u message) hv
      · exact absurd (phase_finish u) hv
      · exact hu hopen)
    (fun _ => nofun)
  exact hinv hphase

end Runs

end ChatSession

/-! ## Result -/

/-- **The chat transcript is well framed.** For a client that stays it is the chunks of the events before the
    first error, one error frame if something went wrong, `[DONE]` and `end()`, each once. For one that closes
    its connection nothing is sent from then on, and what was sent before are chunks. -/
theorem chat_transcript (clock : Nat → Nat) (responseId : String) (model : Json) {labels : List Label} {t : Session}
    (h : Lts.Run (Session.step clock responseId model) {} labels t) :
    (t.phase = .over → .close ∉ labels → ∃ frames errors,
        Framed responseId model ((received labels).takeWhile fun event => !event.isError) frames ∧
        ErrorFrames responseId model labels errors ∧
        t.sent = writes (frames ++ errors ++ [.sentinel]) ++ [.ended]) ∧
      ∀ before after, labels = before ++ .close :: after → ∃ s,
        Lts.Run (Session.step clock responseId model) {} before s ∧ t.sent = s.sent ∧ OnlyChunks t.sent := by
  constructor
  · intro hover hstays
    have hstaying := staying_of_run h hover rfl rfl hstays
    have hsends : t.sent = [] ++ writes (chatLoop clock responseId model false 0 (pulledOf false labels) ++
        chatEnding (endingOf false labels)) ++ endCall (endingOf false labels) := (sends_of_run h hover rfl).1 rfl
    obtain ⟨frames, created, hframes, hloop⟩ := @chatLoop_framed responseId model clock (received labels) 0
    obtain ⟨errors, herrors, hending, hend⟩ := @ending_staying responseId model labels hstaying created
    refine ⟨frames, errors, hframes, herrors, ?_⟩
    rw [hsends, pulledOf_staying hstays, hloop, hend, List.append_assoc frames, hending, ← List.append_assoc frames,
      List.nil_append]
  · rintro before after rfl
    obtain ⟨s, hbefore, hafter⟩ := h.split
    obtain ⟨u, hclose, hrest⟩ : ∃ u, Session.step clock responseId model s .close = some u ∧
        Lts.Run (Session.step clock responseId model) u after t := by
      cases hafter with
      | cons hd hrest => exact ⟨_, hd, hrest⟩
    rcases step_cases hclose with ⟨_, hlabel, -⟩ | ⟨hlabel, -⟩ | ⟨_, hlabel, -⟩ | ⟨hlabel, -⟩ | ⟨-, hopen, rfl⟩
    · cases hlabel
    · cases hlabel
    · cases hlabel
    · cases hlabel
    · have hsent : t.sent = s.sent := (sent_of_closed hrest rfl rfl).trans rfl
      refine ⟨s, hbefore, hsent, ?_⟩
      rw [hsent]
      exact onlyChunks_of_run hbefore hopen

/-- A stream that fails behind one text. -/
def failing : List Label := [.event (.contentDelta (.json (.str "Hi"))), .event (.error "down" none), .returned]

/-- A client that leaves behind one text. -/
def leaving : List Label := [.event (.contentDelta (.json (.str "Hi"))), .close, .event (.done "stop"), .returned]

/-- The handler on a stream that fails, and with a client that leaves. -/
theorem chat_transcript_failing_leaving :
    (∃ t, Lts.Run (Session.step id "chatcmpl-1" (.str "m")) {} failing t ∧ ∃ frames errors,
        Framed "chatcmpl-1" (.str "m") [.contentDelta (.json (.str "Hi"))] frames ∧
        ErrorFrames "chatcmpl-1" (.str "m") failing errors ∧
        t.sent = writes (frames ++ errors ++ [.sentinel]) ++ [.ended]) ∧
      ∃ t, Lts.Run (Session.step id "chatcmpl-1" (.str "m")) {} leaving t ∧ OnlyChunks t.sent := by
  obtain ⟨t, ht, hover⟩ : ∃ t, Lts.Run (Session.step id "chatcmpl-1" (.str "m")) {} failing t ∧ t.phase = .over :=
    ⟨_, Lts.run_iff_exec.mpr rfl, rfl⟩
  obtain ⟨u, hu⟩ : ∃ u, Lts.Run (Session.step id "chatcmpl-1" (.str "m")) {} leaving u :=
    ⟨_, Lts.run_iff_exec.mpr rfl⟩
  refine ⟨⟨t, ht, ?_⟩, u, hu, ?_⟩
  · exact (chat_transcript id "chatcmpl-1" (.str "m") ht).1 hover (by decide)
  · obtain ⟨s, -, -, hchunks⟩ := (chat_transcript id "chatcmpl-1" (.str "m") hu).2
      [.event (.contentDelta (.json (.str "Hi")))] [.event (.done "stop"), .returned] rfl
    exact hchunks

end Sirius
