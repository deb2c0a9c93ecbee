import SiriusGateway.Lib.Runs

/-!
# `Lib.Relay` — a loop that relays a source to a consumer

A handler pulls events from a source and puts something out for each, until the source ends or throws, or an
event makes it leave the loop; then the source is told to return. The consumer may leave at any time: the handler
notices when it is next resumed, and puts nothing out from then on.

## Contents
- **The loop.** `Handler`, `State`, `step`.
- **What is put out.** `outputs`, `ending`.
- **Runs.** How a run begins for a consumer who stays (`begins`) and the rule over these beginnings
  (`staying_rule`); what a consumer gets who stays (`sent_of_staying`), and one who leaves (`sent_of_leaving`).
-/

namespace Relay

variable {σ ε ο : Type}

/-! ## The loop -/

/-- What the handler does, on variables of its own. -/
structure Handler (σ ε ο : Type) where
  handle : σ → ε → σ × List ο
  /-- The loop is left behind the event. -/
  breaks : ε → Bool
  /-- Behind the loop. -/
  finish : List ο
  /-- When the source throws. -/
  fail : String → List ο

/-- Where the handler stands: it awaits the next event, or the source's return behind a break, or it has returned. -/
inductive Phase where
  | pulling
  | leaving
  | returned
  deriving DecidableEq

/-- What can happen. -/
inductive Label (ε : Type) where
  | event (event : ε)
  /-- The source has no further event. -/
  | finished
  | threw (message : String)
  /-- The source has returned; it throws nothing. -/
  | returned
  /-- The consumer leaves. -/
  | close
  deriving DecidableEq

/-- The handler's variables, and what it has put out. -/
structure State (σ ο : Type) where
  own : σ
  phase : Phase := .pulling
  closed : Bool := false
  sent : List ο := []

variable (h : Handler σ ε ο)

/-- The handler returns; to a consumer who is still there it puts out the rest. -/
def State.close (s : State σ ο) (rest : List ο) : State σ ο :=
  { s with phase := .returned, sent := if s.closed then s.sent else s.sent ++ rest }

/-- One step. -/
def step (s : State σ ο) : Label ε → Option (State σ ο)
  | .event event =>
      if s.phase = .pulling then
        if s.closed then some { s with phase := .leaving }
        else
          some { s with
            own := (h.handle s.own event).1
            phase := if h.breaks event then .leaving else .pulling
            sent := s.sent ++ (h.handle s.own event).2 }
      else none
  | .finished => if s.phase = .pulling then some (s.close h.finish) else none
  | .threw message => if s.phase = .pulling then some (s.close (h.fail message)) else none
  | .returned => if s.phase = .leaving then some (s.close h.finish) else none
  | .close => if s.phase = .returned ∨ s.closed = true then none else some { s with closed := true }

/-! ## What is put out -/

/-- The events among the labels. -/
def events : List (Label ε) → List ε :=
  List.filterMap fun
    | .event event => some event
    | _ => none

/-- What the source throws, if it does. -/
def thrown : List (Label ε) → Option String :=
  List.findSome? fun
    | .threw message => some message
    | _ => none

/-- What the loop puts out for the events, up to one that breaks. -/
def outputs : σ → List ε → List ο
  | _, [] => []
  | own, event :: rest =>
      (h.handle own event).2 ++ if h.breaks event then [] else outputs (h.handle own event).1 rest

/-- What is put out behind the loop. -/
def ending (labels : List (Label ε)) : List ο :=
  match thrown labels with
  | some message => h.fail message
  | none => h.finish

/-! ## Runs -/

variable {h} {s t : State σ ο} {labels : List (Label ε)}

/-- The handler that has returned does nothing more. -/
theorem run_of_returned (hrun : Lts.Run (step h) s labels t) (hs : s.phase = .returned) :
    t = s ∧ labels = [] := by
  cases hrun with
  | nil => exact ⟨rfl, rfl⟩
  | @cons _ u _ label rest hstep _ => cases label <;> simp [step, hs] at hstep

/-- A step after the consumer has left puts nothing out, and does not bring the consumer back. -/
theorem step_of_closed {label : Label ε} (hstep : step h s label = some t) (hs : s.closed = true) :
    t.closed = true ∧ t.sent = s.sent := by
  cases label with
  | event event =>
      simp only [step, hs, if_true] at hstep
      split at hstep
      · obtain rfl := Option.some.inj hstep
        exact ⟨rfl, rfl⟩
      · cases hstep
  | close => simp [step, hs] at hstep
  | _ =>
      simp only [step] at hstep
      split at hstep
      · obtain rfl := Option.some.inj hstep
        exact ⟨hs, by simp [State.close, hs]⟩
      · cases hstep

/-- **Nothing is put out for a consumer who has left.** -/
theorem sent_of_closed (hrun : Lts.Run (step h) s labels t) (hs : s.closed = true) :
    t.closed = true ∧ t.sent = s.sent := by
  induction hrun with
  | nil => exact ⟨hs, rfl⟩
  | @cons s u t label rest hstep _ ih =>
      obtain ⟨hclosed, hsent⟩ := step_of_closed hstep hs
      obtain ⟨hclosed', hsent'⟩ := ih hclosed
      exact ⟨hclosed', hsent'.trans hsent⟩

/-- The consumer leaves at most once. -/
theorem closed_of_mem (hrun : Lts.Run (step h) s labels t) (hmem : .close ∈ labels) : t.closed = true := by
  obtain ⟨before, after, rfl⟩ := List.append_of_mem hmem
  obtain ⟨u, -, hafter⟩ := hrun.split
  cases hafter with
  | @cons _ v _ _ _ hstep hrest =>
      simp only [step] at hstep
      split at hstep
      · cases hstep
      · obtain rfl := Option.some.inj hstep
        exact (sent_of_closed hrest rfl).1

/-- Behind a break only the source's return can follow. -/
theorem run_of_leaving (hrun : Lts.Run (step h) s labels t) (hs : s.phase = .leaving) (hstays : .close ∉ labels) :
    (labels = [] ∧ t = s) ∨ (labels = [.returned] ∧ t = s.close h.finish) := by
  cases hrun with
  | nil => exact Or.inl ⟨rfl, rfl⟩
  | @cons _ u _ label rest hstep hrest =>
      cases label with
      | returned =>
          simp only [step, hs, if_true] at hstep
          obtain rfl := Option.some.inj hstep
          obtain ⟨rfl, rfl⟩ := run_of_returned hrest rfl
          exact Or.inr ⟨rfl, rfl⟩
      | close => exact absurd List.mem_cons_self hstays
      | _ => simp [step, hs] at hstep

/-- The ways a run from within the loop can begin, for a consumer who stays. -/
inductive Begins (h : Handler σ ε ο) (s t : State σ ο) : List (Label ε) → Prop
  | nothing (ht : t = s) : Begins h s t []
  | handled {event : ε} {rest : List (Label ε)} (hbreaks : h.breaks event = false)
      (hrest : Lts.Run (step h) { s with
        own := (h.handle s.own event).1
        sent := s.sent ++ (h.handle s.own event).2 } rest t) : Begins h s t (.event event :: rest)
  /-- The event breaks, and the source has not returned yet. -/
  | broken {event : ε} (hbreaks : h.breaks event = true)
      (ht : t = { s with
        own := (h.handle s.own event).1
        phase := .leaving
        sent := s.sent ++ (h.handle s.own event).2 }) : Begins h s t [.event event]
  | left {event : ε} (hbreaks : h.breaks event = true)
      (ht : t = { s with
        own := (h.handle s.own event).1
        phase := .returned
        sent := s.sent ++ (h.handle s.own event).2 ++ h.finish }) : Begins h s t [.event event, .returned]
  | finished (ht : t = { s with phase := .returned, sent := s.sent ++ h.finish }) : Begins h s t [.finished]
  | threw (message : String) (ht : t = { s with phase := .returned, sent := s.sent ++ h.fail message }) :
      Begins h s t [.threw message]

/-- **Every run from within the loop begins one of these ways.** -/
theorem begins (hrun : Lts.Run (step h) s labels t) (hopen : s.closed = false) (hstays : .close ∉ labels)
    (hphase : s.phase = .pulling) : Begins h s t labels := by
  obtain ⟨own, phase, closed, sent⟩ := s
  obtain rfl : phase = .pulling := hphase
  obtain rfl : closed = false := hopen
  cases hrun with
  | nil => exact .nothing rfl
  | @cons _ u _ label rest hstep hrest =>
      rw [List.mem_cons, not_or] at hstays
      cases label with
      | event event =>
          simp only [step, if_true, Bool.false_eq_true, if_false] at hstep
          obtain rfl := Option.some.inj hstep
          cases hbreaks : h.breaks event with
          | false =>
              rw [hbreaks] at hrest
              exact .handled hbreaks hrest
          | true =>
              rw [hbreaks] at hrest
              rcases run_of_leaving hrest rfl hstays.2 with ⟨rfl, rfl⟩ | ⟨rfl, rfl⟩
              · exact .broken hbreaks rfl
              · exact .left hbreaks rfl
      | finished =>
          simp only [step, if_true] at hstep
          obtain rfl := Option.some.inj hstep
          obtain ⟨rfl, rfl⟩ := run_of_returned hrest rfl
          exact .finished rfl
      | threw message =>
          simp only [step, if_true] at hstep
          obtain rfl := Option.some.inj hstep
          obtain ⟨rfl, rfl⟩ := run_of_returned hrest rfl
          exact .threw message rfl
      | returned => simp [step] at hstep
      | close => exact absurd rfl hstays.1

/-- **The rule of the loop**, for a consumer who stays: what every beginning establishes, given that the rest of
    the run does, holds of the whole run. -/
theorem staying_rule {P : State σ ο → List (Label ε) → State σ ο → Prop}
    (hbegins : ∀ s labels t, s.closed = false → s.phase = .pulling → Begins h s t labels →
      (∀ event rest, labels = .event event :: rest → h.breaks event = false →
        P { s with own := (h.handle s.own event).1, sent := s.sent ++ (h.handle s.own event).2 } rest t) →
      P s labels t) :
    ∀ labels s t, Lts.Run (step h) s labels t → s.closed = false → .close ∉ labels → s.phase = .pulling →
      P s labels t := by
  intro labels
  induction labels with
  | nil =>
      intro s t hrun hopen hstays hphase
      exact hbegins s [] t hopen hphase (begins hrun hopen hstays hphase) fun _ _ heq => absurd heq (by simp)
  | cons label rest ih =>
      intro s t hrun hopen hstays hphase
      have hbegin := begins hrun hopen hstays hphase
      refine hbegins s (label :: rest) t hopen hphase hbegin ?_
      intro event rest' heq hbreaks
      obtain ⟨rfl, rfl⟩ := List.cons.inj heq
      cases hbegin with
      | handled _ hrest =>
          exact ih _ t hrest hopen (fun hmem => hstays (List.mem_cons_of_mem _ hmem)) hphase
      | broken hbroken =>
          rw [hbreaks] at hbroken
          cases hbroken
      | left hbroken =>
          rw [hbreaks] at hbroken
          cases hbroken

/-- **What a consumer who stays gets**: what the loop puts out for the events, and, once the handler has returned,
    what follows the loop. -/
theorem sent_of_staying (hrun : Lts.Run (step h) s labels t) (hopen : s.closed = false)
    (hstays : .close ∉ labels) (hphase : s.phase = .pulling) :
    t.sent = s.sent ++ outputs h s.own (events labels) ++
      if t.phase = .returned then ending h labels else [] := by
  refine staying_rule (P := fun s labels t => t.sent = s.sent ++ outputs h s.own (events labels) ++
    if t.phase = .returned then ending h labels else []) ?_ labels s t hrun hopen hstays hphase
  intro s labels t hopen hphase hbegin hmore
  cases hbegin with
  | nothing ht =>
      subst ht
      simp [hphase, events, outputs]
  | @handled event rest hbreaks hrest =>
      rw [hmore event rest rfl hbreaks]
      simp [events, outputs, hbreaks, ending, thrown]
  | broken hbreaks ht =>
      subst ht
      simp [events, outputs, hbreaks]
  | left hbreaks ht =>
      subst ht
      simp [events, outputs, hbreaks, ending, thrown]
  | finished ht =>
      subst ht
      simp [events, outputs, ending, thrown]
  | threw message ht =>
      subst ht
      simp [events, outputs, ending, thrown]

/-- A source that throws has given no event that breaks. -/
theorem not_breaks_of_thrown (hrun : Lts.Run (step h) s labels t) (hopen : s.closed = false)
    (hstays : .close ∉ labels) (hphase : s.phase = .pulling) {message : String}
    (hthrown : thrown labels = some message) : ∀ event ∈ events labels, h.breaks event = false := by
  refine staying_rule (P := fun _ labels _ => thrown labels = some message →
    ∀ event ∈ events labels, h.breaks event = false) ?_ labels s t hrun hopen hstays hphase hthrown
  intro s labels t hopen hphase hbegin hmore hthrown
  cases hbegin with
  | nothing => cases hthrown
  | @handled event rest hbreaks hrest =>
      intro e he
      rcases List.mem_cons.mp he with rfl | he
      · exact hbreaks
      · exact hmore event rest rfl hbreaks hthrown e he
  | broken => cases hthrown
  | left => cases hthrown
  | finished => cases hthrown
  | threw message => exact fun event he => absurd he List.not_mem_nil

/-- The handler returns behind the end of the source, a throw of it, or an event that breaks. -/
theorem returned_cases (hrun : Lts.Run (step h) s labels t) (hopen : s.closed = false)
    (hstays : .close ∉ labels) (hphase : s.phase = .pulling) (hreturned : t.phase = .returned) :
    .finished ∈ labels ∨ (thrown labels).isSome = true ∨ ∃ event ∈ events labels, h.breaks event = true := by
  refine staying_rule (P := fun _ labels t => t.phase = .returned → .finished ∈ labels ∨
    (thrown labels).isSome = true ∨ ∃ event ∈ events labels, h.breaks event = true) ?_ labels s t hrun hopen hstays
    hphase hreturned
  intro s labels t hopen hphase hbegin hmore hreturned
  cases hbegin with
  | nothing ht =>
      rw [ht, hphase] at hreturned
      cases hreturned
  | @handled event rest hbreaks hrest =>
      rcases hmore event rest rfl hbreaks hreturned with hfinished | hthrown | ⟨e, he, hbroken⟩
      · exact Or.inl (List.mem_cons_of_mem _ hfinished)
      · exact Or.inr (Or.inl hthrown)
      · exact Or.inr (Or.inr ⟨e, List.mem_cons_of_mem _ he, hbroken⟩)
  | broken hbreaks ht => exact Or.inr (Or.inr ⟨_, List.mem_cons_self, hbreaks⟩)
  | left hbreaks ht => exact Or.inr (Or.inr ⟨_, List.mem_cons_self, hbreaks⟩)
  | finished => exact Or.inl List.mem_cons_self
  | threw message => exact Or.inr (Or.inl rfl)

/-- **What a consumer who leaves gets**: what the loop has put out for the events before. -/
theorem sent_of_leaving {before after : List (Label ε)} (hrun : Lts.Run (step h) s (before ++ .close :: after) t)
    (hopen : s.closed = false) (hphase : s.phase = .pulling) :
    t.sent = s.sent ++ outputs h s.own (events before) := by
  obtain ⟨u, hbefore, hafter⟩ := hrun.split
  cases hafter with
  | @cons _ v _ _ _ hstep hrest =>
      simp only [step] at hstep
      split at hstep
      · cases hstep
      · rename_i hthere
        obtain rfl := Option.some.inj hstep
        rw [not_or] at hthere
        have hstays : .close ∉ before := fun hmem => hthere.2 (closed_of_mem hbefore hmem)
        rw [(sent_of_closed hrest rfl).2]
        show u.sent = _
        rw [sent_of_staying hbefore hopen hstays hphase, if_neg hthere.1, List.append_nil]

end Relay
