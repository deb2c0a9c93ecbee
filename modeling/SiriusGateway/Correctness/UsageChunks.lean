import SiriusGateway.Adapters.OpenAi
import SiriusGateway.Gateway.Controllers

/-!
# `Correctness.UsageChunks` — the usage chunk of a chat stream

OpenAI ends a stream with one chunk of usage and no choices, and only if the request asks for it
(`UsageAsOpenAi`). The controller writes such a chunk for every usage event it pulls, so what its client is
sent follows that rule exactly when the events do (`usageAsOpenAi_iff`).

## Contents
- **Usage last.** `UsageLast`, on a list that says of each entry whether it is usage.
- **Frames.** `Frame.sign`, and the rule on frames.
- **The loop.** `handled`: the events the loop gets to write; their signs are the signs of the frames.
-/

namespace Sirius

open Js Compat

/-! ## Usage last -/

/-- Usage (`true`) stands nowhere but in the last place, and there only if it was asked for. -/
def UsageLast (asked : Bool) (signs : List Bool) : Prop :=
  ∀ before after, signs = before ++ true :: after → asked = true ∧ after = []

variable {asked : Bool} {signs : List Bool}

theorem usageLast_of_not_mem (h : true ∉ signs) : UsageLast asked signs := by
  intro before after heq
  exact absurd (heq ▸ List.mem_append_right before List.mem_cons_self) h

/-- Followed by anything, usage is not last. -/
theorem usageLast_concat_iff : UsageLast asked (signs ++ [false]) ↔ true ∉ signs := by
  constructor
  · intro h hmem
    obtain ⟨before, after, rfl⟩ := List.append_of_mem hmem
    have heq : before ++ true :: after ++ [false] = before ++ true :: (after ++ [false]) := by simp
    exact absurd (h before (after ++ [false]) heq).2 (by simp)
  · intro h
    apply usageLast_of_not_mem
    simp [h]

theorem UsageLast.of_prefix {shown : List Bool} (h : UsageLast asked signs) (hshown : shown <+: signs) :
    UsageLast asked shown := by
  obtain ⟨more, rfl⟩ := hshown
  intro before after heq
  have hcut : shown ++ more = before ++ true :: (after ++ more) := by
    rw [heq]
    simp
  obtain ⟨hasked, hnil⟩ := h before (after ++ more) hcut
  exact ⟨hasked, (List.append_eq_nil_iff.mp hnil).1⟩

theorem UsageLast.count_le_one (h : UsageLast asked signs) : signs.count true ≤ 1 := by
  by_cases hmem : true ∈ signs
  · obtain ⟨before, after, rfl⟩ := List.append_of_mem hmem
    have hbefore : true ∉ before := by
      intro hagain
      obtain ⟨first, more, rfl⟩ := List.append_of_mem hagain
      have heq : first ++ true :: more ++ true :: after = first ++ true :: (more ++ true :: after) := by simp
      exact absurd (h first _ heq).2 (by simp)
    rw [(h before after rfl).2, List.count_append, List.count_eq_zero.mpr hbefore]
    simp
  · rw [List.count_eq_zero.mpr hmem]
    exact Nat.zero_le 1

/-! ## Frames -/

/-- The first choice of a frame. -/
def Frame.choice : Frame → JsValue
  | .data value => first (value.prop "choices")
  | .sentinel => .undefined

/-- The frame is a chunk with an empty `choices` array. -/
def Frame.isUsage : Frame → Bool
  | .data value => decide (value.prop "choices" = .json (.arr []))
  | .sentinel => false

/-- The frame is a content, tool call or `finish_reason` chunk. -/
def Frame.isOutput (frame : Frame) : Bool :=
  (optProp (optProp frame.choice "delta") "content").isDefined ||
    (optProp (optProp frame.choice "delta") "tool_calls").isDefined ||
    (frame.choice.isDefined && decide (optProp frame.choice "finish_reason" ≠ .json .null))

/-- **The rule**: no usage chunk unless it was asked for, at most one, and after it neither content nor a
    tool call nor a finish reason. -/
structure UsageAsOpenAi (asked : Bool) (frames : List Frame) : Prop where
  asked : ∀ frame ∈ frames, frame.isUsage = true → asked = true
  once : frames.countP Frame.isUsage ≤ 1
  last : ∀ before frame after, frames = before ++ frame :: after → frame.isUsage = true →
    ∀ frame' ∈ after, frame'.isOutput = false

/-- What the frame is to the rule: a usage chunk, an output chunk, or neither. -/
def Frame.sign (frame : Frame) : Option Bool :=
  if frame.isUsage then some true else if frame.isOutput then some false else none

theorem sign_eq_true_iff {frame : Frame} : frame.sign = some true ↔ frame.isUsage = true := by
  unfold Frame.sign
  split
  · simp_all
  · split <;> simp_all

theorem sign_eq_none_iff {frame : Frame} :
    frame.sign = none ↔ frame.isUsage = false ∧ frame.isOutput = false := by
  unfold Frame.sign
  cases frame.isUsage <;> cases frame.isOutput <;> simp

theorem countP_isUsage (frames : List Frame) :
    frames.countP Frame.isUsage = (frames.filterMap Frame.sign).count true := by
  rw [List.count, List.countP_filterMap]
  apply List.countP_congr
  intro frame _
  rw [← sign_eq_true_iff]
  cases frame.sign <;> simp

/-- **The rule is about the signs.** -/
theorem usageAsOpenAi_iff_signs {frames : List Frame} :
    UsageAsOpenAi asked frames ↔ UsageLast asked (frames.filterMap Frame.sign) := by
  constructor
  · intro h before after heq
    obtain ⟨l, r, rfl, -, hr⟩ := List.filterMap_eq_append_iff.mp heq
    obtain ⟨silent, frame, more, rfl, -, hframe, hmore⟩ := List.filterMap_eq_cons_iff.mp hr
    rw [sign_eq_true_iff] at hframe
    refine ⟨h.asked frame (by simp) hframe, ?_⟩
    rw [← hmore, List.filterMap_eq_nil_iff]
    intro frame' hframe'
    have houtput := h.last (l ++ silent) frame more (by simp) hframe frame' hframe'
    -- a second usage chunk would be one too many
    have husage : frame'.isUsage = false := by
      by_contra hagain
      rw [Bool.not_eq_false] at hagain
      have hcount := h.once
      have hpos : 0 < more.countP Frame.isUsage := List.countP_pos_iff.mpr ⟨frame', hframe', hagain⟩
      rw [List.countP_append, List.countP_append, List.countP_cons_of_pos hframe] at hcount
      omega
    exact sign_eq_none_iff.mpr ⟨husage, houtput⟩
  · intro h
    have hcut : ∀ before frame after, frames = before ++ frame :: after → frame.isUsage = true →
        asked = true ∧ after.filterMap Frame.sign = [] := by
      intro before frame after heq husage
      apply h (before.filterMap Frame.sign)
      rw [heq, List.filterMap_append, List.filterMap_cons_some (sign_eq_true_iff.mpr husage)]
    refine ⟨?_, ?_, ?_⟩
    · intro frame hframe husage
      obtain ⟨before, after, heq⟩ := List.append_of_mem hframe
      exact (hcut before frame after heq husage).1
    · rw [countP_isUsage]
      exact h.count_le_one
    · intro before frame after heq husage frame' hframe'
      have hnone := List.filterMap_eq_nil_iff.mp (hcut before frame after heq husage).2 frame' hframe'
      exact (sign_eq_none_iff.mp hnone).2

/-! ## The loop -/

/-- The event is a usage event. -/
def UnifiedStreamEvent.isUsage : UnifiedStreamEvent → Bool
  | .usage _ => true
  | _ => false

/-- The events the loop gets to write: those before the connection was closed, up to the first error. -/
def handled : List Pulled → List UnifiedStreamEvent
  | [] => []
  | p :: rest =>
      if p.aborted then []
      else
        match p.event with
        | .error message code => [.error message code]
        | event => event :: handled rest

theorem handled_starts (pulled : List Pulled) : handled pulled <+: pulled.map (·.event) := by
  induction pulled with
  | nil => exact List.prefix_rfl
  | cons p rest ih =>
      obtain ⟨event, aborted⟩ := p
      rw [handled]
      split
      · exact List.nil_prefix
      · cases event with
        | error message code => exact List.cons_prefix_cons.mpr ⟨rfl, List.nil_prefix⟩
        | contentDelta delta => exact List.cons_prefix_cons.mpr ⟨rfl, ih⟩
        | toolCallDelta index id name argumentsDelta => exact List.cons_prefix_cons.mpr ⟨rfl, ih⟩
        | usage usage => exact List.cons_prefix_cons.mpr ⟨rfl, ih⟩
        | done finishReason => exact List.cons_prefix_cons.mpr ⟨rfl, ih⟩

/-- A client that stays has all events written that have no error before them. -/
theorem handled_of_staying {events : List UnifiedStreamEvent} (last : List UnifiedStreamEvent)
    (h : ∀ e ∈ events, ∀ message code, e ≠ .error message code) :
    handled ((events ++ last).map fun e => ⟨e, false⟩) = events ++ handled (last.map fun e => ⟨e, false⟩) := by
  induction events with
  | nil => rfl
  | cons event rest ih =>
      obtain ⟨hevent, hrest⟩ := List.forall_mem_cons.mp h
      rw [List.cons_append, List.map_cons, handled, ih hrest]
      cases event with
      | error message code => exact absurd rfl (hevent message code)
      | contentDelta delta => rfl
      | toolCallDelta index id name argumentsDelta => rfl
      | usage usage => rfl
      | done finishReason => rfl

section Loop

variable (clock : Nat → Nat) (responseId : String) (model : Json)

theorem sign_firstChunk (created : Nat) :
    (Frame.data (formatFirstStreamChunk created responseId model)).sign = none := by
  apply sign_eq_none_iff.mpr
  constructor
  · simp [Frame.isUsage, formatFirstStreamChunk, streamChunk, streamChoice]
  · simp [Frame.isOutput, Frame.choice, formatFirstStreamChunk, streamChunk, streamChoice, first,
      JsValue.isDefined]

theorem sign_errorChunk (created : Nat) :
    (Frame.data (errorChunk responseId model created)).sign = some false := by
  simp [Frame.sign, Frame.isUsage, Frame.isOutput, Frame.choice, errorChunk, streamChunk, streamChoice,
    first, JsValue.isDefined]

theorem sign_formatError (status : Nat) (message : String) :
    (Frame.data (formatError status message)).sign = none := by
  simp [Frame.sign, Frame.isUsage, Frame.isOutput, Frame.choice, formatError, first, JsValue.isDefined,
    optProp]

/-- A finish reason is never `null`. -/
theorem toOpenAiFinishReason_ne_null (reason : String) :
    (toOpenAiFinishReason reason).onWire.elim JsValue.undefined JsValue.json ≠ JsValue.json .null := by
  unfold toOpenAiFinishReason
  split
  · simp
  · split
    · simp
    · split <;> simp [JsValue.onWire]

/-- **The chunk of an event is usage if the event is, and output otherwise.** -/
theorem signs_formatStreamChunk (created : Nat) {event : UnifiedStreamEvent} (htyped : event.wellTyped = true)
    (herror : ∀ message code, event ≠ .error message code) :
    (((formatStreamChunk created event responseId model).map Frame.data).toList).filterMap Frame.sign =
      [event.isUsage] := by
  cases event with
  | error message code => exact absurd rfl (herror message code)
  | contentDelta delta =>
      have hdelta : ∃ s, delta = .json (.str s) := by
        unfold UnifiedStreamEvent.wellTyped at htyped
        split at htyped <;> simp_all
      obtain ⟨s, rfl⟩ := hdelta
      simp [formatStreamChunk, Frame.sign, Frame.isUsage, Frame.isOutput, Frame.choice, streamChunk,
        streamChoice, first, JsValue.isDefined, UnifiedStreamEvent.isUsage]
  | toolCallDelta index id name argumentsDelta =>
      simp [formatStreamChunk, Frame.sign, Frame.isUsage, Frame.isOutput, Frame.choice, streamChunk,
        streamChoice, first, JsValue.isDefined, UnifiedStreamEvent.isUsage]
  | usage usage =>
      simp [formatStreamChunk, Frame.sign, Frame.isUsage, streamChunk, UnifiedStreamEvent.isUsage]
  | done finishReason =>
      have hreason := toOpenAiFinishReason_ne_null finishReason
      simp [formatStreamChunk, Frame.sign, Frame.isUsage, Frame.isOutput, Frame.choice, streamChunk,
        streamChoice, first, JsValue.isDefined, UnifiedStreamEvent.isUsage, hreason]

/-- **The signs of the frames are those of the events**: neither the role chunk nor what follows the loop
    counts. -/
theorem signs_chatLoop {pulled : List Pulled} (htyped : ∀ p ∈ pulled, p.event.wellTyped = true)
    (firstChunkEmitted : Bool) (k : Nat) :
    (chatLoop clock responseId model firstChunkEmitted k pulled).filterMap Frame.sign =
      (handled pulled).map (·.isUsage) := by
  induction pulled generalizing firstChunkEmitted k with
  | nil => rfl
  | cons p rest ih =>
      obtain ⟨hp, hrest⟩ := List.forall_mem_cons.mp htyped
      obtain ⟨event, aborted⟩ := p
      rw [chatLoop, handled]
      split
      · rfl
      · have hevent : ∀ event, event.wellTyped = true → (∀ message code, event ≠ .error message code) →
            (if !firstChunkEmitted && event.isDelta then
              .data (formatFirstStreamChunk (clock k) responseId model) ::
                ((formatStreamChunk (clock (k + 1)) event responseId model).map Frame.data).toList ++
                  chatLoop clock responseId model true (k + 2) rest
            else
              ((formatStreamChunk (clock k) event responseId model).map Frame.data).toList ++
                chatLoop clock responseId model firstChunkEmitted (k + 1) rest).filterMap Frame.sign =
              event.isUsage :: (handled rest).map (·.isUsage) := by
          intro event hp herror
          split
          · rw [List.cons_append, List.filterMap_cons_none (sign_firstChunk ..), List.filterMap_append,
              signs_formatStreamChunk _ _ _ hp herror, ih hrest]
            rfl
          · rw [List.filterMap_append, signs_formatStreamChunk _ _ _ hp herror, ih hrest]
            rfl
        cases event with
        | error message code =>
            show [_].filterMap Frame.sign = [_]
            rw [List.filterMap_cons_some (sign_errorChunk ..)]
            rfl
        | contentDelta delta => exact hevent _ hp nofun
        | toolCallDelta index id name argumentsDelta => exact hevent _ hp nofun
        | usage usage => exact hevent _ hp nofun
        | done finishReason => exact hevent _ hp nofun

/-- **What the client is sent follows the rule exactly when the events do.** -/
theorem usageAsOpenAi_iff {pulled : List Pulled} (htyped : ∀ p ∈ pulled, p.event.wellTyped = true)
    (ending : LoopEnd) :
    UsageAsOpenAi asked (chatCompletionsStream clock responseId model pulled ending) ↔
      UsageLast asked ((handled pulled).map (·.isUsage)) := by
  have hsentinel : Frame.sentinel.sign = none := by decide
  have hending : (chatEnding ending).filterMap Frame.sign = [] := by
    cases ending with
    | left aborted => cases aborted <;> simp [chatEnding, hsentinel]
    | threw message destroyed => cases destroyed <;> simp [chatEnding, hsentinel, sign_formatError]
  unfold chatCompletionsStream
  rw [usageAsOpenAi_iff_signs, List.filterMap_append, hending, List.append_nil, signs_chatLoop _ _ _ htyped]

end Loop

end Sirius
