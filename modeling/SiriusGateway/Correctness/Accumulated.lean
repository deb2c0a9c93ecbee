import Mathlib.Data.List.Nodup
import SiriusGateway.Compat.Format

/-!
# `Correctness.Accumulated` — the answer a stream adds up to

A client of a stream appends the text deltas, merges the tool call deltas that share an index, and keeps the
last usage and finish reason it is told (`accumulate`). Two ways to deliver an answer are compared by it.

## Contents
- **Merging.** `MergedCall`, `mergeDelta`: the first delta of an index opens a call, later ones extend it.
- **The answer.** `Answer`, `accumulate`.
-/

namespace Sirius

open Js Compat

/-! ## Merging -/

/-- A tool call as its deltas make it up: the ids and names they carry, and their arguments in a row. -/
structure MergedCall where
  index : JsValue
  ids : List JsValue
  names : List JsValue
  arguments : String
  deriving DecidableEq

/-- The value, when there is one. -/
def carried (v : JsValue) : List JsValue := if v.isDefined then [v] else []

/-- The text of a delta. -/
def deltaText : JsValue → String
  | .json (.str s) => s
  | _ => ""

/-- The call with one more delta. -/
def MergedCall.extend (call : MergedCall) (id name argumentsDelta : JsValue) : MergedCall where
  index := call.index
  ids := call.ids ++ carried id
  names := call.names ++ carried name
  arguments := call.arguments ++ deltaText argumentsDelta

/-- The calls after one more delta. -/
def mergeDelta (calls : List MergedCall) (index id name argumentsDelta : JsValue) : List MergedCall :=
  if index ∈ calls.map (·.index) then
    calls.map fun call => if call.index = index then call.extend id name argumentsDelta else call
  else calls ++ [(⟨index, [], [], ""⟩ : MergedCall).extend id name argumentsDelta]

theorem mergeDelta_new {calls : List MergedCall} {index : JsValue} (h : index ∉ calls.map (·.index))
    (id name argumentsDelta : JsValue) :
    mergeDelta calls index id name argumentsDelta =
      calls ++ [⟨index, carried id, carried name, deltaText argumentsDelta⟩] := by
  unfold mergeDelta MergedCall.extend
  rw [if_neg h]
  simp

/-- A delta of the last call leaves the others as they are. -/
theorem mergeDelta_last {calls : List MergedCall} {call : MergedCall}
    (h : call.index ∉ calls.map (·.index)) (id name argumentsDelta : JsValue) :
    mergeDelta (calls ++ [call]) call.index id name argumentsDelta =
      calls ++ [call.extend id name argumentsDelta] := by
  have hmem : call.index ∈ (calls ++ [call]).map (·.index) := by simp
  have hsame : (calls.map fun c => if c.index = call.index then c.extend id name argumentsDelta else c) =
      calls := by
    conv_rhs => rw [← List.map_id calls]
    apply List.map_congr_left
    intro c hc
    have hne : c.index ≠ call.index := fun heq => h (heq ▸ List.mem_map_of_mem hc)
    rw [if_neg hne]
    rfl
  unfold mergeDelta
  rw [if_pos hmem, List.map_append, hsame]
  simp

/-- The indices after one more delta. -/
theorem indices_mergeDelta (calls : List MergedCall) (index id name argumentsDelta : JsValue) :
    (mergeDelta calls index id name argumentsDelta).map (·.index) =
      if index ∈ calls.map (·.index) then calls.map (·.index) else calls.map (·.index) ++ [index] := by
  unfold mergeDelta
  split
  · rw [List.map_map]
    apply List.map_congr_left
    intro call _
    show (if call.index = index then call.extend id name argumentsDelta else call).index = call.index
    split <;> rfl
  · rw [List.map_append]
    rfl

/-- Merging keeps the indices distinct. -/
theorem nodup_mergeDelta {calls : List MergedCall} (h : (calls.map (·.index)).Nodup)
    (index id name argumentsDelta : JsValue) :
    ((mergeDelta calls index id name argumentsDelta).map (·.index)).Nodup := by
  rw [indices_mergeDelta]
  split
  · exact h
  · rename_i hnew
    apply List.Nodup.append h (List.nodup_singleton index)
    intro i hi hindex
    rw [List.mem_singleton] at hindex
    exact hnew (hindex ▸ hi)

/-- All calls are numbered below `k`. -/
def Below (k : Nat) (calls : List MergedCall) : Prop :=
  ∀ call ∈ calls, ∃ i < k, call.index = .json (.num (i : Nat))

theorem Below.not_mem {k : Nat} {calls : List MergedCall} (h : Below k calls) :
    JsValue.json (.num k) ∉ calls.map (·.index) := by
  intro hmem
  obtain ⟨call, hcall, heq⟩ := List.mem_map.mp hmem
  obtain ⟨i, hi, hindex⟩ := h call hcall
  have hnum : (i : Rat) = k := by simpa using hindex.symm.trans heq
  have hik : i = k := by exact_mod_cast hnum
  omega

/-! ## The answer -/

/-- What a client has of a stream: text, tool calls in the order they were opened, the last finish reason
    and the last usage. -/
structure Answer where
  text : String
  calls : List MergedCall
  finishReason : Option String
  usage : Option UsageMetrics
  deriving DecidableEq

/-- The answer before any event. -/
def Answer.empty : Answer := ⟨"", [], none, none⟩

/-- The answer after one more event. -/
def Answer.add (answer : Answer) : UnifiedStreamEvent → Answer
  | .contentDelta delta => { answer with text := answer.text ++ deltaText delta }
  | .toolCallDelta index id name argumentsDelta =>
      { answer with calls := mergeDelta answer.calls index id name argumentsDelta }
  | .usage usage => { answer with usage := some usage }
  | .done finishReason => { answer with finishReason := some finishReason }
  | .error _ _ => answer

/-- The answer a list of events adds up to. -/
def accumulate (events : List UnifiedStreamEvent) : Answer := events.foldl Answer.add Answer.empty

@[simp] theorem accumulate_nil : accumulate [] = Answer.empty := rfl

/-- Text deltas append their texts. -/
theorem foldl_contentDeltas (fragments : List String) (answer : Answer) :
    (fragments.map fun s => UnifiedStreamEvent.contentDelta (.json (.str s))).foldl Answer.add answer =
      { answer with text := answer.text ++ "".intercalate fragments } := by
  induction fragments generalizing answer with
  | nil =>
      show answer = { answer with text := answer.text ++ "" }
      rw [String.append_empty]
  | cons s rest ih =>
      rw [List.map_cons, List.foldl_cons, ih, intercalate_cons]
      show ({ answer with text := answer.text ++ s ++ "".intercalate rest } : Answer) = _
      rw [String.append_assoc]

/-- Argument fragments extend the call that was opened last. -/
theorem foldl_argumentDeltas (fragments : List String) (answer : Answer) {calls : List MergedCall}
    {call : MergedCall} (h : call.index ∉ calls.map (·.index)) :
    (fragments.map fun s =>
        UnifiedStreamEvent.toolCallDelta call.index .undefined .undefined (.json (.str s))).foldl Answer.add
      { answer with calls := calls ++ [call] } =
      { answer with calls := calls ++ [{ call with arguments := call.arguments ++ "".intercalate fragments }] } := by
  induction fragments generalizing call with
  | nil =>
      show _ = { answer with calls := calls ++ [{ call with arguments := call.arguments ++ "" }] }
      rw [String.append_empty]
      rfl
  | cons s rest ih =>
      have hmerge := mergeDelta_last h .undefined .undefined (.json (.str s))
      have hextend : call.extend .undefined .undefined (.json (.str s)) =
          { call with arguments := call.arguments ++ s } := by
        unfold MergedCall.extend carried deltaText
        simp [JsValue.isDefined]
      rw [hextend] at hmerge
      rw [List.map_cons, List.foldl_cons, intercalate_cons]
      show List.foldl Answer.add { answer with calls := mergeDelta (calls ++ [call]) _ _ _ _ } _ = _
      rw [hmerge, ← String.append_assoc]
      exact @ih { call with arguments := call.arguments ++ s } h

end Sirius
