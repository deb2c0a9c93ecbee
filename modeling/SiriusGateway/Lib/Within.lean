import Mathlib.Data.List.Forall2

/-!
# `Lib.Within` — texts that appear in a string, in order

`String.Within texts s`: the texts stand in `s` one behind the other, with anything around and between them.
`AppearIn texts pieces` is the same for a list of strings, where no text spans two of them.
-/

namespace String

/-- The texts stand in the string, in their order. -/
inductive Within : List String → String → Prop
  | nil (s : String) : Within [] s
  | cons (before t after : String) {texts : List String} (h : Within texts after) :
      Within (t :: texts) (before ++ t ++ after)

namespace Within

variable {texts texts' : List String} {s s' : String}

/-- A string holds itself. -/
theorem self (s : String) : Within [s] s := by
  have h := cons "" s "" (nil "")
  rwa [String.empty_append, String.append_empty] at h

/-- What is in a string is in it behind another one. -/
theorem prepend (before : String) (h : Within texts s) : Within texts (before ++ s) := by
  cases h with
  | nil => exact nil _
  | cons b t a h =>
      rw [← String.append_assoc, ← String.append_assoc]
      exact cons (before ++ b) t a h

theorem append (h : Within texts s) (h' : Within texts' s') : Within (texts ++ texts') (s ++ s') := by
  induction h with
  | nil s => exact h'.prepend s
  | cons b t a _ ih =>
      rw [String.append_assoc]
      exact cons b t (a ++ s') ih

/-- The empty string holds empty texts only. -/
theorem eq_empty {t : String} (h : Within (t :: texts) s) (hs : s = "") : t = "" := by
  cases h with
  | cons b t a _ => exact (String.append_eq_empty_iff.mp (String.append_eq_empty_iff.mp hs).1).2

/-- What is in the parts is in the parts joined. -/
theorem intercalate (sep : String) {groups : List (List String)} {parts : List String}
    (h : List.Forall₂ Within groups parts) : Within groups.flatten (sep.intercalate parts) := by
  induction h with
  | nil => exact nil _
  | @cons group part groups parts hgroup _ ih =>
      rw [List.flatten_cons]
      cases parts with
      | nil =>
          rw [String.intercalate_singleton]
          have h := hgroup.append ih
          rwa [String.intercalate_nil, String.append_empty] at h
      | cons next parts =>
          rw [String.intercalate_cons_cons, String.append_assoc]
          exact hgroup.append (ih.prepend sep)

end Within

/-! ## Several pieces -/

/-- The texts stand in the pieces, in their order. -/
def AppearIn (texts pieces : List String) : Prop :=
  ∃ groups : List (List String), groups.flatten = texts ∧ List.Forall₂ Within groups pieces

namespace AppearIn

variable {texts texts' pieces pieces' : List String}

theorem nil : AppearIn [] [] := ⟨[], rfl, .nil⟩

theorem single {s : String} (h : Within texts s) : AppearIn texts [s] :=
  ⟨[texts], List.flatten_singleton, .cons h .nil⟩

theorem append (h : AppearIn texts pieces) (h' : AppearIn texts' pieces') :
    AppearIn (texts ++ texts') (pieces ++ pieces') := by
  obtain ⟨groups, rfl, hgroups⟩ := h
  obtain ⟨groups', rfl, hgroups'⟩ := h'
  exact ⟨groups ++ groups', List.flatten_append, List.rel_append hgroups hgroups'⟩

/-- In no piece there is no text. -/
theorem nil_iff : AppearIn texts [] ↔ texts = [] := by
  constructor
  · rintro ⟨groups, rfl, hgroups⟩
    cases hgroups
    rfl
  · rintro rfl
    exact nil

end AppearIn

end String
