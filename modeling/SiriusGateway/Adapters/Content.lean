import SiriusGateway.Core.Types
import SiriusGateway.Lib.Succeeds

/-!
# `Adapters.Content` — message content under the mappers

Every mapper walks `msg.content` with `map`, `filter` or `for … of` and reads `part.type`, so it throws on
content that is no array and on a `null` part. The walks the mappers share are here, with the condition
under which each goes through.

## Contents
- **Walks.** `filterParts`, `joinTexts`, `mapContent`.
- **Conditions.** `Parts` (an array without `null`), `IsContent`, `Printable`, `TextsPrint`.
- **Wire values.** `OptString`, `OptNumber`, `OptItems`, and `readTable` for the adapters' tables.
-/

namespace Sirius

open Js

/-! ## Conditions -/

/-- The value is an array without a `null` element. -/
def Parts (content : JsValue) (parts : List Json) : Prop :=
  content = .json (.arr parts) ∧ Json.null ∉ parts

/-- The content is a string, or an array without a `null` element. -/
def IsContent (content : JsValue) : Prop :=
  (∃ s, content = .json (.str s)) ∨ ∃ parts, Parts content parts

/-- `ToString` does not throw on the value. -/
def Printable (v : JsValue) : Prop := v.toStr.Succeeds

/-- The `type` of a content part. -/
def HasType (part : Json) (type : String) : Prop := part.prop "type" = .json (.str type)

instance (part : Json) (type : String) : Decidable (HasType part type) :=
  inferInstanceAs (Decidable (_ = _))

/-- What has a type is no `null`. -/
theorem HasType.ne_null {part : Json} {type : String} (h : HasType part type) : part ≠ .null := by
  rintro rfl
  cases h

/-- What has a type has no other. -/
theorem HasType.ne {part : Json} {type other : String} (h : HasType part type) (hne : type ≠ other) :
    ¬HasType part other :=
  fun h' => hne (Json.str.inj (JsValue.json.inj (h.symm.trans h')))

/-- What has a type is truthy: it is an object. -/
theorem HasType.truthy {j : Json} {type : String} (h : HasType j type) : j.truthy = true := by
  cases j with
  | obj fields => rfl
  | arr items => rfl
  | str s => simp [HasType, Json.prop] at h
  | null => cases h
  | bool b => cases h
  | num q => cases h

/-- The texts of the content's text parts print. -/
def TextsPrint (content : JsValue) : Prop :=
  ∀ parts, content = .json (.arr parts) →
    ∀ part ∈ parts, HasType part "text" → Printable (part.prop "text")

/-! ## Property reads and `ToString` -/

theorem getProp_json {part : Json} (key : String) (h : part ≠ .null) :
    getProp (.json part) key = .ok (part.prop key) := by
  cases part <;> first | rfl | exact absurd rfl h

theorem succeeds_getProp_iff {part : Json} {key : String} :
    (getProp (.json part) key).Succeeds ↔ part ≠ .null := by
  constructor
  · rintro ⟨v, h⟩ rfl
    cases h
  · intro h
    exact ⟨_, getProp_json key h⟩

theorem arrayOf_eq_ok_iff {expr method : String} {v : JsValue} {items : List Json} :
    arrayOf expr method v = .ok items ↔ v = .json (.arr items) := by
  constructor
  · intro h
    unfold arrayOf at h
    split at h
    · rw [Except.ok.inj h]
    · cases hprop : getProp v method <;> simp [hprop, Except.bind] at h
  · rintro rfl
    rfl

/-- An array has a truthy length when it is not empty. -/
theorem truthy_length_iff {items : List Json} :
    (optProp (.json (.arr items)) "length").truthy = true ↔ items ≠ [] := by
  cases items with
  | nil => exact iff_of_false (by decide) fun h => h rfl
  | cons item rest =>
      have hpos : ((rest.length + 1 : Nat) : Rat) ≠ 0 := fun h => Nat.succ_ne_zero _ (Rat.natCast_inj.mp h)
      exact iff_of_true (decide_eq_true hpos) (List.cons_ne_nil item rest)

/-- `for … of` over what is no string wants an array. -/
theorem iterate_eq_ok_iff {expr : String} {v : JsValue} {items : List Json}
    (hstr : ∀ s, v ≠ .json (.str s)) : iterate expr v = .ok items ↔ v = .json (.arr items) := by
  constructor
  · intro h
    unfold iterate at h
    split at h
    · rw [Except.ok.inj h]
    · exact absurd rfl (hstr _)
    · cases h
  · rintro rfl
    rfl

/-- A missing value prints as some text, so a default in its place changes nothing. -/
theorem printable_orElse {v : JsValue} {s : String} :
    Printable (v.orElse (.json (.str s))) ↔ Printable v := by
  unfold Printable JsValue.orElse
  split
  · rename_i h
    refine ⟨fun _ => ?_, fun _ => ⟨s, rfl⟩⟩
    unfold JsValue.isNullish at h
    split at h
    · exact ⟨_, rfl⟩
    · exact ⟨_, rfl⟩
    · cases h
  · exact Iff.rfl

theorem succeeds_joinElem_iff {v : JsValue} : (joinElem v).Succeeds ↔ Printable v := by
  unfold joinElem
  split
  · rename_i h
    refine ⟨fun _ => ?_, fun _ => ⟨"", rfl⟩⟩
    unfold JsValue.isNullish at h
    split at h
    · exact ⟨_, rfl⟩
    · exact ⟨_, rfl⟩
    · cases h
  · exact Iff.rfl

theorem succeeds_join_iff {sep : String} {values : List JsValue} :
    (join sep values).Succeeds ↔ ∀ v ∈ values, Printable v := by
  unfold join
  rw [Except.succeeds_map_iff, Except.succeeds_mapM_iff]
  exact forall₂_congr fun v _ => succeeds_joinElem_iff

/-! ## Optional properties of the wire format -/

/-- An optional string. -/
def OptString (v : JsValue) : Prop := v.isNullish = true ∨ ∃ s, v = .json (.str s)

/-- An optional number. -/
def OptNumber (v : JsValue) : Prop := v.isNullish = true ∨ ∃ q, v = .json (.num q)

/-- An optional array of objects. -/
def OptItems (v : JsValue) : Prop := v.isNullish = true ∨ ∃ items, Parts v items

theorem OptNumber.orElse {v w : JsValue} (hv : OptNumber v) (hw : OptNumber w) : OptNumber (v.orElse w) := by
  unfold JsValue.orElse
  split
  · exact hw
  · exact hv

/-- Optional numbers add up to something. -/
theorem OptNumber.succeeds_add {v w : JsValue} (hv : OptNumber v) (hw : OptNumber w) :
    (v.add w).Succeeds := by
  have hcases : ∀ {u : JsValue}, OptNumber u →
      u = .undefined ∨ u = .json .null ∨ ∃ q, u = .json (.num q) := by
    rintro u (hnull | ⟨q, rfl⟩)
    · unfold JsValue.isNullish at hnull
      split at hnull
      · exact Or.inl rfl
      · exact Or.inr (Or.inl rfl)
      · cases hnull
    · exact Or.inr (Or.inr ⟨q, rfl⟩)
  rcases hcases hv with rfl | rfl | ⟨p, rfl⟩ <;> rcases hcases hw with rfl | rfl | ⟨q, rfl⟩ <;>
    exact ⟨_, rfl⟩

theorem OptString.of_truthy {v : JsValue} (h : OptString v) (ht : v.truthy = true) :
    ∃ s, v = .json (.str s) := by
  rcases h with hnull | h
  · rw [isNullish_of_truthy ht] at hnull
    cases hnull
  · exact h

theorem OptItems.of_truthy {v : JsValue} (h : OptItems v) (ht : v.truthy = true) :
    ∃ items, Parts v items := by
  rcases h with hnull | h
  · rw [isNullish_of_truthy ht] at hnull
    cases hnull
  · exact h

/-! ## Tables -/

/-- The members every plain object inherits, with their text. -/
def inheritedMembers : List (String × String) :=
  ["constructor", "hasOwnProperty", "isPrototypeOf", "propertyIsEnumerable", "toLocaleString", "toString",
    "valueOf", "__defineGetter__", "__defineSetter__", "__lookupGetter__", "__lookupSetter__"].map
      (fun name => (name, s!"function {name}() \x7b [native code] \x7d")) ++
    [("__proto__", "[object Object]")]

/-- `TABLE[raw] ?? fallback` for a table of strings. An inherited member is found too; its text stands
    for it. -/
def readTable (table : List (String × String)) (fallback : String) (raw : JsValue) : Throws String :=
  raw.toStr.map fun key =>
    ((table ++ inheritedMembers).find? (fun e => e.1 = key)).elim fallback (·.2)

/-! ## Walks -/

/-- `parts.filter((p) => p.type === type)`. -/
def filterParts (type : String) : List Json → Throws (List Json)
  | [] => .ok []
  | part :: rest => do
      let partType ← getProp (.json part) "type"
      let kept ← filterParts type rest
      return if partType.isStr type then part :: kept else kept

/-- The filter reads a property of every part. -/
theorem filterParts_eq_ok_iff {type : String} {parts kept : List Json} :
    filterParts type parts = .ok kept ↔
      Json.null ∉ parts ∧ kept = parts.filter fun part => decide (HasType part type) := by
  induction parts generalizing kept with
  | nil =>
      refine ⟨fun h => ⟨List.not_mem_nil, (Except.ok.inj h).symm⟩, ?_⟩
      rintro ⟨-, rfl⟩
      rfl
  | cons part rest ih =>
      unfold filterParts
      simp only [Except.bind_eq_ok_iff, ih]
      by_cases hnull : part = .null
      · subst hnull
        refine ⟨fun ⟨_, h, _⟩ => (nomatch h), fun h => absurd List.mem_cons_self h.1⟩
      · have hkeep : ∀ more : List Json,
            (if (part.prop "type").isStr type = true then part :: more else more) =
              if HasType part type then part :: more else more := by
          intro more
          by_cases htype : HasType part type
          · rw [if_pos (isStr_iff.mpr htype), if_pos htype]
          · rw [if_neg fun h => htype (isStr_iff.mp h), if_neg htype]
        rw [getProp_json "type" hnull, List.filter_cons]
        simp only [decide_eq_true_eq, List.mem_cons, not_or, ← hkeep]
        constructor
        · rintro ⟨_, hread, _, ⟨hrest, rfl⟩, h⟩
          obtain rfl := Except.ok.inj hread
          exact ⟨⟨Ne.symm hnull, hrest⟩, (Except.ok.inj h).symm⟩
        · rintro ⟨⟨-, hrest⟩, rfl⟩
          exact ⟨_, rfl, _, ⟨hrest, rfl⟩, rfl⟩

/-- `content.filter((p) => p.type === 'text').map((p) => p.text ?? '').join(sep)`. -/
def joinTexts (sep : String) (content : JsValue) : Throws String := do
  let parts ← arrayOf "msg.content" "filter" content
  let texts ← filterParts "text" parts
  join sep (texts.map fun part => (part.prop "text").orElse (.json (.str "")))

/-- **Joining the texts** goes through on an array without `null` whose texts print. -/
theorem succeeds_joinTexts_iff {sep : String} {content : JsValue} :
    (joinTexts sep content).Succeeds ↔ (∃ parts, Parts content parts) ∧ TextsPrint content := by
  unfold joinTexts
  simp only [Except.succeeds_bind_iff, arrayOf_eq_ok_iff, filterParts_eq_ok_iff, succeeds_join_iff]
  constructor
  · rintro ⟨parts, rfl, kept, ⟨hnull, rfl⟩, hprint⟩
    refine ⟨⟨parts, rfl, hnull⟩, ?_⟩
    intro parts' heq part hmem htype
    cases heq
    refine printable_orElse.mp (hprint _ (List.mem_map.mpr ⟨part, ?_, rfl⟩))
    exact List.mem_filter.mpr ⟨hmem, decide_eq_true htype⟩
  · rintro ⟨⟨parts, rfl, hnull⟩, hprint⟩
    refine ⟨parts, rfl, _, ⟨hnull, rfl⟩, ?_⟩
    intro v hv
    obtain ⟨part, hmem, rfl⟩ := List.mem_map.mp hv
    obtain ⟨hmem, htype⟩ := List.mem_filter.mp hmem
    exact printable_orElse.mpr (hprint parts rfl part hmem (of_decide_eq_true htype))

/-- `typeof content === 'string' ? content : expr.map(f)`, where `expr` is the content. -/
def mapContent {α : Type} (expr : String) (f : Json → Throws α) (content : JsValue) :
    Throws (String ⊕ List α) :=
  match content with
  | .json (.str s) => .ok (.inl s)
  | content => do
      let parts ← arrayOf expr "map" content
      return .inr (← parts.mapM f)

/-- **Mapping the parts** goes through on content whose parts the function accepts. -/
theorem succeeds_mapContent_iff {α : Type} {expr : String} {f : Json → Throws α} {content : JsValue}
    (hf : ∀ part, (f part).Succeeds ↔ part ≠ .null) :
    (mapContent expr f content).Succeeds ↔ IsContent content := by
  unfold mapContent IsContent
  split
  · exact ⟨fun _ => Or.inl ⟨_, rfl⟩, fun _ => ⟨_, rfl⟩⟩
  · rename_i hstr
    simp only [Except.succeeds_bind_iff, arrayOf_eq_ok_iff]
    constructor
    · rintro ⟨parts, rfl, mapped, hmapped, -⟩
      refine Or.inr ⟨parts, rfl, fun hnull => ?_⟩
      exact (hf .null).mp (Except.succeeds_mapM_iff.mp ⟨mapped, hmapped⟩ _ hnull) rfl
    · rintro (⟨s, rfl⟩ | ⟨parts, rfl, hnull⟩)
      · exact absurd rfl (hstr s)
      · obtain ⟨mapped, hmapped⟩ := Except.succeeds_mapM_iff.mpr fun part hmem =>
          (hf part).mpr fun h => hnull (h ▸ hmem)
        exact ⟨parts, rfl, mapped, hmapped, ⟨_, rfl⟩⟩

end Sirius
