import Mathlib.Data.List.Nodup

/-!
# `Lib.JsMap` — insertion-ordered maps

The contract of a JavaScript `Map`: keys are distinct, iteration follows the order in which the keys
were *first* inserted, and re-setting a key replaces its value in place. Distinctness is a field of the
structure, so a map with a repeated key cannot be built.

## Contents
- **Operations.** `get`, `set`, `delete`, `keys`, `values`.
- **Point lemmas.** `get_set_self`/`get_set_ne`/`get_delete_self`/`get_delete_ne`.
- **Order lemmas.** `keys_set_of_mem`/`keys_set_of_not_mem`: where a `set` puts its key.
- **Entry lemmas.** `get_eq_some_iff` and the entries a `set` leaves behind (`mem_entries_set`).
- **Images.** `mapValues`, which commutes with every operation.
-/

/-- An insertion-ordered map: association list with distinct keys, oldest key first. -/
structure JsMap (κ ν : Type) where
  entries : List (κ × ν)
  nodup : (entries.map Prod.fst).Nodup

namespace JsMap

variable {κ ν : Type} [DecidableEq κ]

/-! ## The association-list layer -/

/-- Replace the value of `k` in place, or append the pair when `k` is new. -/
def setEntries (k : κ) (v : ν) : List (κ × ν) → List (κ × ν)
  | [] => [(k, v)]
  | e :: es => if e.1 = k then (k, v) :: es else e :: setEntries k v es

/-- The value of the first pair with key `k`. -/
def getEntries (k : κ) : List (κ × ν) → Option ν
  | [] => none
  | e :: es => if e.1 = k then some e.2 else getEntries k es

/-- Writing a key the list has leaves the keys and their order; a new key goes last. -/
theorem keys_setEntries (k : κ) (v : ν) (es : List (κ × ν)) :
    (setEntries k v es).map Prod.fst =
      if k ∈ es.map Prod.fst then es.map Prod.fst else es.map Prod.fst ++ [k] := by
  induction es with
  | nil => simp [setEntries]
  | cons e es ih =>
      by_cases he : e.1 = k
      · simp [setEntries, he]
      · have hk : ¬ k = e.1 := fun h => he h.symm
        by_cases hm : k ∈ es.map Prod.fst
        · simp only [setEntries, if_neg he, List.map_cons, ih, if_pos hm]
          rw [if_pos (List.mem_cons_of_mem _ hm)]
        · simp only [setEntries, if_neg he, List.map_cons, ih, if_neg hm]
          rw [if_neg (by simp only [List.mem_cons, not_or]; exact ⟨hk, hm⟩)]
          rfl

/-- Writing keeps every key unique. -/
theorem nodup_setEntries {k : κ} {v : ν} {es : List (κ × ν)} (h : (es.map Prod.fst).Nodup) :
    ((setEntries k v es).map Prod.fst).Nodup := by
  rw [keys_setEntries]
  by_cases hk : k ∈ es.map Prod.fst
  · rwa [if_pos hk]
  · rw [if_neg hk]
    exact h.append (List.nodup_singleton k) (by
      intro x hx hx'
      rw [List.mem_singleton] at hx'
      exact hk (hx' ▸ hx))

/-- A key reads back what was last written under it. -/
theorem getEntries_setEntries_self (k : κ) (v : ν) (es : List (κ × ν)) :
    getEntries k (setEntries k v es) = some v := by
  induction es with
  | nil => simp [setEntries, getEntries]
  | cons e es ih =>
      by_cases he : e.1 = k
      · simp [setEntries, getEntries, he]
      · simp [setEntries, getEntries, he, ih]

/-- Writing one key leaves every other key's value. -/
theorem getEntries_setEntries_ne {k k' : κ} (v : ν) (es : List (κ × ν)) (h : k' ≠ k) :
    getEntries k' (setEntries k v es) = getEntries k' es := by
  induction es with
  | nil => simp [setEntries, getEntries, h.symm]
  | cons e es ih =>
      by_cases he : e.1 = k
      · have hk : ¬ e.1 = k' := fun h' => h (h'.symm.trans he)
        simp [setEntries, getEntries, he, h.symm]
      · simp only [setEntries, if_neg he, getEntries, ih]

/-- A key reads nothing exactly when no entry has it. -/
theorem getEntries_eq_none_iff {k : κ} {es : List (κ × ν)} :
    getEntries k es = none ↔ k ∉ es.map Prod.fst := by
  induction es with
  | nil => simp [getEntries]
  | cons e es ih =>
      by_cases he : e.1 = k
      · simp [getEntries, he]
      · have hk : ¬ k = e.1 := fun h => he h.symm
        simp only [getEntries, if_neg he, ih, List.map_cons, List.mem_cons, not_or]
        exact ⟨fun h => ⟨hk, h⟩, fun h => h.2⟩

/-- What a key reads is the value of one of its entries. -/
theorem mem_of_getEntries {k : κ} {v : ν} {es : List (κ × ν)} (h : getEntries k es = some v) :
    (k, v) ∈ es := by
  induction es with
  | nil => simp [getEntries] at h
  | cons e es ih =>
      by_cases he : e.1 = k
      · simp only [getEntries, if_pos he, Option.some.injEq] at h
        subst h; subst he
        exact List.mem_cons_self
      · simp only [getEntries, if_neg he] at h
        exact List.mem_cons_of_mem _ (ih h)

/-- Where keys are unique, an entry is what its key reads. -/
theorem getEntries_of_mem {k : κ} {v : ν} {es : List (κ × ν)} (hn : (es.map Prod.fst).Nodup)
    (h : (k, v) ∈ es) : getEntries k es = some v := by
  induction es with
  | nil => simp at h
  | cons e es ih =>
      rw [List.map_cons, List.nodup_cons] at hn
      rcases List.mem_cons.mp h with he | ht
      · subst he; simp [getEntries]
      · have hne : e.1 ≠ k := fun he => hn.1 (he ▸ List.mem_map_of_mem (f := Prod.fst) ht)
        simp only [getEntries, if_neg hne]
        exact ih hn.2 ht

/-- The pairs after a `set`: the new one, and every old one under another key. -/
theorem mem_setEntries {k : κ} {v : ν} {es : List (κ × ν)} (hn : (es.map Prod.fst).Nodup)
    {e : κ × ν} : e ∈ setEntries k v es ↔ e = (k, v) ∨ (e ∈ es ∧ e.1 ≠ k) := by
  have hn' := nodup_setEntries (k := k) (v := v) hn
  obtain ⟨k', v'⟩ := e
  constructor
  · intro h
    have hg := getEntries_of_mem hn' h
    by_cases hk : k' = k
    · subst hk
      rw [getEntries_setEntries_self, Option.some.injEq] at hg
      exact Or.inl (by rw [hg])
    · rw [getEntries_setEntries_ne v es hk] at hg
      exact Or.inr ⟨mem_of_getEntries hg, hk⟩
  · rintro (h | ⟨h, hk⟩)
    · obtain ⟨rfl, rfl⟩ := Prod.mk.inj h
      exact mem_of_getEntries (getEntries_setEntries_self _ _ es)
    · refine mem_of_getEntries ?_
      rw [getEntries_setEntries_ne v es hk]
      exact getEntries_of_mem hn h

/-! ## The map interface -/

/-- `new Map()`. -/
def empty : JsMap κ ν := ⟨[], List.nodup_nil⟩

/-- `map.get(k)`. -/
def get (m : JsMap κ ν) (k : κ) : Option ν := getEntries k m.entries

/-- `map.set(k, v)`. -/
def set (m : JsMap κ ν) (k : κ) (v : ν) : JsMap κ ν :=
  ⟨setEntries k v m.entries, nodup_setEntries m.nodup⟩

/-- `map.delete(k)`. -/
def delete (m : JsMap κ ν) (k : κ) : JsMap κ ν :=
  ⟨m.entries.filter (fun e => e.1 ≠ k), m.nodup.sublist (List.filter_sublist.map Prod.fst)⟩

/-- `[...map.keys()]`. -/
def keys (m : JsMap κ ν) : List κ := m.entries.map Prod.fst

/-- `[...map.values()]`. -/
def values (m : JsMap κ ν) : List ν := m.entries.map Prod.snd

@[simp] theorem get_empty (k : κ) : (empty : JsMap κ ν).get k = none := rfl

@[simp] theorem get_set_self (m : JsMap κ ν) (k : κ) (v : ν) : (m.set k v).get k = some v :=
  getEntries_setEntries_self k v m.entries

/-- Setting one key leaves the others as they were. -/
theorem get_set_ne (m : JsMap κ ν) {k k' : κ} (v : ν) (h : k' ≠ k) :
    (m.set k v).get k' = m.get k' :=
  getEntries_setEntries_ne v m.entries h

/-- What a key reads after a write, in one equation. -/
theorem get_set (m : JsMap κ ν) (k k' : κ) (v : ν) :
    (m.set k v).get k' = if k' = k then some v else m.get k' := by
  by_cases h : k' = k
  · subst h; simp
  · rw [if_neg h, get_set_ne m v h]

/-- A key reads a value exactly when the map has that entry. -/
theorem get_eq_some_iff {m : JsMap κ ν} {k : κ} {v : ν} :
    m.get k = some v ↔ (k, v) ∈ m.entries :=
  ⟨mem_of_getEntries, getEntries_of_mem m.nodup⟩

theorem get_eq_none_iff {m : JsMap κ ν} {k : κ} : m.get k = none ↔ k ∉ m.keys :=
  getEntries_eq_none_iff

theorem mem_keys_iff {m : JsMap κ ν} {k : κ} : k ∈ m.keys ↔ ∃ v, m.get k = some v := by
  rw [← not_iff_not, ← get_eq_none_iff, not_exists]
  cases hg : m.get k with
  | none => simp
  | some v => simp

/-- The values of a map are what its keys read. -/
theorem mem_values_iff {m : JsMap κ ν} {v : ν} : v ∈ m.values ↔ ∃ k, m.get k = some v := by
  constructor
  · intro h
    obtain ⟨⟨k, v'⟩, he, rfl⟩ := List.mem_map.mp h
    exact ⟨k, get_eq_some_iff.mpr he⟩
  · rintro ⟨k, hk⟩
    exact List.mem_map.mpr ⟨(k, v), get_eq_some_iff.mp hk, rfl⟩

/-- After a write the entries are the new one and the old ones of other keys. -/
theorem mem_entries_set {m : JsMap κ ν} {k : κ} {v : ν} {e : κ × ν} :
    e ∈ (m.set k v).entries ↔ e = (k, v) ∨ (e ∈ m.entries ∧ e.1 ≠ k) :=
  mem_setEntries m.nodup

/-- Re-setting a present key keeps every position. -/
theorem keys_set_of_mem {m : JsMap κ ν} {k : κ} (v : ν) (h : k ∈ m.keys) :
    (m.set k v).keys = m.keys := by
  have hk := keys_setEntries k v m.entries
  rw [if_pos (show k ∈ m.entries.map Prod.fst from h)] at hk
  exact hk

/-- A new key goes last. -/
theorem keys_set_of_not_mem {m : JsMap κ ν} {k : κ} (v : ν) (h : k ∉ m.keys) :
    (m.set k v).keys = m.keys ++ [k] := by
  have hk := keys_setEntries k v m.entries
  rw [if_neg (show k ∉ m.entries.map Prod.fst from h)] at hk
  exact hk

/-- A `set` never moves an old key: the old keys stay a prefix of the new ones. -/
theorem keys_prefix_set (m : JsMap κ ν) (k : κ) (v : ν) : m.keys <+: (m.set k v).keys := by
  by_cases h : k ∈ m.keys
  · exact (keys_set_of_mem v h).symm ▸ List.prefix_rfl
  · rw [keys_set_of_not_mem v h]
    exact List.prefix_append _ _

/-- A deleted key reads nothing. -/
theorem get_delete_self (m : JsMap κ ν) (k : κ) : (m.delete k).get k = none := by
  rw [get_eq_none_iff]
  intro h
  obtain ⟨e, he, hk⟩ := List.mem_map.mp h
  simpa [hk] using (List.mem_filter.mp he).2

/-- Deleting one key leaves the others. -/
theorem get_delete_ne (m : JsMap κ ν) {k k' : κ} (h : k' ≠ k) :
    (m.delete k).get k' = m.get k' := by
  cases hg : m.get k' with
  | none =>
      rw [get_eq_none_iff] at hg ⊢
      intro hm
      obtain ⟨e, he, hk⟩ := List.mem_map.mp hm
      exact hg (List.mem_map.mpr ⟨e, (List.mem_filter.mp he).1, hk⟩)
  | some v =>
      rw [get_eq_some_iff] at hg ⊢
      exact List.mem_filter.mpr ⟨hg, by simpa using h⟩

/-! ## Images -/

section Images

variable {ξ : Type} (f : ν → ξ)

/-- The map with its values replaced. -/
def mapValues (m : JsMap κ ν) : JsMap κ ξ where
  entries := m.entries.map fun e => (e.1, f e.2)
  nodup := by
    rw [List.map_map]
    exact m.nodup

omit [DecidableEq κ] in
/-- A map is its entries. -/
theorem entries_inj {m m' : JsMap κ ν} (h : m.entries = m'.entries) : m = m' := by
  cases m
  cases m'
  simpa using h

/-- Mapping the values maps what each key reads. -/
theorem get_mapValues (m : JsMap κ ν) (k : κ) : (m.mapValues f).get k = (m.get k).map f := by
  have hentries : ∀ es : List (κ × ν),
      getEntries k (es.map fun e => (e.1, f e.2)) = (getEntries k es).map f := by
    intro es
    induction es with
    | nil => rfl
    | cons e es ih =>
        simp only [List.map_cons, getEntries, ih]
        split <;> rfl
  exact hentries m.entries

/-- Mapping the values of a map just written is writing the mapped value. -/
theorem mapValues_set (m : JsMap κ ν) (k : κ) (v : ν) :
    (m.set k v).mapValues f = (m.mapValues f).set k (f v) := by
  have hentries : ∀ es : List (κ × ν),
      (setEntries k v es).map (fun e => (e.1, f e.2)) = setEntries k (f v) (es.map fun e => (e.1, f e.2)) := by
    intro es
    induction es with
    | nil => rfl
    | cons e es ih =>
        simp only [List.map_cons, setEntries]
        split
        · rfl
        · rw [List.map_cons, ih]
  exact entries_inj (hentries m.entries)

/-- Mapping the values commutes with a deletion. -/
theorem mapValues_delete (m : JsMap κ ν) (k : κ) : (m.delete k).mapValues f = (m.mapValues f).delete k := by
  apply entries_inj
  show (m.entries.filter _).map _ = (m.entries.map _).filter _
  rw [List.filter_map]
  rfl

end Images

end JsMap
