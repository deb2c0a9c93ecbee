import SiriusGateway.Lib.JsMap
import Mathlib.Data.List.Induction

/-!
# `Lib.Upserts` — what a log of upserts leaves

Records are filed one after the other, each under its key, and a later record of a key replaces the earlier one
where it stands. What is left is one record for each key of the log: the last of the key, at the place of the
first (`current`). An insertion-ordered map computes exactly this (`JsMap.ofLog`).

## Contents
- **First occurrences.** `eraseDups`, for appended lists, under `find?` and under a map.
- **Logs.** `lastOf` and `current`.
- **Maps.** `JsMap.ofLog`, and what it holds.
- **Encoded keys.** Filing under encodings of the keys leaves the same records exactly when the encoding
  confuses no two keys of the log (`current_encode_iff`).
-/

namespace List

variable {α κ μ : Type} [DecidableEq κ] [DecidableEq μ]

/-! ## First occurrences -/

theorem eraseDups_concat (l : List κ) (x : κ) :
    (l ++ [x]).eraseDups = if x ∈ l then l.eraseDups else l.eraseDups ++ [x] := by
  rw [eraseDups_append]
  by_cases hx : x ∈ l
  · simp [removeAll, hx]
  · simp [removeAll, hx, eraseDups_cons]

/-- The first fit is a first occurrence. -/
theorem find?_eraseDups (fits : κ → Bool) (l : List κ) : l.eraseDups.find? fits = l.find? fits := by
  induction l using List.reverseRecOn with
  | nil => rfl
  | append_singleton l x ih =>
      rw [eraseDups_concat, find?_append]
      by_cases hx : x ∈ l
      · rw [if_pos hx, ih]
        cases hfind : l.find? fits with
        | some y => rfl
        | none => simp [by simpa using find?_eq_none.mp hfind x hx]
      · rw [if_neg hx, find?_append, ih]

/-- A map that confuses no two members keeps the first occurrences. -/
theorem eraseDups_map_of_injOn {f : κ → μ} {l : List κ} (hinj : ∀ a ∈ l, ∀ b ∈ l, f a = f b → a = b) :
    (l.map f).eraseDups = l.eraseDups.map f := by
  induction l using List.reverseRecOn with
  | nil => rfl
  | append_singleton l x ih =>
      have hbefore := ih fun a ha b hb => hinj a (mem_append_left _ ha) b (mem_append_left _ hb)
      have hmem : f x ∈ l.map f ↔ x ∈ l := by
        constructor
        · intro h
          obtain ⟨a, ha, hfa⟩ := mem_map.mp h
          rw [← hinj a (mem_append_left _ ha) x (by simp) hfa]
          exact ha
        · exact mem_map_of_mem
      rw [map_append, map_singleton, eraseDups_concat, eraseDups_concat, hbefore]
      by_cases hx : x ∈ l
      · rw [if_pos (hmem.mpr hx), if_pos hx]
      · rw [if_neg (mt hmem.mp hx), if_neg hx, map_append, map_singleton]

/-! ## Logs -/

/-- The last record of a key. -/
def lastOf (key : α → κ) (log : List α) (k : κ) : Option α := log.reverse.find? fun a => key a = k

/-- The records a log leaves: for each key, in the order of first occurrence, the last record of the key. -/
def current (key : α → κ) (log : List α) : List α := (log.map key).eraseDups.filterMap (lastOf key log)

section Logs

variable {key : α → κ} {log : List α} {a : α} {k : κ}

@[simp] theorem lastOf_nil (key : α → κ) (k : κ) : lastOf key [] k = none := rfl

theorem lastOf_concat (key : α → κ) (log : List α) (a : α) (k : κ) :
    lastOf key (log ++ [a]) k = if k = key a then some a else lastOf key log k := by
  unfold lastOf
  rw [reverse_append, reverse_singleton, singleton_append, find?_cons]
  by_cases hk : k = key a
  · simp [hk]
  · simp [hk, Ne.symm hk]

theorem key_of_lastOf (h : lastOf key log k = some a) : key a = k := by simpa using find?_some h

theorem mem_of_lastOf (h : lastOf key log k = some a) : a ∈ log :=
  mem_reverse.mp (mem_of_find?_eq_some h)

/-- A key has a last record exactly when some record has the key. -/
theorem isSome_lastOf : (lastOf key log k).isSome = true ↔ k ∈ log.map key := by
  unfold lastOf
  rw [find?_isSome, mem_map]
  simp

theorem exists_lastOf (h : a ∈ log) : ∃ last, lastOf key log (key a) = some last :=
  Option.isSome_iff_exists.mp (isSome_lastOf.mpr (mem_map_of_mem h))

theorem lastOf_eq_none_iff : lastOf key log k = none ↔ ∀ a ∈ log, key a ≠ k := by
  unfold lastOf
  simp

theorem mem_current : a ∈ log.current key ↔ lastOf key log (key a) = some a := by
  unfold current
  rw [mem_filterMap]
  constructor
  · rintro ⟨k, -, h⟩
    rwa [key_of_lastOf h]
  · intro h
    exact ⟨key a, mem_eraseDups.mpr (mem_map_of_mem (mem_of_lastOf h)), h⟩

/-- Of what is left, the first record whose key fits is the last of the first key that fits. -/
theorem find?_current (fits : κ → Bool) (key : α → κ) (log : List α) :
    (log.current key).find? (fun a => fits (key a)) =
      (log.find? fun a => fits (key a)).bind fun a => lastOf key log (key a) := by
  have hkeys : ∀ ks : List κ, (∀ k ∈ ks, k ∈ log.map key) →
      (ks.filterMap (lastOf key log)).find? (fun a => fits (key a)) = (ks.find? fits).bind (lastOf key log) := by
    intro ks hks
    induction ks with
    | nil => rfl
    | cons k rest ih =>
        obtain ⟨a, ha⟩ := Option.isSome_iff_exists.mp (isSome_lastOf.mpr (hks k mem_cons_self))
        rw [filterMap_cons_some ha, find?_cons, find?_cons, key_of_lastOf ha]
        cases hfits : fits k with
        | true => simp [ha]
        | false => exact ih fun k' hk' => hks k' (mem_cons_of_mem k hk')
  unfold current
  rw [hkeys _ fun k hk => mem_eraseDups.mp hk, find?_eraseDups, find?_map, Option.bind_map]
  rfl

end Logs

/-! ## Encoded keys -/

section Encoded

variable {key : α → κ} {encode : κ → μ} {log : List α}

/-- Where the encoding does not confuse a key with another of the log, the last record is the same. -/
theorem lastOf_encode {k : κ} (h : ∀ a ∈ log, encode (key a) = encode k → key a = k) :
    lastOf (fun a => encode (key a)) log (encode k) = lastOf key log k := by
  unfold lastOf
  rw [← head?_filter, ← head?_filter]
  congr 1
  refine filter_congr fun a ha => ?_
  have hkey : encode (key a) = encode k ↔ key a = k := ⟨h a (mem_reverse.mp ha), fun heq => heq ▸ rfl⟩
  simp [hkey]

/-- **Encoding the keys changes nothing** exactly when the encoding confuses no two keys of the log. -/
theorem current_encode_iff : log.current (fun a => encode (key a)) = log.current key ↔
    ∀ a ∈ log, ∀ b ∈ log, encode (key a) = encode (key b) → key a = key b := by
  constructor
  · intro heq a ha b hb hsame
    obtain ⟨a', ha'⟩ := @exists_lastOf _ _ _ key _ _ ha
    obtain ⟨b', hb'⟩ := @exists_lastOf _ _ _ key _ _ hb
    have hkeya := key_of_lastOf ha'
    have hkeyb := key_of_lastOf hb'
    -- both are left under their keys, so they are left under the encodings, where they have one key
    have hmema : lastOf (fun a => encode (key a)) log (encode (key a')) = some a' := by
      rw [← @mem_current _ _ _ (fun a => encode (key a)), heq, mem_current, hkeya]
      exact ha'
    have hmemb : lastOf (fun a => encode (key a)) log (encode (key b')) = some b' := by
      rw [← @mem_current _ _ _ (fun a => encode (key a)), heq, mem_current, hkeyb]
      exact hb'
    rw [hkeya, hsame, ← hkeyb, hmemb] at hmema
    rw [← hkeya, ← hkeyb, Option.some.inj hmema]
  · intro hinj
    have hkeys : (log.map fun a => encode (key a)).eraseDups = (log.map key).eraseDups.map encode := by
      show (log.map (encode ∘ key)).eraseDups = _
      rw [← map_map]
      apply eraseDups_map_of_injOn
      intro k hk k' hk' hsame
      obtain ⟨a, ha, rfl⟩ := mem_map.mp hk
      obtain ⟨b, hb, rfl⟩ := mem_map.mp hk'
      exact hinj a ha b hb hsame
    unfold current
    rw [hkeys, filterMap_map]
    refine filterMap_congr fun k hk => ?_
    obtain ⟨b, hb, rfl⟩ := mem_map.mp (mem_eraseDups.mp hk)
    exact lastOf_encode fun a ha hsame => hinj a ha b hb hsame

end Encoded

end List

/-! ## Maps -/

namespace JsMap

variable {α κ ν : Type} [DecidableEq κ]

/-- The values, read key by key. -/
theorem values_eq (m : JsMap κ ν) : m.values = m.keys.filterMap m.get := by
  have hget : ∀ e ∈ m.entries, (m.get ∘ Prod.fst) e = (some ∘ Prod.snd) e := fun e he => get_eq_some_iff.mpr he
  unfold values keys
  rw [List.filterMap_map, List.filterMap_congr hget, List.filterMap_eq_map]

/-- The map that files the records of a log one after the other. -/
def ofLog (key : α → κ) (log : List α) : JsMap κ α := log.foldl (fun m a => m.set (key a) a) empty

variable {key : α → κ}

theorem ofLog_concat (key : α → κ) (log : List α) (a : α) :
    ofLog key (log ++ [a]) = (ofLog key log).set (key a) a := by
  unfold ofLog
  rw [List.foldl_append]
  rfl

/-- A key holds its last record. -/
theorem get_ofLog (key : α → κ) (log : List α) (k : κ) : (ofLog key log).get k = log.lastOf key k := by
  induction log using List.reverseRecOn with
  | nil => rfl
  | append_singleton log a ih => rw [ofLog_concat, get_set, ih, List.lastOf_concat]

/-- The keys stand in the order of first occurrence. -/
theorem keys_ofLog (key : α → κ) (log : List α) : (ofLog key log).keys = (log.map key).eraseDups := by
  induction log using List.reverseRecOn with
  | nil => rfl
  | append_singleton log a ih =>
      rw [ofLog_concat, List.map_append, List.map_singleton, List.eraseDups_concat]
      by_cases hmem : key a ∈ log.map key
      · rw [if_pos hmem, keys_set_of_mem a (by rw [ih]; exact List.mem_eraseDups.mpr hmem), ih]
      · rw [if_neg hmem, keys_set_of_not_mem a (by rw [ih]; exact mt List.mem_eraseDups.mp hmem), ih]

/-- **The map of a log holds what the log leaves.** -/
theorem values_ofLog (key : α → κ) (log : List α) : (ofLog key log).values = log.current key := by
  rw [values_eq, keys_ofLog]
  exact List.filterMap_congr fun k _ => get_ofLog key log k

end JsMap
