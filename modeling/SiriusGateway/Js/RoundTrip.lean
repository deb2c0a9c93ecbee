import SiriusGateway.Js.Scalars

/-!
# `Js.RoundTrip` — `JSON.parse` undoes `JSON.stringify`

What `JSON.stringify` prints is read back by `JSON.parse` (`jsonParse_stringify`). Only the order of an
object's properties can change: `JSON.stringify` prints array indices first, so the value read back is
`Json.canon`. The law holds of every `Valid` value, and those are the values `JSON.parse` returns
(`valid_of_jsonParse`).

## Contents
- **Objects.** `enumerationOrder` permutes the properties, by their keys alone, once and for all.
- **Values.** `Json.canon` and `Json.Valid`.
- **The round trip.** `ReadsBack`, proved of every valid value by recursion on it.
- **What the parser returns** is valid.
-/

namespace Js

/-! ## The order of an object's properties -/

section Order

variable {α β : Type}

/-- The array-index properties of `fields`, sorted into `sorted`. -/
def sortIndexed (sorted : List (Nat × String × α)) (fields : List (String × α)) :
    List (Nat × String × α) :=
  fields.foldl (fun sorted e => match arrayIndex e.1 with
    | some n => insertByIndex n e sorted
    | none => sorted) sorted

theorem enumerationOrder_eq (fields : List (String × α)) :
    enumerationOrder fields =
      (sortIndexed [] fields).map (·.2) ++ fields.filter fun e => (arrayIndex e.1).isNone := rfl

theorem sortIndexed_cons (sorted : List (Nat × String × α)) (e : String × α) (fields : List (String × α)) :
    sortIndexed sorted (e :: fields) = sortIndexed (match arrayIndex e.1 with
      | some n => insertByIndex n e sorted
      | none => sorted) fields := rfl

theorem insertByIndex_perm (n : Nat) (e : String × α) (sorted : List (Nat × String × α)) :
    (insertByIndex n e sorted).Perm ((n, e) :: sorted) := by
  induction sorted with
  | nil => exact List.Perm.refl _
  | cons x rest ih =>
      obtain ⟨m, d⟩ := x
      unfold insertByIndex
      split
      · exact List.Perm.refl _
      · exact (ih.cons (m, d)).trans (List.Perm.swap _ _ rest)

/-- The sorted properties are the array-index ones, and each carries its index. -/
theorem sortIndexed_perm (fields : List (String × α)) :
    ∀ sorted : List (Nat × String × α), ((sortIndexed sorted fields).map (·.2)).Perm
      (sorted.map (·.2) ++ fields.filter fun e => !(arrayIndex e.1).isNone) := by
  induction fields with
  | nil =>
      intro sorted
      simp [sortIndexed]
  | cons e fields ih =>
      intro sorted
      rw [sortIndexed_cons]
      cases he : arrayIndex e.1 with
      | none =>
          rw [List.filter_cons_of_neg (by simp [he])]
          exact ih sorted
      | some n =>
          rw [List.filter_cons_of_pos (by simp [he])]
          refine (ih _).trans ?_
          have hins := ((insertByIndex_perm n e sorted).map (·.2)).append_right
            (fields.filter fun e => !(arrayIndex e.1).isNone)
          exact hins.trans List.perm_middle.symm

/-- **Enumerating reorders the properties**, no more. -/
theorem enumerationOrder_perm (fields : List (String × α)) : (enumerationOrder fields).Perm fields := by
  rw [enumerationOrder_eq]
  refine ((sortIndexed_perm fields []).append_right _).trans ?_
  rw [List.map_nil, List.nil_append]
  have hsplit := List.filter_append_perm (fun e : String × α => (arrayIndex e.1).isNone) fields
  exact List.perm_append_comm.trans hsplit

theorem mem_enumerationOrder {e : String × α} {fields : List (String × α)} :
    e ∈ enumerationOrder fields ↔ e ∈ fields :=
  (enumerationOrder_perm fields).mem_iff

theorem insertByIndex_map (f : α → β) (n : Nat) (e : String × α) (sorted : List (Nat × String × α)) :
    (insertByIndex n e sorted).map (fun x => (x.1, x.2.1, f x.2.2)) =
      insertByIndex n (e.1, f e.2) (sorted.map fun x => (x.1, x.2.1, f x.2.2)) := by
  induction sorted with
  | nil => rfl
  | cons x rest ih =>
      obtain ⟨m, d⟩ := x
      simp only [insertByIndex, List.map_cons]
      split
      · rfl
      · rw [List.map_cons, ih]

theorem sortIndexed_map (f : α → β) (fields : List (String × α)) :
    ∀ sorted, (sortIndexed sorted fields).map (fun x => (x.1, x.2.1, f x.2.2)) =
      sortIndexed (sorted.map fun x => (x.1, x.2.1, f x.2.2)) (fields.map fun e => (e.1, f e.2)) := by
  induction fields with
  | nil =>
      intro sorted
      rfl
  | cons e fields ih =>
      intro sorted
      rw [List.map_cons, sortIndexed_cons, sortIndexed_cons]
      cases he : arrayIndex e.1 with
      | none => exact ih sorted
      | some n => exact (ih _).trans (by rw [insertByIndex_map])

/-- The order depends on the keys alone. -/
theorem enumerationOrder_map (f : α → β) (fields : List (String × α)) :
    enumerationOrder (fields.map fun e => (e.1, f e.2)) =
      (enumerationOrder fields).map fun e => (e.1, f e.2) := by
  have hsort := sortIndexed_map f fields []
  rw [List.map_nil] at hsort
  rw [enumerationOrder_eq, enumerationOrder_eq, ← hsort, List.map_append, List.map_map, List.map_map,
    List.filter_map]
  rfl

theorem sortIndexed_names {fields : List (String × α)} (h : ∀ e ∈ fields, arrayIndex e.1 = none)
    (sorted : List (Nat × String × α)) : sortIndexed sorted fields = sorted := by
  induction fields with
  | nil => rfl
  | cons e fields ih =>
      rw [sortIndexed_cons, h e List.mem_cons_self]
      exact ih fun d hd => h d (List.mem_cons_of_mem e hd)

/-- Without array indices the properties stay as they were added. -/
theorem enumerationOrder_of_names {fields : List (String × α)}
    (h : ∀ e ∈ fields, arrayIndex e.1 = none) : enumerationOrder fields = fields := by
  rw [enumerationOrder_eq, sortIndexed_names h]
  apply List.filter_eq_self.mpr
  intro e he
  simp [h e he]

/-- Entries in ascending order of their index, which is that of the key. -/
def Ascending (sorted : List (Nat × String × α)) : Prop :=
  sorted.Pairwise (fun x y => x.1 ≤ y.1) ∧ ∀ x ∈ sorted, arrayIndex x.2.1 = some x.1

theorem Ascending.insert {n : Nat} {e : String × α} {sorted : List (Nat × String × α)}
    (h : Ascending sorted) (he : arrayIndex e.1 = some n) : Ascending (insertByIndex n e sorted) := by
  refine ⟨?_, fun x hx => ?_⟩
  · induction sorted with
    | nil => exact List.pairwise_singleton _ _
    | cons x rest ih =>
        obtain ⟨m, d⟩ := x
        obtain ⟨hpair, hkeys⟩ := h
        obtain ⟨hhead, htail⟩ := List.pairwise_cons.mp hpair
        unfold insertByIndex
        split
        · rename_i hlt
          refine List.pairwise_cons.mpr ⟨fun y hy => ?_, hpair⟩
          rcases List.mem_cons.mp hy with rfl | hy
          · exact Nat.le_of_lt hlt
          · exact Nat.le_trans (Nat.le_of_lt hlt) (hhead y hy)
        · rename_i hle
          refine List.pairwise_cons.mpr ⟨fun y hy => ?_, ih ⟨htail, fun z hz => hkeys z (List.mem_cons_of_mem _ hz)⟩⟩
          rcases List.mem_cons.mp ((insertByIndex_perm n e rest).mem_iff.mp hy) with rfl | hy
          · exact Nat.le_of_not_lt hle
          · exact hhead y hy
  · rcases List.mem_cons.mp ((insertByIndex_perm n e sorted).mem_iff.mp hx) with rfl | hx
    · exact he
    · exact h.2 x hx

theorem Ascending.sortIndexed (fields : List (String × α)) :
    ∀ {sorted : List (Nat × String × α)}, Ascending sorted → Ascending (sortIndexed sorted fields) := by
  induction fields with
  | nil =>
      intro sorted h
      exact h
  | cons e fields ih =>
      intro sorted h
      rw [sortIndexed_cons]
      cases he : arrayIndex e.1 with
      | none => exact ih h
      | some n => exact ih (h.insert he)

theorem insertByIndex_last {n : Nat} {e : String × α} {sorted : List (Nat × String × α)}
    (h : ∀ x ∈ sorted, x.1 ≤ n) : insertByIndex n e sorted = sorted ++ [(n, e)] := by
  induction sorted with
  | nil => rfl
  | cons x rest ih =>
      obtain ⟨m, d⟩ := x
      have hle := h (m, d) List.mem_cons_self
      unfold insertByIndex
      rw [if_neg (by omega), ih fun y hy => h y (List.mem_cons_of_mem _ hy)]
      rfl

/-- Sorting entries that are in order already puts them behind the ones there. -/
theorem sortIndexed_ascending (entries : List (Nat × String × α)) :
    ∀ sorted, Ascending (sorted ++ entries) → sortIndexed sorted (entries.map (·.2)) = sorted ++ entries := by
  induction entries with
  | nil =>
      intro sorted _
      rw [List.append_nil]
      rfl
  | cons x entries ih =>
      intro sorted h
      have hindex := h.2 x (List.mem_append_right _ List.mem_cons_self)
      have hle : ∀ y ∈ sorted, y.1 ≤ x.1 := fun y hy =>
        (List.pairwise_append.mp h.1).2.2 y hy x List.mem_cons_self
      rw [List.map_cons, sortIndexed_cons, hindex]
      show sortIndexed (insertByIndex x.1 x.2 sorted) _ = _
      rw [insertByIndex_last hle, ih _ (by simpa using h), List.append_assoc]
      rfl

/-- **Enumerating twice changes nothing more.** -/
theorem enumerationOrder_enumerationOrder (fields : List (String × α)) :
    enumerationOrder (enumerationOrder fields) = enumerationOrder fields := by
  have hempty : Ascending ([] : List (Nat × String × α)) :=
    ⟨List.Pairwise.nil, fun x hx => absurd hx List.not_mem_nil⟩
  have hascending := hempty.sortIndexed fields
  have hrest : ∀ e ∈ fields.filter (fun e => (arrayIndex e.1).isNone), arrayIndex e.1 = none := by
    intro e he
    simpa using (List.mem_filter.mp he).2
  have hsorted : sortIndexed [] (enumerationOrder fields) = sortIndexed [] fields := by
    rw [enumerationOrder_eq, sortIndexed, List.foldl_append]
    show sortIndexed (sortIndexed [] ((sortIndexed [] fields).map (·.2))) _ = _
    rw [sortIndexed_names hrest]
    simpa using sortIndexed_ascending (sortIndexed [] fields) [] (by simpa using hascending)
  have hfilter : (enumerationOrder fields).filter (fun e => (arrayIndex e.1).isNone) =
      fields.filter fun e => (arrayIndex e.1).isNone := by
    rw [enumerationOrder_eq, List.filter_append, List.filter_filter]
    have hnone : ((sortIndexed [] fields).map (·.2)).filter (fun e => (arrayIndex e.1).isNone) = [] := by
      apply List.filter_eq_nil_iff.mpr
      intro e he
      obtain ⟨x, hx, rfl⟩ := List.mem_map.mp he
      simp [hascending.2 x hx]
    rw [hnone]
    simp
  rw [enumerationOrder_eq (enumerationOrder fields), hsorted, hfilter]
  rfl

end Order

/-! ## Values -/

mutual

/-- The value with the properties of every object in the order JavaScript enumerates them. -/
def Json.canon : Json → Json
  | .null => .null
  | .bool b => .bool b
  | .num q => .num q
  | .str s => .str s
  | .arr items => .arr (canonItems items)
  | .obj fields => .obj (enumerationOrder (canonFields fields))

def canonItems : List Json → List Json
  | [] => []
  | v :: rest => v.canon :: canonItems rest

def canonFields : List (String × Json) → List (String × Json)
  | [] => []
  | (key, v) :: rest => (key, v.canon) :: canonFields rest

end

mutual

/-- A value JSON text can denote: decimal numbers, and the keys of an object distinct. -/
def Json.Valid : Json → Prop
  | .null => True
  | .bool _ => True
  | .num q => Decimal q
  | .str _ => True
  | .arr items => ValidItems items
  | .obj fields => (fields.map (·.1)).Nodup ∧ ValidFields fields

def ValidItems : List Json → Prop
  | [] => True
  | v :: rest => v.Valid ∧ ValidItems rest

def ValidFields : List (String × Json) → Prop
  | [] => True
  | (_, v) :: rest => v.Valid ∧ ValidFields rest

end

theorem canonItems_eq (items : List Json) : canonItems items = items.map Json.canon := by
  induction items with
  | nil => rfl
  | cons v rest ih => rw [canonItems, ih, List.map_cons]

theorem canonFields_eq (fields : List (String × Json)) :
    canonFields fields = fields.map fun e => (e.1, e.2.canon) := by
  induction fields with
  | nil => rfl
  | cons e rest ih => rw [canonFields, ih, List.map_cons]

theorem stringifyItems_eq (items : List Json) : stringifyItems items = items.map stringify := by
  induction items with
  | nil => rfl
  | cons v rest ih => rw [stringifyItems, ih, List.map_cons]

theorem stringifyFields_eq (fields : List (String × Json)) :
    stringifyFields fields = fields.map fun e => (e.1, stringify e.2) := by
  induction fields with
  | nil => rfl
  | cons e rest ih => rw [stringifyFields, ih, List.map_cons]

theorem validItems_iff {items : List Json} : ValidItems items ↔ ∀ v ∈ items, v.Valid := by
  induction items with
  | nil => simp [ValidItems]
  | cons v rest ih => simp [ValidItems, ih]

theorem validFields_iff {fields : List (String × Json)} : ValidFields fields ↔ ∀ e ∈ fields, e.2.Valid := by
  induction fields with
  | nil => simp [ValidFields]
  | cons e rest ih => simp [ValidFields, ih]

/-- The printed members of an object. -/
def memberText (e : String × Json) : String := quote e.1 ++ ":" ++ stringify e.2

theorem stringify_obj (fields : List (String × Json)) :
    stringify (.obj fields) =
      "\x7b" ++ ",".intercalate ((enumerationOrder fields).map memberText) ++ "\x7d" := by
  simp only [stringify]
  rw [stringifyFields_eq, enumerationOrder_map, List.map_map]
  rfl

mutual

/-- **The canonical value is its own canonical value.** -/
theorem Json.canon_canon : ∀ v : Json, v.canon.canon = v.canon
  | .null => rfl
  | .bool _ => rfl
  | .num _ => rfl
  | .str _ => rfl
  | .arr items => by
      rw [Json.canon, Json.canon, canonItems_canonItems items]
  | .obj fields => by
      rw [Json.canon, Json.canon, canonFields_eq, ← enumerationOrder_map, ← canonFields_eq,
        canonFields_canonFields fields, enumerationOrder_enumerationOrder]

theorem canonItems_canonItems : ∀ items : List Json, canonItems (canonItems items) = canonItems items
  | [] => rfl
  | v :: rest => by
      rw [canonItems, canonItems, Json.canon_canon v, canonItems_canonItems rest]

theorem canonFields_canonFields :
    ∀ fields : List (String × Json), canonFields (canonFields fields) = canonFields fields
  | [] => rfl
  | (key, v) :: rest => by
      rw [canonFields, canonFields, Json.canon_canon v, canonFields_canonFields rest]

end

/-! ## Reading back what was printed -/

/-- A printed number starts with its sign or a digit. -/
theorem numToString_head (q : Rat) :
    ∃ c text, (numToString q).toList = c :: text ∧ (c = '-' ∨ c.isDigit = true) := by
  rw [toList_numToString]
  split
  · exact ⟨'-', _, rfl, Or.inl rfl⟩
  · obtain ⟨d, ds, hds⟩ := List.exists_cons_of_ne_nil
      (Nat.toDigits_ne_nil (b := 10) (n := q.num.natAbs / q.den))
    have hd : d.isDigit = true := Nat.isDigit_of_mem_toDigits (b := 10) (by decide) (by decide)
      (by rw [hds]; exact List.mem_cons_self)
    rw [hds]
    exact ⟨d, _, rfl, Or.inr hd⟩

/-- Such a character starts no other value. -/
theorem ne_of_numberStart {c : Char} (h : c = '-' ∨ c.isDigit = true) {d : Char} (hd : d.isDigit = false)
    (hminus : d ≠ '-') : c ≠ d := by
  rintro rfl
  rcases h with rfl | h
  · exact hminus rfl
  · rw [hd] at h
    cases h

/-- Such a character starts a number. -/
theorem scanValue_number {c : Char} (h : c = '-' ∨ c.isDigit = true) (fuel : Nat) (text : List Char) :
    skipWs (c :: text) = c :: text ∧
      scanValue (fuel + 1) (c :: text) = (scanNumber (c :: text)).map fun (q, tail) => (.num q, tail) := by
  have hskip : skipWs (c :: text) = c :: text := by
    simp [skipWs, ne_of_numberStart h (d := ' ') rfl (by decide),
      ne_of_numberStart h (d := '\t') rfl (by decide), ne_of_numberStart h (d := '\n') rfl (by decide),
      ne_of_numberStart h (d := '\r') rfl (by decide)]
  refine ⟨hskip, ?_⟩
  rw [scanValue, hskip]
  simp [ne_of_numberStart h (d := 'n') rfl (by decide), ne_of_numberStart h (d := 't') rfl (by decide),
    ne_of_numberStart h (d := 'f') rfl (by decide), ne_of_numberStart h (d := '"') rfl (by decide),
    ne_of_numberStart h (d := '[') rfl (by decide), ne_of_numberStart h (d := '\x7b') rfl (by decide)]

/-- The first character of a printed value is no white space and no closing bracket. -/
theorem stringify_head (v : Json) :
    ∃ c text, (stringify v).toList = c :: text ∧ (∀ more, skipWs (c :: more) = c :: more) ∧ c ≠ ']' := by
  cases v with
  | null => exact ⟨'n', "ull".toList, rfl, fun _ => rfl, by decide⟩
  | bool b =>
      cases b with
      | true => exact ⟨'t', "rue".toList, rfl, fun _ => rfl, by decide⟩
      | false => exact ⟨'f', "alse".toList, rfl, fun _ => rfl, by decide⟩
  | num q =>
      obtain ⟨c, text, htext, hc⟩ := numToString_head q
      exact ⟨c, text, htext, fun more => (scanValue_number hc 0 more).1,
        ne_of_numberStart hc rfl (by decide)⟩
  | str s => exact ⟨'"', _, toList_quote s, fun _ => rfl, by decide⟩
  | arr items =>
      refine ⟨'[', (",".intercalate (stringifyItems items) ++ "]").toList, ?_, fun _ => rfl, by decide⟩
      simp [stringify, String.toList_append]
  | obj fields =>
      refine ⟨'\x7b', (",".intercalate ((enumerationOrder fields).map memberText) ++ "\x7d").toList,
        ?_, fun _ => rfl, by decide⟩
      rw [stringify_obj]
      simp [String.toList_append]

/-- Joined texts start with the first of them. -/
theorem intercalate_head {s : String} {c : Char} {text : List Char} (h : s.toList = c :: text)
    (texts : List String) : ∃ more, (",".intercalate (s :: texts)).toList = c :: more := by
  cases texts with
  | nil => exact ⟨text, by rw [String.intercalate_singleton, h]⟩
  | cons t texts =>
      refine ⟨text ++ ',' :: (",".intercalate (t :: texts)).toList, ?_⟩
      rw [String.intercalate_cons_cons]
      simp [String.toList_append, h]

/-- **The value is read back from its text**, when there is fuel for the text and no longer number could be
    meant. -/
def ReadsBack (v : Json) : Prop :=
  ∀ (fuel : Nat) (rest : List Char), NumberEnd rest → (stringify v).toList.length < fuel →
    scanValue fuel ((stringify v).toList ++ rest) = some (v.canon, rest)

theorem numberEnd_cons {c : Char} {rest : List Char} (h : c = ',' ∨ c = ']' ∨ c = '\x7d') :
    NumberEnd (c :: rest) := by
  intro d hd
  obtain rfl : c = d := by simpa using hd
  rcases h with rfl | rfl | rfl <;> decide

theorem intercalate_toList_cons (s t : String) (texts : List String) :
    (",".intercalate (s :: t :: texts)).toList = s.toList ++ ',' :: (",".intercalate (t :: texts)).toList := by
  rw [String.intercalate_cons_cons]
  simp [String.toList_append]

/-- The items of an array are read back up to its bracket. -/
theorem scanItems_readsBack {items : List Json} (h : ∀ v ∈ items, ReadsBack v) (hne : items ≠ []) :
    ∀ (fuel : Nat) (rest : List Char), (",".intercalate (items.map stringify)).toList.length + 2 ≤ fuel →
      scanItems fuel ((",".intercalate (items.map stringify)).toList ++ ']' :: rest) =
        some (items.map Json.canon, rest) := by
  induction items with
  | nil => exact absurd rfl hne
  | cons v items ih =>
      intro fuel rest hfuel
      obtain ⟨fuel, rfl⟩ := Nat.exists_eq_add_of_le' (Nat.le_of_add_left_le hfuel)
      have hv := h v List.mem_cons_self
      cases items with
      | nil =>
          rw [List.map_singleton, String.intercalate_singleton] at hfuel ⊢
          rw [scanItems, hv _ _ (numberEnd_cons (by simp)) (by omega)]
          rfl
      | cons w items =>
          rw [List.map_cons, List.map_cons, intercalate_toList_cons] at hfuel ⊢
          simp only [List.length_append, List.length_cons] at hfuel
          rw [List.append_assoc, List.cons_append, scanItems, hv _ _ (numberEnd_cons (by simp)) (by omega)]
          have hrest := ih (fun u hu => h u (List.mem_cons_of_mem v hu)) (List.cons_ne_nil w items)
            (fuel + 1) rest (by rw [List.map_cons]; omega)
          rw [List.map_cons] at hrest
          show (scanItems (fuel + 1)
            ((",".intercalate (stringify w :: items.map stringify)).toList ++ ']' :: rest)).map _ = _
          rw [hrest]
          rfl

/-- A member that is new to the object goes to its end. -/
theorem putField_new {key : String} (v : Json) {fields : List (String × Json)}
    (h : key ∉ fields.map (·.1)) : putField key v fields = fields ++ [(key, v)] := by
  induction fields with
  | nil => rfl
  | cons e rest ih =>
      obtain ⟨k, w⟩ := e
      obtain ⟨hne, hrest⟩ : key ≠ k ∧ key ∉ rest.map (·.1) := by simpa using h
      rw [putField, if_neg (Ne.symm hne), ih hrest]
      rfl

/-- One member of an object is read back; what follows decides how the scan goes on. -/
theorem scanFields_member {key : String} {v : Json} (hv : ReadsBack v) {fuel : Nat}
    {fields : List (String × Json)} (hnew : key ∉ fields.map (·.1)) {c : Char} {rest : List Char}
    (hc : c = ',' ∨ c = ']' ∨ c = '\x7d') (hfuel : (memberText (key, v)).toList.length ≤ fuel) :
    scanFields (fuel + 1) fields ((memberText (key, v)).toList ++ c :: rest) =
      if c = ',' then scanFields fuel (fields ++ [(key, v.canon)]) rest
      else if c = '\x7d' then some (fields ++ [(key, v.canon)], rest)
      else none := by
  have htext : (memberText (key, v)).toList ++ c :: rest =
      (quote key).toList ++ ':' :: ((stringify v).toList ++ c :: rest) := by
    unfold memberText
    simp [String.toList_append]
  have hlength : (memberText (key, v)).toList.length =
      (quote key).toList.length + ((stringify v).toList.length + 1) := by
    unfold memberText
    simp [String.toList_append]
  obtain ⟨text, hquote, hkey⟩ := scanString_quote key (':' :: ((stringify v).toList ++ c :: rest)) fuel
    (by omega)
  have hval := hv fuel (c :: rest) (numberEnd_cons hc) (by
    rw [toList_quote] at hlength
    simp only [List.length_cons] at hlength
    omega)
  have hskip : skipWs (c :: rest) = c :: rest := by
    rcases hc with rfl | rfl | rfl <;> rfl
  rw [htext, hquote, scanFields]
  show (scanString fuel text).bind _ = _
  rw [hkey]
  show (scanValue fuel ((stringify v).toList ++ c :: rest)).bind _ = _
  rw [hval]
  simp only [Option.bind_some, hskip, putField_new v.canon hnew, String.ofList_toList, List.head?_cons,
    Option.some.injEq, List.tail_cons]

/-- The members of an object are read back up to its brace. -/
theorem scanFields_readsBack {members : List (String × Json)} (h : ∀ e ∈ members, ReadsBack e.2)
    (hne : members ≠ []) :
    ∀ (fuel : Nat) (fields : List (String × Json)) (rest : List Char),
      ((fields ++ members).map (·.1)).Nodup →
      (",".intercalate (members.map memberText)).toList.length + 1 ≤ fuel →
      scanFields fuel fields ((",".intercalate (members.map memberText)).toList ++ '\x7d' :: rest) =
        some (fields ++ members.map fun e => (e.1, e.2.canon), rest) := by
  induction members with
  | nil => exact absurd rfl hne
  | cons e members ih =>
      intro fuel fields rest hnodup hfuel
      obtain ⟨key, v⟩ := e
      obtain ⟨fuel, rfl⟩ := Nat.exists_eq_add_of_le' (Nat.le_of_add_left_le hfuel)
      have hv : ReadsBack v := h (key, v) List.mem_cons_self
      have hnew : key ∉ fields.map (·.1) := by
        intro hmem
        rw [List.map_append, List.map_cons] at hnodup
        exact (List.nodup_append.mp hnodup).2.2 key hmem key List.mem_cons_self rfl
      cases members with
      | nil =>
          rw [List.map_singleton, String.intercalate_singleton] at hfuel ⊢
          rw [scanFields_member hv hnew (by simp) (by omega), if_neg (by decide), if_pos rfl]
          rfl
      | cons d members =>
          rw [List.map_cons, List.map_cons, intercalate_toList_cons] at hfuel ⊢
          simp only [List.length_append, List.length_cons] at hfuel
          rw [List.append_assoc, List.cons_append, scanFields_member hv hnew (by simp) (by omega), if_pos rfl]
          have hkeys : ((fields ++ [(key, v.canon)] ++ d :: members).map (·.1)).Nodup := by
            rw [List.append_assoc]
            simpa using hnodup
          have hrest := ih (fun u hu => h u (List.mem_cons_of_mem _ hu)) (List.cons_ne_nil d members)
            fuel (fields ++ [(key, v.canon)]) rest hkeys (by rw [List.map_cons]; omega)
          rw [List.map_cons] at hrest
          rw [hrest, List.append_assoc]
          rfl

theorem readsBack_null : ReadsBack .null := by
  intro fuel rest _ hfuel
  obtain ⟨fuel, rfl⟩ := Nat.exists_eq_succ_of_ne_zero (Nat.ne_of_gt (Nat.zero_lt_of_lt hfuel))
  rfl

theorem readsBack_bool (b : Bool) : ReadsBack (.bool b) := by
  intro fuel rest _ hfuel
  obtain ⟨fuel, rfl⟩ := Nat.exists_eq_succ_of_ne_zero (Nat.ne_of_gt (Nat.zero_lt_of_lt hfuel))
  cases b <;> rfl

theorem readsBack_num {q : Rat} (hvalid : Decimal q) : ReadsBack (.num q) := by
  intro fuel rest hrest hfuel
  obtain ⟨fuel, rfl⟩ := Nat.exists_eq_succ_of_ne_zero (Nat.ne_of_gt (Nat.zero_lt_of_lt hfuel))
  obtain ⟨c, text, htext, hc⟩ := numToString_head q
  have hscan := scanNumber_numToString hvalid hrest
  rw [stringify, htext] at *
  rw [List.cons_append, (scanValue_number hc fuel (text ++ rest)).2]
  rw [List.cons_append] at hscan
  rw [hscan]
  rfl

theorem readsBack_str (s : String) : ReadsBack (.str s) := by
  intro fuel rest _ hfuel
  obtain ⟨fuel, rfl⟩ := Nat.exists_eq_succ_of_ne_zero (Nat.ne_of_gt (Nat.zero_lt_of_lt hfuel))
  obtain ⟨text, htext, hscan⟩ := scanString_quote s rest fuel (Nat.le_of_lt_succ hfuel)
  rw [stringify, htext]
  show (scanString fuel text).map _ = _
  rw [hscan]
  simp [Json.canon]

/-- An array is read back when its items are. -/
theorem readsBack_arr {items : List Json} (hitems : ∀ v ∈ items, ReadsBack v) : ReadsBack (.arr items) := by
  intro fuel rest _ hfuel
  obtain ⟨fuel, rfl⟩ := Nat.exists_eq_succ_of_ne_zero (Nat.ne_of_gt (Nat.zero_lt_of_lt hfuel))
  rw [Json.canon, canonItems_eq]
  rw [stringify, stringifyItems_eq] at hfuel ⊢
  cases items with
  | nil => rfl
  | cons v items =>
      have hscan := scanItems_readsBack hitems (List.cons_ne_nil v items) fuel rest
        (by simp [String.toList_append] at hfuel ⊢; omega)
      obtain ⟨c, text, htext, hskip, hclose⟩ := stringify_head v
      obtain ⟨more, hmore⟩ := intercalate_head htext (items.map stringify)
      have hlist : ("[" ++ ",".intercalate ((v :: items).map stringify) ++ "]").toList ++ rest =
          '[' :: ((",".intercalate ((v :: items).map stringify)).toList ++ ']' :: rest) := by
        simp [String.toList_append]
      have hhead : (skipWs (c :: more ++ ']' :: rest)).head? ≠ some ']' := by
        rw [List.cons_append, hskip]
        simpa using hclose
      rw [hlist]
      rw [List.map_cons, hmore] at hscan ⊢
      show (if (skipWs (c :: more ++ ']' :: rest)).head? = some ']' then _
        else (scanItems fuel (c :: more ++ ']' :: rest)).map _) = _
      rw [if_neg hhead, hscan]
      rfl

/-- An object is read back when its members are, and its keys differ. -/
theorem readsBack_obj {fields : List (String × Json)} (hnodup : (fields.map (·.1)).Nodup)
    (hfields : ∀ e ∈ fields, ReadsBack e.2) : ReadsBack (.obj fields) := by
  intro fuel rest _ hfuel
  obtain ⟨fuel, rfl⟩ := Nat.exists_eq_succ_of_ne_zero (Nat.ne_of_gt (Nat.zero_lt_of_lt hfuel))
  have hmembers : ∀ e ∈ enumerationOrder fields, ReadsBack e.2 := fun e he =>
    hfields e (mem_enumerationOrder.mp he)
  have hkeys : ((enumerationOrder fields).map (·.1)).Nodup :=
    ((enumerationOrder_perm fields).map (·.1)).nodup_iff.mpr hnodup
  rw [Json.canon, canonFields_eq, enumerationOrder_map]
  rw [stringify_obj] at hfuel ⊢
  generalize enumerationOrder fields = members at *
  cases members with
  | nil => rfl
  | cons e members =>
      have hscan := scanFields_readsBack hmembers (List.cons_ne_nil e members) fuel [] rest hkeys
        (by simp [String.toList_append] at hfuel ⊢; omega)
      have htext : (memberText e).toList = '"' :: (memberText e).toList.tail := by
        unfold memberText
        rw [String.toList_append, String.toList_append, toList_quote]
        rfl
      obtain ⟨more, hmore⟩ := intercalate_head htext (members.map memberText)
      have hlist : ("\x7b" ++ ",".intercalate ((e :: members).map memberText) ++ "\x7d").toList ++ rest =
          '\x7b' :: ((",".intercalate ((e :: members).map memberText)).toList ++ '\x7d' :: rest) := by
        simp [String.toList_append]
      rw [hlist]
      rw [List.map_cons, hmore] at hscan ⊢
      show (scanFields fuel [] ('"' :: more ++ '\x7d' :: rest)).map _ = _
      rw [hscan]
      rfl

mutual

/-- **Every valid value is read back from its text.** -/
theorem readsBack_of_valid : ∀ v : Json, v.Valid → ReadsBack v
  | .null, _ => readsBack_null
  | .bool b, _ => readsBack_bool b
  | .num _, hvalid => readsBack_num hvalid
  | .str s, _ => readsBack_str s
  | .arr items, hvalid => readsBack_arr (readsBack_items items hvalid)
  | .obj fields, hvalid => readsBack_obj hvalid.1 (readsBack_fields fields hvalid.2)

theorem readsBack_items : ∀ items : List Json, ValidItems items → ∀ v ∈ items, ReadsBack v
  | [], _ => by
      intro v hv
      exact absurd hv List.not_mem_nil
  | w :: items, hvalid => by
      intro v hv
      rcases List.mem_cons.mp hv with heq | hv
      · rw [heq]
        exact readsBack_of_valid w hvalid.1
      · exact readsBack_items items hvalid.2 v hv

theorem readsBack_fields :
    ∀ fields : List (String × Json), ValidFields fields → ∀ e ∈ fields, ReadsBack e.2
  | [], _ => by
      intro e he
      exact absurd he List.not_mem_nil
  | (key, w) :: fields, hvalid => by
      intro e he
      rcases List.mem_cons.mp he with heq | he
      · rw [heq]
        exact readsBack_of_valid w hvalid.1
      · exact readsBack_fields fields hvalid.2 e he

end

/-- **`JSON.parse` undoes `JSON.stringify`**, up to the order of properties. -/
theorem jsonParse_stringify {v : Json} (h : v.Valid) : jsonParse (stringify v) = some v.canon := by
  have hread := readsBack_of_valid v h ((stringify v).toList.length + 1) []
    (fun c hc => by simp at hc) (Nat.lt_succ_self _)
  rw [List.append_nil] at hread
  unfold jsonParse
  simp only [hread]
  rfl

/-! ## What the parser returns -/

theorem decimal_scale10 (m e : Int) : Decimal (scale10 m e) := by
  unfold scale10
  split
  · exact ⟨0, by rw [Rat.den_intCast]; exact Nat.one_dvd _⟩
  · refine ⟨(-e).toNat, ?_⟩
    rw [Rat.mkRat_eq_divInt]
    exact Int.natCast_dvd_natCast.mp (Rat.den_dvd _ _)

theorem Decimal.neg {q : Rat} (h : Decimal q) : Decimal (-q) := by
  obtain ⟨k, hk⟩ := h
  exact ⟨k, by rwa [Rat.neg_den]⟩

theorem decimal_of_scanMagnitude {negative : Bool} {body rest : List Char} {q : Rat}
    (h : scanMagnitude negative body = some (q, rest)) : Decimal q := by
  unfold scanMagnitude at h
  simp only at h
  split at h
  · cases h
  · simp only [Option.bind_eq_bind, Option.bind_eq_some_iff] at h
    obtain ⟨⟨fraction, tail⟩, -, ⟨e, more⟩, -, hq⟩ := h
    obtain ⟨rfl, -⟩ : _ ∧ _ := by simpa using hq
    split
    · exact (decimal_scale10 _ _).neg
    · exact decimal_scale10 _ _

theorem decimal_of_scanNumber {s rest : List Char} {q : Rat} (h : scanNumber s = some (q, rest)) :
    Decimal q := by
  by_cases hminus : s.head? = some '-'
  · obtain ⟨body, rfl⟩ := List.head?_eq_some_iff.mp hminus
    rw [scanNumber_minus] at h
    exact decimal_of_scanMagnitude h
  · rw [scanNumber_plain hminus] at h
    exact decimal_of_scanMagnitude h

theorem mem_putField {key : String} {v : Json} {fields : List (String × Json)} {e : String × Json}
    (h : e ∈ putField key v fields) : e = (key, v) ∨ e ∈ fields := by
  induction fields with
  | nil => exact Or.inl (List.mem_singleton.mp h)
  | cons d rest ih =>
      obtain ⟨k, w⟩ := d
      unfold putField at h
      split at h
      · rename_i hk
        rcases List.mem_cons.mp h with rfl | h
        · exact Or.inl (by rw [hk])
        · exact Or.inr (List.mem_cons_of_mem _ h)
      · rcases List.mem_cons.mp h with rfl | h
        · exact Or.inr List.mem_cons_self
        · exact (ih h).imp id (List.mem_cons_of_mem _)

/-- A repeated key adds no second member. -/
theorem putField_keys (key : String) (v : Json) {fields : List (String × Json)}
    (h : (fields.map (·.1)).Nodup) : ((putField key v fields).map (·.1)).Nodup := by
  induction fields with
  | nil => exact List.nodup_cons.mpr ⟨List.not_mem_nil, List.nodup_nil⟩
  | cons d rest ih =>
      obtain ⟨k, w⟩ := d
      obtain ⟨hk, hrest⟩ := List.nodup_cons.mp h
      unfold putField
      split
      · exact h
      · rename_i hne
        refine List.nodup_cons.mpr ⟨fun hmem => ?_, ih hrest⟩
        obtain ⟨e, he, hkey⟩ := List.mem_map.mp hmem
        rcases mem_putField he with rfl | he
        · exact hne hkey.symm
        · exact hk (List.mem_map.mpr ⟨e, he, hkey⟩)

/-- What the scanners return with this fuel is valid; the scanner of members keeps what was there before. -/
structure ScansValid (fuel : Nat) : Prop where
  value : ∀ {s v rest}, scanValue fuel s = some (v, rest) → v.Valid
  items : ∀ {s items rest}, scanItems fuel s = some (items, rest) → ∀ v ∈ items, v.Valid
  fields : ∀ {s fields all rest}, (fields.map (·.1)).Nodup → (∀ e ∈ fields, e.2.Valid) →
    scanFields fuel fields s = some (all, rest) → (all.map (·.1)).Nodup ∧ ∀ e ∈ all, e.2.Valid

/-- A value, one level up. -/
theorem ScansValid.value_succ {fuel : Nat} (ih : ScansValid fuel) {s rest : List Char} {v : Json}
    (h : scanValue (fuel + 1) s = some (v, rest)) : v.Valid := by
  rw [scanValue] at h
  simp only at h
  split at h
  · obtain ⟨rfl, -⟩ : _ ∧ _ := by simpa using h
    trivial
  split at h
  · obtain ⟨rfl, -⟩ : _ ∧ _ := by simpa using h
    trivial
  split at h
  · obtain ⟨rfl, -⟩ : _ ∧ _ := by simpa using h
    trivial
  split at h
  · obtain ⟨⟨chars, tail⟩, -, hv⟩ := Option.map_eq_some_iff.mp h
    obtain ⟨rfl, -⟩ : _ ∧ _ := by simpa using hv
    trivial
  split at h
  · split at h
    · obtain ⟨rfl, -⟩ : _ ∧ _ := by simpa using h
      trivial
    · obtain ⟨⟨items, tail⟩, hscan, hv⟩ := Option.map_eq_some_iff.mp h
      obtain ⟨rfl, -⟩ : _ ∧ _ := by simpa using hv
      exact validItems_iff.mpr (ih.items hscan)
  split at h
  · split at h
    · obtain ⟨rfl, -⟩ : _ ∧ _ := by simpa using h
      exact ⟨List.nodup_nil, trivial⟩
    · obtain ⟨⟨fields, tail⟩, hscan, hv⟩ := Option.map_eq_some_iff.mp h
      obtain ⟨rfl, -⟩ : _ ∧ _ := by simpa using hv
      have hnone : (([] : List (String × Json)).map (·.1)).Nodup := List.nodup_nil
      obtain ⟨hkeys, hvalid⟩ := ih.fields hnone (by simp) hscan
      exact ⟨hkeys, validFields_iff.mpr hvalid⟩
  · obtain ⟨⟨q, tail⟩, hscan, hv⟩ := Option.map_eq_some_iff.mp h
    obtain ⟨rfl, -⟩ : _ ∧ _ := by simpa using hv
    exact decimal_of_scanNumber hscan

/-- The items of an array. -/
theorem ScansValid.items_succ {fuel : Nat} (ih : ScansValid fuel) {s rest : List Char} {items : List Json}
    (h : scanItems (fuel + 1) s = some (items, rest)) : ∀ v ∈ items, v.Valid := by
  rw [scanItems] at h
  simp only [Option.bind_eq_bind, Option.bind_eq_some_iff] at h
  obtain ⟨⟨w, tail⟩, hscan, h⟩ := h
  have hw := ih.value hscan
  simp only at h
  split at h
  · obtain ⟨⟨more, tail⟩, hmore, hv⟩ := Option.map_eq_some_iff.mp h
    obtain ⟨rfl, -⟩ : _ ∧ _ := by simpa using hv
    intro v hv
    rcases List.mem_cons.mp hv with rfl | hv
    · exact hw
    · exact ih.items hmore v hv
  split at h
  · obtain ⟨rfl, -⟩ : _ ∧ _ := by simpa using h
    intro v hv
    rw [List.mem_singleton.mp hv]
    exact hw
  · cases h

/-- The members of an object: a key that comes twice takes the place of the first. -/
theorem ScansValid.fields_succ {fuel : Nat} (ih : ScansValid fuel) {s rest : List Char}
    {fields all : List (String × Json)} (hnodup : (fields.map (·.1)).Nodup) (hall : ∀ e ∈ fields, e.2.Valid)
    (h : scanFields (fuel + 1) fields s = some (all, rest)) :
    (all.map (·.1)).Nodup ∧ ∀ e ∈ all, e.2.Valid := by
  rw [scanFields] at h
  simp only at h
  split at h
  · cases h
  simp only [Option.bind_eq_bind, Option.bind_eq_some_iff] at h
  obtain ⟨⟨key, tail⟩, -, h⟩ := h
  simp only at h
  split at h
  · cases h
  obtain ⟨⟨w, more⟩, hscan, h⟩ := Option.bind_eq_some_iff.mp h
  have hw := ih.value hscan
  have hkeys := putField_keys (String.ofList key) w hnodup
  have hvalid : ∀ e ∈ putField (String.ofList key) w fields, e.2.Valid := by
    intro e he
    rcases mem_putField he with rfl | he
    · exact hw
    · exact hall e he
  simp only at h
  split at h
  · exact ih.fields hkeys hvalid h
  split at h
  · obtain ⟨rfl, -⟩ : _ ∧ _ := by simpa using h
    exact ⟨hkeys, hvalid⟩
  · cases h

/-- **What the scanners return is valid**, with fuel as the measure of the recursion. -/
theorem scansValid (fuel : Nat) : ScansValid fuel := by
  induction fuel with
  | zero =>
      constructor
      · intro s v rest h
        simp [scanValue] at h
      · intro s items rest h
        simp [scanItems] at h
      · intro s fields all rest _ _ h
        simp [scanFields] at h
  | succ fuel ih => exact ⟨ih.value_succ, ih.items_succ, ih.fields_succ⟩

/-- **Everything `JSON.parse` returns is valid.** -/
theorem valid_of_jsonParse {text : String} {v : Json} (h : jsonParse text = some v) : v.Valid := by
  unfold jsonParse at h
  simp only at h
  split at h
  · rename_i w rest hscan
    split at h
    · obtain rfl : w = v := by simpa using h
      exact (scansValid _).value hscan
    · cases h
  · cases h

/-- A property of a valid value is valid. -/
theorem Json.Valid.prop {v w : Json} {key : String} (h : v.Valid) (hw : v.prop key = .json w) : w.Valid := by
  cases v with
  | null => cases hw
  | bool b => cases hw
  | num q => cases hw
  | str s =>
      have hlength : (if key = "length" then JsValue.json (.num s.length) else .undefined) = .json w := hw
      split at hlength
      · cases hlength
        exact ⟨0, Nat.one_dvd _⟩
      · cases hlength
  | arr items =>
      have hlength : (if key = "length" then JsValue.json (.num items.length) else .undefined) = .json w := hw
      split at hlength
      · cases hlength
        exact ⟨0, Nat.one_dvd _⟩
      · cases hlength
  | obj fields =>
      have hall := validFields_iff.mp h.2
      clear h
      induction fields with
      | nil => cases hw
      | cons e rest ih =>
          rw [prop_obj, lookup] at hw
          split at hw
          · cases hw
            exact hall e List.mem_cons_self
          · exact ih hw fun d hd => hall d (List.mem_cons_of_mem e hd)

/-! ## The printed text is one line -/

/-- No character of the text is a control character. -/
def OneLine (text : String) : Prop := ∀ c ∈ text.toList, 0x20 ≤ c.toNat

/-- Characters of known text, checked one by one. -/
theorem codes_of_all {l : List Char} (h : l.all (fun c => decide (0x20 ≤ c.toNat)) = true) :
    ∀ c ∈ l, 0x20 ≤ c.toNat := by
  intro c hc
  exact of_decide_eq_true (List.all_eq_true.mp h c hc)

theorem oneLine_of_all {text : String} (h : text.toList.all (fun c => decide (0x20 ≤ c.toNat)) = true) :
    OneLine text := codes_of_all h

theorem OneLine.append {s t : String} (hs : OneLine s) (ht : OneLine t) : OneLine (s ++ t) := by
  intro c hc
  rw [String.toList_append] at hc
  rcases List.mem_append.mp hc with hc | hc
  · exact hs c hc
  · exact ht c hc

theorem OneLine.intercalate {texts : List String} (h : ∀ t ∈ texts, OneLine t) :
    OneLine (",".intercalate texts) := by
  induction texts with
  | nil =>
      intro c hc
      exact absurd hc (by simp)
  | cons t texts ih =>
      have ht := h t List.mem_cons_self
      have hrest := ih fun u hu => h u (List.mem_cons_of_mem t hu)
      cases texts with
      | nil => rwa [String.intercalate_singleton]
      | cons u texts =>
          rw [String.intercalate_cons_cons]
          exact (ht.append (oneLine_of_all (by decide))).append hrest

theorem oneLine_quoteChar (c : Char) : ∀ d ∈ quoteChar c, 0x20 ≤ d.toNat := by
  have hcontrol : ∀ n < 32, (['\\', 'u', '0', '0', Nat.digitChar (n / 16), Nat.digitChar (n % 16)].all
      fun d => decide (0x20 ≤ d.toNat)) = true := by decide
  intro d hd
  unfold quoteChar at hd
  split at hd
  · exact codes_of_all (by decide) d hd
  split at hd
  · exact codes_of_all (by decide) d hd
  split at hd
  · exact codes_of_all (by decide) d hd
  split at hd
  · exact codes_of_all (by decide) d hd
  split at hd
  · exact codes_of_all (by decide) d hd
  split at hd
  · exact codes_of_all (by decide) d hd
  split at hd
  · exact codes_of_all (by decide) d hd
  split at hd
  · rename_i h
    exact codes_of_all (hcontrol _ h) d hd
  · rename_i h
    rw [List.mem_singleton.mp hd]
    omega

theorem oneLine_quote (s : String) : OneLine (quote s) := by
  intro c hc
  rw [toList_quote] at hc
  rcases List.mem_cons.mp hc with rfl | hc
  · decide
  rcases List.mem_append.mp hc with hc | hc
  · obtain ⟨d, -, hd⟩ := List.mem_flatMap.mp hc
    exact oneLine_quoteChar d c hd
  · rw [List.mem_singleton.mp hc]
    decide

theorem oneLine_numToString (q : Rat) : OneLine (numToString q) := by
  have hdigit : ∀ c : Char, c.isDigit = true → 0x20 ≤ c.toNat := by
    intro c hc
    have hle : '0'.toNat ≤ c.toNat := (Char.isDigit_iff_toNat.mp hc).1
    exact Nat.le_trans (by decide) hle
  intro c hc
  rw [toList_numToString] at hc
  rcases List.mem_append.mp hc with hc | hc
  · split at hc
    · rw [List.mem_singleton.mp hc]
      decide
    · exact absurd hc List.not_mem_nil
  rcases List.mem_append.mp hc with hc | hc
  · exact hdigit c (Nat.isDigit_of_mem_toDigits (b := 10) (by decide) (by decide) hc)
  · split at hc
    · exact absurd hc List.not_mem_nil
    rcases List.mem_cons.mp hc with rfl | hc
    · decide
    · exact hdigit c (isDigit_of_mem_fractionDigits _ _ (Nat.mod_lt _ q.den_pos) c hc)

mutual

/-- **`JSON.stringify` prints one line.** -/
theorem oneLine_stringify : ∀ v : Json, OneLine (stringify v)
  | .null => by
      show OneLine "null"
      exact oneLine_of_all (by decide)
  | .bool b => by
      cases b with
      | true =>
          show OneLine "true"
          exact oneLine_of_all (by decide)
      | false =>
          show OneLine "false"
          exact oneLine_of_all (by decide)
  | .num q => oneLine_numToString q
  | .str s => oneLine_quote s
  | .arr items => by
      rw [stringify, stringifyItems_eq]
      have hopen : OneLine "[" := oneLine_of_all (by decide)
      have hclose : OneLine "]" := oneLine_of_all (by decide)
      refine (hopen.append (OneLine.intercalate fun t ht => ?_)).append hclose
      obtain ⟨v, hv, rfl⟩ := List.mem_map.mp ht
      exact oneLine_items items v hv
  | .obj fields => by
      rw [stringify_obj]
      have hopen : OneLine "\x7b" := oneLine_of_all (by decide)
      have hcolon : OneLine ":" := oneLine_of_all (by decide)
      have hclose : OneLine "\x7d" := oneLine_of_all (by decide)
      refine (hopen.append (OneLine.intercalate fun t ht => ?_)).append hclose
      obtain ⟨e, he, rfl⟩ := List.mem_map.mp ht
      exact ((oneLine_quote e.1).append hcolon).append
        (oneLine_fields fields e (mem_enumerationOrder.mp he))

theorem oneLine_items : ∀ items : List Json, ∀ v ∈ items, OneLine (stringify v)
  | [] => by
      intro v hv
      exact absurd hv List.not_mem_nil
  | w :: items => by
      intro v hv
      rcases List.mem_cons.mp hv with heq | hv
      · rw [heq]
        exact oneLine_stringify w
      · exact oneLine_items items v hv

theorem oneLine_fields :
    ∀ fields : List (String × Json), ∀ e ∈ fields, OneLine (stringify e.2)
  | [] => by
      intro e he
      exact absurd he List.not_mem_nil
  | (key, w) :: fields => by
      intro e he
      rcases List.mem_cons.mp he with heq | he
      · rw [heq]
        exact oneLine_stringify w
      · exact oneLine_fields fields e he

end

/-! ## Values that come back as they were -/

/-- The value is read back unchanged. -/
def Json.Plain (v : Json) : Prop := v.Valid ∧ v.canon = v

theorem jsonParse_stringify_plain {v : Json} (h : v.Plain) : jsonParse (stringify v) = some v := by
  rw [jsonParse_stringify h.1, h.2]

@[simp] theorem plain_null : Json.null.Plain := ⟨trivial, rfl⟩
@[simp] theorem plain_str (s : String) : (Json.str s).Plain := ⟨trivial, rfl⟩

theorem plain_num {q : Rat} (h : Decimal q) : (Json.num q).Plain := ⟨h, rfl⟩

theorem decimal_natCast (n : Nat) : Decimal n := ⟨0, Nat.one_dvd _⟩

@[simp] theorem plain_natCast (n : Nat) : (Json.num n).Plain := plain_num (decimal_natCast n)

theorem plain_arr {items : List Json} (h : ∀ v ∈ items, v.Plain) : (Json.arr items).Plain := by
  refine ⟨validItems_iff.mpr fun v hv => (h v hv).1, ?_⟩
  rw [Json.canon, canonItems_eq, List.map_congr_left fun v hv => (h v hv).2, List.map_id']

/-- A property's value is plain, if there is one to print. -/
def JsValue.Plain (v : JsValue) : Prop := ∀ w, v = .json w → w.Plain

@[simp] theorem plainValue_undefined : JsValue.undefined.Plain := by
  rintro w heq
  cases heq

@[simp] theorem plainValue_json {v : Json} : (JsValue.json v).Plain ↔ v.Plain := by
  constructor
  · intro h
    exact h v rfl
  · rintro h w heq
    cases heq
    exact h

theorem JsValue.Plain.whenTruthy {v : JsValue} (h : v.Plain) : v.whenTruthy.Plain := by
  unfold JsValue.whenTruthy
  split
  · exact h
  · exact plainValue_undefined

/-- The keys of an object literal that is sent, in their order. -/
theorem wireObject_keys (fields : List (String × JsValue)) :
    ((fields.filterMap fun f => f.2.onWire.map fun v => (f.1, v)).map (·.1)).Sublist
      (fields.map (·.1)) := by
  induction fields with
  | nil => exact List.Sublist.refl _
  | cons f fields ih =>
      rw [List.map_cons]
      cases hf : f.2.onWire with
      | none =>
          rw [List.filterMap_cons_none (by rw [hf]; rfl)]
          exact ih.cons f.1
      | some v =>
          rw [List.filterMap_cons_some (b := (f.1, v)) (by rw [hf]; rfl), List.map_cons]
          exact ih.cons_cons f.1

/-- An object literal without array indices, its values plain. -/
theorem plain_wireObject {fields : List (String × JsValue)} (hkeys : (fields.map (·.1)).Nodup)
    (h : ∀ f ∈ fields, arrayIndex f.1 = none ∧ f.2.Plain) : (wireObject fields).Plain := by
  have hmem : ∀ e ∈ fields.filterMap (fun f => f.2.onWire.map fun v => (f.1, v)),
      arrayIndex e.1 = none ∧ e.2.Plain := by
    intro e he
    obtain ⟨f, hf, hsome⟩ := List.mem_filterMap.mp he
    obtain ⟨v, hv, rfl⟩ := Option.map_eq_some_iff.mp hsome
    refine ⟨(h f hf).1, ?_⟩
    cases hf₂ : f.2 with
    | undefined =>
        rw [hf₂] at hv
        cases hv
    | nan =>
        rw [hf₂] at hv
        cases hv
        exact plain_null
    | json w =>
        rw [hf₂] at hv
        cases hv
        exact (h f hf).2 v hf₂
  refine ⟨⟨hkeys.sublist (wireObject_keys fields), validFields_iff.mpr fun e he => (hmem e he).2.1⟩, ?_⟩
  unfold wireObject
  rw [Json.canon, canonFields_eq, List.map_congr_left (g := id) fun e he => by
    show (e.1, e.2.canon) = e
    rw [(hmem e he).2.2], List.map_id, enumerationOrder_of_names fun e he => (hmem e he).1]

end Js
