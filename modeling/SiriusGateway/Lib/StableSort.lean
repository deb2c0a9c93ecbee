import Mathlib.Data.List.Find
import Mathlib.Data.List.Sort
import Mathlib.Data.Prod.Lex

/-!
# `Lib.StableSort` — the stable sort of a list by a key

`IsStableSort key l out`: `out` holds the members of `l`, ascending in the key, those of one key in the
order of `l`. There is one such list (`IsStableSort.unique`), so any stable algorithm computes it.

## Contents
- **The relation.** `IsStableSort`, its uniqueness, and what it keeps.
- **Algorithms.** The merge sort and the insertion sort of the library.
- **Labels.** Keys that number the members: in the sort, the member of a key stands at that position
  (`IsStableSort.getElem?_eq_find?`).
- **Two keys.** The members with a property in front of the others (`IsStableSort.append`).
-/

namespace List

variable {α K : Type} [LinearOrder K]

/-- `out` is the stable ascending sort of `l` by `key`. -/
structure IsStableSort (key : α → K) (l out : List α) : Prop where
  perm : out.Perm l
  sorted : out.Pairwise fun a b => key a ≤ key b
  stable : ∀ k, out.filter (fun a => key a = k) = l.filter (fun a => key a = k)

namespace IsStableSort

/-! ## The relation -/

variable {key : α → K} {l out out' : List α}

theorem mem_iff (h : IsStableSort key l out) {a : α} : a ∈ out ↔ a ∈ l := h.perm.mem_iff

/-- The first member has the least key. -/
theorem head_le {first : α} {rest : List α} (h : (first :: rest).Pairwise fun a b => key a ≤ key b) {a : α}
    (ha : a ∈ first :: rest) : key first ≤ key a := by
  obtain rfl | ha := List.mem_cons.mp ha
  · exact le_rfl
  · exact (List.pairwise_cons.mp h).1 a ha

/-- A member of a smaller key stands in front. -/
theorem lt_of_key_lt (h : IsStableSort key l out) {i j : ℕ} (hi : i < out.length) (hj : j < out.length)
    (hkey : key out[i] < key out[j]) : i < j := by
  by_contra hle
  rcases Nat.lt_or_eq_of_le (Nat.le_of_not_lt hle) with hji | rfl
  · have hsorted := List.pairwise_iff_getElem.mp h.sorted j i hj hi hji
    exact absurd hkey (not_lt.mpr hsorted)
  · exact lt_irrefl _ hkey

/-- Two sorted lists with the same members of each key, in the same order, are one list. -/
theorem eq_of_sorted (hout : out.Pairwise fun a b => key a ≤ key b)
    (hout' : out'.Pairwise fun a b => key a ≤ key b)
    (hsame : ∀ k, out.filter (fun a => key a = k) = out'.filter (fun a => key a = k)) : out = out' := by
  have hmem : ∀ a, a ∈ out ↔ a ∈ out' := by
    intro a
    have := congrArg (a ∈ ·) (hsame (key a))
    simpa [List.mem_filter] using this
  induction out generalizing out' with
  | nil =>
      cases out' with
      | nil => rfl
      | cons b out' => exact absurd ((hmem b).mpr List.mem_cons_self) List.not_mem_nil
  | cons a out ih =>
      cases out' with
      | nil => exact absurd ((hmem a).mp List.mem_cons_self) List.not_mem_nil
      | cons b out' =>
          have hkey : key a = key b :=
            le_antisymm (head_le hout ((hmem b).mpr List.mem_cons_self))
              (head_le hout' ((hmem a).mp List.mem_cons_self))
          have hfirst := hsame (key a)
          rw [List.filter_cons_of_pos (by simp), List.filter_cons_of_pos (by simp [hkey])] at hfirst
          obtain ⟨rfl, -⟩ := List.cons.inj hfirst
          -- without their common head the lists still agree at each key
          have hrest : ∀ k, out.filter (fun a => key a = k) = out'.filter (fun a => key a = k) := by
            intro k
            have hk := hsame k
            rw [List.filter_cons, List.filter_cons] at hk
            split at hk
            · exact (List.cons.inj hk).2
            · exact hk
          have hmem' : ∀ a, a ∈ out ↔ a ∈ out' := by
            intro a
            have := congrArg (a ∈ ·) (hrest (key a))
            simpa [List.mem_filter] using this
          rw [ih (List.pairwise_cons.mp hout).2 (List.pairwise_cons.mp hout').2 hrest hmem']

/-- **There is one stable sort.** -/
theorem unique (h : IsStableSort key l out) (h' : IsStableSort key l out') : out = out' :=
  eq_of_sorted h.sorted h'.sorted fun k => (h.stable k).trans (h'.stable k).symm

/-- Keys in the same order sort alike. -/
theorem of_le_iff {K' : Type} [LinearOrder K'] {key' : α → K'} (h : IsStableSort key l out)
    (hkey : ∀ a b, key' a ≤ key' b ↔ key a ≤ key b) : IsStableSort key' l out where
  perm := h.perm
  sorted := h.sorted.imp fun hle => (hkey _ _).mpr hle
  stable := by
    intro k
    by_cases hk : ∃ a ∈ l, key' a = k
    · obtain ⟨a, -, rfl⟩ := hk
      have heq : ∀ b, key' b = key' a ↔ key b = key a := by
        intro b
        simp only [le_antisymm_iff, hkey]
      simpa only [heq] using h.stable (key a)
    · push Not at hk
      have hnone : ∀ m : List α, (∀ a, a ∈ m ↔ a ∈ l) → m.filter (fun a => key' a = k) = [] := by
        intro m hm
        refine List.filter_eq_nil_iff.mpr fun a ha => ?_
        simpa using hk a ((hm a).mp ha)
      rw [hnone out fun _ => h.mem_iff, hnone l fun _ => Iff.rfl]

/-- What is sorted by a key of its members' images is sorted behind them. -/
theorem map {β : Type} {key' : β → K} (f : α → β) (h : IsStableSort key l out)
    (hkey : ∀ a ∈ l, key' (f a) = key a) : IsStableSort key' (l.map f) (out.map f) where
  perm := h.perm.map f
  sorted := by
    refine List.pairwise_map.mpr (List.Pairwise.imp_of_mem ?_ h.sorted)
    intro a b ha hb hle
    rw [hkey a (h.mem_iff.mp ha), hkey b (h.mem_iff.mp hb)]
    exact hle
  stable := by
    intro k
    have hfilter : ∀ m : List α, (∀ a ∈ m, a ∈ l) →
        (m.map f).filter (fun b => key' b = k) = (m.filter fun a => key a = k).map f := by
      intro m hm
      rw [List.filter_map]
      refine congrArg _ (List.filter_congr fun a ha => ?_)
      simp only [Function.comp_apply, hkey a (hm a ha)]
    rw [hfilter out fun a ha => h.mem_iff.mp ha, hfilter l fun a ha => ha, h.stable]

/-! ## Algorithms -/

/-- A sorted permutation that keeps every sorted sublist is the stable sort. -/
theorem of_sublist (hperm : out.Perm l) (hsorted : out.Pairwise fun a b => key a ≤ key b)
    (hkeeps : ∀ c : List α, (c.Pairwise fun a b => key a ≤ key b) → c.Sublist l → c.Sublist out) :
    IsStableSort key l out where
  perm := hperm
  sorted := hsorted
  stable := by
    intro k
    have hkeep : (l.filter fun a => key a = k).Sublist out := by
      refine hkeeps _ ?_ List.filter_sublist
      refine List.pairwise_of_forall_mem_list fun a ha b hb => ?_
      have hka : key a = k := by simpa using List.of_mem_filter ha
      have hkb : key b = k := by simpa using List.of_mem_filter hb
      rw [hka, hkb]
    have hsub := hkeep.filter fun a => key a = k
    rw [List.filter_filter] at hsub
    simp only [Bool.and_self] at hsub
    exact (hsub.eq_of_length ((hperm.filter _).length_eq.symm)).symm

theorem insertionSort (key : α → K) (l : List α) :
    IsStableSort key l (l.insertionSort fun a b => key a ≤ key b) := by
  have : Std.Total fun a b => key a ≤ key b := ⟨fun a b => le_total (key a) (key b)⟩
  have : IsTrans α fun a b => key a ≤ key b := ⟨fun a b c => le_trans⟩
  refine of_sublist (List.perm_insertionSort _ l) (List.pairwise_insertionSort _ l) ?_
  intro c hc hsub
  exact List.sublist_insertionSort hc hsub

theorem mergeSort (key : α → K) (l : List α) :
    IsStableSort key l (l.mergeSort fun a b => decide (key a ≤ key b)) := by
  have htrans : ∀ a b c : α, decide (key a ≤ key b) = true → decide (key b ≤ key c) = true →
      decide (key a ≤ key c) = true := by
    simp only [decide_eq_true_eq]
    exact fun a b c => le_trans
  have htotal : ∀ a b : α, (decide (key a ≤ key b) || decide (key b ≤ key a)) = true := by
    simp only [Bool.or_eq_true, decide_eq_true_eq]
    exact fun a b => le_total (key a) (key b)
  refine of_sublist (List.mergeSort_perm l _) ?_ ?_
  · simpa only [decide_eq_true_eq] using List.pairwise_mergeSort htrans htotal l
  · intro c hc hsub
    refine List.sublist_mergeSort htrans htotal ?_ hsub
    simpa only [decide_eq_true_eq] using hc

/-! ## Labels -/

/-- Where the keys are the positions, the member of a key stands at it. -/
theorem find?_eq_getElem?_of_positions {label : α → ℕ} (h : l.map label = List.range l.length) (k : ℕ) :
    l.find? (fun a => label a = k) = l[k]? := by
  have hlabel : ∀ (i : ℕ) (hi : i < l.length), label l[i] = i := by
    intro i hi
    have := congrArg (·[i]?) h
    simpa [hi] using this
  by_cases hk : k < l.length
  · rw [List.getElem?_eq_getElem hk, List.find?_eq_some_iff_getElem]
    refine ⟨by simp [hlabel k hk], k, hk, rfl, ?_⟩
    intro j hj
    simp [hlabel j (by omega), Nat.ne_of_lt hj]
  · rw [List.getElem?_eq_none (by omega), List.find?_eq_none]
    intro a ha
    obtain ⟨i, hi, rfl⟩ := List.mem_iff_getElem.mp ha
    simp only [hlabel i hi, decide_eq_true_eq]
    omega

/-- Where the keys number the members in some order, the sort has the member of a key at that position. -/
theorem getElem?_eq_find? {label : α → ℕ} (h : IsStableSort label l out)
    (hlabels : (l.map label).Perm (List.range l.length)) (k : ℕ) :
    out[k]? = l.find? (fun a => label a = k) := by
  have hlength : out.length = l.length := h.perm.length_eq
  have hpositions : out.map label = List.range out.length := by
    apply List.Perm.eq_of_pairwise' (r := (· ≤ ·))
    · exact List.pairwise_map.mpr h.sorted
    · exact List.pairwise_lt_range.imp le_of_lt
    · rw [hlength]
      exact (h.perm.map label).trans hlabels
  have hnodup : (l.map label).Nodup := hlabels.nodup_iff.mpr List.nodup_range
  rw [← find?_eq_getElem?_of_positions hpositions]
  refine (List.find?_eq_find?_of_perm h.perm.symm ?_).symm
  intro a ha b hb
  simp only [decide_eq_true_eq, Set.mem_ofPred_eq] at ha hb
  exact List.inj_on_of_nodup_map hnodup ha.1 hb.1 (ha.2.trans hb.2.symm)

/-! ## Two keys -/

/-- The members of a key that has two parts. -/
theorem filter_two_keys (p : α → Bool) (key : α → K) (n : ℕ) (x : K) (m : List α) :
    m.filter (fun a => toLex ((if p a then 0 else 1 : ℕ), key a) = toLex (n, x)) =
      if n = 0 then (m.filter p).filter (fun a => key a = x)
      else if n = 1 then (m.filter fun a => !p a).filter (fun a => key a = x) else [] := by
  simp only [toLex_inj, Prod.mk.injEq]
  split
  · subst n
    rw [List.filter_filter]
    refine List.filter_congr fun a _ => ?_
    cases p a <;> simp
  · rename_i hn
    split
    · subst n
      rw [List.filter_filter]
      refine List.filter_congr fun a _ => ?_
      cases p a <;> simp
    · rename_i hn'
      refine List.filter_eq_nil_iff.mpr fun a _ => ?_
      cases p a <;> simp [Ne.symm hn, Ne.symm hn']

/-- The members with a property, sorted, and the others behind them, sorted: the stable sort of all by the
    property first and the key second. -/
theorem append {p : α → Bool} (h : IsStableSort key (l.filter p) out)
    (h' : IsStableSort key (l.filter fun a => !p a) out') :
    IsStableSort (fun a => toLex ((if p a then 0 else 1 : ℕ), key a)) l (out ++ out') where
  perm := (h.perm.append h'.perm).trans (List.filter_append_perm p l)
  sorted := by
    refine List.pairwise_append.mpr ⟨?_, ?_, ?_⟩
    · refine List.Pairwise.imp_of_mem ?_ h.sorted
      intro a b ha hb hle
      have hpa := List.of_mem_filter (h.mem_iff.mp ha)
      have hpb := List.of_mem_filter (h.mem_iff.mp hb)
      simpa [Prod.Lex.toLex_le_toLex, hpa, hpb] using hle
    · refine List.Pairwise.imp_of_mem ?_ h'.sorted
      intro a b ha hb hle
      have hpa := List.of_mem_filter (h'.mem_iff.mp ha)
      have hpb := List.of_mem_filter (h'.mem_iff.mp hb)
      simp only [Bool.not_eq_true'] at hpa hpb
      simpa [Prod.Lex.toLex_le_toLex, hpa, hpb] using hle
    · intro a ha b hb
      have hpa := List.of_mem_filter (h.mem_iff.mp ha)
      have hpb := List.of_mem_filter (h'.mem_iff.mp hb)
      simp only [Bool.not_eq_true'] at hpb
      simp [Prod.Lex.toLex_le_toLex, hpa, hpb]
  stable := by
    intro k
    obtain ⟨⟨n, x⟩, rfl⟩ := toLex.surjective k
    have hout : out.filter p = out ∧ out.filter (fun a => !p a) = [] := by
      refine ⟨List.filter_eq_self.mpr fun a ha => List.of_mem_filter (h.mem_iff.mp ha), ?_⟩
      refine List.filter_eq_nil_iff.mpr fun a ha => ?_
      simpa using List.of_mem_filter (h.mem_iff.mp ha)
    have hout' : out'.filter p = [] ∧ out'.filter (fun a => !p a) = out' := by
      have hnot : ∀ a ∈ out', p a = false := fun a ha => by
        simpa using List.of_mem_filter (h'.mem_iff.mp ha)
      refine ⟨List.filter_eq_nil_iff.mpr fun a ha => ?_, List.filter_eq_self.mpr fun a ha => ?_⟩
      · simp [hnot a ha]
      · simp [hnot a ha]
    rw [List.filter_append, filter_two_keys, filter_two_keys, filter_two_keys, hout.1, hout.2, hout'.1, hout'.2]
    split
    · rw [h.stable, List.filter_nil, List.append_nil]
    · split
      · rw [h'.stable, List.filter_nil, List.nil_append]
      · rfl

end IsStableSort

end List
