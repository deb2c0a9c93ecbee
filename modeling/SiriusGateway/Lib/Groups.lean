import SiriusGateway.Lib.Upserts

/-!
# `Lib.Groups` — records gathered under their keys

Records arrive one after the other. A record of a new key opens a group, a record of a known key extends the group
where it stands (`gather`). What is left is one group for each key, in the order of first occurrence, and a group
is what the records of its key make of a fresh one (`foldl_gather`): how records of different keys are interleaved
makes no difference to it.
-/

namespace List

variable {α β κ : Type}

theorem keyOf_foldl_extend {keyOf : β → κ} {extend : β → α → β} (hextend : ∀ g a, keyOf (extend g a) = keyOf g)
    (records : List α) (g : β) : keyOf (records.foldl extend g) = keyOf g := by
  induction records generalizing g with
  | nil => rfl
  | cons a rest ih => rw [foldl_cons, ih, hextend]

section Gather

variable [DecidableEq κ]

/-- The groups after one more record. -/
def gather (key : α → κ) (keyOf : β → κ) (init : κ → β) (extend : β → α → β) (groups : List β) (a : α) : List β :=
  if key a ∈ groups.map keyOf then groups.map fun g => if keyOf g = key a then extend g a else g
  else groups ++ [extend (init (key a)) a]

variable {key : α → κ} {keyOf : β → κ} {init : κ → β} {extend : β → α → β}

/-- **Gathering.** One group for each key, made of the records of the key in their order. -/
theorem foldl_gather (hinit : ∀ k, keyOf (init k) = k) (hextend : ∀ g a, keyOf (extend g a) = keyOf g)
    (records : List α) :
    records.foldl (gather key keyOf init extend) [] =
      (records.map key).eraseDups.map fun k => (records.filter fun a => key a = k).foldl extend (init k) := by
  induction records using List.reverseRecOn with
  | nil => rfl
  | append_singleton records a ih =>
      have hkeys : ((records.map key).eraseDups.map fun k =>
          (records.filter fun a => key a = k).foldl extend (init k)).map keyOf = (records.map key).eraseDups := by
        rw [map_map]
        conv_rhs => rw [← map_id (records.map key).eraseDups]
        exact map_congr_left fun k _ => (keyOf_foldl_extend hextend _ _).trans (hinit k)
      have hone : ∀ k, ((records ++ [a]).filter fun b => key b = k).foldl extend (init k) =
          if key a = k then extend ((records.filter fun b => key b = k).foldl extend (init k)) a
          else (records.filter fun b => key b = k).foldl extend (init k) := by
        intro k
        rw [filter_append, foldl_append]
        by_cases hk : key a = k
        · simp [hk]
        · simp [hk]
      rw [foldl_append, foldl_cons, foldl_nil, ih, map_append, map_singleton, eraseDups_concat]
      unfold gather
      rw [hkeys]
      by_cases hmem : key a ∈ records.map key
      · rw [if_pos (mem_eraseDups.mpr hmem), if_pos hmem, map_map]
        refine map_congr_left fun k _ => ?_
        rw [hone]
        show (if keyOf _ = key a then _ else _) = _
        rw [keyOf_foldl_extend hextend, hinit]
        by_cases hk : k = key a
        · rw [if_pos hk, if_pos hk.symm]
        · rw [if_neg hk, if_neg (Ne.symm hk)]
      · rw [if_neg (mt mem_eraseDups.mp hmem), if_neg hmem, map_append, map_singleton, hone, if_pos rfl]
        have hnone : records.filter (fun b => decide (key b = key a)) = [] := by
          rw [filter_eq_nil_iff]
          intro b hb hkey
          exact hmem (of_decide_eq_true hkey ▸ mem_map_of_mem hb)
        rw [hnone]
        congr 1
        refine map_congr_left fun k hk => ?_
        rw [hone, if_neg]
        rintro rfl
        exact hmem (mem_eraseDups.mp hk)

end Gather

end List
