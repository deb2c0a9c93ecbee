import Mathlib.Data.List.Basic
import Mathlib.Data.List.DropRight
import Mathlib.Data.List.Forall2
import Mathlib.Data.List.Induction
import Mathlib.Order.Lattice

/-!
# `Lib.Lists` — general facts about lists

## Contents
- **Splitting.** What `splitOn` makes of two parts joined by one separator: it gives the parts back exactly
  when neither contains the separator (`take_two_splitOn_iff`), and a list can be split as its parts arrive,
  the last piece carried over (`splitOn_append`).
- **First matches.** A member is what `find?` finds exactly when no element before it matches
  (`find?_eq_some_iff_takeWhile`).
- **Optional values.** When two have the same image (`Option.map_eq_map_of_transfers`), and lists all of whose values
  are there (`eq_map_some_of_mapM`).
- **Filter maps.** One element at a time, and when one filter map keeps at least what another keeps
  (`filterMap_sublist_of_forall₂`).
- **Collecting.** What is collected of every beginning of a list, by what each element adds
  (`Collects.forall_prefix_iff`).
- **Merging.** Pushing what has not been seen (`pushUnseen`): nothing is lost, and a key stands twice exactly
  when it stood twice before.
- **Maxima.** Folding `max` over a list bounds its start and its members (`le_foldl_max`).
- **Places.** What stands around an element (`exists_append_of_getElem?`), and at the end of a longer list
  (`getElem?_concat_cases`).
- **Windows.** A window of at most `n` elements, into which a new one is pushed and from whose front the oldest
  falls out; while it holds the last `n` of what was pushed, a push keeps it so (`pushWindow_rtake`).
-/

variable {α : Type} [DecidableEq α]

/-! ## Splitting -/

/-- A segment of a split list does not contain the separator. -/
theorem List.not_mem_of_mem_splitOn {sep : α} {l seg : List α} (h : seg ∈ l.splitOn sep) :
    sep ∉ seg := by
  induction l generalizing seg with
  | nil =>
      rw [List.splitOn_nil, List.mem_singleton] at h
      exact h ▸ List.not_mem_nil
  | cons x rest ih =>
      rw [List.splitOn_cons_eq_if_modifyHead] at h
      by_cases hx : x = sep
      · rw [if_pos (beq_iff_eq.mpr hx)] at h
        rcases List.mem_cons.mp h with rfl | h
        · exact List.not_mem_nil
        · exact ih h
      · rw [if_neg (fun he => hx (beq_iff_eq.mp he))] at h
        obtain ⟨first, more, heq⟩ := List.exists_cons_of_ne_nil (List.splitOn_ne_nil sep rest)
        rw [heq, List.modifyHead_cons] at h
        rcases List.mem_cons.mp h with rfl | h
        · have hfirst : sep ∉ first := ih (heq ▸ List.mem_cons_self)
          simp only [List.mem_cons, not_or]
          exact ⟨fun he => hx he.symm, hfirst⟩
        · exact ih (heq ▸ List.mem_cons_of_mem first h)

/-- **Two joined parts come back as the first two segments exactly when both are free of the separator.** -/
theorem List.take_two_splitOn_iff {sep : α} {xs ys : List α} :
    ((xs ++ sep :: ys).splitOn sep).take 2 = [xs, ys] ↔ sep ∉ xs ∧ sep ∉ ys := by
  constructor
  · intro h
    have hxs : sep ∉ xs := List.not_mem_of_mem_splitOn
      (List.mem_of_mem_take (h ▸ List.mem_cons_self))
    have hys : sep ∉ ys := List.not_mem_of_mem_splitOn
      (List.mem_of_mem_take (h ▸ List.mem_cons_of_mem xs List.mem_cons_self))
    exact ⟨hxs, hys⟩
  · rintro ⟨hxs, hys⟩
    rw [List.splitOn_append_cons_self_of_not_mem hxs, List.splitOn_eq_singleton hys]
    rfl

/-- A list without the separator is one piece; any other has a last separator. -/
theorem List.exists_last_sep (sep : α) (xs : List α) :
    sep ∉ xs ∨ ∃ pre post, xs = pre ++ sep :: post ∧ sep ∉ post := by
  induction xs with
  | nil => exact Or.inl List.not_mem_nil
  | cons x rest ih =>
      rcases ih with hnot | ⟨pre, post, rfl, hpost⟩
      · by_cases hx : sep = x
        · subst hx
          exact Or.inr ⟨[], rest, rfl, hnot⟩
        · exact Or.inl (by simp [hx, hnot])
      · exact Or.inr ⟨x :: pre, post, rfl, hpost⟩

/-- **Splitting as the text arrives**: the pieces of the first part, and its last piece continued. -/
theorem List.splitOn_append (sep : α) (xs ys : List α) :
    (xs ++ ys).splitOn sep =
      (xs.splitOn sep).dropLast ++ ((xs.splitOn sep).getLastD [] ++ ys).splitOn sep := by
  rcases List.exists_last_sep sep xs with hnot | ⟨pre, post, rfl, hpost⟩
  · rw [List.splitOn_eq_singleton hnot]
    rfl
  · rw [List.append_assoc, List.cons_append, List.splitOn_append_cons_self,
      List.splitOn_append_cons_self, List.splitOn_eq_singleton hpost, List.dropLast_concat,
      List.getLastD_concat]

/-- Two lists with one first separator each fall into the same two parts. -/
theorem List.append_cons_inj_of_not_mem {β : Type} {sep : β} {xs ys xs' ys' : List β} (hxs : sep ∉ xs)
    (hxs' : sep ∉ xs') (h : xs ++ sep :: ys = xs' ++ sep :: ys') : xs = xs' ∧ ys = ys' := by
  have hfirst : xs = xs' := by
    rcases List.append_eq_append_iff.mp h with ⟨rest, hsplit, htail⟩ | ⟨rest, hsplit, htail⟩
    · cases rest with
      | nil => rw [hsplit, List.append_nil]
      | cons a rest =>
          obtain ⟨rfl, -⟩ := List.cons.inj htail
          exact absurd (hsplit ▸ List.mem_append_right _ List.mem_cons_self) hxs'
    · cases rest with
      | nil => rw [hsplit, List.append_nil]
      | cons a rest =>
          obtain ⟨rfl, -⟩ := List.cons.inj htail
          exact absurd (hsplit ▸ List.mem_append_right _ List.mem_cons_self) hxs
  rw [hfirst] at h
  exact ⟨hfirst, (List.cons.inj (List.append_cancel_left h)).2⟩

theorem List.getLastD_append_of_ne_nil {α : Type} {l r : List α} {a : α} (h : r ≠ []) :
    (l ++ r).getLastD a = r.getLastD a := by
  rw [List.getLastD_eq_getLast?, List.getLastD_eq_getLast?, List.getLast?_append_of_ne_nil l h]

/-! ## First matches -/

/-- **A matching member is the first match exactly when nothing before it matches.** -/
theorem List.find?_eq_some_iff_takeWhile {p : α → Bool} {l : List α} {a : α} (ha : a ∈ l)
    (hp : p a = true) : l.find? p = some a ↔ ∀ b ∈ l.takeWhile (· ≠ a), ¬ p b = true := by
  induction l with
  | nil => exact absurd ha List.not_mem_nil
  | cons x rest ih =>
      by_cases hx : x = a
      · subst hx
        simp [hp]
      · have ha' : a ∈ rest := (List.mem_cons.mp ha).resolve_left fun h => hx h.symm
        rw [List.takeWhile_cons_of_pos (by simpa using hx)]
        by_cases hpx : p x = true
        · rw [List.find?_cons_of_pos hpx]
          constructor
          · exact fun h => absurd (Option.some.inj h) hx
          · exact fun h => absurd hpx (h x List.mem_cons_self)
        · rw [List.find?_cons_of_neg hpx, ih ha', List.forall_mem_cons]
          exact ⟨fun h => ⟨hpx, h⟩, fun h => h.2⟩

/-- A filter map that keeps every element is a map. -/
theorem List.map_filterMap_eq_map_iff {α β γ : Type} {f : α → Option β} {g : β → γ} {h : α → γ}
    {l : List α} : (l.filterMap f).map g = l.map h ↔ ∀ a ∈ l, ∃ b, f a = some b ∧ g b = h a := by
  constructor
  · intro heq
    have hlen : (l.filterMap f).length = l.length := by
      simpa only [List.length_map] using congrArg List.length heq
    have hsome := List.filterMap_length_eq_length.mp hlen
    induction l with
    | nil => exact fun a ha => absurd ha List.not_mem_nil
    | cons x rest ih =>
        obtain ⟨b, hb⟩ := Option.isSome_iff_exists.mp (hsome x List.mem_cons_self)
        rw [List.filterMap_cons_some hb, List.map_cons, List.map_cons, List.cons.injEq] at heq
        rw [List.filterMap_cons_some hb, List.length_cons, List.length_cons, Nat.succ.injEq] at hlen
        refine List.forall_mem_cons.mpr ⟨⟨b, hb, heq.1⟩, ?_⟩
        exact ih heq.2 hlen fun a ha => hsome a (List.mem_cons_of_mem x ha)
  · intro hall
    induction l with
    | nil => rfl
    | cons x rest ih =>
        obtain ⟨⟨b, hb, hg⟩, hrest⟩ := List.forall_mem_cons.mp hall
        rw [List.filterMap_cons_some hb, List.map_cons, List.map_cons, hg, ih hrest]

/-- Lists whose items agree under a condition agree when all items meet it. -/
theorem List.map_eq_map_iff_of_forall₂ {α γ δ : Type} {f : γ → δ} {g : α → δ} {P : α → Prop} {l : List α}
    {cs : List γ} (h : List.Forall₂ (fun a c => f c = g a ↔ P a) l cs) :
    cs.map f = l.map g ↔ ∀ a ∈ l, P a := by
  induction h with
  | nil => simp
  | cons hac _ ih => rw [List.map_cons, List.map_cons, List.cons.injEq, hac, ih, List.forall_mem_cons]

/-- Two lists that correspond are related exactly when the first one's members are such that they would be. -/
theorem List.forall₂_iff_forall_left {β γ : Type} {R S : β → γ → Prop} {Q : β → Prop} {l : List β} {l' : List γ}
    (h : List.Forall₂ R l l') (hiff : ∀ b c, R b c → (S b c ↔ Q b)) : List.Forall₂ S l l' ↔ ∀ b ∈ l, Q b := by
  induction h with
  | nil => simp
  | cons hbc _ ih => rw [List.forall₂_cons, List.forall_mem_cons, hiff _ _ hbc, ih]

/-! ## Optional values -/

/-- Two optional values have the same image when each has a counterpart of the same image in the other. -/
theorem Option.map_eq_map_of_transfers {β γ : Type} {f : β → γ} {o o' : Option β}
    (h : ∀ x, o = some x → ∃ x', o' = some x' ∧ f x' = f x)
    (h' : ∀ x', o' = some x' → ∃ x, o = some x ∧ f x = f x') : o.map f = o'.map f := by
  cases ho : o with
  | none =>
      cases ho' : o' with
      | none => rfl
      | some x' =>
          obtain ⟨x, hx, -⟩ := h' x' ho'
          exact absurd (ho.symm.trans hx) (by simp)
  | some x =>
      obtain ⟨x', hx', hf⟩ := h x ho
      rw [hx', Option.map_some, Option.map_some, hf]

/-- A list all of whose values are there. -/
theorem List.eq_map_some_of_mapM {β : Type} {l : List (Option β)} {values : List β}
    (h : l.mapM id = some values) : l = values.map some := by
  induction l generalizing values with
  | nil =>
      obtain rfl : [] = values := by simpa using h
      rfl
  | cons o rest ih =>
      simp only [List.mapM_cons, id, Option.bind_eq_bind, Option.bind_eq_some_iff, Option.pure_def] at h
      obtain ⟨first, rfl, others, hothers, hvalues⟩ := h
      obtain rfl := Option.some.inj hvalues
      rw [ih hothers]
      rfl

/-! ## Filter maps -/

/-- `filterMap` one element at a time. -/
theorem List.filterMap_cons_eq_append {β γ : Type} (f : β → Option γ) (b : β) (l : List β) :
    (b :: l).filterMap f = (f b).toList ++ l.filterMap f := by
  rw [List.filterMap_cons]
  cases f b <;> rfl

section Collecting

variable {β γ : Type} {collect : List β → List γ} {adds : List β → β → List γ}

/-- A list is collected element by element; what an element adds may depend on those before it. -/
structure List.Collects (collect : List β → List γ) (adds : List β → β → List γ) : Prop where
  nil : collect [] = []
  step : ∀ before b, collect (before ++ [b]) = collect before ++ adds before b

/-- Collected from the images of the elements. -/
theorem List.Collects.map {δ : Type} (h : List.Collects collect adds) (f : δ → β) :
    List.Collects (fun l => collect (l.map f)) fun before d => adds (before.map f) (f d) := by
  refine ⟨h.nil, fun before d => ?_⟩
  rw [List.map_append]
  exact h.step (before.map f) (f d)

/-- What is collected of every beginning is what its elements owe, exactly when each element adds what it
    owes. -/
theorem List.Collects.forall_prefix_iff (h : List.Collects collect adds) {owed : β → List γ} {l : List β} :
    (∀ before after, l = before ++ after → collect before = before.flatMap owed) ↔
      ∀ before b after, l = before ++ b :: after → adds before b = owed b := by
  constructor
  · intro hall before b after hl
    have hbefore := hall before (b :: after) hl
    have hwith := hall (before ++ [b]) after (by rw [hl, List.append_assoc]; rfl)
    rw [h.step, hbefore, List.flatMap_append, List.flatMap_singleton] at hwith
    exact List.append_cancel_left hwith
  · intro hall before
    induction before using List.reverseRecOn with
    | nil => exact fun after _ => h.nil
    | append_singleton before b ih =>
        intro after hl
        have hcons : l = before ++ b :: after := by rw [hl, List.append_assoc]; rfl
        rw [h.step, ih (b :: after) hcons, hall before b after hcons, List.flatMap_append,
          List.flatMap_singleton]

/-- Nothing is collected exactly when no element adds anything. -/
theorem List.Collects.eq_nil_iff (h : List.Collects collect adds) {l : List β} :
    collect l = [] ↔ ∀ before b after, l = before ++ b :: after → adds before b = [] := by
  induction l using List.reverseRecOn with
  | nil =>
      refine iff_of_true h.nil fun before b after hl => ?_
      exact absurd hl.symm (List.append_ne_nil_of_right_ne_nil _ (List.cons_ne_nil b after))
  | append_singleton l c ih =>
      rw [h.step, List.append_eq_nil_iff, ih]
      constructor
      · rintro ⟨hinit, hlast⟩ before b after hl
        rcases List.eq_nil_or_concat after with rfl | ⟨after, d, rfl⟩
        · obtain ⟨rfl, hc⟩ := List.append_inj' hl rfl
          rw [← List.singleton_inj.mp hc]
          exact hlast
        · rw [List.concat_eq_append, ← List.cons_append, ← List.append_assoc] at hl
          exact hinit before b after (List.append_inj' hl rfl).1
      · intro hall
        refine ⟨fun before b after hl => hall before b (after ++ [c]) ?_, hall l c [] rfl⟩
        rw [hl, List.append_assoc]
        rfl

end Collecting

/-! ## Merging -/

section Merging

variable {β κ : Type} [DecidableEq κ] {key : β → κ}

/-- The members of the second list are pushed to the first, each unless its key was seen. -/
def List.pushUnseen (key : β → κ) (l : List β) (seen : List κ) : List β → List β
  | [] => l
  | b :: rest =>
      if key b ∈ seen then List.pushUnseen key l seen rest
      else List.pushUnseen key (l ++ [b]) (key b :: seen) rest

omit [DecidableEq κ] in
/-- The keys seen stay those in the list. -/
theorem List.seen_cons_iff {l : List β} {seen : List κ} (hseen : ∀ k, k ∈ seen ↔ k ∈ l.map key) (b : β) (k : κ) :
    k ∈ key b :: seen ↔ k ∈ (l ++ [b]).map key := by
  rw [List.mem_cons, hseen, List.map_append, List.mem_append, List.map_singleton, List.mem_singleton]
  exact or_comm

theorem List.mem_map_pushUnseen {l : List β} {seen : List κ} (hseen : ∀ k, k ∈ seen ↔ k ∈ l.map key)
    (new : List β) (k : κ) :
    k ∈ (l.pushUnseen key seen new).map key ↔ k ∈ l.map key ∨ k ∈ new.map key := by
  induction new generalizing l seen with
  | nil => simp [List.pushUnseen]
  | cons b rest ih =>
      unfold List.pushUnseen
      split
      · rename_i hb
        rw [ih hseen, List.map_cons, List.mem_cons]
        constructor
        · rintro (hk | hk)
          · exact Or.inl hk
          · exact Or.inr (Or.inr hk)
        · rintro (hk | rfl | hk)
          · exact Or.inl hk
          · exact Or.inl ((hseen _).mp hb)
          · exact Or.inr hk
      · rw [ih (List.seen_cons_iff hseen b)]
        simp only [List.map_append, List.mem_append, List.map_cons, List.map_nil, List.mem_cons,
          List.not_mem_nil, or_false, or_assoc]

theorem List.nodup_map_pushUnseen_iff {l : List β} {seen : List κ} (hseen : ∀ k, k ∈ seen ↔ k ∈ l.map key)
    (new : List β) : ((l.pushUnseen key seen new).map key).Nodup ↔ (l.map key).Nodup := by
  induction new generalizing l seen with
  | nil => simp [List.pushUnseen]
  | cons b rest ih =>
      unfold List.pushUnseen
      split
      · exact ih hseen
      · rename_i hb
        have hfresh : key b ∉ l.map key := fun hmem => hb ((hseen _).mpr hmem)
        rw [ih (List.seen_cons_iff hseen b), List.map_append, List.map_singleton,
          (List.perm_append_singleton (key b) (l.map key)).nodup_iff, List.nodup_cons]
        simp [hfresh]

end Merging

/-! ## Maxima -/

/-- Folding `max` over a list gives a bound of the start and of every member. -/
theorem List.le_foldl_max {K : Type} [LinearOrder K] (l : List K) (start : K) :
    start ≤ l.foldl max start ∧ ∀ a ∈ l, a ≤ l.foldl max start := by
  induction l generalizing start with
  | nil => simp
  | cons b rest ih =>
      obtain ⟨hstart, hrest⟩ := ih (max start b)
      rw [List.foldl_cons]
      refine ⟨le_trans (le_max_left start b) hstart, ?_⟩
      intro a ha
      rcases List.mem_cons.mp ha with rfl | ha
      · exact le_trans (le_max_right start a) hstart
      · exact hrest a ha

/-! ## Places -/

/-- What stands in a list with one more element at its end. -/
theorem List.getElem?_concat_cases {β : Type} {l : List β} {x y : β} {i : Nat} (h : (l ++ [x])[i]? = some y) :
    l[i]? = some y ∨ i = l.length ∧ x = y := by
  obtain hlt | hge := Nat.lt_or_ge i l.length
  · rw [List.getElem?_append_left hlt] at h
    exact Or.inl h
  · rw [List.getElem?_append_right hge] at h
    obtain ⟨hlt, hy⟩ := List.getElem?_eq_some_iff.mp h
    have hlast : i = l.length := by
      rw [List.length_singleton] at hlt
      omega
    subst hlast
    refine Or.inr ⟨rfl, ?_⟩
    simpa using hy

/-! ## Windows -/

namespace List

variable {α : Type*} {n : ℕ}

/-- Push, and drop the oldest element when there are more than `n`. -/
def pushWindow (n : ℕ) (window : List α) (x : α) : List α :=
  if (window ++ [x]).length > n then (window ++ [x]).drop 1 else window ++ [x]

theorem length_rtake (l : List α) (n : ℕ) : (l.rtake n).length = min l.length n := by
  unfold rtake
  rw [length_drop]
  omega

/-- The last elements of a short list are all of them. -/
theorem rtake_of_length_le {l : List α} (h : l.length ≤ n) : l.rtake n = l := by
  unfold rtake
  rw [Nat.sub_eq_zero_of_le h, drop_zero]

/-- **One push** moves the window by one element. -/
theorem pushWindow_rtake (l : List α) (x : α) (n : ℕ) : pushWindow n (l.rtake n) x = (l ++ [x]).rtake n := by
  unfold pushWindow
  rw [length_append, length_rtake, length_singleton]
  obtain hfull | hroom := Nat.lt_or_ge n (min l.length n + 1)
  · rw [if_pos hfull]
    cases n with
    | zero => simp [rtake]
    | succ n =>
        have hlen : n + 1 ≤ l.length := by omega
        have hcons : ∃ y, l.rtake (n + 1) = y :: l.rtake n := by
          have hpos : l.length - (n + 1) < l.length := by omega
          refine ⟨l[l.length - (n + 1)], ?_⟩
          unfold rtake
          rw [drop_eq_getElem_cons hpos]
          congr 2
          omega
        obtain ⟨y, hy⟩ := hcons
        rw [rtake_concat_succ, hy]
        rfl
  · rw [if_neg (Nat.not_lt.mpr hroom)]
    have hlen : l.length + 1 ≤ n := by omega
    rw [rtake_of_length_le (by omega), rtake_of_length_le (by rw [length_append]; exact hlen)]

end List
