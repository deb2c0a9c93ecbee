import Mathlib.Data.List.Forall2

/-!
# `Lib.Succeeds` — computations that do not fail

`Except.Succeeds x`: the computation `x` returns a value. The rules below take the question apart along
the ways computations are composed, so that "does this program fail?" becomes a condition on its input.

## Contents
- **Binds and maps.** `succeeds_bind_iff`, `succeeds_map_iff`, `bind_eq_ok_iff`.
- **Lists.** `succeeds_mapM_iff`, `mapM_eq_ok_iff`, `forall_mapM_iff`, and `exists_mapM_mapM` for two passes, one
  behind the other.
- **Errors of a kind.** `FailsOnly`: the computation returns a value or fails with an error of the kind; a pass
  over a list looks at its elements in turn (`List.InTurn`).
-/

namespace Except

variable {ε α β : Type}

/-- The computation returns a value. -/
def Succeeds (x : Except ε α) : Prop := ∃ a, x = .ok a

@[simp] theorem succeeds_ok (a : α) : (Except.ok a : Except ε α).Succeeds := ⟨a, rfl⟩

@[simp] theorem succeeds_pure (a : α) : (pure a : Except ε α).Succeeds := ⟨a, rfl⟩

@[simp] theorem not_succeeds_error (e : ε) : ¬ (Except.error e : Except ε α).Succeeds := by
  rintro ⟨a, h⟩
  cases h

/-! ## Binds and maps -/

theorem ok_bind (a : α) (f : α → Except ε β) : ((.ok a : Except ε α) >>= f) = f a := rfl

theorem bind_eq_ok_iff {x : Except ε α} {f : α → Except ε β} {b : β} :
    (x >>= f) = .ok b ↔ ∃ a, x = .ok a ∧ f a = .ok b := by
  cases x with
  | error e => exact ⟨fun h => (nomatch h), fun ⟨_, h, _⟩ => (nomatch h)⟩
  | ok a => exact ⟨fun h => ⟨a, rfl, h⟩, fun ⟨a', h, hf⟩ => Except.ok.inj h ▸ hf⟩

theorem map_eq_ok_iff {x : Except ε α} {f : α → β} {b : β} : x.map f = .ok b ↔ ∃ a, x = .ok a ∧ f a = b := by
  cases x with
  | error e => exact ⟨fun h => (nomatch h), fun ⟨_, h, _⟩ => (nomatch h)⟩
  | ok a => exact ⟨fun h => ⟨a, rfl, Except.ok.inj h⟩, fun ⟨a', h, hf⟩ => by rw [← hf, ← Except.ok.inj h]; rfl⟩

/-- A bind succeeds when its first part does and the second does on its value. -/
theorem succeeds_bind_iff {x : Except ε α} {f : α → Except ε β} :
    (x >>= f).Succeeds ↔ ∃ a, x = .ok a ∧ (f a).Succeeds := by
  cases x with
  | error e => exact ⟨fun ⟨_, h⟩ => (nomatch h), fun ⟨a, h, _⟩ => (nomatch h)⟩
  | ok a => exact ⟨fun h => ⟨a, rfl, h⟩, fun ⟨a', h, hf⟩ => Except.ok.inj h ▸ hf⟩

@[simp] theorem succeeds_map_iff {x : Except ε α} {f : α → β} : (x.map f).Succeeds ↔ x.Succeeds := by
  cases x with
  | error e => exact ⟨fun ⟨_, h⟩ => (nomatch h), fun ⟨_, h⟩ => (nomatch h)⟩
  | ok a => exact ⟨fun _ => ⟨a, rfl⟩, fun _ => ⟨f a, rfl⟩⟩

/-- A bind whose second part cannot fail. -/
theorem succeeds_bind_of_succeeds {x : Except ε α} {f : α → Except ε β} (hf : ∀ a, (f a).Succeeds) :
    (x >>= f).Succeeds ↔ x.Succeeds := by
  rw [succeeds_bind_iff]
  exact ⟨fun ⟨a, h, _⟩ => ⟨a, h⟩, fun ⟨a, h⟩ => ⟨a, h, hf a⟩⟩

@[simp] theorem succeeds_bind_pure_iff {x : Except ε α} {f : α → β} :
    (x >>= fun a => (pure (f a) : Except ε β)).Succeeds ↔ x.Succeeds :=
  succeeds_bind_of_succeeds fun a => ⟨f a, rfl⟩

/-! ## Lists -/

theorem mapM_cons_eq_ok_iff {f : α → Except ε β} {a : α} {l : List α} {bs : List β} :
    (a :: l).mapM f = .ok bs ↔ ∃ b rest, f a = .ok b ∧ l.mapM f = .ok rest ∧ bs = b :: rest := by
  rw [List.mapM_cons]
  simp only [bind_eq_ok_iff]
  constructor
  · rintro ⟨b, hb, rest, hrest, h⟩
    exact ⟨b, rest, hb, hrest, (Except.ok.inj h).symm⟩
  · rintro ⟨b, rest, hb, hrest, rfl⟩
    exact ⟨b, hb, rest, hrest, rfl⟩

/-- A pass over a mapped list that does not throw is a map. -/
theorem mapM_map_eq {γ : Type} {f : α → Except ε β} {g : γ → α} {k : γ → β} {l : List γ}
    (h : ∀ c ∈ l, f (g c) = .ok (k c)) : (l.map g).mapM f = .ok (l.map k) := by
  induction l with
  | nil => rfl
  | cons c rest ih =>
      have hc : f (g c) = .ok (k c) := h c List.mem_cons_self
      have hrest := ih fun d hd => h d (List.mem_cons_of_mem c hd)
      exact mapM_cons_eq_ok_iff.mpr ⟨k c, rest.map k, hc, hrest, rfl⟩

/-- A pass that undoes a map gives the list back. -/
theorem mapM_map_eq_ok {f : α → Except ε β} {g : β → α} {l : List β} (h : ∀ b ∈ l, f (g b) = .ok b) :
    (l.map g).mapM f = .ok l := by
  have hmap := mapM_map_eq (k := id) h
  rwa [List.map_id] at hmap

/-- A pass over a joined list passes over both parts. -/
theorem mapM_append_eq_ok_iff {f : α → Except ε β} {l l' : List α} {bs : List β} :
    (l ++ l').mapM f = .ok bs ↔
      ∃ cs cs', l.mapM f = .ok cs ∧ l'.mapM f = .ok cs' ∧ bs = cs ++ cs' := by
  rw [List.mapM_append]
  simp only [bind_eq_ok_iff]
  constructor
  · rintro ⟨cs, hcs, cs', hcs', h⟩
    exact ⟨cs, cs', hcs, hcs', (Except.ok.inj h).symm⟩
  · rintro ⟨cs, cs', hcs, hcs', rfl⟩
    exact ⟨cs, hcs, cs', hcs', rfl⟩

/-- Element by element. -/
theorem forall₂_of_mapM_eq_ok {f : α → Except ε β} {l : List α} {bs : List β} (h : l.mapM f = .ok bs) :
    List.Forall₂ (fun a b => f a = .ok b) l bs := by
  induction l generalizing bs with
  | nil =>
      obtain rfl := Except.ok.inj h
      exact .nil
  | cons a rest ih =>
      obtain ⟨b, bs', hb, hrest, rfl⟩ := mapM_cons_eq_ok_iff.mp h
      exact .cons hb (ih hrest)

theorem length_of_mapM_eq_ok {f : α → Except ε β} {l : List α} {bs : List β} (h : l.mapM f = .ok bs) :
    bs.length = l.length := (forall₂_of_mapM_eq_ok h).length_eq.symm

/-- A pass over a list succeeds when every element does. -/
theorem succeeds_mapM_iff {f : α → Except ε β} {l : List α} :
    (l.mapM f).Succeeds ↔ ∀ a ∈ l, (f a).Succeeds := by
  induction l with
  | nil => simp [List.mapM_nil]
  | cons a l ih =>
      constructor
      · rintro ⟨bs, h⟩ c hc
        obtain ⟨b, rest, hb, hrest, -⟩ := mapM_cons_eq_ok_iff.mp h
        rcases List.mem_cons.mp hc with rfl | hc
        · exact ⟨b, hb⟩
        · exact ih.mp ⟨rest, hrest⟩ c hc
      · intro h
        obtain ⟨b, hb⟩ := h a List.mem_cons_self
        obtain ⟨rest, hrest⟩ := ih.mpr fun c hc => h c (List.mem_cons_of_mem _ hc)
        exact ⟨b :: rest, mapM_cons_eq_ok_iff.mpr ⟨b, rest, hb, hrest, rfl⟩⟩

/-- **The pass a list came from**: where each element satisfies `Q` exactly when its image satisfies `P`,
    all elements do exactly when all images do. -/
theorem forall_mapM_iff {f : α → Except ε β} {P : β → Prop} {Q : α → Prop} {l : List α} {bs : List β}
    (h : l.mapM f = .ok bs) (hf : ∀ a ∈ l, ∀ b, f a = .ok b → (P b ↔ Q a)) :
    (∀ b ∈ bs, P b) ↔ ∀ a ∈ l, Q a := by
  induction l generalizing bs with
  | nil =>
      obtain rfl := Except.ok.inj h
      simp
  | cons a l ih =>
      obtain ⟨b, rest, hb, hrest, rfl⟩ := mapM_cons_eq_ok_iff.mp h
      rw [List.forall_mem_cons, List.forall_mem_cons, hf a List.mem_cons_self b hb,
        ih hrest fun c hc => hf c (List.mem_cons_of_mem _ hc)]

/-- What every image of the pass satisfies, all of them do. -/
theorem forall_of_mapM_eq_ok {f : α → Except ε β} {P : β → Prop} {l : List α} {bs : List β} (h : l.mapM f = .ok bs)
    (hf : ∀ a ∈ l, ∀ b, f a = .ok b → P b) : ∀ b ∈ bs, P b := by
  have hiff := forall_mapM_iff (Q := fun _ => True) h fun a ha b hb => iff_of_true (hf a ha b hb) trivial
  exact hiff.mpr fun _ _ => trivial

/-- A converter over a list whose items pass it; what is known of an item carries over. -/
theorem exists_mapM_of_forall₂ {γ : Type} {g : β → Except ε γ} {Q : α → γ → Prop} {l : List α}
    {bs : List β} (h : List.Forall₂ (fun a b => ∃ c, g b = .ok c ∧ Q a c) l bs) :
    ∃ cs, bs.mapM g = .ok cs ∧ List.Forall₂ Q l cs := by
  induction h with
  | nil => exact ⟨[], rfl, .nil⟩
  | cons hab _ ih =>
      obtain ⟨c, hc, hq⟩ := hab
      obtain ⟨cs, hcs, hqs⟩ := ih
      exact ⟨c :: cs, Except.mapM_cons_eq_ok_iff.mpr ⟨c, cs, hc, hcs, rfl⟩, .cons hq hqs⟩

theorem exists_mapM {f : α → Except ε β} {Q : α → β → Prop} {l : List α}
    (h : ∀ a ∈ l, ∃ b, f a = .ok b ∧ Q a b) : ∃ bs, l.mapM f = .ok bs ∧ List.Forall₂ Q l bs :=
  exists_mapM_of_forall₂ (List.forall₂_same.mpr h)

/-- Two converters, one behind the other. -/
theorem exists_mapM_mapM {γ : Type} {f : α → Except ε β} {g : β → Except ε γ} {Q : α → γ → Prop}
    {l : List α} (h : ∀ a ∈ l, ∃ b c, f a = .ok b ∧ g b = .ok c ∧ Q a c) :
    ∃ bs cs, l.mapM f = .ok bs ∧ bs.mapM g = .ok cs ∧ List.Forall₂ Q l cs := by
  have hf : ∀ a ∈ l, ∃ b, f a = .ok b ∧ ∃ c, g b = .ok c ∧ Q a c := by
    intro a ha
    obtain ⟨b, c, hb, hc, hq⟩ := h a ha
    exact ⟨b, hb, c, hc, hq⟩
  obtain ⟨bs, hbs, hall⟩ := exists_mapM hf
  obtain ⟨cs, hcs, hqs⟩ := exists_mapM_of_forall₂ hall
  exact ⟨bs, cs, hbs, hcs, hqs⟩

/-! ## Errors of a kind -/

section FailsOnly

variable {P : ε → Prop} {x : Except ε α}

/-- Every error of the computation is of the kind. -/
def FailsOnly (P : ε → Prop) (x : Except ε α) : Prop := ∀ e, x = .error e → P e

@[simp] theorem failsOnly_ok (a : α) : FailsOnly P (.ok a : Except ε α) := fun _ h => nomatch h

@[simp] theorem failsOnly_error {e : ε} : FailsOnly P (.error e : Except ε α) ↔ P e :=
  ⟨fun h => h e rfl, fun h _ heq => Except.error.inj heq ▸ h⟩

/-- The second part of a bind matters where the first returns a value. -/
theorem failsOnly_bind_iff {f : α → Except ε β} :
    FailsOnly P (x >>= f) ↔ FailsOnly P x ∧ ∀ a, x = .ok a → FailsOnly P (f a) := by
  cases x with
  | error e => exact ⟨fun h => ⟨fun e' he => h e' (Except.error.inj he ▸ rfl), fun _ ha => nomatch ha⟩,
      fun h e' he => h.1 e' (Except.error.inj he ▸ rfl)⟩
  | ok a => exact ⟨fun h => ⟨failsOnly_ok a, fun a' ha => Except.ok.inj ha ▸ h⟩, fun h => h.2 a rfl⟩

@[simp] theorem failsOnly_map_iff {f : α → β} : FailsOnly P (x.map f) ↔ FailsOnly P x := by
  cases x with
  | error e => simp [Except.map]
  | ok a => simp [Except.map]

end FailsOnly

end Except
