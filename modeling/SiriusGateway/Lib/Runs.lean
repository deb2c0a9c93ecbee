import Mathlib.Logic.Relation

/-!
# `Lib.Runs` — runs of a labelled transition system

A system is a partial step function: the state after a label, or `none` when the label cannot happen. A
`Run` takes a list of labels in order; a `RunWhile` takes only labels that satisfy a guard in the state they
are taken in.

## Contents
- **Runs.** `Run`, its executable form `exec` (`run_iff_exec`), `Run.append` and `Run.split`.
- **Invariants.** `Run.invariant` for a fact about the state, `Run.history` for a fact about the state and
  the labels taken so far.
- **Guarded runs.** `RunWhile` and its invariant rule `RunWhile.invariant`.
-/

namespace Lts

variable {σ ℓ : Type} {step : σ → ℓ → Option σ}

/-! ## Runs -/

/-- Taking the labels in order leads from the first state to the second. -/
inductive Run (step : σ → ℓ → Option σ) : σ → List ℓ → σ → Prop
  | nil (s : σ) : Run step s [] s
  | cons {s t u : σ} {l : ℓ} {ls : List ℓ} (hd : step s l = some t) (tl : Run step t ls u) :
      Run step s (l :: ls) u

/-- The state after the labels, when all of them can happen. -/
def exec (step : σ → ℓ → Option σ) : σ → List ℓ → Option σ
  | s, [] => some s
  | s, l :: ls => (step s l).bind fun t => exec step t ls

/-- The executable form decides runs. -/
theorem run_iff_exec {s t : σ} {ls : List ℓ} : Run step s ls t ↔ exec step s ls = some t := by
  constructor
  · intro h
    induction h with
    | nil s => rfl
    | cons hd _ ih =>
        simp only [exec, hd, Option.bind_some]
        exact ih
  · intro h
    induction ls generalizing s with
    | nil =>
        obtain rfl : s = t := Option.some.inj h
        exact Run.nil s
    | cons l ls ih =>
        obtain ⟨u, hu, hrest⟩ := Option.bind_eq_some_iff.mp h
        exact Run.cons hu (ih hrest)

theorem Run.append {s t u : σ} {ls ks : List ℓ} (h : Run step s ls t) (h' : Run step t ks u) :
    Run step s (ls ++ ks) u := by
  induction h with
  | nil s => exact h'
  | cons hd _ ih => exact Run.cons hd (ih h')

/-- A run over joined labels passes between them. -/
theorem Run.split {s u : σ} {ls ks : List ℓ} (h : Run step s (ls ++ ks) u) :
    ∃ t, Run step s ls t ∧ Run step t ks u := by
  induction ls generalizing s with
  | nil => exact ⟨s, Run.nil s, h⟩
  | cons l ls ih =>
      cases h with
      | cons hd hrest =>
          obtain ⟨t, hbefore, hafter⟩ := ih hrest
          exact ⟨t, Run.cons hd hbefore, hafter⟩

/-- One step more at the end. -/
theorem Run.concat {s t u : σ} {ls : List ℓ} {l : ℓ} (h : Run step s ls t) (hl : step t l = some u) :
    Run step s (ls ++ [l]) u :=
  h.append (Run.cons hl (Run.nil u))

/-! ## Invariants -/

/-- **The invariant rule**: what every step preserves holds after every run. -/
theorem Run.invariant {I : σ → Prop} (hstep : ∀ s l t, I s → step s l = some t → I t) {s t : σ}
    {ls : List ℓ} (h : Run step s ls t) (hs : I s) : I t := by
  induction h with
  | nil s => exact hs
  | cons hd _ ih => exact ih (hstep _ _ _ hs hd)

/-- **The history rule**: a fact about the state and the labels taken so far that every step preserves
    holds after every run. -/
theorem Run.history {I : List ℓ → σ → Prop}
    (hstep : ∀ past s l t, I past s → step s l = some t → I (past ++ [l]) t) {s t : σ} {ls : List ℓ}
    (h : Run step s ls t) (past : List ℓ) (hs : I past s) : I (past ++ ls) t := by
  induction h generalizing past with
  | nil s => simpa using hs
  | @cons s t u l ls hd _ ih =>
      have hnext := ih (past ++ [l]) (hstep past s l t hs hd)
      rwa [List.append_assoc] at hnext

/-! ## Guarded runs -/

/-- A run every label of which satisfies the guard in the state it is taken in. -/
inductive RunWhile (step : σ → ℓ → Option σ) (guard : σ → ℓ → Prop) : σ → List ℓ → σ → Prop
  | nil (s : σ) : RunWhile step guard s [] s
  | cons {s t u : σ} {l : ℓ} {ls : List ℓ} (hg : guard s l) (hd : step s l = some t)
      (tl : RunWhile step guard t ls u) : RunWhile step guard s (l :: ls) u

/-- **The guarded invariant rule.** -/
theorem RunWhile.invariant {guard : σ → ℓ → Prop} {I : σ → Prop}
    (hstep : ∀ s l t, I s → guard s l → step s l = some t → I t) {s t : σ} {ls : List ℓ}
    (h : RunWhile step guard s ls t) (hs : I s) : I t := by
  induction h with
  | nil s => exact hs
  | cons hg hd _ ih => exact ih (hstep _ _ _ hs hg hd)

end Lts
