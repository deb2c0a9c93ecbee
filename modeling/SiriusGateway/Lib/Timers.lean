import SiriusGateway.Lib.JsMap

/-!
# `Lib.Timers` — the timers of an event loop

Running timers with the milliseconds they have left. Time passes for all of them alike, and never past one that
is due: its callback runs first.

## Contents
- **Timers.** `arm`, `permits`, `elapse`, `isDue`.
- **Passing time.** What is left of a timer (`get_elapse`), and that a loop at rest waits or has a timer due
  (`permits_or_due`).
-/

/-- The running timers, with the milliseconds left. -/
abbrev Timers (κ : Type) := JsMap κ Nat

namespace Timers

variable {κ : Type} [DecidableEq κ]

/-- Set the timer, or clear it. -/
def arm (t : Timers κ) (k : κ) : Option Nat → Timers κ
  | some ms => t.set k ms
  | none => t.delete k

/-- No timer is due before `ms` have passed. -/
def permits (t : Timers κ) (ms : Nat) : Bool := t.values.all fun left => ms ≤ left

/-- Let `ms` pass. -/
def elapse (t : Timers κ) (ms : Nat) : Timers κ := t.mapValues fun left => left - ms

/-- The timer has run down. -/
def isDue (t : Timers κ) (k : κ) : Bool := t.get k == some 0

variable {t : Timers κ} {k : κ} {ms left : Nat}

/-- An armed timer has its full time left, or none when it is switched off. -/
@[simp] theorem get_arm_self (t : Timers κ) (k : κ) (full : Option Nat) : (t.arm k full).get k = full := by
  cases full with
  | none => exact JsMap.get_delete_self t k
  | some ms => exact JsMap.get_set_self t k ms

/-- Arming one timer leaves the others. -/
theorem get_arm_ne (t : Timers κ) {k k' : κ} (full : Option Nat) (h : k' ≠ k) :
    (t.arm k full).get k' = t.get k' := by
  cases full with
  | none => exact JsMap.get_delete_ne t h
  | some ms => exact JsMap.get_set_ne t ms h

@[simp] theorem get_elapse (t : Timers κ) (ms : Nat) (k : κ) :
    (t.elapse ms).get k = (t.get k).map (· - ms) := JsMap.get_mapValues _ t k

/-- Time may pass exactly when no timer would run past its end. -/
theorem permits_iff : t.permits ms = true ↔ ∀ k left, t.get k = some left → ms ≤ left := by
  unfold permits
  rw [List.all_eq_true]
  constructor
  · intro h k left hk
    exact of_decide_eq_true (h left (JsMap.mem_values_iff.mpr ⟨k, hk⟩))
  · intro h left hleft
    obtain ⟨k, hk⟩ := JsMap.mem_values_iff.mp hleft
    exact decide_eq_true (h k left hk)

/-- A timer is due when nothing of it is left. -/
theorem isDue_iff : t.isDue k = true ↔ t.get k = some 0 := by
  unfold isDue
  rw [beq_iff_eq]

/-- **A loop that runs no code** can wait a millisecond more, unless a timer is due. -/
theorem permits_or_due (t : Timers κ) : t.permits 1 = true ∨ ∃ k, t.isDue k = true := by
  by_cases hdue : ∃ k, t.get k = some 0
  · obtain ⟨k, hk⟩ := hdue
    exact Or.inr ⟨k, isDue_iff.mpr hk⟩
  · refine Or.inl (permits_iff.mpr fun k left hk => ?_)
    apply Nat.pos_of_ne_zero
    rintro rfl
    exact hdue ⟨k, hk⟩

end Timers
