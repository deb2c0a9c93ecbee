import SiriusGateway.Js.Value
import SiriusGateway.Lib.Doubles
import SiriusGateway.Lib.StableSort
import Mathlib.Order.WithBot

/-!
# `Js.Sort` — arithmetic on numbers, arrays in memory and `Array.prototype.sort`

An array is known by its reference, and `sort` works in place: who holds the reference sees it sorted. The
comparators here subtract numbers, `Infinity` among them, and `Infinity - Infinity` is `NaN`.

The operations on numbers are taken over an `Arithmetic`, which says how an exact result is rounded:
`Arithmetic.double` is that of the language, `Arithmetic.exact` rounds nothing.

## Contents
- **Numbers.** `Arithmetic` and the operations over it; `JsNumber.order`, and that a difference tells it
  (`JsNumber.gt_sub`).
- **Sorting.** `sortWith`, and the comparators under which it is the stable sort by a key
  (`isStableSort_sortWith`).
- **Memory.** `Arrays`, the array methods as programs over it, and the rules for a block of new arrays.
-/

namespace Js

/-! ## Numbers -/

/-- An arithmetic: which numbers there are, and which of them an exact result becomes. -/
structure Arithmetic where
  /-- The number is one of the arithmetic. -/
  Holds : ℚ → Prop
  /-- The number a literal stands for. -/
  literal : ℚ → ℚ
  /-- What an exact result becomes. -/
  result : ℚ → JsNumber
  holds_literal : ∀ q, Holds (literal q)
  holds_result : ∀ {q p}, result q = .finite p → Holds p
  result_ne_nan : ∀ q, result q ≠ .nan
  /-- Numbers compare as the sign of their difference says. -/
  gt_result_sub : ∀ {p q}, Holds p → Holds q → (result (p - q)).gt 0 = decide (q < p)
  /-- Rounding a fraction of 1 does not lead far. -/
  result_of_le_one : ∀ {q}, q ≤ 1 → result q ≠ .infinity false ∧ ∀ p, result q = .finite p → p ≤ 2

/-- Nothing is rounded. -/
def Arithmetic.exact : Arithmetic where
  Holds _ := True
  literal := id
  result := .finite
  holds_literal _ := trivial
  holds_result _ := trivial
  result_ne_nan := nofun
  gt_result_sub _ _ := by simp [JsNumber.gt]
  result_of_le_one := by
    refine fun hq => ⟨nofun, fun p hp => ?_⟩
    obtain rfl := JsNumber.finite.inj hp
    linarith

/-- The arithmetic of the language: binary64. -/
def Arithmetic.double : Arithmetic where
  Holds := Doubles.OnGrid
  literal := Doubles.literal
  result q := if Doubles.overflow ≤ |q| then .infinity (q < 0) else .finite (Doubles.nearest q)
  holds_literal := Doubles.onGrid_literal
  holds_result := by
    intro q p h
    split at h
    · cases h
    · obtain rfl := JsNumber.finite.inj h
      exact Doubles.onGrid_nearest q
  result_ne_nan q := by split <;> nofun
  gt_result_sub := by
    intro p q hp hq
    split
    · rename_i hover
      have hne : p - q ≠ 0 := by
        rintro hzero
        rw [hzero, abs_zero] at hover
        exact absurd (Doubles.one_lt_overflow.trans_le hover) (by norm_num)
      simp only [JsNumber.gt, decide_eq_decide, ← decide_not, not_lt]
      constructor
      · intro h
        exact sub_pos.mp (lt_of_le_of_ne h hne.symm)
      · exact fun h => (sub_pos.mpr h).le
    · simp only [JsNumber.gt, decide_eq_decide]
      exact (Doubles.nearest_pos_iff (hp.sub hq)).trans sub_pos
  result_of_le_one := by
    intro q hq
    split
    · rename_i hover
      have hneg : q < 0 := by
        by_contra h
        rw [abs_of_nonneg (not_lt.mp h)] at hover
        exact absurd (Doubles.one_lt_overflow.trans_le hover) (not_lt.mpr hq)
      exact ⟨by simp [hneg], nofun⟩
    · refine ⟨nofun, fun p hp => ?_⟩
      obtain rfl := JsNumber.finite.inj hp
      exact Doubles.nearest_le_two hq

namespace JsNumber

variable (r : Arithmetic)

/-- `x + y`. -/
def add : JsNumber → JsNumber → JsNumber
  | .finite p, .finite q => r.result (p + q)
  | .finite _, .infinity negative => .infinity negative
  | .infinity negative, .finite _ => .infinity negative
  | .infinity a, .infinity b => if a = b then .infinity a else .nan
  | .nan, _ => .nan
  | _, .nan => .nan

/-- `x - y`. -/
def sub : JsNumber → JsNumber → JsNumber
  | .finite p, .finite q => r.result (p - q)
  | .finite _, .infinity negative => .infinity (!negative)
  | .infinity negative, .finite _ => .infinity negative
  | .infinity a, .infinity b => if a = b then .nan else .infinity a
  | .nan, _ => .nan
  | _, .nan => .nan

/-- `0.5 * x`. -/
def half : JsNumber → JsNumber
  | .finite q => r.result (1 / 2 * q)
  | x => x

/-- Where a number stands among the others; `NaN` stands nowhere. -/
def order : JsNumber → WithBot (WithTop ℚ)
  | .finite q => ((q : WithTop ℚ) : WithBot (WithTop ℚ))
  | .infinity true => ⊥
  | _ => ((⊤ : WithTop ℚ) : WithBot (WithTop ℚ))

end JsNumber

/-- The value is a number of the arithmetic or an infinity, and not `NaN`. -/
structure Arithmetic.Has (r : Arithmetic) (x : JsNumber) : Prop where
  ne_nan : x ≠ .nan
  holds : ∀ q, x = .finite q → r.Holds q

variable {r : Arithmetic}

/-- Both infinities are values of the arithmetic. -/
theorem Arithmetic.has_infinity (negative : Bool) : r.Has (.infinity negative) := ⟨nofun, nofun⟩

/-- A literal of the source is a value of the arithmetic. -/
theorem Arithmetic.has_literal (q : ℚ) : r.Has (.finite (r.literal q)) := by
  refine ⟨nofun, fun p hp => ?_⟩
  obtain rfl := JsNumber.finite.inj hp
  exact r.holds_literal q

/-- The result of an operation is a value of the arithmetic. -/
theorem Arithmetic.has_result (q : ℚ) : r.Has (r.result q) := ⟨r.result_ne_nan q, fun _ h => r.holds_result h⟩

theorem JsNumber.order_finite_lt_infinity (q : ℚ) : (finite q).order < (infinity false).order :=
  WithBot.coe_lt_coe.mpr (WithTop.coe_lt_top q)

theorem JsNumber.order_infinity_lt_finite (q : ℚ) : (infinity true).order < (finite q).order :=
  WithBot.bot_lt_coe _

theorem JsNumber.order_infinity_lt_infinity : (infinity true).order < (infinity false).order :=
  WithBot.bot_lt_coe _

/-- **A difference of numbers tells their order**; `NaN` is not positive. -/
theorem JsNumber.gt_sub {x y : JsNumber} (hx : r.Has x) (hy : r.Has y) :
    (x.sub r y).gt 0 = decide (y.order < x.order) := by
  cases x with
  | nan => exact absurd rfl hx.ne_nan
  | infinity a =>
      cases y with
      | nan => exact absurd rfl hy.ne_nan
      | infinity b =>
          cases a with
          | false => cases b <;> simp [sub, gt, order_infinity_lt_infinity]
          | true => cases b <;> simp [sub, gt, order_infinity_lt_infinity.le]
      | finite q =>
          cases a with
          | false => simp [sub, gt, order_finite_lt_infinity]
          | true => simp [sub, gt, (order_infinity_lt_finite q).le]
  | finite p =>
      cases y with
      | nan => exact absurd rfl hy.ne_nan
      | infinity b =>
          cases b with
          | false => simp [sub, gt, (order_finite_lt_infinity p).le]
          | true => simp [sub, gt, order_infinity_lt_finite]
      | finite q =>
          rw [sub, r.gt_result_sub (hx.holds p rfl) (hy.holds q rfl)]
          simp [order, WithBot.coe_lt_coe]

/-- A sum of values that are not `NaN` nor above all numbers is none either. -/
theorem JsNumber.has_add {x y : JsNumber} (hx : x ≠ .nan ∧ x ≠ .infinity false)
    (hy : y ≠ .nan ∧ y ≠ .infinity false) : r.Has (x.add r y) := by
  cases x with
  | nan => exact absurd rfl hx.1
  | infinity a =>
      cases a with
      | false => exact absurd rfl hx.2
      | true =>
          cases y with
          | nan => exact absurd rfl hy.1
          | infinity b =>
              cases b with
              | false => exact absurd rfl hy.2
              | true => exact Arithmetic.has_infinity true
          | finite q => exact Arithmetic.has_infinity true
  | finite p =>
      cases y with
      | nan => exact absurd rfl hy.1
      | infinity b => exact Arithmetic.has_infinity b
      | finite q => exact Arithmetic.has_result (p + q)

/-! ## Sorting -/

variable {α : Type}

/-- The members in the order `sort(compare)` leaves them in. `NaN` counts as 0. -/
def sortWith (compare : α → α → JsNumber) (l : List α) : List α := l.mergeSort fun a b => !(compare a b).gt 0

/-- **Sorting by a difference of keys** is the stable sort by the key. -/
theorem isStableSort_sortWith (key : α → JsNumber) (l : List α) (hkey : ∀ a ∈ l, r.Has (key a)) :
    l.IsStableSort (fun a => (key a).order) (sortWith (fun a b => (key a).sub r (key b)) l) := by
  have hle : ∀ a ∈ l, ∀ b ∈ l, (!((key a).sub r (key b)).gt 0) = decide ((key a).order ≤ (key b).order) := by
    intro a ha b hb
    rw [JsNumber.gt_sub (hkey a ha) (hkey b hb), ← decide_not, decide_eq_decide, not_lt]
  have hsame := @List.map_mergeSort _ _ (fun a b => !((key a).sub r (key b)).gt 0)
    (fun a b => decide ((key a).order ≤ (key b).order)) id l hle
  rw [List.map_id, List.map_id] at hsame
  unfold sortWith
  rw [hsame]
  exact List.IsStableSort.mergeSort (fun a => (key a).order) l

/-! ## Memory -/

/-- The arrays in memory; a reference is a place in the list. -/
abbrev Arrays (α : Type) := List (List α)

namespace Arrays

/-- What the array holds. -/
def read (m : Arrays α) (ref : Nat) : List α := m.getD ref []

/-- A new array. -/
def alloc (l : List α) : StateM (Arrays α) Nat := fun m => (m.length, m ++ [l])

/-- `[...a, ...b]`. -/
def spread (refs : List Nat) : StateM (Arrays α) Nat := do
  let m ← get
  alloc (refs.flatMap m.read)

/-- `array.filter(p)`: a new array. -/
def filter (p : α → Bool) (ref : Nat) : StateM (Arrays α) Nat := do
  let m ← get
  alloc ((m.read ref).filter p)

/-- `array.slice(start)`: a new array. -/
def slice (start : Nat) (ref : Nat) : StateM (Arrays α) Nat := do
  let m ← get
  alloc ((m.read ref).drop start)

/-- `array.sort(compare)`: the same array. -/
def sort (compare : α → α → JsNumber) (ref : Nat) : StateM (Arrays α) Nat := do
  modify fun m => m.set ref (sortWith compare (m.read ref))
  return ref

section Rules

variable (m : Arrays α) (l : List α) (ref i : Nat)

/-- One statement behind another. -/
theorem run_bind {β γ : Type} (x : StateM (Arrays α) β) (f : β → StateM (Arrays α) γ) :
    (x >>= f).run m = (f (x.run m).1).run (x.run m).2 := rfl

theorem run_get : (get : StateM (Arrays α) (Arrays α)).run m = (m, m) := rfl

theorem run_pure {β : Type} (b : β) : (pure b : StateM (Arrays α) β).run m = (b, m) := rfl

/-- A new array stands behind the ones there are. -/
@[simp] theorem run_alloc : (alloc l).run m = (m.length, m ++ [l]) := rfl

@[simp] theorem run_spread (refs : List Nat) :
    (spread refs).run m = (m.length, m ++ [refs.flatMap m.read]) := rfl

/-- Filtering leaves the array it reads and allocates a new one. -/
@[simp] theorem run_filter (p : α → Bool) : (filter p ref).run m = (m.length, m ++ [(m.read ref).filter p]) := rfl

@[simp] theorem run_slice (start : Nat) : (slice start ref).run m = (m.length, m ++ [(m.read ref).drop start]) := rfl

/-- Sorting overwrites the array it is given and returns the same reference. -/
@[simp] theorem run_sort (compare : α → α → JsNumber) :
    (sort compare ref).run m = (ref, m.set ref (sortWith compare (m.read ref))) := rfl

@[simp] theorem read_cons_zero : Arrays.read (l :: m) 0 = l := rfl

@[simp] theorem read_cons_succ : Arrays.read (l :: m) (i + 1) = Arrays.read m i := rfl

/-- An array that was there reads the same behind new ones. -/
theorem read_append (new : Arrays α) (h : ref < m.length) : (m ++ new).read ref = m.read ref := by
  unfold read
  rw [List.getD_eq_getElem?_getD, List.getD_eq_getElem?_getD, List.getElem?_append_left h]

/-- The new arrays. -/
@[simp] theorem read_new (new : Arrays α) : (m ++ new).read (m.length + i) = new.read i := by
  unfold read
  rw [List.getD_eq_getElem?_getD, List.getD_eq_getElem?_getD, List.getElem?_append_right (Nat.le_add_right _ _),
    Nat.add_sub_cancel_left]

/-- The first of the new arrays stands where the old ones end. -/
@[simp] theorem read_first_new (new : Arrays α) : (m ++ new).read m.length = new.read 0 := read_new m 0 new

/-- A write to a new array leaves the others as they are. -/
@[simp] theorem set_new (new : Arrays α) : (m ++ new).set (m.length + i) l = m ++ new.set i l := by
  rw [List.set_append_right _ _ (Nat.le_add_right _ _), Nat.add_sub_cancel_left]

@[simp] theorem set_first_new (new : Arrays α) : (m ++ new).set m.length l = m ++ new.set 0 l := set_new m l 0 new

end Rules

end Arrays

end Js
