import Mathlib.Algebra.Order.Ring.Rat
import Mathlib.Data.Int.Log
import Mathlib.Data.Rat.Floor
import Mathlib.Tactic.Linarith
import Mathlib.Tactic.NormNum

/-!
# `Lib.Doubles` — rounding to binary64

Floating-point numbers of 64 bits as rationals. An exact result is rounded to 53 significant bits, to fewer
near 0, where the numbers are the multiples of `2 ^ -1074`; a tie goes to the even neighbour, and from
`2 ^ 1024 - 2 ^ 970` on the result overflows. A difference of two numbers never rounds to 0 unless they are
equal, which is what comparing by subtraction rests on.

## Contents
- **Rounding.** `nearest`, and `overflow`, from which on it does not apply.
- **The grid.** All numbers are on one (`onGrid_nearest`), and on it rounding keeps the sign
  (`nearest_pos_iff`).
-/

namespace Doubles

/-! ## Rounding -/

/-- The nearest integer, of two the even one. -/
def roundEven (q : ℚ) : ℤ :=
  let below := ⌊q⌋
  if q - below < 1 / 2 then below
  else if 1 / 2 < q - below then below + 1
  else if below % 2 = 0 then below
  else below + 1

/-- The last of 53 bits of a number has this exponent, and no number has bits below `2 ^ -1074`. -/
def ulpExponent (q : ℚ) : ℤ := max (Int.log 2 |q| - 52) (-1074)

/-- The unit in the last place. -/
def ulp (q : ℚ) : ℚ := 2 ^ ulpExponent q

/-- The number nearest to `q`. -/
def nearest (q : ℚ) : ℚ := roundEven (q / ulp q) * ulp q

/-- The least magnitude that is rounded to infinity, `2 ^ 1024 - 2 ^ 970`. -/
def overflow : ℚ := (2 ^ 54 - 1) * 2 ^ (970 : ℤ)

/-- The greatest number. -/
def greatest : ℚ := (2 ^ 53 - 1) * 2 ^ (971 : ℤ)

/-- The number a literal stands for; one out of range stands for the last number on its side. -/
def literal (q : ℚ) : ℚ :=
  if q ≤ -overflow then -greatest else if overflow ≤ q then greatest else nearest q

-- the sum of a tenth and a fifth is not three tenths
example : nearest (nearest (1 / 10) + nearest (1 / 5)) ≠ nearest (3 / 10) := by decide +kernel

/-! ## The grid -/

/-- The least positive number. -/
def quantum : ℚ := 2 ^ (-1074 : ℤ)

/-- A multiple of the least positive number. -/
def OnGrid (q : ℚ) : Prop := ∃ k : ℤ, q = k * quantum

variable {p q : ℚ}

theorem quantum_pos : 0 < quantum := zpow_pos two_pos _

theorem ulp_pos (q : ℚ) : 0 < ulp q := zpow_pos two_pos _

/-- An integer at an exponent of the format is on the grid. -/
theorem onGrid_zpow (k : ℤ) {e : ℤ} (h : -1074 ≤ e) : OnGrid (k * (2 : ℚ) ^ e) := by
  refine ⟨k * 2 ^ (e + 1074).toNat, ?_⟩
  push_cast
  rw [mul_assoc, ← zpow_natCast, Int.toNat_of_nonneg (by omega), quantum, ← zpow_add₀ two_ne_zero]
  congr 2
  omega

/-- **A rounded number is on the grid.** -/
theorem onGrid_nearest (q : ℚ) : OnGrid (nearest q) := onGrid_zpow _ (le_max_right _ _)

theorem onGrid_greatest : OnGrid greatest := by
  have hcast : ((2 ^ 53 - 1 : ℤ) : ℚ) = 2 ^ 53 - 1 := by norm_num
  rw [greatest, ← hcast]
  exact onGrid_zpow _ (by decide)

/-- The grid is symmetric. -/
theorem OnGrid.neg (h : OnGrid q) : OnGrid (-q) := by
  obtain ⟨k, rfl⟩ := h
  exact ⟨-k, by push_cast; rw [neg_mul]⟩

/-- Every literal stands on the grid. -/
theorem onGrid_literal (q : ℚ) : OnGrid (literal q) := by
  unfold literal
  split
  · exact onGrid_greatest.neg
  · split
    · exact onGrid_greatest
    · exact onGrid_nearest q

/-- Differences of grid numbers stand on the grid. -/
theorem OnGrid.sub (hp : OnGrid p) (hq : OnGrid q) : OnGrid (p - q) := by
  obtain ⟨k, rfl⟩ := hp
  obtain ⟨j, rfl⟩ := hq
  exact ⟨k - j, by push_cast; rw [sub_mul]⟩

/-- A positive number on the grid is at least one unit in its last place. -/
theorem ulp_le (h : OnGrid q) (hpos : 0 < q) : ulp q ≤ q := by
  unfold ulp ulpExponent
  rcases max_choice (Int.log 2 |q| - 52) (-1074) with hmax | hmax
  · rw [hmax]
    calc (2 : ℚ) ^ (Int.log 2 |q| - 52) ≤ 2 ^ Int.log 2 |q| :=
          zpow_le_zpow_right₀ one_le_two (by omega)
      _ ≤ |q| := by exact_mod_cast Int.zpow_log_le_self one_lt_two (abs_pos.mpr hpos.ne')
      _ = q := abs_of_pos hpos
  · rw [hmax]
    obtain ⟨k, rfl⟩ := h
    have hk : 0 < k := by
      by_contra hle
      have : (k : ℚ) ≤ 0 := by exact_mod_cast not_lt.mp hle
      exact absurd hpos (not_lt.mpr (mul_nonpos_of_nonpos_of_nonneg this quantum_pos.le))
    have hone : (1 : ℚ) ≤ k := by exact_mod_cast hk
    calc quantum = 1 * quantum := (one_mul _).symm
      _ ≤ k * quantum := mul_le_mul_of_nonneg_right hone quantum_pos.le

theorem one_le_roundEven (h : 1 ≤ q) : 1 ≤ roundEven q := by
  have hfloor : 1 ≤ ⌊q⌋ := Int.le_floor.mpr (by exact_mod_cast h)
  unfold roundEven
  dsimp only
  split
  · exact hfloor
  · split
    · omega
    · split <;> omega

theorem roundEven_nonpos (h : q ≤ 0) : roundEven q ≤ 0 := by
  have hfloor : (⌊q⌋ : ℚ) ≤ q := Int.floor_le q
  have hle : ⌊q⌋ ≤ 0 := by exact_mod_cast hfloor.trans h
  unfold roundEven
  dsimp only
  split
  · exact hle
  · rename_i hhalf
    -- the integer below is not 0, for then nothing would be left of `q`
    have hne : ⌊q⌋ ≠ 0 := by
      intro hzero
      rw [hzero, Int.cast_zero] at hhalf
      linarith
    split
    · omega
    · split <;> omega

/-- Rounding moves up by at most one. -/
theorem roundEven_le (q : ℚ) : (roundEven q : ℚ) ≤ q + 1 := by
  have hfloor : (⌊q⌋ : ℚ) ≤ q := Int.floor_le q
  unfold roundEven
  dsimp only
  split
  · linarith
  · split
    · push_cast
      linarith
    · split
      · linarith
      · push_cast
        linarith

/-- What is not positive does not become positive. -/
theorem nearest_nonpos (h : q ≤ 0) : nearest q ≤ 0 := by
  have hround : roundEven (q / ulp q) ≤ 0 :=
    roundEven_nonpos (div_nonpos_of_nonpos_of_nonneg h (ulp_pos q).le)
  have hcast : (roundEven (q / ulp q) : ℚ) ≤ 0 := by exact_mod_cast hround
  exact mul_nonpos_of_nonpos_of_nonneg hcast (ulp_pos q).le

/-- **On the grid rounding keeps the sign.** -/
theorem nearest_pos_iff (h : OnGrid q) : 0 < nearest q ↔ 0 < q := by
  constructor
  · intro hpos
    by_contra hle
    exact absurd hpos (not_lt.mpr (nearest_nonpos (not_lt.mp hle)))
  · intro hpos
    have hround : 1 ≤ roundEven (q / ulp q) := one_le_roundEven ((one_le_div (ulp_pos q)).mpr (ulp_le h hpos))
    have hcast : (0 : ℚ) < roundEven (q / ulp q) := by exact_mod_cast hround
    exact mul_pos hcast (ulp_pos q)

/-- A fraction of 1 is not rounded far. -/
theorem nearest_le_two (h : q ≤ 1) : nearest q ≤ 2 := by
  by_cases hpos : 0 < q
  · have hlog : Int.log 2 |q| ≤ 0 := by
      have hmono := Int.log_mono_right (b := 2) (abs_pos.mpr hpos.ne') ((abs_of_pos hpos).le.trans h)
      rwa [Int.log_one_right] at hmono
    have hexponent : ulpExponent q ≤ 0 := max_le (by omega) (by decide)
    have hulp : ulp q ≤ 1 := zpow_le_one_of_nonpos₀ one_le_two hexponent
    have hround : (roundEven (q / ulp q) : ℚ) ≤ q / ulp q + 1 := roundEven_le _
    calc nearest q ≤ (q / ulp q + 1) * ulp q := mul_le_mul_of_nonneg_right hround (ulp_pos q).le
      _ = q + ulp q := by rw [add_mul, one_mul, div_mul_cancel₀ _ (ulp_pos q).ne']
      _ ≤ 2 := by linarith
  · exact (nearest_nonpos (not_lt.mp hpos)).trans two_pos.le

theorem one_lt_overflow : 1 < overflow := by
  calc (1 : ℚ) < 2 ^ 54 - 1 := by norm_num
    _ = (2 ^ 54 - 1) * 1 := (mul_one _).symm
    _ ≤ overflow := mul_le_mul_of_nonneg_left (one_le_zpow₀ one_le_two (by decide)) (by norm_num)

end Doubles
