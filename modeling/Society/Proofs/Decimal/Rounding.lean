import Mathlib.Algebra.Order.Floor.Ring
import Mathlib.Data.Int.Log
import Mathlib.Data.Rat.Floor
import Mathlib.Tactic.Linarith
import Mathlib.Tactic.Positivity

/-!
# Exact rounding

Rounding a rational number to a number of significant digits. It is monotone, keeps the sign, and
leaves alone what has no more digits than asked for.
-/

namespace Society.Decimal

/-- A rational number rounded to an integer, halves away from zero. -/
def roundAway (x : ℚ) : ℤ :=
  if 0 ≤ x then ⌊x + 1 / 2⌋ else -⌊-x + 1 / 2⌋

/-- What the last of a number of significant digits of `x` stands for. -/
def lastUnit (x : ℚ) (digits : ℕ) : ℚ :=
  10 ^ (Int.log 10 |x| + 1 - digits)

/-- `x` rounded to `digits` significant digits, halves away from zero. Zero stays as it is, and so
does every number if no digits are asked for. -/
def roundExact (x : ℚ) (digits : ℕ) : ℚ :=
  if x = 0 ∨ digits = 0 then x else roundAway (x / lastUnit x digits) * lastUnit x digits

variable {x y : ℚ} {digits : ℕ}

/-! ## Rounding to an integer -/

theorem roundAway_neg (x : ℚ) : roundAway (-x) = -roundAway x := by
  rcases lt_trichotomy x 0 with hx | rfl | hx
  · rw [roundAway, if_pos (by linarith), roundAway, if_neg (by linarith), neg_neg]
  · norm_num [roundAway]
  · rw [roundAway, if_neg (by linarith), roundAway, if_pos hx.le, neg_neg]

theorem roundAway_le_roundAway (hx : 0 ≤ x) (h : x ≤ y) : roundAway x ≤ roundAway y := by
  rw [roundAway, if_pos hx, roundAway, if_pos (hx.trans h)]
  exact Int.floor_le_floor (by linarith)

theorem roundAway_intCast (n : ℤ) : roundAway n = n := by
  have hfloor (k : ℤ) : ⌊(k : ℚ) + 1 / 2⌋ = k := by
    rw [Int.floor_eq_iff]
    constructor <;> linarith
  rw [roundAway]
  split
  · exact hfloor n
  · rw [← Int.cast_neg, hfloor, neg_neg]

/-! ## Rounding to significant digits -/

theorem lastUnit_pos (x : ℚ) (digits : ℕ) : 0 < lastUnit x digits :=
  zpow_pos (by norm_num) _

@[simp]
theorem lastUnit_neg (x : ℚ) (digits : ℕ) : lastUnit (-x) digits = lastUnit x digits := by
  rw [lastUnit, abs_neg, lastUnit]

/-- The first of `d + 1` digits stands for the greatest power of ten that is not above `x`. -/
theorem pow_mul_lastUnit (hx : 0 < x) (d : ℕ) :
    ((10 ^ d : ℤ) : ℚ) * lastUnit x (d + 1) = 10 ^ Int.log 10 x := by
  rw [lastUnit, abs_of_pos hx, Int.cast_pow, ← zpow_natCast, Int.cast_ofNat,
    ← zpow_add₀ (by norm_num)]
  congr 1
  push_cast
  ring

@[simp]
theorem roundExact_zero (digits : ℕ) : roundExact 0 digits = 0 :=
  if_pos (.inl rfl)

theorem roundExact_neg (x : ℚ) (digits : ℕ) :
    roundExact (-x) digits = -roundExact x digits := by
  simp only [roundExact, neg_eq_zero, lastUnit_neg, neg_div, roundAway_neg, Int.cast_neg, neg_mul]
  split <;> rfl

theorem roundExact_of_pos (hx : 0 < x) (d : ℕ) :
    roundExact x (d + 1) = roundAway (x / lastUnit x (d + 1)) * lastUnit x (d + 1) :=
  if_neg (by simp [hx.ne'])

/-- Multiples of the last unit that are not above `x` are not above what it is rounded to. -/
theorem mul_lastUnit_le_roundExact {d : ℕ} {n : ℤ} (hx : 0 < x) (hn : 0 ≤ n)
    (h : n * lastUnit x (d + 1) ≤ x) : n * lastUnit x (d + 1) ≤ roundExact x (d + 1) := by
  have hunit := lastUnit_pos x (d + 1)
  have hround := roundAway_le_roundAway (Int.cast_nonneg hn) ((le_div_iff₀ hunit).mpr h)
  rw [roundAway_intCast] at hround
  rw [roundExact_of_pos hx]
  exact mul_le_mul_of_nonneg_right (by exact_mod_cast hround) hunit.le

/-- Multiples of the last unit that are not below `x` are not below what it is rounded to. -/
theorem roundExact_le_mul_lastUnit {d : ℕ} {n : ℤ} (hx : 0 < x)
    (h : x ≤ n * lastUnit x (d + 1)) : roundExact x (d + 1) ≤ n * lastUnit x (d + 1) := by
  have hunit := lastUnit_pos x (d + 1)
  have hround := roundAway_le_roundAway (div_nonneg hx.le hunit.le) ((div_le_iff₀ hunit).mpr h)
  rw [roundAway_intCast] at hround
  rw [roundExact_of_pos hx]
  exact mul_le_mul_of_nonneg_right (by exact_mod_cast hround) hunit.le

/-- A positive number stays between the powers of ten around it. -/
theorem roundExact_mem_decade (hx : 0 < x) (d : ℕ) :
    10 ^ Int.log 10 x ≤ roundExact x (d + 1) ∧ roundExact x (d + 1) ≤ 10 ^ (Int.log 10 x + 1) := by
  have hlow : ((10 ^ d : ℤ) : ℚ) * lastUnit x (d + 1) = 10 ^ Int.log 10 x :=
    pow_mul_lastUnit hx d
  have hhigh : ((10 ^ (d + 1) : ℤ) : ℚ) * lastUnit x (d + 1) = 10 ^ (Int.log 10 x + 1) := by
    rw [zpow_add_one₀ (by norm_num), ← hlow]
    push_cast
    ring
  rw [← hhigh, ← hlow]
  refine ⟨mul_lastUnit_le_roundExact hx (by positivity) ?_, roundExact_le_mul_lastUnit hx ?_⟩
  · rw [hlow]
    exact_mod_cast Int.zpow_log_le_self (by norm_num) hx
  · rw [hhigh]
    exact_mod_cast (Int.lt_zpow_succ_log_self (by norm_num) x).le

theorem roundExact_pos (hx : 0 < x) (digits : ℕ) : 0 < roundExact x digits := by
  cases digits with
  | zero => exact hx.trans_eq (if_pos (.inr rfl)).symm
  | succ d => exact (zpow_pos (by norm_num) _).trans_le (roundExact_mem_decade hx d).1

theorem roundExact_nonneg_iff : 0 ≤ roundExact x digits ↔ 0 ≤ x := by
  constructor
  · intro h
    by_contra hx
    have hpos := roundExact_pos (x := -x) (by linarith) digits
    rw [roundExact_neg] at hpos
    linarith
  · intro h
    rcases h.eq_or_lt with rfl | hx
    · rw [roundExact_zero]
    · exact (roundExact_pos hx digits).le

theorem roundExact_le_of_pos (hx : 0 < x) (h : x ≤ y) (digits : ℕ) :
    roundExact x digits ≤ roundExact y digits := by
  have hy := hx.trans_le h
  cases digits with
  | zero => simpa [roundExact] using h
  | succ d =>
      rcases (Int.log_mono_right (b := 10) hx h).eq_or_lt with hlog | hlog
      · have hsame : lastUnit x (d + 1) = lastUnit y (d + 1) := by
          rw [lastUnit, lastUnit, abs_of_pos hx, abs_of_pos hy, hlog]
        have hunit := lastUnit_pos y (d + 1)
        rw [roundExact_of_pos hx, roundExact_of_pos hy, hsame]
        refine mul_le_mul_of_nonneg_right ?_ hunit.le
        exact_mod_cast roundAway_le_roundAway (by positivity)
          (div_le_div_of_nonneg_right h hunit.le)
      · calc roundExact x (d + 1)
          _ ≤ 10 ^ (Int.log 10 x + 1) := (roundExact_mem_decade hx d).2
          _ ≤ 10 ^ Int.log 10 y := zpow_le_zpow_right₀ (by norm_num) hlog
          _ ≤ roundExact y (d + 1) := (roundExact_mem_decade hy d).1

theorem roundExact_mono (digits : ℕ) : Monotone (roundExact · digits) := by
  intro x y h
  rcases lt_or_ge 0 x with hx | hx
  · exact roundExact_le_of_pos hx h digits
  rcases le_or_gt 0 y with hy | hy
  · have hneg : 0 ≤ roundExact (-x) digits := roundExact_nonneg_iff.mpr (neg_nonneg.mpr hx)
    rw [roundExact_neg] at hneg
    exact (neg_nonneg.mp hneg).trans (roundExact_nonneg_iff.mpr hy)
  · have hneg := roundExact_le_of_pos (neg_pos.mpr hy) (neg_le_neg h) digits
    rwa [roundExact_neg, roundExact_neg, neg_le_neg_iff] at hneg

/-- A number that has no more digits than asked for stays as it is. -/
theorem roundExact_eq_self {n : ℤ} (hn : |n| < 10 ^ digits) (e : ℤ) :
    roundExact (n * 10 ^ e) digits = n * 10 ^ e := by
  set x : ℚ := n * 10 ^ e with hx
  by_cases hzero : x = 0 ∨ digits = 0
  · exact if_pos hzero
  rw [roundExact, if_neg hzero]
  obtain ⟨hne, -⟩ := not_or.mp hzero
  have hpow : (0 : ℚ) < 10 ^ e := zpow_pos (by norm_num) e
  have habs : |x| < 10 ^ (digits + e) := by
    rw [hx, abs_mul, abs_of_pos hpow, zpow_add₀ (by norm_num), zpow_natCast]
    refine mul_lt_mul_of_pos_right ?_ hpow
    exact_mod_cast hn
  have hlog : Int.log 10 |x| < digits + e :=
    (Int.lt_zpow_iff_log_lt (b := 10) (by norm_num) (abs_pos.mpr hne)).mp (by exact_mod_cast habs)
  obtain ⟨k, hk⟩ : ∃ k : ℕ, e = k + (Int.log 10 |x| + 1 - digits) :=
    ⟨(e - (Int.log 10 |x| + 1 - digits)).toNat, by omega⟩
  have hquotient : x / lastUnit x digits = ((n * 10 ^ k : ℤ) : ℚ) := by
    rw [div_eq_iff (lastUnit_pos x digits).ne', lastUnit]
    conv_lhs => rw [hx, hk, zpow_add₀ (by norm_num), zpow_natCast]
    push_cast
    ring
  rw [hquotient, roundAway_intCast, ← hquotient, div_mul_cancel₀ _ (lastUnit_pos x digits).ne']

end Society.Decimal
