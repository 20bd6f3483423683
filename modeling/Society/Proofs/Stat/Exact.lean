import Mathlib.Order.Interval.Set.Defs
import Society.Stat.Formula
import Society.Proofs.Decimal.Rounding

/-!
# Stats in exact arithmetic

The formula of stats with rational numbers for doubles. A value is moved into the bounds first and
rounded after that, so it ends between what rounding makes of the two bounds. It leaves the bounds
only where rounding takes one of them out.
-/

namespace Society

/-- Rational numbers. -/
instance : Quantity ℚ where
  below x y := x < y
  smaller := min
  larger := max
  floor x := ⌊x⌋
  roundThree x := Decimal.roundExact x 3

/-- How a stat with these bounds shows a value that lies in them: rounded down if the stat is
discrete, and to three significant digits. -/
def Bounds.shown (bounds : Bounds ℚ) (value : ℚ) : ℚ :=
  Decimal.roundExact (if bounds.discrete then (⌊value⌋ : ℚ) else value) 3

namespace Bounds

variable {bounds : Bounds ℚ} {value : ℚ}

theorem shown_mono (bounds : Bounds ℚ) : Monotone bounds.shown := by
  intro x y h
  refine Decimal.roundExact_mono 3 ?_
  split
  · exact_mod_cast Int.floor_le_floor h
  · exact h

/-- A value that has no more than three digits is not shown as a greater one. -/
theorem shown_le (h : Decimal.roundExact value 3 = value) : bounds.shown value ≤ value := by
  refine (Decimal.roundExact_mono 3 ?_).trans_eq h
  split
  · exact Int.floor_le value
  · exact le_rfl

/-- A value that has no more than three digits is shown as it is, if it is whole where it has to be. -/
theorem shown_eq_self (h : Decimal.roundExact value 3 = value)
    (hwhole : bounds.discrete → (⌊value⌋ : ℚ) = value) : bounds.shown value = value := by
  rw [shown]
  split
  · rename_i hdiscrete
    rw [hwhole hdiscrete, h]
  · exact h

end Bounds

namespace Quantity

variable {bounds : Bounds ℚ} {base : ℚ} {modifiers : List (ModifierKind × ℚ)}

/-! ## Values -/

theorem value_eq (bounds : Bounds ℚ) (base : ℚ) (modifiers : List (ModifierKind × ℚ)) :
    (reading bounds base modifiers).value =
      bounds.shown (max (min (modified base modifiers) bounds.greatest) bounds.least) :=
  rfl

/-- A value lies between what the bounds are shown as. -/
theorem value_mem (h : bounds.least ≤ bounds.greatest) (base : ℚ)
    (modifiers : List (ModifierKind × ℚ)) :
    (reading bounds base modifiers).value ∈
      Set.Icc (bounds.shown bounds.least) (bounds.shown bounds.greatest) := by
  rw [value_eq]
  exact ⟨bounds.shown_mono (le_max_right _ _), bounds.shown_mono (max_le (min_le_right _ _) h)⟩

theorem value_of_mem (h : base ∈ Set.Icc bounds.least bounds.greatest) :
    (reading bounds base []).value = bounds.shown base := by
  rw [value_eq, modified, modifyFrom, min_eq_left h.2, max_eq_left h.1]

/-! ## Normalized values -/

theorem normalized_eq (h : bounds.least < bounds.greatest) (base : ℚ)
    (modifiers : List (ModifierKind × ℚ)) :
    (reading bounds base modifiers).normalized =
      Decimal.roundExact (((reading bounds base modifiers).value - bounds.least) /
        (bounds.greatest - bounds.least)) 3 :=
  if_pos (decide_eq_true h)

theorem normalized_nonneg_iff (h : bounds.least < bounds.greatest) :
    0 ≤ (reading bounds base modifiers).normalized ↔
      bounds.least ≤ (reading bounds base modifiers).value := by
  rw [normalized_eq h, Decimal.roundExact_nonneg_iff, le_div_iff₀ (sub_pos.mpr h), zero_mul,
    sub_nonneg]

theorem normalized_le_one (h : bounds.least < bounds.greatest)
    (hvalue : (reading bounds base modifiers).value ≤ bounds.greatest) :
    (reading bounds base modifiers).normalized ≤ 1 := by
  have hone : Decimal.roundExact 1 3 = 1 := by
    have hdigits : |(1 : ℤ)| < 10 ^ 3 := by norm_num
    simpa using Decimal.roundExact_eq_self hdigits 0
  rw [normalized_eq h, ← hone]
  refine Decimal.roundExact_mono 3 ?_
  rw [div_le_one (sub_pos.mpr h)]
  linarith

end Quantity

/-- All readings of a stat lie in its bounds, the normalized ones between zero and one, exactly if the
bounds themselves are shown as values in them. A value always lies between what the two are shown as,
a normalized value is negative exactly if the value is below the bounds, and exceeds one only if the
value is above them. -/
theorem Quantity.reading_in_bounds {bounds : Bounds ℚ} (h : bounds.least < bounds.greatest) :
    ((∀ base modifiers,
        (reading bounds base modifiers).value ∈ Set.Icc bounds.least bounds.greatest ∧
          (reading bounds base modifiers).normalized ∈ Set.Icc 0 1) ↔
      bounds.least ≤ bounds.shown bounds.least ∧
        bounds.shown bounds.greatest ≤ bounds.greatest) ∧
    ∀ base modifiers,
      (reading bounds base modifiers).value ∈
          Set.Icc (bounds.shown bounds.least) (bounds.shown bounds.greatest) ∧
        (0 ≤ (reading bounds base modifiers).normalized ↔
          bounds.least ≤ (reading bounds base modifiers).value) ∧
        ((reading bounds base modifiers).value ≤ bounds.greatest →
          (reading bounds base modifiers).normalized ≤ 1) := by
  refine ⟨⟨fun hin => ⟨?_, ?_⟩, fun ⟨hleast, hgreatest⟩ base modifiers => ?_⟩,
    fun base modifiers => ⟨value_mem h.le base modifiers, normalized_nonneg_iff h,
      normalized_le_one h⟩⟩
  · rw [← value_of_mem (Set.left_mem_Icc.mpr h.le)]
    exact (hin bounds.least []).1.1
  · rw [← value_of_mem (Set.right_mem_Icc.mpr h.le)]
    exact (hin bounds.greatest []).1.2
  · have hvalue := value_mem h.le base modifiers
    have hlow := hleast.trans hvalue.1
    have hhigh := hvalue.2.trans hgreatest
    exact ⟨⟨hlow, hhigh⟩, (normalized_nonneg_iff h).mpr hlow, normalized_le_one h hhigh⟩

/-- Whole values from 0 to 12.5: the greatest bound is shown as 12. -/
theorem Quantity.reading_in_bounds_of_whole :
    let bounds : Bounds ℚ := ⟨0, 25 / 2, true⟩
    bounds.least < bounds.greatest ∧
      ∀ base modifiers,
        (reading bounds base modifiers).value ∈ Set.Icc bounds.least bounds.greatest ∧
          (reading bounds base modifiers).normalized ∈ Set.Icc 0 1 := by
  intro bounds
  have h : bounds.least < bounds.greatest := by norm_num [bounds]
  have hleast : bounds.shown bounds.least = bounds.least :=
    Bounds.shown_eq_self (Decimal.roundExact_zero 3) (by simp [bounds])
  have hgreatest : bounds.shown bounds.greatest ≤ bounds.greatest :=
    Bounds.shown_le (by decide +kernel)
  exact ⟨h, (reading_in_bounds h).1.mpr ⟨hleast.ge, hgreatest⟩⟩

/-- Whole values from a half to one: the least bound is rounded down to zero, which is below it. -/
theorem Quantity.reading_below_bounds :
    let bounds : Bounds ℚ := ⟨1 / 2, 1, true⟩
    bounds.least < bounds.greatest ∧
      (reading bounds (1 / 2) []).value < bounds.least ∧
      (reading bounds (1 / 2) []).normalized < 0 := by
  decide +kernel

/-- A bound of six digits is rounded as well, here up. -/
example : (Quantity.reading ⟨-999999, 999999, false⟩ 999999 []).value = (1000000 : ℚ) := by
  decide +kernel

end Society
