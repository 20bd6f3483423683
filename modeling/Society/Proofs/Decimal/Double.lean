import Mathlib
import Society.Node.Order

/-!
# Doubles as multiples of the least one

A finite double is a whole multiple of `2 ^ -1074`. The multiple tells all about its order among the
finite doubles, and whether it is an integer.
-/

namespace Society.Decimal

open Float.Model UnpackedFloat

/-! ## The form of a double -/

/-- The fields of a finite double: 53 bits are all used, unless the exponent is the least one. -/
structure Binary.Normal (b : Binary) : Prop where
  mantissa_lt : b.mantissa < 2 ^ 53
  least_le : -1074 ≤ b.exponent
  le_mantissa : -1074 < b.exponent → 2 ^ 52 ≤ b.mantissa

/-- The magnitude as a multiple of `2 ^ -1074`. -/
def Binary.units (b : Binary) : Nat :=
  b.mantissa * 2 ^ (b.exponent + 1074).toNat

/-- The value as a multiple of `2 ^ -1074`. -/
def Binary.scaled (b : Binary) : Int :=
  if b.negative then -(b.units : Int) else b.units

/-- The value of a finite double as a multiple of `2 ^ -1074`. -/
def scaled (x : Float) : Int :=
  (Binary.ofFloat x).scaled

/-- What `scaled` gives for one. -/
def scaledOne : Nat :=
  2 ^ 1074

theorem scaledOne_pos : 0 < scaledOne := by
  rw [scaledOne]
  positivity

theorem normal_ofFloat (x : Float) : (Binary.ofFloat x).Normal := by
  unfold Binary.ofFloat
  dsimp only
  split
  · exact ⟨by dsimp only; omega, by simp, by simp⟩
  · exact ⟨by dsimp only; omega, by dsimp only; omega, by dsimp only; omega⟩

/-! ## The fields, read from the bits -/

section Fields

variable (b : BitVec Format.binary64.numBits)

theorem toNat_unpackMantissa : (unpackMantissa b).toNat = b.toNat % 0x10000000000000 := by
  rw [unpackMantissa_def, BitVec.extractLsb'_toNat]
  simp

theorem toNat_unpackExponent :
    (unpackExponent b).toNat = b.toNat / 0x10000000000000 % 0x800 := by
  rw [unpackExponent_def, BitVec.extractLsb'_toNat, Nat.shiftRight_eq_div_pow]
  norm_num

/-- The leading bit of a mantissa, which is not stored. -/
theorem toNat_one_append (v : BitVec 52) : (1#1 ++ v).toNat = 0x10000000000000 + v.toNat := by
  rw [BitVec.toNat_append, ← Nat.shiftLeft_add_eq_or_of_lt v.isLt]
  rfl

theorem sign_unpack :
    (Sign.ofBitVec (unpackSign b) == .negative) = (b.toNat / 0x8000000000000000 == 1) := by
  have hsign : unpackSign b = BitVec.ofNat 1 (b.toNat / 0x8000000000000000) := by
    apply BitVec.eq_of_toNat_eq
    rw [unpackSign_def, BitVec.extractLsb'_toNat, Nat.shiftRight_eq_div_pow, BitVec.toNat_ofNat]
    norm_num
  have hbits : b.toNat / 0x8000000000000000 < 2 := by
    have := b.isLt
    simp only [Format.numBits] at this
    omega
  rw [hsign]
  interval_cases b.toNat / 0x8000000000000000 <;> rfl

end Fields

/-- What a finite double is unpacked into has its fields. -/
def Unpacks : UnpackedFloat → Binary → Prop
  | .finite s m e _, b => b.negative = (s == .negative) ∧ b.mantissa = m ∧ b.exponent = e
  | .zero _, b => b.mantissa = 0
  | .infinity _, _ => True
  | .notANumber, _ => True

theorem unpacks_ofFloat (x : Float) : Unpacks x.toModel.unpack (Binary.ofFloat x) := by
  have hsign := sign_unpack x.toModel.toBits.toBitVec
  have hexp := toNat_unpackExponent x.toModel.toBits.toBitVec
  have hman := toNat_unpackMantissa x.toModel.toBits.toBitVec
  rw [show x.toModel.unpack = UnpackedFloat.unpack .binary64 x.toModel.toBits.toBitVec from rfl]
  unfold Binary.ofFloat
  rw [show x.toBits.toNat = x.toModel.toBits.toBitVec.toNat from rfl]
  dsimp only
  rw [← hsign, ← hexp, ← hman]
  fun_cases UnpackedFloat.unpack Format.binary64 x.toModel.toBits.toBitVec with
  | case1 => trivial
  | case2 => trivial
  | case3 mvec evec _ _ _ hevec hmvec =>
      have hevec : evec.toNat = 0 := congrArg BitVec.toNat hevec
      have hmvec : mvec.toNat = 0 := congrArg BitVec.toNat hmvec
      rw [if_pos hevec]
      exact hmvec
  | case4 mvec evec e _ _ _ hevec _ =>
      have hevec : evec.toNat = 0 := congrArg BitVec.toNat hevec
      have he : e + 1 = -1074 := by simp only [e, hevec]; decide
      rw [if_pos hevec]
      exact ⟨rfl, rfl, he.symm⟩
  | case5 mvec evec e _ _ _ hevec =>
      have hevec : evec.toNat ≠ 0 := fun h => hevec (BitVec.eq_of_toNat_eq h)
      have he : e = evec.toNat - 1075 := rfl
      rw [if_neg hevec]
      exact ⟨rfl, (toNat_one_append mvec).symm, he.symm⟩

variable {x y : Float} {s : Sign} {m : Nat} {e : Int} {hm : 0 < m}

theorem scaled_of_zero (h : x.toModel.unpack = .zero s) : scaled x = 0 := by
  have hx := unpacks_ofFloat x
  rw [h] at hx
  simp [scaled, Binary.scaled, Binary.units, show (Binary.ofFloat x).mantissa = 0 from hx]

theorem scaled_of_finite (h : x.toModel.unpack = .finite s m e hm) :
    scaled x = s.apply (m * 2 ^ (e + 1074).toNat : Nat) := by
  have hx := unpacks_ofFloat x
  rw [h] at hx
  obtain ⟨hneg, rfl, rfl⟩ := hx
  rw [scaled, Binary.scaled, hneg]
  cases s <;> rfl

/-- What a finite double is unpacked into, by its sign. -/
theorem finite_cases (hx : x.isFinite = true) :
    (scaled x = 0 ∧ ∃ s, x.toModel.unpack = .zero s) ∨
    (∃ b : Binary, b.Normal ∧ 0 < b.units ∧ scaled x = b.units ∧
      ∃ hm, x.toModel.unpack = .finite .positive b.mantissa b.exponent hm) ∨
    (∃ b : Binary, b.Normal ∧ 0 < b.units ∧ scaled x = -b.units ∧
      ∃ hm, x.toModel.unpack = .finite .negative b.mantissa b.exponent hm) := by
  change x.toModel.unpack.isFinite = true at hx
  have hfields := unpacks_ofFloat x
  cases h : x.toModel.unpack with
  | infinity => simp [h, UnpackedFloat.isFinite] at hx
  | notANumber => simp [h, UnpackedFloat.isFinite] at hx
  | zero s => exact .inl ⟨scaled_of_zero h, s, rfl⟩
  | finite s m e hm =>
      have hscaled := scaled_of_finite h
      rw [h] at hfields
      obtain ⟨-, rfl, rfl⟩ := hfields
      have hunits : 0 < (Binary.ofFloat x).units := Nat.mul_pos hm (Nat.two_pow_pos _)
      cases s with
      | positive => exact .inr (.inl ⟨_, normal_ofFloat x, hunits, hscaled, hm, rfl⟩)
      | negative => exact .inr (.inr ⟨_, normal_ofFloat x, hunits, hscaled, hm, rfl⟩)

/-! ## Comparing -/

/-- Doubles that use all their bits are compared by their exponents first. -/
theorem Binary.Normal.compare_units {b c : Binary} (hb : b.Normal) (hc : c.Normal) :
    compare b.units c.units =
      (compare b.exponent c.exponent).then (compare b.mantissa c.mantissa) := by
  have hlt {b c : Binary} (hb : b.Normal) (hc : c.Normal) (h : b.exponent < c.exponent) :
      b.units < c.units := by
    have hbl := hb.least_le
    calc b.units < 2 ^ 53 * 2 ^ (b.exponent + 1074).toNat :=
          Nat.mul_lt_mul_of_pos_right hb.mantissa_lt (by positivity)
      _ = 2 ^ 52 * 2 ^ ((b.exponent + 1074).toNat + 1) := by ring
      _ ≤ c.mantissa * 2 ^ (c.exponent + 1074).toNat :=
          Nat.mul_le_mul (hc.le_mantissa (by omega)) (Nat.pow_le_pow_right (by decide) (by omega))
  rcases lt_trichotomy b.exponent c.exponent with h | h | h
  · rw [compare_lt_iff_lt.mpr h, compare_lt_iff_lt.mpr (hlt hb hc h)]
    rfl
  · rw [compare_eq_iff_eq.mpr h, units, units, h]
    simp only [Nat.compare_eq_ite_lt, Nat.mul_lt_mul_right (Nat.two_pow_pos _), Ordering.eq_then]
  · rw [compare_gt_iff_gt.mpr h, compare_gt_iff_gt.mpr (hlt hc hb h)]
    rfl

theorem compare_unpack (hx : x.isFinite = true) (hy : y.isFinite = true) :
    x.toModel.unpack.compare y.toModel.unpack = some (compare (scaled x) (scaled y)) := by
  have hlt {i j : Int} (h : i < j) : some .lt = some (compare i j) :=
    congrArg some (Int.compare_eq_lt.mpr h).symm
  have hgt {i j : Int} (h : j < i) : some .gt = some (compare i j) :=
    congrArg some (Int.compare_eq_gt.mpr h).symm
  have hsame {b c : Binary} (hb : b.Normal) (hc : c.Normal) :
      (compare b.exponent c.exponent).then (compare b.mantissa c.mantissa) =
        compare (b.units : Int) c.units := by
    rw [← hb.compare_units hc]
    simp only [Int.compare_eq_ite_lt, Nat.compare_eq_ite_lt, Int.ofNat_lt]
  obtain ⟨hsx, s, hux⟩ | ⟨b, hb, hpos, hsx, _, hux⟩ | ⟨b, hb, hpos, hsx, _, hux⟩ := finite_cases hx
    <;> obtain ⟨hsy, t, huy⟩ | ⟨c, hc, hpos', hsy, _, huy⟩ | ⟨c, hc, hpos', hsy, _, huy⟩ :=
      finite_cases hy
    <;> rw [hux, huy, hsx, hsy]
  · rfl
  · exact hlt (by omega)
  · exact hgt (by omega)
  · exact hgt (by omega)
  · exact congrArg some (hsame hb hc)
  · exact hgt (by omega)
  · exact hlt (by omega)
  · exact hlt (by omega)
  · refine congrArg some ?_
    rw [hsame hb hc, Int.compare_swap]
    simp only [Int.compare_eq_ite_lt, Int.neg_lt_neg_iff]

theorem lt_iff_scaled (hx : x.isFinite = true) (hy : y.isFinite = true) :
    x < y ↔ scaled x < scaled y := by
  change decide (x.toModel.unpack.lt y.toModel.unpack = true) = true ↔ _
  rw [decide_eq_true_iff, UnpackedFloat.lt, compare_unpack hx hy, beq_iff_eq, Option.some_inj,
    compare_lt_iff_lt]

theorem beq_iff_scaled (hx : x.isFinite = true) (hy : y.isFinite = true) :
    (x == y) = true ↔ scaled x = scaled y := by
  change x.toModel.unpack.beq y.toModel.unpack = true ↔ _
  rw [UnpackedFloat.beq, compare_unpack hx hy, beq_iff_eq, Option.some_inj, compare_eq_iff_eq]

/-- Finite doubles are ordered as the numbers that they are. -/
theorem orderFloats?_eq (hx : x.isFinite = true) (hy : y.isFinite = true) :
    orderFloats? x y = some (compare (scaled x) (scaled y)) := by
  simp only [orderFloats?, lt_iff_scaled hx hy, lt_iff_scaled hy hx, beq_iff_scaled hx hy,
    Int.compare_eq_ite_lt]
  split_ifs <;> first | rfl | omega

/-! ## Integers -/

theorem Binary.Normal.units_mul_denominator {b : Binary} (hb : b.Normal) :
    b.units * b.denominator = b.numerator * scaledOne := by
  have hexp : (b.exponent + 1074).toNat + (-b.exponent).toNat = b.exponent.toNat + 1074 := by
    have := hb.least_le
    omega
  calc b.units * b.denominator
      = b.mantissa * 2 ^ ((b.exponent + 1074).toNat + (-b.exponent).toNat) := by
        rw [units, denominator, pow_add, mul_assoc]
        rfl
    _ = b.numerator * scaledOne := by
        rw [hexp, numerator, pow_add, mul_assoc]
        rfl

/-- A double is an integer if it is the multiple of `2 ^ -1074` that the integer is. -/
theorem integer?_eq_some {k : Int} (hx : x.isFinite = true) (h : scaled x = k * scaledOne) :
    integer? x = some k := by
  have hunits : (Binary.ofFloat x).units = k.natAbs * scaledOne := by
    have habs : (scaled x).natAbs = (Binary.ofFloat x).units := by
      rw [scaled, Binary.scaled]
      split <;> simp
    rw [← habs, h, Int.natAbs_mul, Int.natAbs_natCast]
  have hnum : (Binary.ofFloat x).numerator = k.natAbs * (Binary.ofFloat x).denominator := by
    apply Nat.eq_of_mul_eq_mul_right scaledOne_pos
    rw [← (normal_ofFloat x).units_mul_denominator, hunits, mul_right_comm]
  have hden : 0 < (Binary.ofFloat x).denominator := Nat.two_pow_pos _
  have hsign : (if (Binary.ofFloat x).negative then -(k.natAbs : Int) else k.natAbs) = k := by
    apply Int.eq_of_mul_eq_mul_right (Int.natCast_ne_zero_iff_pos.mpr scaledOne_pos)
    rw [← h, scaled, Binary.scaled, hunits, Nat.cast_mul, ← neg_mul]
    split <;> rfl
  unfold integer?
  rw [if_pos hx]
  dsimp only
  rw [hnum, Nat.mul_mod_left, if_pos rfl, Nat.mul_div_cancel _ hden, hsign]

end Society.Decimal
