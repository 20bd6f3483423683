import Mathlib
import Society.Decimal.Fixed
import Society.Proofs.Decimal.Double

/-!
# Integers as doubles

An integer of 64 bits becomes the nearest double, halves to the even neighbour. The conversion is
monotone, and what it gives is again an integer.
-/

namespace Society.Decimal

open Float.Model UnpackedFloat

/-! ## Rounding a quotient -/

section Rounding

variable {a b d : Nat}

theorem nearestEven_eq (a d : Nat) :
    nearestEven a d =
      if 2 * (a % d) < d then a / d
      else if d < 2 * (a % d) then a / d + 1
      else a / d + a / d % 2 := by
  unfold nearestEven
  rw [Nat.compare_eq_ite_lt]
  split_ifs <;> dsimp only
  split_ifs <;> omega

theorem le_nearestEven (a d : Nat) : a / d ≤ nearestEven a d := by
  rw [nearestEven_eq]
  split_ifs <;> omega

theorem nearestEven_le (a d : Nat) : nearestEven a d ≤ a / d + 1 := by
  rw [nearestEven_eq]
  split_ifs <;> omega

theorem nearestEven_mul (hd : 0 < d) (q : Nat) : nearestEven (q * d) d = q := by
  rw [nearestEven_eq, Nat.mul_mod_left, if_pos (by omega), Nat.mul_div_cancel _ hd]

theorem nearestEven_mono (h : a ≤ b) (d : Nat) : nearestEven a d ≤ nearestEven b d := by
  rcases (Nat.div_le_div_right h : a / d ≤ b / d).lt_or_eq with hlt | heq
  · have := nearestEven_le a d
    have := le_nearestEven b d
    omega
  · have hmod : a % d ≤ b % d := by
      have ha := Nat.div_add_mod a d
      have hb := Nat.div_add_mod b d
      rw [heq] at ha
      omega
    rw [nearestEven_eq, nearestEven_eq, heq]
    split_ifs <;> omega

end Rounding

/-! ## Rounding a mantissa -/

/-- A mantissa that has lost its last `k` bits: the quotient, whether the bits that are lost make
at least a half, and whether they differ from a half and from nothing. -/
def shifted (m k : Nat) : ExtendedMantissa where
  mantissa := m / 2 ^ k
  roundBit := 2 ^ k ≤ 2 * (m % 2 ^ k)
  stickyBit := 2 * (m % 2 ^ k) % 2 ^ k ≠ 0

theorem shiftRight_eq (m k : Nat) : (⟨m, false, false⟩ : ExtendedMantissa) >>> k = shifted m k := by
  change Nat.repeat ExtendedMantissa.shiftRightOne k _ = _
  induction k with
  | zero => simp [Nat.repeat, shifted, Nat.mod_one]
  | succ k ih =>
      have hpos : 0 < 2 ^ k := Nat.two_pow_pos k
      have hrest : m % 2 ^ k < 2 ^ k := Nat.mod_lt _ hpos
      have hsucc : m % 2 ^ (k + 1) = m % 2 ^ k + 2 ^ k * (m / 2 ^ k % 2) := Nat.mod_pow_succ
      have hround : (m / 2 ^ k % 2 != 0) = decide (2 ^ (k + 1) ≤ 2 * (m % 2 ^ (k + 1))) := by
        rw [hsucc, pow_succ]
        obtain h | h : m / 2 ^ k % 2 = 0 ∨ m / 2 ^ k % 2 = 1 := by omega
        · simp [h]; omega
        · simp [h]; omega
      have hsticky : (decide (2 ^ k ≤ 2 * (m % 2 ^ k)) || decide (2 * (m % 2 ^ k) % 2 ^ k ≠ 0)) =
          decide (2 * (m % 2 ^ (k + 1)) % 2 ^ (k + 1) ≠ 0) := by
        have hlost : 2 * (m % 2 ^ (k + 1)) % 2 ^ (k + 1) = 2 * (m % 2 ^ k) := by
          rw [hsucc, mul_add, ← mul_assoc, ← pow_succ', Nat.add_mul_mod_self_left,
            Nat.mod_eq_of_lt (by omega)]
        rw [hlost, ← Bool.decide_or, decide_eq_decide]
        by_cases h : 2 * (m % 2 ^ k) < 2 ^ k
        · rw [Nat.mod_eq_of_lt h]
          omega
        · omega
      rw [Nat.repeat, ih, shifted, shifted]
      simp only [ExtendedMantissa.shiftRightOne, ExtendedMantissa.mk.injEq]
      refine ⟨?_, hround, hsticky⟩
      rw [Nat.div_div_eq_div_mul, ← pow_succ]

theorem roundedMantissa_shifted (m k : Nat) :
    (shifted m k).roundedMantissa = nearestEven m (2 ^ k) := by
  have hrest : m % 2 ^ k < 2 ^ k := Nat.mod_lt _ (Nat.two_pow_pos k)
  rw [nearestEven_eq, ExtendedMantissa.roundedMantissa, shifted]
  rcases lt_trichotomy (2 * (m % 2 ^ k)) (2 ^ k) with h | h | h
  · rw [if_pos h, decide_eq_false h.not_ge]
    cases decide (2 * (m % 2 ^ k) % 2 ^ k ≠ 0) <;> rfl
  · rw [if_neg h.not_lt, if_neg h.not_gt, decide_eq_true h.ge, h, Nat.mod_self]
    rfl
  · have hmod : 2 * (m % 2 ^ k) % 2 ^ k = 2 * (m % 2 ^ k) - 2 ^ k := by
      rw [Nat.mod_eq_sub_mod h.le, Nat.mod_eq_of_lt (by omega)]
    rw [if_neg h.not_gt, if_pos h, decide_eq_true h.le, hmod, decide_eq_true (by omega)]
    rfl

theorem shiftToTargetExponent_exact {m k : Nat} {e : Int} (hlog : m.log2 = 52 + k)
    (he : -1074 ≤ e + k) :
    shiftToTargetExponent .binary64 m e .exact = (shifted m k, e + k) := by
  have htarget : Format.targetExponent .binary64 (totalExponent m e) = e + k := by
    simp only [Format.targetExponent, totalExponent, Format.minExponent, Format.mantissaBits, hlog]
    omega
  rw [shiftToTargetExponent, htarget, shiftToExponent,
    show (e + k - e).toNat = k by omega]
  exact Prod.ext (shiftRight_eq m k) rfl

theorem log2_mul_pow {n : Nat} (hn : n ≠ 0) (k : Nat) : (n * 2 ^ k).log2 = n.log2 + k := by
  rw [Nat.log2_eq_iff (mul_ne_zero hn (by positivity)), pow_add, add_right_comm, pow_add]
  exact ⟨Nat.mul_le_mul_right _ (Nat.log2_self_le hn),
    Nat.mul_lt_mul_of_pos_right Nat.lt_log2_self (Nat.two_pow_pos k)⟩

theorem nearestEven_mem {m k : Nat} (hlog : m.log2 = 52 + k) :
    2 ^ 52 ≤ nearestEven m (2 ^ k) ∧ nearestEven m (2 ^ k) ≤ 2 ^ 53 := by
  have hm : m ≠ 0 := by
    rintro rfl
    simp at hlog
    omega
  constructor
  · refine le_trans ?_ (le_nearestEven m _)
    rw [Nat.le_div_iff_mul_le (Nat.two_pow_pos k), ← pow_add, ← hlog]
    exact Nat.log2_self_le hm
  · refine le_trans (nearestEven_le m _) (Nat.succ_le_of_lt ?_)
    rw [Nat.div_lt_iff_lt_mul (Nat.two_pow_pos k), ← pow_add, show 53 + k = m.log2 + 1 by omega]
    exact Nat.lt_log2_self

/-- A mantissa of at least 53 bits is rounded to 53 bits, which may carry into the exponent. -/
theorem roundWithAccuracy_exact {m k : Nat} (s : Sign) (e : Int) (hlog : m.log2 = 52 + k)
    (he : -1074 ≤ e + k) :
    ∃ M E h, roundWithAccuracy .binary64 s m e .exact = .finite s M E h ∧
      2 ^ 52 ≤ M ∧ M < 2 ^ 53 ∧ e + k ≤ E ∧ E ≤ e + k + 1 ∧
      M * 2 ^ (E - (e + k)).toNat = nearestEven m (2 ^ k) := by
  obtain ⟨hlo, hhi⟩ := nearestEven_mem hlog
  have hround := roundedMantissa_shifted m k
  generalize nearestEven m (2 ^ k) = q at hlo hhi hround ⊢
  -- `j` is what the rounding carries into the exponent.
  obtain ⟨j, hj, hlog', hmul, hlo', hhi'⟩ : ∃ j ≤ 1, q.log2 = 52 + j ∧ q / 2 ^ j * 2 ^ j = q ∧
      2 ^ 52 ≤ q / 2 ^ j ∧ q / 2 ^ j < 2 ^ 53 := by
    obtain hlt | rfl := hhi.lt_or_eq
    · exact ⟨0, by omega, (Nat.log2_eq_iff (by omega)).mpr ⟨hlo, hlt⟩, by omega, by omega, by omega⟩
    · exact ⟨1, le_rfl, Nat.log2_two_pow, by decide, by decide, by decide⟩
  refine ⟨q / 2 ^ j, e + k + j, by omega, ?_, hlo', hhi', by omega, by omega, ?_⟩
  · unfold roundWithAccuracy
    rw [shiftToTargetExponent_exact hlog he]
    dsimp only
    rw [hround, shiftToTargetExponent_exact hlog' (by omega)]
    exact dif_neg (by simp only [shifted]; omega)
  · rw [show (e + k + j - (e + k)).toNat = j by omega, hmul]

/-! ## Converting -/

/-- A mantissa of 53 bits is packed without loss. -/
theorem unpack_pack {s : Sign} {M : Nat} {E : Int} {hM : 0 < M} (hlo : 2 ^ 52 ≤ M)
    (hhi : M < 2 ^ 53) (hElo : -1074 ≤ E) (hEhi : E ≤ 971) :
    (Float.Model.pack (.finite s M E hM)).unpack = .finite s M E hM := by
  have hlog : M.log2 = 52 := (Nat.log2_eq_iff (by omega)).mpr ⟨hlo, hhi⟩
  obtain ⟨biased, hbiased⟩ : ∃ n : Nat, E + 1075 = n := ⟨(E + 1075).toNat, by omega⟩
  have hexp : (E + (Format.exponentBias .binary64 : Nat) + (52 : Nat)).toNat = biased := by
    change (E + (1023 : Nat) + (52 : Nat)).toNat = _
    omega
  have hpack : UnpackedFloat.pack .binary64 (.finite s M E hM) =
      packComponents .binary64 s (BitVec.ofNat _ biased) (BitVec.ofNat _ M) := by
    rw [UnpackedFloat.pack]
    dsimp only
    rw [hexp, if_neg (by omega), if_pos (by rw [hlog]; rfl)]
  have hevec : (BitVec.ofNat 11 biased).toNat = biased := by
    rw [BitVec.toNat_ofNat, Nat.mod_eq_of_lt (by omega)]
  have hmvec : (1#1 ++ BitVec.ofNat 52 M).toNat = M := by
    rw [toNat_one_append, BitVec.toNat_ofNat]
    omega
  have hnan : BitVec.ofNat 11 biased ≠ -1#11 := fun h => by
    have := congrArg BitVec.toNat h
    rw [hevec, show (-1#11).toNat = 2047 from rfl] at this
    omega
  have hsub : BitVec.ofNat 11 biased ≠ 0#11 := fun h => by
    have := congrArg BitVec.toNat h
    rw [hevec, show (0#11).toNat = 0 from rfl] at this
    omega
  change UnpackedFloat.unpack .binary64 (UnpackedFloat.pack .binary64 (.finite s M E hM)) = _
  rw [hpack, UnpackedFloat.unpack]
  simp only [unpackExponent_packComponents, unpackMantissa_packComponents,
    unpackSign_packComponents, Sign.ofBitVec_toBitVec]
  rw [if_neg hnan, if_neg hsub]
  simp only [hmvec, hevec, UnpackedFloat.finite.injEq, true_and]
  change (biased : Int) - ((1023 : Nat) + (52 : Nat)) = E
  omega

/-- A double of this sign and magnitude is packed from a mantissa of 53 bits. -/
def Packs (x : Float) (s : Sign) (units : Nat) : Prop :=
  ∃ M E h, x.toModel = Float.Model.pack (.finite s M E h) ∧
    2 ^ 52 ≤ M ∧ M < 2 ^ 53 ∧ -1074 ≤ E ∧ E ≤ 971 ∧ M * 2 ^ (E + 1074).toNat = units

section Packs

variable {x : Float} {s : Sign} {units : Nat}

theorem Packs.isFinite (h : Packs x s units) : x.isFinite = true := by
  obtain ⟨M, E, h, hx, hlo, hhi, hElo, hEhi, -⟩ := h
  change x.toModel.unpack.isFinite = true
  rw [hx, unpack_pack hlo hhi hElo hEhi]
  rfl

theorem Packs.scaled (h : Packs x s units) : scaled x = s.apply units := by
  obtain ⟨M, E, h, hx, hlo, hhi, hElo, hEhi, rfl⟩ := h
  exact scaled_of_finite (hx ▸ unpack_pack hlo hhi hElo hEhi)

theorem Packs.neg (h : Packs x .positive units) : Packs (-x) .negative units := by
  obtain ⟨M, E, h, hx, hlo, hhi, hElo, hEhi, hunits⟩ := h
  refine ⟨M, E, h, ?_, hlo, hhi, hElo, hEhi, hunits⟩
  change Float.Model.pack x.toModel.unpack.neg = _
  rw [hx, unpack_pack hlo hhi hElo hEhi]
  rfl

end Packs

/-- A mantissa of 53 bits with zeros behind it loses nothing but the zeros. -/
theorem roundWithAccuracy_mul {M : Nat} (k : Nat) (s : Sign) (e : Int) (hlo : 2 ^ 52 ≤ M)
    (hhi : M < 2 ^ 53) (he : -1074 ≤ e + k) :
    ∃ h, roundWithAccuracy .binary64 s (M * 2 ^ k) e .exact = .finite s M (e + k) h := by
  have hlog : (M * 2 ^ k).log2 = 52 + k := by
    rw [log2_mul_pow (by omega), (Nat.log2_eq_iff (by omega)).mpr ⟨hlo, hhi⟩]
  obtain ⟨M', E, hM', hround, hlo', -, hE, hE', hmul⟩ := roundWithAccuracy_exact s e hlog he
  rw [nearestEven_mul (Nat.two_pow_pos k)] at hmul
  obtain rfl | rfl : E = e + k ∨ E = e + k + 1 := by omega
  · rw [sub_self, Int.toNat_zero, pow_zero, mul_one] at hmul
    subst hmul
    exact ⟨hM', hround⟩
  · rw [add_sub_cancel_left, Int.toNat_one, pow_one] at hmul
    omega

variable {n : Nat}

/-- The significand of the double that a natural number becomes: 53 bits, unless it has to be
carried into the exponent. -/
def significand (n : Nat) : Nat :=
  nearestEven (n * 2 ^ 53) (2 ^ (n.log2 + 1))

/-- What `scaled` gives for the double that a natural number becomes. -/
def scaledNat (n : Nat) : Nat :=
  significand n * 2 ^ (n.log2 + 1022)

/-- Up to 53 bits nothing is rounded. -/
theorem significand_of_lt (hpos : 0 < n) (hlt : n < 2 ^ 53) :
    significand n = n * 2 ^ (52 - n.log2) := by
  have hlog : n.log2 < 53 := (Nat.log2_lt hpos.ne').mpr hlt
  rw [significand, show 53 = 52 - n.log2 + (n.log2 + 1) by omega, pow_add, ← mul_assoc,
    nearestEven_mul (Nat.two_pow_pos _)]

theorem significand_mem_of_lt (hpos : 0 < n) (hlt : n < 2 ^ 53) :
    2 ^ 52 ≤ significand n ∧ significand n < 2 ^ 53 := by
  have hlog : n.log2 < 53 := (Nat.log2_lt hpos.ne').mpr hlt
  rw [significand_of_lt hpos hlt, ← Nat.log2_eq_iff (by positivity), log2_mul_pow hpos.ne']
  omega

/-- The machine's conversion, which is exact. -/
theorem unpack_toFloat (hpos : 0 < n) (hlt : n < 2 ^ 53) :
    ∃ h, n.toUInt64.toFloat.toModel.unpack =
      .finite .positive (significand n) (n.log2 - 52) h := by
  have hlog : n.log2 < 53 := (Nat.log2_lt hpos.ne').mpr hlt
  have hn : n.toUInt64.toNat = n := UInt64.toNat_ofNat_of_lt' (by rw [UInt64.size]; omega)
  have htarget : Format.targetExponent .binary64 (totalExponent n 0) = n.log2 - 52 := by
    simp only [Format.targetExponent, totalExponent, Format.minExponent, Format.mantissaBits]
    omega
  have hdecrease : decreaseExponent n 0 (n.log2 - 52) = (significand n, (n.log2 : Int) - 52) := by
    rw [decreaseExponent, significand_of_lt hpos hlt, Nat.shiftLeft_eq,
      show (0 - ((n.log2 : Int) - 52)).toNat = 52 - n.log2 by omega]
    exact Prod.ext rfl (by dsimp only; omega)
  obtain ⟨hlo, hhi⟩ := significand_mem_of_lt hpos hlt
  obtain ⟨h, hround⟩ := roundWithAccuracy_mul 0 .positive (n.log2 - 52) hlo hhi (by omega)
  change ∃ h, (Float.Model.pack (UnpackedFloat.ofInt .binary64 n.toUInt64.toNat)).unpack = _
  rw [hn, UnpackedFloat.ofInt, UnpackedFloat.normalize, Int.compare_eq_gt.mpr (by omega)]
  dsimp only
  rw [UnpackedFloat.round, Int.toNat_natCast, htarget, hdecrease]
  dsimp only
  rw [pow_zero, mul_one, Nat.cast_zero, add_zero] at hround
  rw [hround]
  exact ⟨h, unpack_pack hlo hhi (by omega) (by omega)⟩

theorem packs_ofNat_of_lt (hpos : 0 < n) (hlt : n < 2 ^ 53) :
    Packs (Float.ofNat n) .positive (scaledNat n) := by
  have hlog : n.log2 < 53 := (Nat.log2_lt hpos.ne').mpr hlt
  obtain ⟨hlo, hhi⟩ := significand_mem_of_lt hpos hlt
  obtain ⟨_, hn⟩ := unpack_toFloat hpos hlt
  have hone : (Float.ofBits 0x3FF0000000000000).toModel.unpack =
      .finite .positive (2 ^ 52) (-52) (by decide) := rfl
  obtain ⟨h, hround⟩ :=
    roundWithAccuracy_mul 52 .positive (n.log2 - 52 + -52) hlo hhi (by omega)
  rw [Nat.cast_ofNat, neg_add_cancel_right] at hround
  refine ⟨significand n, n.log2 - 52, h, ?_, hlo, hhi, by omega, by omega, ?_⟩
  · change (Float.ofScientific n false 0).toModel = _
    rw [Float.ofScientific, dif_pos ⟨hlt, by omega⟩]
    change Float.Model.pack (UnpackedFloat.mul .binary64 n.toUInt64.toFloat.toModel.unpack
      (Float.ofBits 0x3FF0000000000000).toModel.unpack) = _
    rw [hn, hone]
    exact congrArg _ hround
  · rw [scaledNat, show ((n.log2 : Int) - 52 + 1074).toNat = n.log2 + 1022 by omega]

theorem packs_ofNat_of_ge (hge : 2 ^ 53 ≤ n) (hle : n ≤ 2 ^ 63) :
    Packs (Float.ofNat n) .positive (scaledNat n) := by
  have hpos : n ≠ 0 := by omega
  have hlog : n.log2 < 64 := (Nat.log2_lt hpos).mpr (by omega)
  have hlog' : (n <<< 53 * 1).log2 = 52 + (n.log2 + 1) := by
    rw [mul_one, Nat.shiftLeft_eq, log2_mul_pow hpos]
    omega
  obtain ⟨M, E, h, hround, hlo, hhi, hE, hE', hmul⟩ :=
    roundWithAccuracy_exact .positive (-53 + 0) hlog' (by omega)
  refine ⟨M, E, h, ?_, hlo, hhi, by omega, by omega, ?_⟩
  · change (Float.ofScientific n false 0).toModel = _
    rw [Float.ofScientific, dif_neg (by omega)]
    change Float.Model.pack (UnpackedFloat.ofScientific .binary64 n 0) = _
    rw [UnpackedFloat.ofScientific, dif_neg hpos, if_neg (by decide), if_neg (by simp),
      if_pos le_rfl]
    exact congrArg _ hround
  · have hexp : (E + 1074).toNat =
        (E - (-53 + 0 + (n.log2 + 1 : Nat))).toNat + (n.log2 + 1022) := by omega
    rw [hexp, pow_add, ← mul_assoc, hmul, mul_one, Nat.shiftLeft_eq]
    rfl

theorem packs_ofNat (hpos : 0 < n) (hle : n ≤ 2 ^ 63) :
    Packs (Float.ofNat n) .positive (scaledNat n) := by
  rcases lt_or_ge n (2 ^ 53) with h | h
  · exact packs_ofNat_of_lt hpos h
  · exact packs_ofNat_of_ge h hle

/-! ## What a conversion gives -/

theorem significand_mem (hpos : 0 < n) : 2 ^ 52 ≤ significand n ∧ significand n ≤ 2 ^ 53 := by
  apply nearestEven_mem
  rw [log2_mul_pow hpos.ne']
  omega

theorem scaledNat_zero : scaledNat 0 = 0 := by
  rw [scaledNat, show significand 0 = 0 from rfl, zero_mul]

theorem scaledNat_mono {a b : Nat} (h : a ≤ b) : scaledNat a ≤ scaledNat b := by
  obtain rfl | hpos := a.eq_zero_or_pos
  · rw [scaledNat_zero]
    exact Nat.zero_le _
  · have hlog : a.log2 ≤ b.log2 :=
      (Nat.le_log2 (by omega)).mpr ((Nat.log2_self_le hpos.ne').trans h)
    obtain hlt | heq := hlog.lt_or_eq
    · -- The power of two between the two numbers is a double.
      calc scaledNat a ≤ 2 ^ 53 * 2 ^ (a.log2 + 1022) :=
            Nat.mul_le_mul_right _ (significand_mem hpos).2
        _ = 2 ^ 52 * 2 ^ (a.log2 + 1 + 1022) := by
            rw [← pow_add, ← pow_add, show 53 + (a.log2 + 1022) = 52 + (a.log2 + 1 + 1022) by omega]
        _ ≤ scaledNat b :=
            Nat.mul_le_mul (significand_mem (hpos.trans_le h)).1
              (Nat.pow_le_pow_right (by decide) (by omega))
    · rw [scaledNat, scaledNat, significand, significand, heq]
      exact Nat.mul_le_mul_right _ (nearestEven_mono (Nat.mul_le_mul_right _ h) _)

theorem dvd_scaledNat (n : Nat) : scaledOne ∣ scaledNat n := by
  obtain rfl | hpos := n.eq_zero_or_pos
  · rw [scaledNat_zero]
    exact dvd_zero _
  · rcases lt_or_ge n (2 ^ 53) with hlt | hge
    · have hlog : n.log2 < 53 := (Nat.log2_lt hpos.ne').mpr hlt
      rw [scaledNat, significand_of_lt hpos hlt, mul_assoc, ← pow_add,
        show 52 - n.log2 + (n.log2 + 1022) = 1074 by omega]
      exact dvd_mul_left _ _
    · have hlog : 53 ≤ n.log2 := (Nat.le_log2 hpos.ne').mpr hge
      exact dvd_mul_of_dvd_right (pow_dvd_pow 2 (by omega)) _

/-- What `scaled` gives for the double that an integer becomes. -/
def scaledInt (i : Int) : Int :=
  i.sign * scaledNat i.natAbs

theorem scaledInt_natCast (n : Nat) : scaledInt n = scaledNat n := by
  obtain rfl | hpos := n.eq_zero_or_pos
  · simp [scaledInt, scaledNat_zero]
  · rw [scaledInt, Int.sign_natCast_of_ne_zero hpos.ne', Int.natAbs_natCast, one_mul]

theorem scaledInt_neg (i : Int) : scaledInt (-i) = -scaledInt i := by
  rw [scaledInt, scaledInt, Int.sign_neg, Int.natAbs_neg, neg_mul]

theorem scaledInt_mono {i j : Int} (h : i ≤ j) : scaledInt i ≤ scaledInt j := by
  have hnat {a b : Nat} (h : a ≤ b) : (scaledNat a : Int) ≤ scaledNat b :=
    Int.ofNat_le.mpr (scaledNat_mono h)
  obtain ⟨a, rfl | rfl⟩ := i.eq_nat_or_neg <;> obtain ⟨b, rfl | rfl⟩ := j.eq_nat_or_neg
  · rw [scaledInt_natCast, scaledInt_natCast]
    exact hnat (by omega)
  · obtain ⟨rfl, rfl⟩ : a = 0 ∧ b = 0 := by omega
    exact le_rfl
  · rw [scaledInt_neg, scaledInt_natCast, scaledInt_natCast]
    omega
  · rw [scaledInt_neg, scaledInt_neg, scaledInt_natCast, scaledInt_natCast]
    exact neg_le_neg (hnat (by omega))

theorem dvd_scaledInt (i : Int) : (scaledOne : Int) ∣ scaledInt i :=
  dvd_mul_of_dvd_right (Int.natCast_dvd_natCast.mpr (dvd_scaledNat _)) _

/-- An integer of 64 bits becomes a finite double. -/
theorem ofInt_spec {i : Int} (hi : i.natAbs ≤ 2 ^ 63) :
    (Float.ofInt i).isFinite = true ∧ scaled (Float.ofInt i) = scaledInt i := by
  match i with
  | .ofNat 0 => exact ⟨by decide +kernel, by decide +kernel⟩
  | .ofNat (n + 1) =>
      have h := packs_ofNat n.succ_pos hi
      exact ⟨h.isFinite, h.scaled.trans (scaledInt_natCast _).symm⟩
  | .negSucc n =>
      have h := (packs_ofNat n.succ_pos hi).neg
      refine ⟨h.isFinite, h.scaled.trans ?_⟩
      rw [Int.negSucc_eq, scaledInt_neg, ← Nat.cast_succ, scaledInt_natCast]
      rfl

end Society.Decimal
