import Mathlib
import Society.Proofs.Decimal.Conversion
import Society.Proofs.Sentence.Equality
import Society.Proofs.Sentence.Substitution

/-!
# Six comparators of one order

Of two numbers or two symbols that sentences write, one is less, they are equal, or one is greater,
and the comparators agree on which. What the order cannot tell apart and equality can is an integer
and a float that is the nearest double to it. A float that is an integer is written only where the
integers of 64 bits end; so there are such pairs at the two ends alone.
-/

namespace Society

open Std

/-! ## Symbols -/

instance : TransCmp orderSymbols :=
  inferInstanceAs
    (TransCmp (compareLex (compareOn Text.toLowerCase) fun a b : String => compare b a))

/-- Only equal symbols have no order: the tie is broken by the symbols as they are written. -/
instance : LawfulEqCmp orderSymbols where
  eq_of_compare h := (LawfulEqOrd.eq_of_compare (Ordering.then_eq_eq.mp h).2).symm

namespace NodeValue

/-- Both are numbers, or both are symbols. -/
def comparable : NodeValue → NodeValue → Bool
  | .int _, .int _ => true
  | .int _, .float _ => true
  | .float _, .int _ => true
  | .float _, .float _ => true
  | .symbol _, .symbol _ => true
  | _, _ => false

/-- An integer and a float that is the nearest double to it. -/
def Blurred : NodeValue → NodeValue → Prop
  | .int i, .float x => (Float.ofInt i == x) = true
  | .float x, .int i => (Float.ofInt i == x) = true
  | _, _ => False

/-! ## Numbers -/

/-- A number as sentences write them. -/
inductive Number : NodeValue → Prop
  | int {i : Int} (hi : i.natAbs ≤ 2 ^ 63) : Number (.int i)
  | float {x : Float} (hx : x.isFinite = true) : Number (.float x)

/-- What `Decimal.scaled` gives for the double that a number is compared as. -/
def scaled : NodeValue → Int
  | .int i => Decimal.scaledInt i
  | .float x => Decimal.scaled x
  | _ => 0

/-- The order of two numbers. -/
def orderNumbers : NodeValue → NodeValue → Ordering
  | .int i, .int j => compare i j
  | a, b => compare a.scaled b.scaled

variable {a b c : NodeValue}

theorem Number.order?_eq (ha : a.Number) (hb : b.Number) :
    a.order? b = some (a.orderNumbers b) := by
  cases ha with
  | int hi =>
      cases hb with
      | int hj => rfl
      | float hy =>
          obtain ⟨hfin, hscaled⟩ := Decimal.ofInt_spec hi
          exact (Decimal.orderFloats?_eq hfin hy).trans (by rw [hscaled]; rfl)
  | float hx =>
      cases hb with
      | int hj =>
          obtain ⟨hfin, hscaled⟩ := Decimal.ofInt_spec hj
          exact (Decimal.orderFloats?_eq hx hfin).trans (by rw [hscaled]; rfl)
      | float hy => exact Decimal.orderFloats?_eq hx hy

theorem orderNumbers_swap (a b : NodeValue) : a.orderNumbers b = (b.orderNumbers a).swap := by
  cases a <;> cases b <;> exact (Int.compare_swap _ _).symm

theorem orderNumbers_of_scaled_lt (h : a.scaled < b.scaled) : a.orderNumbers b = .lt := by
  cases a <;> cases b <;> try exact Int.compare_eq_lt.mpr h
  exact Int.compare_eq_lt.mpr (lt_of_not_ge fun hge => (Decimal.scaledInt_mono hge).not_gt h)

theorem scaled_le_of_orderNumbers (h : a.orderNumbers b = .lt) : a.scaled ≤ b.scaled := by
  cases a <;> cases b <;> try exact (Int.compare_eq_lt.mp h).le
  exact Decimal.scaledInt_mono (Int.compare_eq_lt.mp h).le

theorem scaled_lt_of_orderNumbers (h : a.orderNumbers b = .lt)
    (hkind : a.kind ≠ .int ∨ b.kind ≠ .int) : a.scaled < b.scaled := by
  cases a <;> cases b <;> first | exact Int.compare_eq_lt.mp h | simp [kind] at hkind

/-- Integers are compared exactly, and otherwise nearest doubles are. This is transitive, as the
doubles of integers are in the order of the integers. -/
theorem orderNumbers_trans (hab : a.orderNumbers b = .lt) (hbc : b.orderNumbers c = .lt) :
    a.orderNumbers c = .lt := by
  by_cases hint : a.kind = .int ∧ b.kind = .int ∧ c.kind = .int
  · obtain ⟨ha, hb, hc⟩ := hint
    cases a <;> cases b <;> cases c <;> simp only [kind, reduceCtorEq] at ha hb hc
    exact Int.compare_eq_lt.mpr ((Int.compare_eq_lt.mp hab).trans (Int.compare_eq_lt.mp hbc))
  · have hle := scaled_le_of_orderNumbers hab
    have hle' := scaled_le_of_orderNumbers hbc
    by_cases hb : a.kind = .int ∧ b.kind = .int
    · exact orderNumbers_of_scaled_lt (hle.trans_lt (scaled_lt_of_orderNumbers hbc (by tauto)))
    · exact orderNumbers_of_scaled_lt ((scaled_lt_of_orderNumbers hab (by tauto)).trans_le hle')

theorem Number.orderNumbers_eq (ha : a.Number) (hb : b.Number) :
    a.orderNumbers b = .eq ↔ a.equalTo b = true ∨ a.Blurred b := by
  cases ha with
  | int hi =>
      cases hb with
      | int hj => simp [orderNumbers, equalTo, Blurred]
      | float hy =>
          obtain ⟨hfin, hscaled⟩ := Decimal.ofInt_spec hi
          simp [orderNumbers, equalTo, Blurred, scaled, Decimal.beq_iff_scaled hfin hy, hscaled]
  | float hx =>
      cases hb with
      | int hj =>
          obtain ⟨hfin, hscaled⟩ := Decimal.ofInt_spec hj
          rw [orderNumbers_swap]
          simp [orderNumbers, equalTo, Blurred, scaled, Decimal.beq_iff_scaled hfin hx, hscaled]
      | float hy => simp [orderNumbers, equalTo, Blurred, scaled, Decimal.beq_iff_scaled hx hy]

/-! ## Values of sentences -/

theorem Written.int_mem {i : Int} (h : (NodeValue.int i).Written) : -2 ^ 63 ≤ i ∧ i < 2 ^ 63 := by
  obtain ⟨cs, -, h⟩ := h
  rcases ofToken_cases cs with ⟨-, hc⟩ | ⟨-, -, hc⟩ | ⟨-, j, hlo, hhi, hc⟩ | ⟨-, x, hc⟩ <;>
    rw [hc] at h <;> cases h
  simp only [Text.int64Limit] at hlo hhi
  omega

/-- What can be compared is two numbers or two symbols. -/
theorem Written.comparable_cases (ha : a.Written) (hb : b.Written) (h : a.comparable b = true) :
    (a.Number ∧ b.Number) ∨ ∃ s t, a = .symbol s ∧ b = .symbol t := by
  have hint {i : Int} (h : (NodeValue.int i).Written) : (NodeValue.int i).Number :=
    .int (by have := h.int_mem; omega)
  have hfloat {x : Float} (h : (NodeValue.float x).Written) : (NodeValue.float x).Number :=
    .float h.finite_float.1
  cases a <;> cases b <;> simp only [comparable, Bool.false_eq_true] at h
  case symbol.symbol s t => exact .inr ⟨s, t, rfl, rfl⟩
  case int.int => exact .inl ⟨hint ha, hint hb⟩
  case int.float => exact .inl ⟨hint ha, hfloat hb⟩
  case float.int => exact .inl ⟨hfloat ha, hint hb⟩
  case float.float => exact .inl ⟨hfloat ha, hfloat hb⟩

theorem order?_eq_none (h : a.comparable b = false) : a.order? b = none := by
  cases a <;> cases b <;> first | rfl | simp [comparable] at h

theorem comparable_of_order? {o : Ordering} (h : a.order? b = some o) : a.comparable b = true := by
  by_contra hno
  rw [order?_eq_none (Bool.eq_false_iff.mpr hno)] at h
  cases h

/-- Two values that can be compared have an order. Turned round it is the opposite one, and only
values that are equal, or blurred, have none before the other. -/
theorem Written.order?_eq (ha : a.Written) (hb : b.Written) (h : a.comparable b = true) :
    ∃ o, a.order? b = some o ∧ b.order? a = some o.swap ∧
      (o = .eq ↔ a.equalTo b = true ∨ a.Blurred b) := by
  obtain ⟨ha, hb⟩ | ⟨s, t, rfl, rfl⟩ := ha.comparable_cases hb h
  · exact ⟨_, ha.order?_eq hb, by rw [hb.order?_eq ha, orderNumbers_swap], ha.orderNumbers_eq hb⟩
  · refine ⟨orderSymbols s t, rfl, congrArg some OrientedCmp.eq_swap, ?_⟩
    simp [equalTo, Blurred, LawfulEqCmp.compare_eq_iff_eq]

theorem Written.order?_trans (ha : a.Written) (hb : b.Written) (hc : c.Written)
    (hab : a.order? b = some .lt) (hbc : b.order? c = some .lt) : a.order? c = some .lt := by
  obtain ⟨hna, hnb⟩ | ⟨s, t, rfl, rfl⟩ := ha.comparable_cases hb (comparable_of_order? hab) <;>
    obtain ⟨hnb, hnc⟩ | ⟨t', u, ht, rfl⟩ := hb.comparable_cases hc (comparable_of_order? hbc)
  · rw [hna.order?_eq hnb] at hab
    rw [hnb.order?_eq hnc] at hbc
    rw [hna.order?_eq hnc, orderNumbers_trans (Option.some.inj hab) (Option.some.inj hbc)]
  · subst ht
    cases hnb
  · cases hnb
  · cases ht
    exact congrArg some (TransCmp.lt_trans (Option.some.inj hab) (Option.some.inj hbc))

/-! ## Where the integers end -/

/-- The least integer whose nearest double is `2 ^ 63`, halfway between two doubles. -/
theorem le_of_scaledInt_eq {i : Int} (h : Decimal.scaledInt i = Decimal.scaledInt (2 ^ 63)) :
    2 ^ 63 - 512 ≤ i := by
  by_contra hlt
  have hmono := Decimal.scaledInt_mono (show i ≤ 2 ^ 63 - 513 by omega)
  have hbelow : Decimal.scaledInt (2 ^ 63 - 513) < Decimal.scaledInt (2 ^ 63) := by decide +kernel
  omega

/-- A float that a sentence writes is the nearest double to an integer only at the ends. -/
theorem Written.blurred {i : Int} {x : Float} (hi : (NodeValue.int i).Written)
    (hx : (NodeValue.float x).Written) (h : (Float.ofInt i == x) = true) :
    (x = Float.ofInt (2 ^ 63) ∧ 2 ^ 63 - 512 ≤ i) ∨
      (x = Float.ofInt (-2 ^ 63) ∧ i ≤ -(2 ^ 63 - 512)) := by
  obtain ⟨hlo, hhi⟩ := hi.int_mem
  obtain ⟨hfin, hbig⟩ := hx.finite_float
  obtain ⟨hifin, hscaled⟩ := Decimal.ofInt_spec (show i.natAbs ≤ 2 ^ 63 by omega)
  have hxi : Decimal.scaled x = Decimal.scaledInt i :=
    hscaled ▸ ((Decimal.beq_iff_scaled hifin hfin).mp h).symm
  have htop : Decimal.scaledInt (2 ^ 63) = 2 ^ 63 * Decimal.scaledOne := by decide +kernel
  have hbottom : Decimal.scaledInt (-2 ^ 63) = -2 ^ 63 * Decimal.scaledOne := by decide +kernel
  obtain ⟨k, hk⟩ := Decimal.dvd_scaledInt i
  rw [mul_comm] at hk
  have hone : (0 : Int) < Decimal.scaledOne := Int.natCast_pos.mpr Decimal.scaledOne_pos
  have hkhi : k ≤ 2 ^ 63 := by
    refine le_of_mul_le_mul_right ?_ hone
    rw [← hk, ← htop]
    exact Decimal.scaledInt_mono hhi.le
  have hklo : -2 ^ 63 ≤ k := by
    refine le_of_mul_le_mul_right ?_ hone
    rw [← hk, ← hbottom]
    exact Decimal.scaledInt_mono hlo
  have hkbig := hbig k (Decimal.integer?_eq_some hfin (hxi.trans hk))
  -- A float that is the double of an end is that double itself.
  have hend {j : Int} (hj : j.natAbs ≤ 2 ^ 63) (h0 : Decimal.integer? (Float.ofInt j) ≠ some 0)
      (hij : Decimal.scaledInt i = Decimal.scaledInt j) : x = Float.ofInt j := by
    obtain ⟨hjfin, hjscaled⟩ := Decimal.ofInt_spec hj
    apply Decimal.eq_of_beq h0
    rw [Decimal.beq_iff_scaled hfin hjfin, hxi, hij, hjscaled]
  obtain rfl | rfl : k = 2 ^ 63 ∨ k = -2 ^ 63 := by omega
  · have hij := hk.trans htop.symm
    exact .inl ⟨hend (by decide) (by decide +kernel) hij, le_of_scaledInt_eq hij⟩
  · have hij := hk.trans hbottom.symm
    refine .inr ⟨hend (by decide) (by decide +kernel) hij, ?_⟩
    have := le_of_scaledInt_eq (show Decimal.scaledInt (-i) = _ by
      rw [Decimal.scaledInt_neg, hij, Decimal.scaledInt_neg, neg_neg])
    omega

theorem Blurred.equalTo_eq (h : a.Blurred b) : a.equalTo b = false := by
  cases a <;> cases b <;> first | rfl | exact h.elim

/-- A blurred pair is at an end. -/
theorem Blurred.ends (ha : a.Written) (hb : b.Written) (h : a.Blurred b) :
    ∃ i x, (a = .int i ∧ b = .float x ∨ a = .float x ∧ b = .int i) ∧
      (x = Float.ofInt (2 ^ 63) ∧ 2 ^ 63 - 512 ≤ i ∨
        x = Float.ofInt (-2 ^ 63) ∧ i ≤ -(2 ^ 63 - 512)) := by
  cases a <;> cases b <;> try exact h.elim
  case int.float i x => exact ⟨i, x, .inl ⟨rfl, rfl⟩, ha.blurred hb h⟩
  case float.int x i => exact ⟨i, x, .inr ⟨rfl, rfl⟩, hb.blurred ha h⟩

theorem Blurred.comparable_eq (h : a.Blurred b) : a.comparable b = true := by
  cases a <;> cases b <;> first | rfl | exact h.elim

end NodeValue

/-! ## The comparators -/

namespace Comparator

/-- The comparator answers yes. -/
def Holds (k : Comparator) (a b : NodeValue) : Prop :=
  k.compare a b = .ok true

/-- One of three comparators holds, and two more are made of them. -/
structure Trichotomy (a b : NodeValue) : Prop where
  one : ∃! k, k ∈ [lt, eq, gt] ∧ Holds k a b
  lte_iff : Holds lte a b ↔ Holds lt a b ∨ Holds eq a b
  gte_iff : Holds gte a b ↔ Holds gt a b ∨ Holds eq a b

variable {k l : Comparator} {a b c : NodeValue} {o : Ordering}

theorem holds_eq_iff : Holds eq a b ↔ a.equalTo b = true :=
  Except.ok.injEq _ _ ▸ Iff.rfl

theorem compare_of_order? (k : Comparator) (h : a.order? b = some o) (heq : k ≠ eq)
    (hneq : k ≠ neq) : k.compare a b = .ok (k.accepts o) := by
  cases k <;> simp_all [compare]

theorem compare_of_not_comparable (k : Comparator) (h : a.comparable b = false) (heq : k ≠ eq)
    (hneq : k ≠ neq) : k.compare a b = .error (.unordered k a.kind b.kind) := by
  have := NodeValue.order?_eq_none h
  cases k <;> simp_all [compare]

theorem holds_iff (k : Comparator) (h : a.order? b = some o) (heq : k ≠ eq) (hneq : k ≠ neq) :
    Holds k a b ↔ k.accepts o = true := by
  rw [Holds, compare_of_order? k h heq hneq, Except.ok.injEq]

theorem holds_lt_iff : Holds lt a b ↔ a.order? b = some .lt := by
  cases h : a.order? b with
  | none => simp [Holds, compare, h]
  | some o => simp [holds_iff lt h nofun nofun, accepts]

theorem not_holds_two (h : a.order? b = some o) (heq : a.equalTo b = true → o = .eq)
    (hk : k ∈ [lt, eq, gt]) (hl : l ∈ [lt, eq, gt]) (hka : Holds k a b) (hla : Holds l a b) :
    k = l := by
  have hlt := holds_iff lt h nofun nofun
  have hgt := holds_iff gt h nofun nofun
  have heq : Holds eq a b → o = .eq := fun h' => heq (holds_eq_iff.mp h')
  simp only [List.mem_cons, List.not_mem_nil, or_false] at hk hl
  obtain rfl | rfl | rfl := hk <;> obtain rfl | rfl | rfl := hl <;> simp_all [accepts]

/-- If the order is told apart wherever equality tells apart, all comparators agree. -/
theorem trichotomy_of_order? (h : a.order? b = some o) (heq : o = .eq ↔ a.equalTo b = true) :
    Trichotomy a b := by
  have hone : ∃ k ∈ [lt, eq, gt], Holds k a b := by
    cases o with
    | lt => exact ⟨lt, by simp, (holds_iff lt h nofun nofun).mpr rfl⟩
    | eq => exact ⟨eq, by simp, holds_eq_iff.mpr (heq.mp rfl)⟩
    | gt => exact ⟨gt, by simp, (holds_iff gt h nofun nofun).mpr rfl⟩
  obtain ⟨k, hk, hka⟩ := hone
  refine ⟨⟨k, ⟨hk, hka⟩, fun l hl => not_holds_two h heq.mpr hl.1 hk hl.2 hka⟩, ?_, ?_⟩
  · rw [holds_iff lte h nofun nofun, holds_iff lt h nofun nofun, holds_eq_iff, ← heq]
    cases o <;> decide
  · rw [holds_iff gte h nofun nofun, holds_iff gt h nofun nofun, holds_eq_iff, ← heq]
    cases o <;> decide

/-- What cannot be ordered, and is not equal either, is all the same accepted by `lte` and `gte`. -/
theorem holds_of_blurred (h : a.order? b = some .eq) (hblurred : a.Blurred b) :
    (∀ k ∈ [lt, eq, gt], ¬Holds k a b) ∧ Holds lte a b ∧ Holds gte a b := by
  refine ⟨?_, (holds_iff lte h nofun nofun).mpr rfl, (holds_iff gte h nofun nofun).mpr rfl⟩
  simp [holds_iff lt h nofun nofun, holds_iff gt h nofun nofun, holds_eq_iff,
    hblurred.equalTo_eq, accepts]

/-- The comparators agree on all values that sentences write, but for the blurred pairs at the two
ends of the integers. At the upper end neither value is less, nor are they equal. -/
theorem coherent (ha : a.Parsed) (hb : b.Parsed) (hc : c.Parsed) :
    (a.comparable b = true →
      (∀ k : Comparator, ∃ r, k.compare a b = .ok r) ∧
      gt.compare a b = lt.compare b a ∧
      (∀ k ∈ [lt, eq, gt], ∀ l ∈ [lt, eq, gt], Holds k a b → Holds l a b → k = l) ∧
      (¬a.Blurred b → Trichotomy a b)) ∧
    (Holds lt a b → Holds lt b c → Holds lt a c) ∧
    (a.Blurred b →
      ∃ i x, (a = .int i ∧ b = .float x ∨ a = .float x ∧ b = .int i) ∧
        (x = Float.ofInt (2 ^ 63) ∧ 2 ^ 63 - 512 ≤ i ∧
            (∀ k ∈ [lt, eq, gt], ¬Holds k a b) ∧ Holds lte a b ∧ Holds gte a b ∨
          x = Float.ofInt (-2 ^ 63) ∧ i ≤ -(2 ^ 63 - 512))) ∧
    (a.comparable b = false →
      ∀ k, k ≠ eq → k ≠ neq → k.compare a b = .error (.unordered k a.kind b.kind)) ∧
    ∃ r, eq.compare a b = .ok r ∧ neq.compare a b = .ok !r := by
  refine ⟨fun hcomp => ?_, fun hab hbc => ?_, fun hblurred => ?_,
    fun hcomp k heq hneq => compare_of_not_comparable k hcomp heq hneq, a.equalTo b, rfl, rfl⟩
  · obtain ⟨o, hab, hba, ho⟩ := ha.written.order?_eq hb.written hcomp
    refine ⟨fun k => ?_, ?_, fun k hk l hl => not_holds_two hab (fun h => ho.mpr (.inl h)) hk hl,
      fun hblurred => trichotomy_of_order? hab (by rw [ho, or_iff_left hblurred])⟩
    · by_cases heq : k = eq
      · exact heq ▸ ⟨_, rfl⟩
      · by_cases hneq : k = neq
        · exact hneq ▸ ⟨_, rfl⟩
        · exact ⟨_, compare_of_order? k hab heq hneq⟩
    · rw [compare_of_order? gt hab nofun nofun, compare_of_order? lt hba nofun nofun]
      cases o <;> rfl
  · rw [holds_lt_iff] at hab hbc ⊢
    exact ha.written.order?_trans hb.written hc.written hab hbc
  · obtain ⟨o, hab, -, ho⟩ := ha.written.order?_eq hb.written hblurred.comparable_eq
    obtain rfl := ho.mpr (.inr hblurred)
    obtain ⟨i, x, hpair, ⟨hx, hi⟩ | hend⟩ := hblurred.ends ha.written hb.written
    · exact ⟨i, x, hpair, .inl ⟨hx, hi, holds_of_blurred hab hblurred⟩⟩
    · exact ⟨i, x, hpair, .inr hend⟩

/-- Three numbers of both kinds. -/
theorem coherent_of_numbers :
    ((NodeValue.int 1).Parsed ∧ (NodeValue.float 1.5).Parsed ∧ (NodeValue.int 2).Parsed) ∧
      Trichotomy (.int 1) (.float 1.5) ∧ Holds lt (.int 1) (.int 2) := by
  have hone : (NodeValue.int 1).Parsed := ⟨"1", _, rfl, ⟨_, .head _, by decide +kernel⟩⟩
  have hhalf : (NodeValue.float 1.5).Parsed := ⟨"[1.5]", _, rfl, ⟨_, .head _, by decide +kernel⟩⟩
  have htwo : (NodeValue.int 2).Parsed := ⟨"2", _, rfl, ⟨_, .head _, by decide +kernel⟩⟩
  have h := coherent hone hhalf htwo
  refine ⟨⟨hone, hhalf, htwo⟩, (h.1 rfl).2.2.2 ?_, h.2.1 ?_ ?_⟩
  · show ¬(Float.ofInt 1 == 1.5) = true
    decide +kernel
  · exact holds_lt_iff.mpr (by decide +kernel)
  · exact holds_lt_iff.mpr (by decide +kernel)

/-- The greatest integer is not less than the float after it, nor equal to it, nor greater. -/
theorem not_trichotomy_of_end :
    (NodeValue.int (2 ^ 63 - 1)).Parsed ∧ (NodeValue.float (Float.ofInt (2 ^ 63))).Parsed ∧
      NodeValue.comparable (.int (2 ^ 63 - 1)) (.float (Float.ofInt (2 ^ 63))) = true ∧
      ¬∃! k, k ∈ [lt, eq, gt] ∧
        Holds k (.int (2 ^ 63 - 1)) (.float (Float.ofInt (2 ^ 63))) := by
  refine ⟨⟨"9223372036854775807", _, rfl, ⟨_, .head _, by decide +kernel⟩⟩,
    ⟨"9223372036854775808", _, rfl, ⟨_, .head _, by decide +kernel⟩⟩, rfl, ?_⟩
  rintro ⟨k, ⟨hk, hholds⟩, -⟩
  have hblurred : (NodeValue.int (2 ^ 63 - 1)).Blurred (.float (Float.ofInt (2 ^ 63))) := by
    show (Float.ofInt (2 ^ 63 - 1) == Float.ofInt (2 ^ 63)) = true
    decide +kernel
  exact (holds_of_blurred (by decide +kernel) hblurred).1 k hk hholds

end Comparator

end Society
