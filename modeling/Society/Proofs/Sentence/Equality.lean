import Mathlib
import Society.Node.Order
import Society.Proofs.Sentence.Token

/-!
# Equal values

Equal doubles need not be the same: the two zeros are equal. And a NaN is not even equal to itself.
No sentence writes a NaN or a zero as a double; so values that are written in sentences are equal
only if they are the same.
-/

namespace Society

/-! ## Equal doubles -/

namespace Decimal

variable {x y : Float}

theorem eq_of_beq (h0 : integer? y ≠ some 0) (h : (x == y) = true) : x = y := by
  obtain ⟨-, -, h | ⟨-, rfl⟩ | ⟨-, rfl⟩⟩ := Float.beq_iff_ne_nan_and_eq.mp h
  · exact h
  · exact absurd (by decide +kernel) h0
  · exact absurd (by decide +kernel) h0

theorem beq_self (hx : x.isFinite = true) : (x == x) = true := by
  rw [Float.beq_self_iff]
  rintro rfl
  exact absurd hx (by decide +kernel)

end Decimal

/-! ## Values of sentences -/

namespace NodeValue

theorem of_ofFloat_eq {x y : Float} (h : ofFloat x = .float y) :
    x = y ∧ ∀ i, Decimal.integer? y = some i → 0x8000000000000000 ≤ i.natAbs := by
  unfold ofFloat at h
  split at h
  · rename_i i hi
    split at h
    · cases h
    · rename_i hbig
      cases h
      refine ⟨rfl, fun j hj => ?_⟩
      obtain rfl := Option.some.inj (hi.symm.trans hj)
      exact Nat.le_of_not_lt hbig
  · rename_i hnone
    cases h
    exact ⟨rfl, by simp [hnone]⟩

/-- A float that a sentence writes is finite, and no integer of 64 bits but the least one. -/
theorem Written.finite_float {x : Float} (h : (NodeValue.float x).Written) :
    x.isFinite = true ∧ ∀ i, Decimal.integer? x = some i → 0x8000000000000000 ≤ i.natAbs := by
  obtain ⟨cs, -, h⟩ := h
  unfold ofToken at h
  split at h
  · cases h
  · cases hn : number? cs with
    | none => simp [hn] at h
    | some v =>
        obtain rfl : v = .float x := by simpa [hn] using h.symm
        unfold number? at hn
        split at hn
        · cases hn
        · obtain ⟨y, hy, hv⟩ := Option.map_eq_some_iff.mp hn
          obtain ⟨rfl, hbig⟩ := of_ofFloat_eq hv
          exact ⟨(Option.filter_eq_some_iff.mp hy).2, hbig⟩

theorem Written.float_ne_zero {x : Float} (h : (NodeValue.float x).Written) :
    Decimal.integer? x ≠ some 0 :=
  fun h0 => absurd (h.finite_float.2 0 h0) (by decide)

/-- A value is equal to one that a sentence writes only if it is that one. -/
theorem Written.equalTo_iff {v w : NodeValue} (hw : w.Written) : v.equalTo w = true ↔ v = w := by
  constructor
  · intro h
    cases w with
    | float y =>
        cases v with
        | float x => exact congrArg NodeValue.float (Decimal.eq_of_beq hw.float_ne_zero h)
        | _ => cases h
    | _ => cases v <;> simp_all [equalTo]
  · rintro rfl
    cases v with
    | float x => exact Decimal.beq_self hw.finite_float.1
    | _ => simp [equalTo]

end NodeValue

end Society
