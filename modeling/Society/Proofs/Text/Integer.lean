import Society.Text.Integer

/-!
# Written integers

The text of an integer reads back as that integer, and has only digits and a sign.
-/

namespace Society.Text

theorem digitsValue_toDigits (n : Nat) : digitsValue (Nat.toDigits 10 n) = n :=
  Nat.ofDigitChars_ten_toDigits

theorem natural?_toDigits (n : Nat) : natural? (Nat.toDigits 10 n) = some n := by
  have hd : (Nat.toDigits 10 n).all isDigit = true := by
    rw [List.all_eq_true]
    intro c hc
    exact Nat.isDigit_of_mem_toDigits (by decide) (by decide) hc
  have hne : (Nat.toDigits 10 n).isEmpty = false := by simp
  simp [natural?, hd, hne, digitsValue_toDigits]

theorem toList_toString (i : Int) :
    (toString i).toList =
      if 0 ≤ i then Nat.toDigits 10 i.toNat else '-' :: Nat.toDigits 10 (-i).toNat := by
  rw [Int.toString_eq_repr, Int.repr_eq_if]
  split <;> simp

theorem splitSign_toDigits (n : Nat) : splitSign (Nat.toDigits 10 n) = (false, Nat.toDigits 10 n) := by
  have hd : ∀ c ∈ Nat.toDigits 10 n, c.isDigit := fun c hc =>
    Nat.isDigit_of_mem_toDigits (by decide) (by decide) hc
  unfold splitSign
  split
  · rename_i h; rw [h] at hd; exact absurd (hd '-' List.mem_cons_self) (by decide)
  · rename_i h; rw [h] at hd; exact absurd (hd '+' List.mem_cons_self) (by decide)
  · rfl

theorem integer?_toString (i : Int) : integer? (toString i).toList = some i := by
  rw [toList_toString]
  split
  · rename_i h
    simp only [integer?, splitSign_toDigits, natural?_toDigits, Option.map_some, withSign]
    simp only [Bool.false_eq_true, ↓reduceIte, Option.some.injEq]
    omega
  · rename_i h
    simp only [integer?, splitSign, natural?_toDigits, Option.map_some, withSign]
    simp only [↓reduceIte, Option.some.injEq]
    omega

theorem int64?_toString {i : Int} (hlo : -int64Limit ≤ i) (hhi : i < int64Limit) :
    int64? (toString i).toList = some i := by
  simp only [int64?, integerIn?, integer?_toString]
  simp [hlo, hhi]

theorem int64?_range {cs : List Char} {i : Int} (h : int64? cs = some i) :
    -int64Limit ≤ i ∧ i < int64Limit := by
  simp only [int64?, integerIn?, Option.filter_eq_some_iff, Bool.and_eq_true, decide_eq_true_eq] at h
  exact h.2

theorem mem_toString {i : Int} {c : Char} (h : c ∈ (toString i).toList) : c = '-' ∨ c.isDigit := by
  rw [toList_toString] at h
  split at h
  · exact .inr (Nat.isDigit_of_mem_toDigits (by decide) (by decide) h)
  · rcases List.mem_cons.mp h with rfl | h
    · exact .inl rfl
    · exact .inr (Nat.isDigit_of_mem_toDigits (by decide) (by decide) h)

end Society.Text
