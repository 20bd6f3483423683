import Society.Decimal.Significant

/-!
# The characters of written numbers

Whatever a double is, its text has only digits, signs, a point and the letters of `e`, `NaN` and
`inf`.
-/

namespace Society.Decimal

/-- The characters that the text of a double can have. -/
def isNumeral (c : Char) : Bool :=
  c.isDigit || c ∈ ['-', '+', '.', 'e', 'N', 'a', 'i', 'n', 'f']

/-- A text of such characters only. -/
def Numeral (s : String) : Prop :=
  ∀ c ∈ s.toList, isNumeral c

theorem numeral_of_all {s : String} (h : s.toList.all isNumeral = true) : Numeral s :=
  List.all_eq_true.mp h

theorem Numeral.append {s t : String} (hs : Numeral s) (ht : Numeral t) : Numeral (s ++ t) := by
  intro c hc
  rw [String.toList_append] at hc
  rcases List.mem_append.mp hc with hc | hc
  · exact hs c hc
  · exact ht c hc

theorem numeral_toString (n : Nat) : Numeral (toString n) := by
  intro c hc
  rw [Nat.toString_eq_repr, Nat.toList_repr] at hc
  have hd : c.isDigit := Nat.isDigit_of_mem_toDigits (by decide) (by decide) hc
  simp [isNumeral, hd]

theorem numeral_signText (negative : Bool) : Numeral (signText negative) := by
  cases negative <;> exact numeral_of_all (by decide)

theorem numeral_specialText (x : Float) : Numeral (specialText x) := by
  unfold specialText
  split
  · exact numeral_of_all (by decide)
  · split <;> exact numeral_of_all (by decide)

theorem numeral_padLeft (width : Nat) {s : String} (hs : Numeral s) : Numeral (padLeft width s) := by
  refine Numeral.append (fun c hc => ?_) hs
  rw [String.toList_ofList] at hc
  obtain rfl := List.eq_of_mem_replicate hc
  decide

theorem numeral_pointed (units places : Nat) : Numeral (pointed units places) := by
  unfold pointed
  split
  · exact numeral_toString _
  · refine Numeral.append (Numeral.append (numeral_toString _) ?_) (numeral_padLeft _ (numeral_toString _))
    exact numeral_of_all (by decide)

theorem numeral_fixed (places : Nat) (x : Float) : Numeral (fixed places x) := by
  unfold fixed
  split
  · exact (numeral_signText _).append (numeral_pointed _ _)
  · exact numeral_specialText _

theorem numeral_toPrecision (x : Float) (digits : Nat) : Numeral (toPrecision x digits) := by
  have he : Numeral "e" := numeral_of_all (by decide)
  have hm : Numeral "-" := numeral_of_all (by decide)
  have hp : Numeral "+" := numeral_of_all (by decide)
  unfold toPrecision
  simp only
  split
  · exact numeral_specialText _
  · split
    · exact numeral_fixed _ _
    · split
      · refine Numeral.append (Numeral.append (Numeral.append (numeral_fixed _ _) he) ?_) (numeral_toString _)
        split
        · exact hm
        · exact hp
      · exact numeral_fixed _ _

end Society.Decimal
