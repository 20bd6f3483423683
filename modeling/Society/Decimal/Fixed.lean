import Society.Decimal.Shortest

/-!
# A fixed number of decimal places

The exact value of a double rounded to a number of places, halves to the even neighbour.
-/

namespace Society.Decimal

/-- The nearest natural number to `num / den`, halves to the even neighbour. -/
def nearestEven (num den : Nat) : Nat :=
  let q := num / den
  match compare (2 * (num % den)) den with
  | .lt => q
  | .gt => q + 1
  | .eq => if q % 2 = 0 then q else q + 1

/-- The text of `x` with exactly so many decimal places. -/
def fixed (places : Nat) (x : Float) : String :=
  if x.isFinite then
    let b := Binary.ofFloat x
    let units := nearestEven (b.numerator * Nat.pow 10 places) b.denominator
    signText b.negative ++ pointed units places
  else specialText x

end Society.Decimal
