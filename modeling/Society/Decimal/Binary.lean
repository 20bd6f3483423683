/-!
# Doubles as exact numbers

A finite double is a whole number times a power of two. Everything that has to be exact about
doubles (rounding to whole numbers, decimal digits, decimal magnitude) is computed on this form, in
integer arithmetic.
-/

namespace Society.Decimal

/-- The number `mantissa * 2 ^ exponent`, with a sign. -/
structure Binary where
  negative : Bool
  mantissa : Nat
  exponent : Int
  /-- Whether the next smaller magnitude lies only half as far away as the next larger one. -/
  narrowBelow : Bool
deriving DecidableEq, Repr

/-- The exact value of a finite double. -/
def Binary.ofFloat (x : Float) : Binary :=
  let bits : Nat := x.toBits.toNat
  let biased : Nat := bits / 0x10000000000000 % 0x800
  let fraction : Nat := bits % 0x10000000000000
  let negative := bits / 0x8000000000000000 == 1
  if biased = 0 then ⟨negative, fraction, -1074, false⟩
  else ⟨negative, 0x10000000000000 + fraction, (biased : Int) - 1075, fraction == 0 && biased > 1⟩

/-- The denominator of the magnitude. -/
def Binary.denominator (b : Binary) : Nat :=
  Nat.pow 2 (-b.exponent).toNat

/-- The magnitude's numerator over `Binary.denominator`. -/
def Binary.numerator (b : Binary) : Nat :=
  b.mantissa * Nat.pow 2 b.exponent.toNat

/-- The double with this sign that is nearest to a natural number. -/
def signed (negative : Bool) (n : Nat) : Float :=
  if negative then -(Float.ofNat n) else Float.ofNat n

/-- The nearest whole number, halves away from zero. NaN and the infinities stay as they are. -/
def round (x : Float) : Float :=
  if x.isFinite then
    let b := Binary.ofFloat x
    if b.exponent ≥ 0 then x
    else signed b.negative ((2 * b.numerator + b.denominator) / (2 * b.denominator))
  else x

/-- The greatest whole number that is not above `x`. NaN and the infinities stay as they are. -/
def floor (x : Float) : Float :=
  if x.isFinite then
    let b := Binary.ofFloat x
    if b.exponent ≥ 0 then x
    else if b.negative then signed true ((b.numerator + b.denominator - 1) / b.denominator)
    else signed false (b.numerator / b.denominator)
  else x

/-- The integer that a finite double is, if it is one. -/
def integer? (x : Float) : Option Int :=
  if x.isFinite then
    let b := Binary.ofFloat x
    if b.numerator % b.denominator = 0 then
      let n : Int := (b.numerator / b.denominator : Nat)
      some (if b.negative then -n else n)
    else none
  else none

end Society.Decimal
