import Society.Decimal.Fixed

/-!
# Significant digits

Rounding a double to a number of significant digits, in double arithmetic, and writing it with
exactly that many digits.
-/

namespace Society.Decimal

/-- Whether `b` lies below `10 ^ k`, by less than one part in `2 ^ 40`. -/
def Binary.justBelow (b : Binary) (k : Int) : Bool :=
  let power := Nat.pow 10 k.toNat * b.denominator
  let value := b.numerator * Nat.pow 10 (-k).toNat
  value < power && (power - value) * Nat.pow 2 40 < power

/-- The decimal exponent of a double that is not zero, as a 32-bit integer: its decimal logarithm as a
double, rounded down. That is the magnitude, but for doubles so close below a power of ten that their
logarithm may be rounded up to its exponent. Infinity has the greatest exponent, and NaN has zero. -/
def decimalExponent (x : Float) : Int :=
  if x.isNaN then 0
  else if x.isFinite then
    let b := Binary.ofFloat x
    let next := b.magnitude + 1
    if b.justBelow next && x.abs.log10 ≥ Float.ofInt next then next else next - 1
  else 2147483647

/-- `r * a ^ n` for an `n` of at most `bits` binary digits, by repeated squaring. -/
def powerFrom (r a : Float) (n : Nat) : (bits : Nat) → Float
  | 0 => r
  | bits + 1 =>
    let r := if n % 2 = 1 then r * a else r
    if n / 2 = 0 then r else powerFrom r (a * a) (n / 2) bits

/-- A power of ten by repeated squaring; a negative power is the inverse of the positive one. -/
def powerOfTen (n : Int) : Float :=
  let p := powerFrom 1 10 n.natAbs (Nat.log2 n.natAbs + 1)
  if n < 0 then 1 / p else p

/-- An integer in 32 bits with a sign: what does not fit wraps around. -/
def wrapped (n : Int) : Int :=
  Int.bmod n 0x100000000

/-- `x` rounded to `digits` significant digits, halves away from zero. Zero, NaN and the infinities
stay as they are, and so does every number if no digits are asked for. The place of the last digit
is a 32-bit integer. -/
def roundSignificant (x : Float) (digits : Nat) : Float :=
  if x == 0 || !x.isFinite || digits == 0 then x
  else
    let shift := wrapped (wrapped digits - 1 - decimalExponent x.abs)
    if shift ≥ 0 then round (x * powerOfTen shift) / powerOfTen shift
    else round (x / powerOfTen (-shift)) * powerOfTen (-shift)

/-- `x` written with `digits` significant digits, at least one. Exponents below -6 and those that
need more digits than are asked for are written out as exponents. -/
def toPrecision (x : Float) (digits : Nat) : String :=
  let digits := max digits 1
  if !x.isFinite then specialText x
  else if x == 0 then fixed (digits - 1) 0
  else
    let rounded := roundSignificant x digits
    let e := decimalExponent rounded.abs
    if e < -6 ∨ e ≥ wrapped digits then
      fixed (digits - 1) (rounded / powerOfTen e) ++ "e" ++ (if e < 0 then "-" else "+") ++
        toString e.natAbs
    else fixed (wrapped (wrapped digits - 1 - e)).toNat rounded

end Society.Decimal
