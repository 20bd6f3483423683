import Society.Decimal.Binary

/-!
# The shortest digits of a double

A decimal reads back as a double exactly if it lies in the interval of reals that round to that
double. The shortest text of a double has the fewest digits that lie there, and of those the
digits nearest to the double itself.
-/

namespace Society.Decimal

/-- The number `digits * 10 ^ exponent`. -/
structure Digits where
  digits : Nat
  exponent : Int
deriving DecidableEq, Repr

/-- Which of two equally near decimals is taken. -/
inductive Tie where
  | toEven
  | awayFromZero
deriving DecidableEq, Repr

/-- Compares `a * 10 ^ i` with `n * 2 ^ j`. -/
def compareScaled (a : Nat) (i : Int) (n : Nat) (j : Int) : Ordering :=
  compare (a * Nat.pow 10 i.toNat * Nat.pow 2 (-j).toNat)
    (n * Nat.pow 2 j.toNat * Nat.pow 10 (-i).toNat)

/-- Whether a decimal lies among the reals that round to the magnitude of `b`. -/
def Binary.readsBack (b : Binary) (d : Digits) : Bool :=
  let low := if b.narrowBelow then 4 * b.mantissa - 1 else 4 * b.mantissa - 2
  let high := 4 * b.mantissa + 2
  let closed := b.mantissa % 2 == 0
  let atLow := compareScaled d.digits d.exponent low (b.exponent - 2)
  let atHigh := compareScaled d.digits d.exponent high (b.exponent - 2)
  (atLow == .gt || (closed && atLow == .eq)) && (atHigh == .lt || (closed && atHigh == .eq))

/-- Whether `10 ^ k` is at most the magnitude of `b`. -/
def Binary.reaches (b : Binary) (k : Int) : Bool :=
  compareScaled 1 k b.mantissa b.exponent != .gt

/-- The greatest `k` with `10 ^ k` at most the magnitude of `b`, which is not zero: an estimate from
the binary logarithm, corrected by a comparison. -/
def Binary.magnitude (b : Binary) : Int :=
  let k := Int.fdiv ((Nat.log2 b.mantissa + b.exponent) * 30103) 100000
  if b.reaches (k + 1) then k + 1 else if b.reaches k then k else k - 1

/-- The multiple of `10 ^ e` at or below the magnitude of `b`, as a multiplier. -/
def Binary.below (b : Binary) (e : Int) : Nat :=
  b.numerator * Nat.pow 10 (-e).toNat / (b.denominator * Nat.pow 10 e.toNat)

/-- Of the two neighbours of `b` among the multiples of `10 ^ e`, the one that reads back and is
nearest. -/
def Binary.onGrid? (tie : Tie) (b : Binary) (e : Int) : Option Digits :=
  let low : Digits := ⟨b.below e, e⟩
  let high : Digits := ⟨b.below e + 1, e⟩
  match b.readsBack low, b.readsBack high with
  | false, false => none
  | true, false => some low
  | false, true => some high
  | true, true =>
    match compareScaled (2 * low.digits + 1) e (2 * b.mantissa) b.exponent with
    | .gt => some low
    | .lt => some high
    | .eq => if tie = .toEven && low.digits % 2 == 0 then some low else some high

/-- The digits without the zeros at their end. -/
def Digits.strip (d : Digits) : (bound : Nat) → Digits
  | 0 => d
  | bound + 1 =>
    if d.digits ≠ 0 ∧ d.digits % 10 = 0 then Digits.strip ⟨d.digits / 10, d.exponent + 1⟩ bound else d

/-- The exact decimal value of `b`, whose magnitude has a power of two as its denominator. -/
def Binary.exact (b : Binary) : Digits :=
  ⟨b.numerator * Nat.pow 5 (-b.exponent).toNat, -(-b.exponent).toNat⟩

/-- The shortest digits that read back as `b`, which is not zero. -/
def Binary.shortest (tie : Tie) (b : Binary) : Digits :=
  let found := (List.range 17).findSome? fun (n : Nat) => b.onGrid? tie (b.magnitude - n)
  (found.getD b.exact).strip 20

/-- `s` behind enough zeros to have `width` characters. -/
def padLeft (width : Nat) (s : String) : String :=
  String.ofList (List.replicate (width - s.length) '0') ++ s

/-- A number of `10 ^ -places` units, written with a point in front of the last `places` digits. -/
def pointed (units : Nat) (places : Nat) : String :=
  if places = 0 then toString units
  else
    toString (units / Nat.pow 10 places) ++ "." ++
      padLeft places (toString (units % Nat.pow 10 places))

/-- All digits of the number, without an exponent. -/
def Digits.positional (d : Digits) : String :=
  if d.exponent ≥ 0 then toString (d.digits * Nat.pow 10 d.exponent.toNat)
  else pointed d.digits (-d.exponent).toNat

/-- The text of a value that has no digits. -/
def specialText (x : Float) : String :=
  if x.isNaN then "NaN" else if x < 0 then "-inf" else "inf"

/-- The sign as text. -/
def signText (negative : Bool) : String :=
  if negative then "-" else ""

/-- A double as its shortest digits, never with an exponent; a tie goes away from zero. -/
def display (x : Float) : String :=
  if x.isFinite then
    let b := Binary.ofFloat x
    signText b.negative ++ if b.mantissa = 0 then "0" else (b.shortest .awayFromZero).positional
  else specialText x

end Society.Decimal
