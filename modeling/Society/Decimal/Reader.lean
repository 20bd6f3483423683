import Society.Text.Integer

/-!
# Reading decimal numbers

A decimal number is an optional sign and either digits with at most one point among them and an
optional exponent, or a name of infinity or NaN in any case. It is read as the nearest double.
-/

namespace Society.Decimal

open Text

/-- The double nearest to `m * 10 ^ e`. Magnitudes that no double is near to are cut off first, so
that the power never has more than some hundreds of digits. -/
def ofDigits (m : Nat) (e : Int) : Float :=
  if m = 0 then 0
  else
    let top := (Nat.log2 m * 30103 / 100000 : Nat) + e
    if top > 400 then Float.ofBits 0x7FF0000000000000
    else if top < -400 then 0
    else Float.ofScientific m (e < 0) e.natAbs

/-- The exponent part: nothing, or `e`, an optional sign and digits. -/
def exponent? : List Char → Option Int
  | [] => some 0
  | c :: cs => if c = 'e' ∨ c = 'E' then Text.integer? cs else none

/-- Digits, at most one point among them, and an exponent part. -/
def unsigned? (cs : List Char) : Option Float :=
  let whole := cs.takeWhile isDigit
  let rest := cs.dropWhile isDigit
  let fraction := match rest with
    | '.' :: ds => ds.takeWhile isDigit
    | _ => []
  let tail := match rest with
    | '.' :: ds => ds.dropWhile isDigit
    | _ => rest
  if whole.isEmpty && fraction.isEmpty then none
  else (exponent? tail).map fun e => ofDigits (digitsValue (whole ++ fraction)) (e - fraction.length)

/-- The names of the values that have no digits. -/
def special? (cs : List Char) : Option Float :=
  let name := String.ofList (cs.map Char.toLower)
  if name = "inf" ∨ name = "infinity" then some (Float.ofBits 0x7FF0000000000000)
  else if name = "nan" then some (Float.ofBits 0x7FF8000000000000)
  else none

/-- A decimal number. -/
def number? (cs : List Char) : Option Float :=
  ((unsigned? (splitSign cs).2).or (special? (splitSign cs).2)).map fun x =>
    if (splitSign cs).1 then -x else x

/-- A decimal number that is neither infinite nor NaN. -/
def finite? (cs : List Char) : Option Float :=
  (number? cs).filter (·.isFinite)

end Society.Decimal
