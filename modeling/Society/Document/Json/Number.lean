import Society.Decimal.Reader
import Society.Document.Basic

/-!
# JSON numbers

A number without a fraction and an exponent is an integer if it fits 64 bits. Any other number is the
nearest double, and is refused if it is out of the range of doubles.
-/

namespace Society.Json

open Text

/-- The parts of a number, each without the marks around it. -/
structure NumberParts where
  negative : Bool
  whole : List Char
  fraction : List Char
  exponent : Option Int

/-- The exponent part, if there is one. -/
def exponentPart : List Char → Option (Option Int × List Char)
  | c :: cs =>
    if c = 'e' ∨ c = 'E' then
      let (negative, rest) := splitSign cs
      let digits := rest.takeWhile isDigit
      if digits.isEmpty then none
      else some (some (withSign negative (digitsValue digits)), rest.dropWhile isDigit)
    else some (none, c :: cs)
  | [] => some (none, [])

/-- The fraction part, if there is one. -/
def fractionPart : List Char → Option (List Char × List Char)
  | '.' :: cs =>
    let digits := cs.takeWhile isDigit
    if digits.isEmpty then none else some (digits, cs.dropWhile isDigit)
  | cs => some ([], cs)

/-- The whole part, which has no zero in front of other digits. -/
def wholePart (cs : List Char) : Option (List Char × List Char) :=
  match cs.takeWhile isDigit with
  | [] => none
  | '0' :: _ :: _ => none
  | digits => some (digits, cs.dropWhile isDigit)

def numberParts (cs : List Char) : Option (NumberParts × List Char) := do
  let negative := cs.head? = some '-'
  let (whole, cs) ← wholePart (if negative then cs.tail else cs)
  let (fraction, cs) ← fractionPart cs
  let (exponent, cs) ← exponentPart cs
  return (⟨negative, whole, fraction, exponent⟩, cs)

/-- The double nearest to the number, if it is in range. -/
def NumberParts.float? (p : NumberParts) : Option Float :=
  let x := Decimal.ofDigits (digitsValue (p.whole ++ p.fraction))
    (p.exponent.getD 0 - p.fraction.length)
  if x.isFinite then some (if p.negative then -x else x) else none

/-- The number that the parts write. Minus zero is a double. -/
def NumberParts.toDocument? (p : NumberParts) : Option Document :=
  let n := digitsValue p.whole
  if !p.fraction.isEmpty || p.exponent.isSome then p.float?.map .float
  else if p.negative then if 0 < n ∧ n ≤ int64Limit then some (.int (-n)) else p.float?.map .float
  else if n < 0x10000000000000000 then some (.int n)
  else p.float?.map .float

/-- A number at the front of a text. -/
def number? (cs : List Char) : Option (Document × List Char) := do
  let (parts, rest) ← numberParts cs
  return (← parts.toDocument?, rest)

end Society.Json
