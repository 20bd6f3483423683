/-!
# Reading integers

A decimal integer is an optional sign and at least one digit, nothing else, and its value has to lie
in the range that is asked for.
-/

namespace Society.Text

/-- The digits `0` to `9`. -/
def isDigit (c : Char) : Bool :=
  '0' ≤ c && c ≤ '9'

def digitValue (c : Char) : Nat :=
  c.toNat - '0'.toNat

/-- The number that a row of digits writes, most significant digit first. -/
def digitsValue (ds : List Char) : Nat :=
  ds.foldl (fun n d => 10 * n + digitValue d) 0

/-- At least one digit, and nothing else. -/
def natural? (cs : List Char) : Option Nat :=
  if !cs.isEmpty && cs.all isDigit then some (digitsValue cs) else none

/-- The sign of a number, as whether it is negative, and the text behind it. -/
def splitSign : List Char → Bool × List Char
  | '-' :: cs => (true, cs)
  | '+' :: cs => (false, cs)
  | cs => (false, cs)

def withSign (negative : Bool) (n : Nat) : Int :=
  if negative then -(n : Int) else n

/-- A decimal integer of any size. -/
def integer? (cs : List Char) : Option Int :=
  (natural? (splitSign cs).2).map (withSign (splitSign cs).1)

/-- A decimal integer that is at least `lo` and below `hi`. -/
def integerIn? (lo hi : Int) (cs : List Char) : Option Int :=
  (integer? cs).filter fun i => decide (lo ≤ i) && decide (i < hi)

/-- Integers of 64 bits with a sign are below this limit, and at least its negative. -/
def int64Limit : Int :=
  0x8000000000000000

/-- Integers of 32 bits with a sign are below this limit, and at least its negative. -/
def int32Limit : Int :=
  0x80000000

/-- An integer that fits 64 bits with a sign. -/
def int64? : List Char → Option Int :=
  integerIn? (-int64Limit) int64Limit

/-- An integer that fits 32 bits with a sign. -/
def int32? : List Char → Option Int :=
  integerIn? (-int32Limit) int32Limit

end Society.Text
