import Society.Decimal.Reader
import Society.Document.Basic

/-!
# TOML scalars

Numbers, truth values, dates and times, read from the characters of one word.
-/

namespace Society.Toml

open Text

/-- Digits with single underscores between them, without the underscores. -/
def ungroup? (valid : Char → Bool) : List Char → Option (List Char)
  | [] => none
  | [c] => if valid c then some [c] else none
  | c :: '_' :: cs => if valid c then (ungroup? valid cs).map (c :: ·) else none
  | c :: cs => if valid c then (ungroup? valid cs).map (c :: ·) else none

/-- The value of a digit in a base up to sixteen. -/
def digitIn? (base : Nat) (c : Char) : Option Nat :=
  let n :=
    if isDigit c then c.toNat - '0'.toNat
    else if 'a' ≤ c ∧ c ≤ 'f' then c.toNat - 'a'.toNat + 10
    else if 'A' ≤ c ∧ c ≤ 'F' then c.toNat - 'A'.toNat + 10
    else 16
  if n < base then some n else none

/-- A number in a base other than ten, below the limit of 64 bits. -/
def based? (base : Nat) (cs : List Char) : Option Document := do
  let digits ← ungroup? (fun c => (digitIn? base c).isSome) cs
  let n := digits.foldl (fun n c => base * n + (digitIn? base c).getD 0) 0
  if n < int64Limit then some (.int n) else none

/-- The digits of a decimal integer, which do not begin with a zero unless it stands alone. -/
def whole? (cs : List Char) : Option (List Char) := do
  let digits ← ungroup? isDigit cs
  match digits with
  | '0' :: _ :: _ => none
  | _ => some digits

/-- A decimal integer of 64 bits. -/
def integer? (cs : List Char) : Option Document := do
  let (negative, rest) := splitSign cs
  let i := withSign negative (digitsValue (← whole? rest))
  if -int64Limit ≤ i ∧ i < int64Limit then some (.int i) else none

/-- The part of a word before a character and the part behind it, if the character occurs. -/
def cut (p : Char → Bool) (cs : List Char) : List Char × Option (List Char) :=
  match cs.dropWhile (!p ·) with
  | [] => (cs, none)
  | _ :: rest => (cs.takeWhile (!p ·), some rest)

/-- A decimal number with a fraction or an exponent or both. Numbers too large for a double are
refused if they are positive. -/
def float? (cs : List Char) : Option Document := do
  let (negative, rest) := splitSign cs
  let (mantissa, exponent) := cut (fun c => c = 'e' || c = 'E') rest
  let (whole, fraction) := cut (· = '.') mantissa
  if exponent.isNone && fraction.isNone then none
  let wholeDigits ← whole? whole
  let fractionDigits ← match fraction with
    | none => some []
    | some ds => ungroup? isDigit ds
  let e ← match exponent with
    | none => some 0
    | some ds =>
      let (negativeExponent, digits) := splitSign ds
      (ungroup? isDigit digits).map fun digits => withSign negativeExponent (digitsValue digits)
  let x := Decimal.ofDigits (digitsValue (wholeDigits ++ fractionDigits)) (e - fractionDigits.length)
  if negative then some (.float (-x)) else if x.isFinite then some (.float x) else none

/-- Infinity and NaN, which may have a sign. -/
def special? (cs : List Char) : Option Document :=
  let (negative, rest) := splitSign cs
  let sign (x : Float) := Document.float (if negative then -x else x)
  if rest = ['i', 'n', 'f'] then some (sign (Float.ofBits 0x7FF0000000000000))
  else if rest = ['n', 'a', 'n'] then some (sign (Float.ofBits 0x7FF8000000000000))
  else none

/-- The value of two digits that is neither below `lo` nor above `hi`. -/
def twoDigits? (lo hi : Nat) (a b : Char) : Option Nat :=
  let n := digitsValue [a, b]
  if isDigit a && isDigit b && lo ≤ n && n ≤ hi then some n else none

def isLeap (year : Nat) : Bool :=
  year % 4 = 0 && (year % 100 ≠ 0 || year % 400 = 0)

def daysIn (year month : Nat) : Nat :=
  if month = 2 then if isLeap year then 29 else 28
  else if month = 4 ∨ month = 6 ∨ month = 9 ∨ month = 11 then 30
  else 31

/-- What follows a date at the front of a word. -/
def date? : List Char → Option (List Char)
  | y₁ :: y₂ :: y₃ :: y₄ :: '-' :: m₁ :: m₂ :: '-' :: d₁ :: d₂ :: rest => do
    let year := digitsValue [y₁, y₂, y₃, y₄]
    if !([y₁, y₂, y₃, y₄].all isDigit) then none
    let month ← twoDigits? 1 12 m₁ m₂
    let day ← twoDigits? 1 31 d₁ d₂
    if day ≤ daysIn year month then some rest else none
  | _ => none

/-- What follows a time of day at the front of a word. -/
def time? : List Char → Option (List Char)
  | h₁ :: h₂ :: ':' :: m₁ :: m₂ :: ':' :: s₁ :: s₂ :: rest => do
    discard <| twoDigits? 0 23 h₁ h₂
    discard <| twoDigits? 0 59 m₁ m₂
    discard <| twoDigits? 0 60 s₁ s₂
    match rest with
    | '.' :: ds => if (ds.takeWhile isDigit).isEmpty then none else some (ds.dropWhile isDigit)
    | _ => some rest
  | _ => none

/-- Whether a text is an offset from universal time. -/
def isOffset : List Char → Bool
  | ['Z'] => true
  | ['z'] => true
  | [sign, h₁, h₂, ':', m₁, m₂] =>
    (sign = '+' || sign = '-') && (twoDigits? 0 23 h₁ h₂).isSome && (twoDigits? 0 59 m₁ m₂).isSome
  | _ => false

/-- Whether a word is a date, a time of day, or a date and a time with or without an offset. -/
def isMoment (cs : List Char) : Bool :=
  match date? cs with
  | some [] => true
  | some (c :: rest) =>
    (c = 'T' || c = 't' || c = ' ') &&
      match time? rest with
      | some rest => rest.isEmpty || isOffset rest
      | none => false
  | none => time? cs == some []

/-- The scalar that a word writes. -/
def word? (cs : List Char) : Option Document :=
  match cs with
  | ['t', 'r', 'u', 'e'] => some (.bool true)
  | ['f', 'a', 'l', 's', 'e'] => some (.bool false)
  | '0' :: 'x' :: ds => based? 16 ds
  | '0' :: 'o' :: ds => based? 8 ds
  | '0' :: 'b' :: ds => based? 2 ds
  | _ =>
    if isMoment cs then some .moment else (integer? cs).or ((float? cs).or (special? cs))

/-- The characters of words. -/
def isWordChar (c : Char) : Bool :=
  c.isAlphanum || c = '+' || c = '-' || c = '_' || c = '.' || c = ':'

/-- A scalar at the front of a text. A blank may stand between a date and a time. -/
def scalar? (cs : List Char) : Option (Document × List Char) :=
  let word := cs.takeWhile isWordChar
  let rest := cs.dropWhile isWordChar
  match date? word, rest with
  | some [], ' ' :: c :: more =>
    if isDigit c then
      let time := (c :: more).takeWhile isWordChar
      (word? (word ++ ' ' :: time)).map (·, (c :: more).dropWhile isWordChar)
    else (word? word).map (·, rest)
  | _, _ => (word? word).map (·, rest)

end Society.Toml
