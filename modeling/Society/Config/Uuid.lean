import Society.Document.Json.Printer
import Society.Document.Json.Reader

/-!
# Unique identifiers

An identifier is sixteen bytes, written as 32 hexadecimal digits. They can be written with or
without hyphens, and the hyphened form also between braces or behind `urn:uuid:`, in small or
capital letters. The form with hyphens and small letters stands for all of them.
-/

namespace Society.Uuid

/-- The lengths of the groups that hyphens separate. -/
def groups : List Nat :=
  [8, 4, 4, 4, 12]

/-- The digits of the hyphened form. -/
def unhyphen? : List Nat → List Char → Option (List Char)
  | [], cs => if cs.isEmpty then some [] else none
  | [n], cs => if cs.length = n then some cs else none
  | n :: more, cs =>
    match cs.drop n with
    | '-' :: rest => (unhyphen? more rest).map (cs.take n ++ ·)
    | _ => none

/-- Digits with hyphens between the groups. -/
def hyphen : List Nat → List Char → List Char
  | [], cs => cs
  | [_], cs => cs
  | n :: more, cs => cs.take n ++ '-' :: hyphen more (cs.drop n)

/-- What stands between braces. -/
def unbrace? : List Char → Option (List Char)
  | '\x7b' :: cs => if cs.getLast? = some '\x7d' then some cs.dropLast else none
  | _ => none

/-- What stands behind `urn:uuid:`. -/
def unlabel? (cs : List Char) : Option (List Char) :=
  Json.expect? "urn:uuid:" ((cs.take 9).map Char.toLower ++ cs.drop 9)

/-- The identifier that a text writes, in the form with hyphens and small letters. -/
def parse? (s : String) : Option String := do
  let cs := s.toList
  let digits ←
    if cs.length = 32 then some cs
    else if cs.length = 36 then unhyphen? groups cs
    else if cs.length = 38 then (unbrace? cs).bind (unhyphen? groups)
    else if cs.length = 45 then (unlabel? cs).bind (unhyphen? groups)
    else none
  if digits.all fun c => (Json.hexDigit? c).isSome then
    some (String.ofList (hyphen groups (digits.map Char.toLower)))
  else none

/-- The identifier that sixteen bytes are. -/
def ofBytes (bytes : List Nat) : String :=
  let digits := bytes.flatMap fun n => [Json.hexChar (n / 16), Json.hexChar (n % 16)]
  String.ofList (hyphen groups digits)

end Society.Uuid
