import Society.Document.Json.Number

/-!
# Reading JSON

A JSON text is one value between blanks. Values are nested less than 128 deep.
-/

namespace Society.Json

def isSpace (c : Char) : Bool :=
  c = ' ' || c = '\t' || c = '\n' || c = '\r'

def skipSpace (cs : List Char) : List Char :=
  cs.dropWhile isSpace

def hexDigit? (c : Char) : Option Nat :=
  if '0' ≤ c ∧ c ≤ '9' then some (c.toNat - '0'.toNat)
  else if 'a' ≤ c ∧ c ≤ 'f' then some (c.toNat - 'a'.toNat + 10)
  else if 'A' ≤ c ∧ c ≤ 'F' then some (c.toNat - 'A'.toNat + 10)
  else none

/-- The number that hexadecimal digits write. -/
def hexValue? (cs : List Char) : Option Nat :=
  cs.foldlM (fun n c => (hexDigit? c).map (16 * n + ·)) 0

/-- A piece of a string: a character, or a unit that an escape gives by its number. -/
inductive Piece where
  | char (c : Char)
  | unit (n : Nat)

/-- The character that a short escape stands for. -/
def shortEscape? (c : Char) : Option Char :=
  match c with
  | '"' => some '"'
  | '\\' => some '\\'
  | '/' => some '/'
  | 'b' => some '\x08'
  | 'f' => some '\x0c'
  | 'n' => some '\n'
  | 'r' => some '\r'
  | 't' => some '\t'
  | _ => none

/-- The pieces of a string up to its closing quote. -/
def pieces? : List Char → Option (List Piece × List Char)
  | [] => none
  | '"' :: cs => some ([], cs)
  | '\\' :: 'u' :: a :: b :: c :: d :: cs => do
    let n ← hexValue? [a, b, c, d]
    let (rest, cs) ← pieces? cs
    return (.unit n :: rest, cs)
  | '\\' :: c :: cs => do
    let escaped ← shortEscape? c
    let (rest, cs) ← pieces? cs
    return (.char escaped :: rest, cs)
  | c :: cs => do
    if c.toNat < 0x20 then none
    let (rest, cs) ← pieces? cs
    return (.char c :: rest, cs)

/-- The characters of the pieces. Units from `0xD800` to `0xDFFF` come in pairs that make one
character. -/
def joinPieces? : List Piece → Option (List Char)
  | [] => some []
  | .char c :: rest => (joinPieces? rest).map (c :: ·)
  | .unit high :: rest =>
    if high < 0xD800 ∨ high > 0xDFFF then (joinPieces? rest).map (Char.ofNat high :: ·)
    else match rest with
      | .unit low :: rest =>
        if high < 0xDC00 ∧ 0xDC00 ≤ low ∧ low ≤ 0xDFFF then
          let c := Char.ofNat (0x10000 + (high - 0xD800) * 0x400 + (low - 0xDC00))
          (joinPieces? rest).map (c :: ·)
        else none
      | _ => none

/-- The rest of a string behind its opening quote. -/
def string? (cs : List Char) : Option (String × List Char) := do
  let (pieces, rest) ← pieces? cs
  return (String.ofList (← joinPieces? pieces), rest)

/-- What follows a word at the front of a text. -/
def expect? (word : String) (cs : List Char) : Option (List Char) :=
  if word.toList.isPrefixOf cs then some (cs.drop word.length) else none

/-- The items of a list up to its closing bracket, at least one. -/
def items? {α : Type} (item : List Char → Option (α × List Char)) (close : Char) :
    (bound : Nat) → List Char → Option (List α × List Char)
  | 0, _ => none
  | bound + 1, cs => do
    let (first, cs) ← item (skipSpace cs)
    match skipSpace cs with
    | ',' :: cs =>
      let (rest, cs) ← items? item close bound cs
      return (first :: rest, cs)
    | c :: cs => if c = close then return ([first], cs) else none
    | [] => none

/-- The items of a list up to its closing bracket. -/
def sequence? {α : Type} (item : List Char → Option (α × List Char)) (close : Char)
    (cs : List Char) : Option (List α × List Char) :=
  match skipSpace cs with
  | [] => none
  | c :: rest => if c = close then some ([], rest) else items? item close cs.length (c :: rest)

/-- A field of an object. -/
def field? (value : List Char → Option (Document × List Char)) (cs : List Char) :
    Option ((String × Document) × List Char) :=
  match cs with
  | '"' :: cs => do
    let (name, cs) ← string? cs
    match skipSpace cs with
    | ':' :: cs =>
      let (v, cs) ← value (skipSpace cs)
      return ((name, v), cs)
    | _ => none
  | _ => none

/-- The fields of an object; of two with the same name the later one counts. -/
def lastFields : List (String × Document) → List (String × Document)
  | [] => []
  | (name, v) :: rest =>
    let later := lastFields rest
    if (later.lookup name).isSome then later else (name, v) :: later

/-- A value at the front of a text. -/
def value? : (depth : Nat) → List Char → Option (Document × List Char)
  | _, [] => none
  | _, '"' :: cs => (string? cs).map fun (s, rest) => (.text s, rest)
  | depth, '[' :: cs =>
    match depth with
    | 0 => none
    | depth + 1 => (sequence? (value? depth) ']' cs).map fun (items, rest) => (.list items, rest)
  | depth, '{' :: cs =>
    match depth with
    | 0 => none
    | depth + 1 =>
      (sequence? (field? (value? depth)) '}' cs).map fun (fields, rest) =>
        (.table (lastFields fields), rest)
  | _, c :: cs =>
    if c = 't' then (expect? "rue" cs).map (.bool true, ·)
    else if c = 'f' then (expect? "alse" cs).map (.bool false, ·)
    else if c = 'n' then (expect? "ull" cs).map (.null, ·)
    else number? (c :: cs)

/-- The value of a JSON text. -/
def read? (s : String) : Option Document := do
  let (d, rest) ← value? 127 (skipSpace s.toList)
  if (skipSpace rest).isEmpty then some d else none

end Society.Json
