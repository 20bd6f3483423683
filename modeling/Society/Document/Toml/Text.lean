import Society.Document.Json.Reader

/-!
# TOML texts

Texts stand between quotes, in one line or between three quotes in several. Escapes have a meaning
between double quotes only.
-/

namespace Society.Toml

open Json (hexValue?)

/-- Characters that may stand in a line as they are: a tab, and all but control characters. -/
def isPlain (c : Char) : Bool :=
  c = '\t' || (0x20 ≤ c.toNat && c.toNat ≠ 0x7F)

/-- The character with a number, if there is one. -/
def scalarValue? (n : Nat) : Option Char :=
  if n < 0xD800 ∨ (0xDFFF < n ∧ n < 0x110000) then some (Char.ofNat n) else none

/-- The character that a short escape stands for. -/
def shortEscape? (c : Char) : Option Char :=
  match c with
  | 'b' => some '\x08'
  | 't' => some '\t'
  | 'n' => some '\n'
  | 'f' => some '\x0c'
  | 'r' => some '\r'
  | '"' => some '"'
  | '\\' => some '\\'
  | _ => none

/-- Puts a character in front of a text that is read, unless there is no such character. -/
def consRead (c? : Option Char) (read : Option (List Char × List Char)) :
    Option (List Char × List Char) := do
  let c ← c?
  let (text, rest) ← read
  return (c :: text, rest)

/-- The rest of a text between double quotes. -/
def basic? : List Char → Option (List Char × List Char)
  | [] => none
  | '"' :: cs => some ([], cs)
  | '\\' :: 'u' :: a :: b :: c :: d :: cs =>
    consRead ((hexValue? [a, b, c, d]).bind scalarValue?) (basic? cs)
  | '\\' :: 'U' :: a :: b :: c :: d :: e :: f :: g :: h :: cs =>
    consRead ((hexValue? [a, b, c, d, e, f, g, h]).bind scalarValue?) (basic? cs)
  | '\\' :: c :: cs => consRead (shortEscape? c) (basic? cs)
  | c :: cs => if isPlain c then consRead (some c) (basic? cs) else none

/-- The rest of a text between single quotes. -/
def literal? : List Char → Option (List Char × List Char)
  | [] => none
  | '\'' :: cs => some ([], cs)
  | c :: cs => if isPlain c then consRead (some c) (literal? cs) else none

/-- The text without a line end at its front. -/
def skipLineEnd : List Char → List Char
  | '\n' :: cs => cs
  | '\r' :: '\n' :: cs => cs
  | cs => cs

/-- Whether a line ends here, apart from blanks. -/
def endsLine (cs : List Char) : Bool :=
  match cs.dropWhile fun c => c = ' ' || c = '\t' with
  | '\n' :: _ => true
  | '\r' :: '\n' :: _ => true
  | _ => false

/-- The rest of a text of several lines between quotes. Two quotes more than the three that end it
belong to the text. A backslash at the end of a line joins the lines: `joining` says that the blanks
and line ends that come next are passed over. -/
def multiline? (quote : Char) (escapes joining : Bool) : List Char → Option (List Char × List Char)
  | [] => none
  | c :: cs =>
    if joining ∧ (c = ' ' ∨ c = '\t' ∨ c = '\n') then multiline? quote escapes true cs
    else if c = quote then
      match cs with
      | c₂ :: c₃ :: rest =>
        if c₂ = quote ∧ c₃ = quote then
          match rest with
          | c₄ :: c₅ :: rest' =>
            if c₄ = quote ∧ c₅ = quote then some ([quote, quote], rest')
            else if c₄ = quote then some ([quote], c₅ :: rest')
            else some ([], rest)
          | [c₄] => if c₄ = quote then some ([quote], []) else some ([], rest)
          | [] => some ([], [])
        else consRead (some c) (multiline? quote escapes false cs)
      | _ => none
    else if c = '\r' then
      match cs with
      | '\n' :: cs =>
        if joining then multiline? quote escapes true cs
        else consRead (some '\n') (multiline? quote escapes false cs)
      | _ => none
    else if c = '\n' then consRead (some '\n') (multiline? quote escapes false cs)
    else if c = '\\' ∧ escapes then
      if endsLine cs then multiline? quote escapes true cs
      else match cs with
        | 'u' :: a :: b :: c :: d :: cs =>
          consRead ((hexValue? [a, b, c, d]).bind scalarValue?) (multiline? quote escapes false cs)
        | 'U' :: a :: b :: c :: d :: e :: f :: g :: h :: cs =>
          consRead ((hexValue? [a, b, c, d, e, f, g, h]).bind scalarValue?)
            (multiline? quote escapes false cs)
        | c :: cs => consRead (shortEscape? c) (multiline? quote escapes false cs)
        | [] => none
    else if isPlain c then consRead (some c) (multiline? quote escapes false cs)
    else none

/-- A text at the front, of one line or of several. -/
def text? : List Char → Option (String × List Char)
  | '"' :: '"' :: '"' :: cs => asString (multiline? '"' true false (skipLineEnd cs))
  | '\'' :: '\'' :: '\'' :: cs => asString (multiline? '\'' false false (skipLineEnd cs))
  | '"' :: cs => asString (basic? cs)
  | '\'' :: cs => asString (literal? cs)
  | _ => none
where
  asString (read : Option (List Char × List Char)) : Option (String × List Char) :=
    read.map fun (text, rest) => (String.ofList text, rest)

/-- The characters of keys without quotes. -/
def isBareChar (c : Char) : Bool :=
  c.isAlphanum || c = '-' || c = '_'

/-- One part of a key: without quotes, or between quotes in one line. -/
def simpleKey? : List Char → Option (String × List Char)
  | '"' :: cs => text?.asString (basic? cs)
  | '\'' :: cs => text?.asString (literal? cs)
  | cs =>
    let name := cs.takeWhile isBareChar
    if name.isEmpty then none else some (String.ofList name, cs.dropWhile isBareChar)

def skipBlanks (cs : List Char) : List Char :=
  cs.dropWhile fun c => c = ' ' || c = '\t'

/-- The parts of a key, with points between them and blanks around them; there are fewer than
80. -/
def key? : (bound : Nat) → List Char → Option (List String × List Char)
  | 0, _ => none
  | bound + 1, cs => do
    let (name, cs) ← simpleKey? (skipBlanks cs)
    match skipBlanks cs with
    | '.' :: cs =>
      let (names, cs) ← key? bound cs
      return (name :: names, cs)
    | cs => return ([name], cs)

/-- The most parts that a key may have. -/
def keyLimit : Nat := 79

/-- What follows a comment, if one begins here. A comment ends before the first character that may not
stand in a line. -/
def skipComment : List Char → List Char
  | '#' :: cs => cs.dropWhile isPlain
  | cs => cs

/-- What follows the end of a line, behind blanks and a comment. -/
def lineEnd? (cs : List Char) : Option (List Char) :=
  match skipComment (skipBlanks cs) with
  | [] => some []
  | '\n' :: cs => some cs
  | '\r' :: '\n' :: cs => some cs
  | _ => none

end Society.Toml
