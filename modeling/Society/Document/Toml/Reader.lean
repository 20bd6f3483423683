import Society.Document.Toml.Scalar
import Society.Document.Toml.Table
import Society.Document.Toml.Text

/-!
# Reading TOML

A TOML text is a list of lines: headings of tables, keys with their values, and comments. Lists and
inline tables are nested less than 80 deep.
-/

namespace Society.Toml

/-- What follows blanks, line ends and comments. A comment has to end with its line. -/
def skipLines : (bound : Nat) → List Char → List Char
  | 0, cs => cs
  | bound + 1, cs =>
    match skipBlanks cs with
    | '\n' :: cs => skipLines bound cs
    | '\r' :: '\n' :: cs => skipLines bound cs
    | '#' :: rest =>
      match rest.dropWhile isPlain with
      | '\n' :: cs => skipLines bound cs
      | '\r' :: '\n' :: cs => skipLines bound cs
      | _ => '#' :: rest
    | cs => cs

/-- The items of a list up to its closing bracket; the last one may have a comma behind it. -/
def items? (value : List Char → Option (Document × List Char)) :
    (bound : Nat) → List Char → Option (List Document × List Char)
  | 0, _ => none
  | bound + 1, cs =>
    match skipLines cs.length cs with
    | ']' :: cs => some ([], cs)
    | cs => do
      let (first, cs) ← value cs
      match skipLines cs.length cs with
      | ',' :: cs =>
        let (rest, cs) ← items? value bound cs
        return (first :: rest, cs)
      | ']' :: cs => return ([first], cs)
      | _ => none

/-- A key, an equals sign and a value. -/
def pair? (value : List Char → Option (Document × List Char)) (cs : List Char) :
    Option ((List String × Document) × List Char) := do
  let (path, cs) ← key? keyLimit cs
  match cs with
  | '=' :: cs =>
    let (d, cs) ← value (skipBlanks cs)
    return ((path, d), cs)
  | _ => none

/-- The keys and values of an inline table up to its closing brace, at least one. -/
def pairs? (value : List Char → Option (Document × List Char)) :
    (bound : Nat) → List Char → Option (List (List String × Document) × List Char)
  | 0, _ => none
  | bound + 1, cs => do
    let (first, cs) ← pair? value cs
    match skipBlanks cs with
    | ',' :: cs =>
      let (rest, cs) ← pairs? value bound cs
      return (first :: rest, cs)
    | '\x7d' :: cs => return ([first], cs)
    | _ => none

/-- The table of keys and values that are written in one line. -/
def inlineTable? (pairs : List (List String × Document)) : Option Document := do
  let es ← pairs.foldlM (fun es (path, d) => Entries.add? path d es) []
  return .table (Item.fields es)

/-- A value at the front of a text. -/
def value? : (depth : Nat) → List Char → Option (Document × List Char)
  | depth, '[' :: cs =>
    match depth with
    | 0 => none
    | depth + 1 =>
      (items? (value? depth) (cs.length + 1) cs).map fun (items, rest) => (.list items, rest)
  | depth, '\x7b' :: cs =>
    match depth with
    | 0 => none
    | depth + 1 =>
      match skipBlanks cs with
      | '\x7d' :: cs => some (.table [], cs)
      | cs => do
        let (pairs, cs) ← pairs? (value? depth) cs.length cs
        return (← inlineTable? pairs, cs)
  | _, '"' :: cs => (text? ('"' :: cs)).map fun (s, rest) => (.text s, rest)
  | _, '\'' :: cs => (text? ('\'' :: cs)).map fun (s, rest) => (.text s, rest)
  | _, cs => scalar? cs

/-- How deep lists and inline tables may be nested. -/
def depthLimit : Nat := 79

/-- A heading up to the end of its line. -/
def heading? (p : Progress) : List Char → Option (Progress × List Char)
  | '[' :: '[' :: cs => do
    let (path, cs) ← key? keyLimit cs
    match cs with
    | ']' :: ']' :: cs => return (← p.openElement? path, ← lineEnd? cs)
    | _ => none
  | '[' :: cs => do
    let (path, cs) ← key? keyLimit cs
    match cs with
    | ']' :: cs => return (← p.openTable? path, ← lineEnd? cs)
    | _ => none
  | _ => none

/-- Reads line after line. -/
def lines? (p : Progress) : (bound : Nat) → List Char → Option Progress
  | 0, _ => none
  | bound + 1, cs =>
    match skipBlanks cs with
    | [] => some p
    | '\n' :: cs => lines? p bound cs
    | '\r' :: '\n' :: cs => lines? p bound cs
    | '#' :: cs => do lines? p bound (← lineEnd? ('#' :: cs))
    | '[' :: cs => do
      let (p, cs) ← heading? p ('[' :: cs)
      lines? p bound cs
    | cs => do
      let ((path, d), cs) ← pair? (value? depthLimit) cs
      lines? (← p.add? path d) bound (← lineEnd? cs)

/-- The table of a TOML text. A byte order mark may stand in front of it. -/
def read? (s : String) : Option Document := do
  let cs := match s.toList with
    | '\uFEFF' :: cs => cs
    | cs => cs
  let p ← lines? .start (cs.length + 1) cs
  return .table (Item.fields (← p.finish?))

end Society.Toml
