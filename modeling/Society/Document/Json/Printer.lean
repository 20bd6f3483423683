import Society.Decimal.Shortest
import Society.Document.Basic

/-!
# Writing JSON

Documents as JSON, in one line or with every field and item in a line of its own.
-/

namespace Society.Json

def hexChar (n : Nat) : Char :=
  if n < 10 then Char.ofNat ('0'.toNat + n) else Char.ofNat ('a'.toNat + (n - 10))

/-- A character as it stands in a string. -/
def escape (c : Char) : List Char :=
  match c with
  | '"' => ['\\', '"']
  | '\\' => ['\\', '\\']
  | '\n' => ['\\', 'n']
  | '\r' => ['\\', 'r']
  | '\t' => ['\\', 't']
  | '\x08' => ['\\', 'b']
  | '\x0c' => ['\\', 'f']
  | _ =>
    if c.toNat < 0x20 then ['\\', 'u', '0', '0', hexChar (c.toNat / 16), hexChar (c.toNat % 16)]
    else [c]

def quote (s : String) : String :=
  "\"" ++ String.ofList (s.toList.flatMap escape) ++ "\""

/-- The first digit, a point if more follow, and the others. -/
def scientific (digits : String) (e : Int) : String :=
  let mantissa := match digits.toList with
    | d :: ds => if ds.isEmpty then String.ofList [d] else String.ofList (d :: '.' :: ds)
    | [] => ""
  mantissa ++ "e" ++ (if e < 0 then "-" else "+") ++ toString e.natAbs

/-- A double as its shortest digits, a tie going to the even digit. There is always a point or an
exponent, and an exponent is written below -5 and from 16 on. A value without digits is null. -/
def number (x : Float) : String :=
  if x.isFinite then
    let b := Decimal.Binary.ofFloat x
    Decimal.signText b.negative ++
      if b.mantissa = 0 then "0.0"
      else
        let d := b.shortest .toEven
        let digits := toString d.digits
        let e := d.exponent + digits.length - 1
        if e < -5 ∨ e ≥ 16 then scientific digits e
        else if d.exponent ≥ 0 then d.positional ++ ".0"
        else d.positional
  else "null"

/-- How a list or a table is laid out: all in one line, or indented so many levels. -/
inductive Layout where
  | oneLine
  | indented (level : Nat)

namespace Layout

def deeper : Layout → Layout
  | oneLine => oneLine
  | indented level => indented (level + 1)

/-- What stands in front of an item, or of a closing bracket. -/
def newLine : Layout → String
  | oneLine => ""
  | indented level => "\n" ++ String.ofList (List.replicate (2 * level) ' ')

def colon : Layout → String
  | oneLine => ":"
  | indented _ => ": "

/-- Items between brackets, which are left together if there are no items. -/
def enclose (layout : Layout) (opening closing : String) (items : List String) : String :=
  if items.isEmpty then opening ++ closing
  else
    opening ++ layout.deeper.newLine ++ (("," ++ layout.deeper.newLine).intercalate items) ++
      layout.newLine ++ closing

end Layout

mutual

/-- A document as JSON. -/
def render (layout : Layout) : Document → String
  | .null => "null"
  | .bool b => if b then "true" else "false"
  | .int i => toString i
  | .float x => number x
  | .text s => quote s
  | .moment => "null"
  | .list items => layout.enclose "[" "]" (renderItems layout.deeper items)
  | .table fields => layout.enclose "\x7b" "\x7d" (renderFields layout.deeper fields)

def renderItems (layout : Layout) : List Document → List String
  | [] => []
  | d :: rest => render layout d :: renderItems layout rest

def renderFields (layout : Layout) : List (String × Document) → List String
  | [] => []
  | (name, d) :: rest => (quote name ++ layout.colon ++ render layout d) :: renderFields layout rest

end

/-- A document in one line. -/
def compact (d : Document) : String :=
  render .oneLine d

/-- A document with every field and item in a line of its own. -/
def pretty (d : Document) : String :=
  render (.indented 0) d

end Society.Json
