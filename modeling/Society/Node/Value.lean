import Society.Decimal.Reader
import Society.Decimal.Significant
import Society.Dict
import Society.Text.Blank

/-!
# Node values

The values that facts are made of, the raw values that a caller exchanges with the facts, and the
reading of both.
-/

namespace Society

/-- How many children a node may have. -/
inductive Cardinality where
  | none
  | one
  | many
deriving DecidableEq, Repr, Inhabited

/-- The value of a node. A variable is named with its question mark. -/
inductive NodeValue where
  | var (name : String)
  | symbol (text : String)
  | int (value : Int)
  | float (value : Float)
deriving DecidableEq, Repr

inductive NodeKind where
  | var
  | symbol
  | int
  | float
deriving DecidableEq, Repr

/-- A value outside the facts: what a caller binds to a variable, and what a query returns. -/
inductive RawValue where
  | int (value : Int)
  | float (value : Float)
  | text (value : String)
deriving DecidableEq, Repr

/-- Values of variables, by the variables' names. -/
abbrev Bindings := Dict NodeValue

abbrev RawBindings := Dict RawValue

/-- The name of a kind, as it stands in messages. -/
def NodeKind.name : NodeKind → String
  | .var => "variable"
  | .symbol => "symbol"
  | .int => "int"
  | .float => "float"

namespace RawValue

/-- A raw value as text; a float is written with its shortest digits. -/
def display : RawValue → String
  | .int i => toString i
  | .float x => Decimal.display x
  | .text s => s

/-- The number that a raw value is, if it is one. -/
def number? : RawValue → Option Float
  | .int i => some (Float.ofInt i)
  | .float x => some x
  | .text _ => none

def text? : RawValue → Option String
  | .text s => some s
  | _ => none

end RawValue

namespace NodeValue

def kind : NodeValue → NodeKind
  | .var _ => .var
  | .symbol _ => .symbol
  | .int _ => .int
  | .float _ => .float

def isVariable (v : NodeValue) : Bool :=
  v.kind = .var

/-- The key under which a value is kept among its siblings. A float has three significant digits
there. -/
def toSymbol : NodeValue → String
  | .var name => name
  | .symbol text => text
  | .int i => toString i
  | .float x => Decimal.toPrecision x 3

/-- The value that a caller is given. -/
def toRaw : NodeValue → RawValue
  | .var name => .text name
  | .symbol text => .text text
  | .int i => .int i
  | .float x => .float x

/-- A finite number: a whole number below `2 ^ 63` in magnitude is an integer. -/
def ofFloat (x : Float) : NodeValue :=
  match Decimal.integer? x with
  | some i => if i.natAbs < 0x8000000000000000 then .int i else .float x
  | none => .float x

/-- The number that a text writes: an integer of 64 bits, or else a finite decimal. -/
def number? (cs : List Char) : Option NodeValue :=
  match Text.int64? cs with
  | some i => some (.int i)
  | none => (Decimal.finite? cs).map ofFloat

/-- The value of a piece of a sentence: a question mark begins a variable, and what is no number is
a symbol. -/
def ofToken (cs : List Char) : NodeValue :=
  if cs.head? = some '?' then .var (String.ofList cs)
  else (number? cs).getD (.symbol (String.ofList cs))

/-- The value that a caller's value stands for. Text that writes a number between blanks is that
number, and no value becomes a variable. -/
def ofRaw : RawValue → NodeValue
  | .int i => .int i
  | .float x => if x.isFinite then ofFloat x else .symbol (Decimal.display x)
  | .text s => (number? (Text.trim s.toList)).getD (.symbol s)

end NodeValue

/-- The values that a caller's row stands for. -/
def RawBindings.toBindings (row : RawBindings) : Bindings :=
  row.map NodeValue.ofRaw

/-- The row that a caller is given. -/
def Bindings.toRaw (row : Bindings) : RawBindings :=
  row.map NodeValue.toRaw

end Society
