import Society.Fact.Error

/-!
# Sentences

A sentence names a path of values: segments, each ended by a point or an exclamation mark. A point
lets the segment's node have many children and an exclamation mark lets it have one. The text
between brackets is never split, and the brackets themselves are dropped.
-/

namespace Society

/-- A step of a path. -/
structure Segment where
  value : NodeValue
  cardinality : Cardinality
deriving DecidableEq, Repr

namespace Segment

def ofToken (cs : List Char) (cardinality : Cardinality) : Segment :=
  ⟨.ofToken cs, cardinality⟩

def toSymbol (s : Segment) : String :=
  s.value.toSymbol

end Segment

/-- What stands behind a segment that is not the last. -/
def Cardinality.delimiter : Cardinality → String
  | .one => "!"
  | _ => "."

namespace Sentence

/-- The segments of a text, behind a token whose characters are given last first. The last bracket
of the text must not be an opening one. -/
def segmentsAfter? (token : List Char) (inLiteral : Bool) : List Char → Option (List Segment)
  | [] => if inLiteral then none else some [.ofToken token.reverse .many]
  | c :: cs =>
    if c = '[' then segmentsAfter? token true cs
    else if c = ']' then segmentsAfter? token false cs
    else if c = '.' ∧ !inLiteral then
      (segmentsAfter? [] false cs).map (.ofToken token.reverse .many :: ·)
    else if c = '!' ∧ !inLiteral then
      (segmentsAfter? [] false cs).map (.ofToken token.reverse .one :: ·)
    else segmentsAfter? (c :: token) inLiteral cs

/-- The path that a sentence names. Its last segment always lets many children follow. -/
def parse (s : String) : Except FactError (List Segment) :=
  match segmentsAfter? [] false s.toList with
  | some segments => .ok segments
  | none => .error (.unterminatedLiteral s)

/-- A symbol as a part of a sentence: brackets keep delimiters in it from splitting it. -/
def escape (symbol : String) : String :=
  if symbol.toList.any fun c => c = '.' || c = '!' then "[" ++ symbol ++ "]" else symbol

/-- The sentence of a path. -/
def print : List Segment → String
  | [] => ""
  | [s] => escape s.toSymbol
  | s :: rest => escape s.toSymbol ++ s.cardinality.delimiter ++ print rest

/-- Whether a path has a variable. -/
def anyVariable (segments : List Segment) : Bool :=
  segments.any (·.value.isVariable)

def hasVariables (s : String) : Except FactError Bool :=
  (parse s).map anyVariable

/-- The value of a bound variable; every other value stands for itself. -/
def resolve (row : Bindings) : NodeValue → NodeValue
  | .var name => (row.get? name).getD (.var name)
  | v => v

/-- The sentence with the values of its bound variables written in. -/
def bind (s : String) (row : Bindings) : Except FactError String :=
  (parse s).map fun segments =>
    print (segments.map fun seg => { seg with value := resolve row seg.value })

/-- The path of a fact, which has no variables. -/
def parseFact (action : FactAction) (s : String) : Except FactError (List Segment) := do
  let segments ← parse s
  if anyVariable segments then throw (.variableInFact s action)
  return segments

end Sentence

end Society
