import Society.Node.Order
import Society.Sentence

/-!
# Query clauses

A clause is a row of parts between blanks: a sentence that has to hold, `not` and a sentence that must
not hold, or a comparator and its two operands.
-/

namespace Society

inductive Clause where
  | assert (statement : String)
  | not (statement : String)
  | compare (comparator : Comparator) (left right : String)
deriving DecidableEq, Repr

namespace Clause

/-- The parts of a clause, behind a part whose characters are given last first. Blanks inside
brackets do not separate. -/
def partsAfter (reversed : List Char) (inLiteral : Bool) : List Char → List String
  | [] => Text.wordOf reversed
  | c :: cs =>
    if c = '[' then partsAfter (c :: reversed) true cs
    else if c = ']' then partsAfter (c :: reversed) false cs
    else if Text.isBlank c ∧ !inLiteral then Text.wordOf reversed ++ partsAfter [] false cs
    else partsAfter (c :: reversed) inLiteral cs

/-- The parts of a clause: what stands between blanks that are not inside brackets. -/
def split (clause : String) : List String :=
  partsAfter [] false clause.toList

/-- The clause that a text writes. -/
def parse (clause : String) : Except FactError Clause :=
  match split clause with
  | [statement] => .ok (.assert statement)
  | [keyword, statement] =>
    if keyword = "not" then .ok (.not statement) else .error (.unrecognizedClause clause)
  | [operator, left, right] =>
    match Comparator.ofKeyword? operator with
    | some comparator => .ok (.compare comparator left right)
    | none => .error (.unknownComparator operator clause)
  | _ => .error (.unrecognizedClause clause)

end Clause

end Society
