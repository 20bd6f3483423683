import Society.Query.Clause
import Society.Query.Unify

/-!
# Evaluating clauses

A clause narrows a state: it keeps some of the rows found so far, or binds further variables in them,
or fails.
-/

namespace Society

/-- What is known between two clauses: whether all has held so far, and the rows that are left. A
success without rows has nothing to report. -/
structure QueryState where
  success : Bool
  rows : List Bindings
deriving Inhabited

namespace QueryState

def failed : QueryState :=
  ⟨false, []⟩

/-- Success with some rows, or failure with none. -/
def ofRows (rows : List Bindings) : QueryState :=
  if rows.isEmpty then failed else ⟨true, rows⟩

end QueryState

namespace Clause

/-- Keeps the rows that pass a test. The first test that fails ends it. -/
def keepIf (test : Bindings → Except FactError Bool) :
    List Bindings → Except FactError (List Bindings)
  | [] => .ok []
  | row :: rows => do
    let keep ← test row
    let kept ← keepIf test rows
    return if keep then row :: kept else kept

/-- A sentence without variables has to be a fact. One with variables is matched, and each row has to
make it a fact; this also drops the rows in which a variable that occurs twice has two values. -/
def evaluateAssert (db : FactDatabase) (state : QueryState) (s : String) :
    Except FactError QueryState := do
  if ← Sentence.hasVariables s then
    let rows ← db.unifyAll state.rows [s]
    return .ofRows (← keepIf (fun row => do db.assert (← Sentence.bind s row)) rows)
  else
    return if ← db.assert s then state else .failed

/-- Whether a sentence holds for some values of the variables that the row leaves open. -/
def holdsFor (db : FactDatabase) (s : String) (row : Bindings) : Except FactError Bool := do
  let bound ← Sentence.bind s row
  if ← Sentence.hasVariables bound then
    return !(← db.unifyAll [] [bound]).isEmpty
  else
    db.assert bound

/-- A sentence without variables must be no fact. One with variables must have no match, for each row
on its own if there are rows. -/
def evaluateNot (db : FactDatabase) (state : QueryState) (s : String) :
    Except FactError QueryState := do
  if ← Sentence.hasVariables s then
    if state.rows.isEmpty then
      return if (← db.unifyAll [] [s]).isEmpty then state else .failed
    else
      return .ofRows (← keepIf (fun row => do return !(← holdsFor db s row)) state.rows)
  else
    return if ← db.assert s then .failed else state

/-- The one value that an operand writes. -/
def operand (s : String) : Except FactError NodeValue := do
  match ← Sentence.parse s with
  | [segment] => return segment.value
  | _ => throw (.tooManyParts s)

/-- A comparison keeps the rows for which it holds, and fails if there are none to begin with. -/
def evaluateCompare (state : QueryState) (c : Comparator) (left right : String) :
    Except FactError QueryState := do
  let left ← operand left
  let right ← operand right
  return .ofRows (← keepIf
    (fun row => c.compare (Sentence.resolve row left) (Sentence.resolve row right)) state.rows)

/-- Narrows a state by a clause. -/
def evaluate (db : FactDatabase) (state : QueryState) : Clause → Except FactError QueryState
  | .assert s => evaluateAssert db state s
  | .not s => evaluateNot db state s
  | .compare c left right => evaluateCompare state c left right

end Clause

end Society
