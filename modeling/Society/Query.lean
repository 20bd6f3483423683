import Society.Query.Evaluate

/-!
# Queries

A query is a list of clauses. They are evaluated in order, until one of them fails.
-/

namespace Society

/-- The answer of a query. A failed one has no rows. -/
structure QueryResult where
  success : Bool
  rows : List RawBindings
deriving Inhabited

namespace QueryResult

def failed : QueryResult :=
  ⟨false, []⟩

/-- Keeps the named variables of every row. With no names there are no rows left. -/
def limitTo (r : QueryResult) (names : List String) : QueryResult :=
  if !r.success then failed
  else if names.isEmpty then ⟨true, []⟩
  else ⟨true, r.rows.map fun row => row.filterKeys names.contains⟩

end QueryResult

/-- The answer that a state stands for. -/
def QueryState.toResult (state : QueryState) : QueryResult :=
  if state.success then ⟨true, state.rows.map Bindings.toRaw⟩ else .failed

namespace FactDatabase

/-- Evaluates clauses in order and stops at the first one that fails. -/
def evaluateAll (db : FactDatabase) (state : QueryState) : List String → Except FactError QueryState
  | [] => .ok state
  | clause :: rest => do
    let next ← (← Clause.parse clause).evaluate db state
    if next.success then db.evaluateAll next rest else return next

/-- Runs a query that starts from a caller's rows. -/
def query (db : FactDatabase) (clauses : List String) (rows : List RawBindings) :
    Except FactError QueryResult :=
  (db.evaluateAll ⟨true, rows.map RawBindings.toBindings⟩ clauses).map QueryState.toResult

end FactDatabase

end Society
