import Society.Node.Value

/-!
# What can go wrong with facts

The causes for which a sentence, a change of the facts or a query clause is refused, and the words
that say so.
-/

namespace Society

/-- The comparisons that a query clause can ask for. -/
inductive Comparator where
  | eq
  | neq
  | lt
  | gt
  | lte
  | gte
deriving DecidableEq, Repr

namespace Comparator

def keyword : Comparator → String
  | .eq => "eq"
  | .neq => "neq"
  | .lt => "lt"
  | .gt => "gt"
  | .lte => "lte"
  | .gte => "gte"

def all : List Comparator := [.eq, .neq, .lt, .gt, .lte, .gte]

def ofKeyword? (s : String) : Option Comparator :=
  all.find? fun c => c.keyword == s

end Comparator

/-- What is done to the facts with a sentence. -/
inductive FactAction where
  | insert
  | assert
  | delete
deriving DecidableEq, Repr

def FactAction.participle : FactAction → String
  | .insert => "inserted"
  | .assert => "asserted"
  | .delete => "deleted"

inductive FactError where
  /-- The last bracket of the sentence opens a literal. -/
  | unterminatedLiteral (sentence : String)
  /-- The sentence of a fact has a variable. -/
  | variableInFact (sentence : String) (action : FactAction)
  /-- The two kinds of value have no order. -/
  | unordered (comparator : Comparator) (left right : NodeKind)
  /-- A node on the sentence's path is kept with another cardinality. -/
  | cardinalityMismatch (symbol sentence : String)
  /-- A node on the sentence's path is missing. -/
  | missingChild (symbol : String)
  /-- The parent may have no children. -/
  | childless (symbol parent : String)
  /-- The parent may have one child, and it has another one. -/
  | secondChild (symbol parent : String)
  /-- An operand is more than one node. -/
  | tooManyParts (operand : String)
  /-- A clause has no form that is known. -/
  | unrecognizedClause (clause : String)
  /-- The first of three parts is no comparator. -/
  | unknownComparator (operator clause : String)
deriving DecidableEq, Repr

namespace FactError

/-- The error in words. -/
def message : FactError → String
  | .unterminatedLiteral s => "Could not find closing ']' for value in: '" ++ s ++ "'"
  | .variableInFact s action =>
    "Node type error: Found variable in sentence '" ++ s ++
      "'. Sentence cannot contain variables when being " ++ action.participle ++ "."
  | .unordered c l r =>
    "Node type error: " ++ c.keyword ++ " not defined between nodes of type " ++ l.name ++ " and " ++
      r.name
  | .cardinalityMismatch symbol s =>
    "Cardinality mismatch on '" ++ symbol ++ "' in sentence: '" ++ s ++ "'"
  | .missingChild symbol => "Child '" ++ symbol ++ "' not found"
  | .childless symbol parent =>
    "Cannot add child '" ++ symbol ++ "': node '" ++ parent ++ "' cannot have children"
  | .secondChild symbol parent =>
    "Cannot add child '" ++ symbol ++ "': node '" ++ parent ++ "' already has a child"
  | .tooManyParts operand => "Too many parts in operand '" ++ operand ++ "'"
  | .unrecognizedClause clause => "Unrecognized query clause: '" ++ clause ++ "'"
  | .unknownComparator operator clause =>
    "Unknown comparator '" ++ operator ++ "' in clause: '" ++ clause ++ "'"

end FactError

end Society
