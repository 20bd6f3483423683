import Society.Fact.Database
import Society.Node.Order

/-!
# Unification

Matching a path with variables against the fact tree. Every match is a row that binds the path's
variables; the rows of several paths are joined where they agree.
-/

namespace Society

/-- A beginning of a match: what is bound so far, and the children that may come next. -/
structure Match where
  row : Bindings
  children : Forest

namespace Match

/-- The matches that go one segment on, through the trees of a forest. A variable takes the value of
every child, and any other segment goes on with the child of the same symbol. -/
def advanceThrough (segment : Segment) (row : Bindings) : Forest → List Match
  | .nil => []
  | .cons key value _ children rest =>
    let later := advanceThrough segment row rest
    match segment.value with
    | .var name => ⟨row.insert name value, children⟩ :: later
    | _ => if key = segment.toSymbol then ⟨row, children⟩ :: later else later

def advance (segment : Segment) (m : Match) : List Match :=
  advanceThrough segment m.row m.children

end Match

/-- Two rows agree if they bind no variable to unequal values. -/
def Bindings.agrees (old new : Bindings) : Bool :=
  new.entries.all fun (name, value) =>
    match old.get? name with
    | some bound => bound.equalTo value
    | none => true

/-- The row `old` with what only `new` binds. -/
def Bindings.merge (old new : Bindings) : Bindings :=
  new.entries.foldl
    (fun row (name, value) => if row.contains name then row else row.insert name value) old

/-- All merged pairs of rows that agree. -/
def Bindings.join (old new : List Bindings) : List Bindings :=
  old.flatMap fun o => (new.filter o.agrees).map o.merge

namespace FactDatabase

/-- The rows of all matches of a path that bind something, in the order of the keys along the path. -/
def unifyPath (db : FactDatabase) (path : List Segment) : List Bindings :=
  let found := path.foldl (fun found segment => found.flatMap (Match.advance segment))
    [⟨∅, db.root.children⟩]
  (found.map (·.row)).filter fun row => !row.isEmpty

/-- The rows of all matches of a sentence. -/
def unify (db : FactDatabase) (s : String) : Except FactError (List Bindings) :=
  (Sentence.parse s).map db.unifyPath

/-- Joins the rows of a sentence to those found so far; where there are none so far it takes them as
they are. -/
def narrow (db : FactDatabase) (rows : List Bindings) (s : String) :
    Except FactError (List Bindings) :=
  (db.unify s).map fun found => if rows.isEmpty then found else Bindings.join rows found

/-- Unifies sentence after sentence, beginning with some rows. -/
def unifyAll (db : FactDatabase) (rows : List Bindings) (sentences : List String) :
    Except FactError (List Bindings) :=
  (sentences.foldlM db.narrow rows).map fun found => found.filter fun row => !row.isEmpty

end FactDatabase

end Society
