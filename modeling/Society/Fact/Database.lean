import Society.Fact.Forest

/-!
# The fact database

Facts are sentences without variables. They share a tree below one root: a fact is there if its path
is.
-/

namespace Society

structure FactDatabase where
  root : FactNode
deriving DecidableEq, Repr

namespace FactDatabase

def empty : FactDatabase :=
  ⟨.leaf (.symbol "root") .many⟩

instance : EmptyCollection FactDatabase := ⟨empty⟩

instance : Inhabited FactDatabase := ⟨empty⟩

/-- Adds a fact. Nodes that are there keep their cardinality, and a fact that asks for another one is
refused. From there on nothing is refused in a database that calls lead to, and growing the path is
to add its nodes one below the other, see `Reachable.insert_eq_addAlong`. -/
def insert (db : FactDatabase) (s : String) : Except FactError FactDatabase := do
  let path ← Sentence.parseFact .insert s
  match db.root.mismatch? path with
  | some symbol => throw (.cardinalityMismatch symbol s)
  | none => return ⟨db.root.grow path⟩

/-- Whether a fact is there. -/
def assert (db : FactDatabase) (s : String) : Except FactError Bool :=
  (Sentence.parseFact .assert s).map fun path => db.root.holds path

/-- Removes the last node of a fact with everything below it, and says whether it was there. -/
def delete (db : FactDatabase) (s : String) : Except FactError (FactDatabase × Bool) := do
  let path ← Sentence.parseFact .delete s
  let (root, found) ← db.root.prune path
  return (⟨root⟩, found)

def clear (db : FactDatabase) : FactDatabase :=
  ⟨db.root.clearChildren⟩

/-- All facts that are no beginning of another fact, in the order of their keys. -/
def sentences (db : FactDatabase) : List String :=
  db.root.children.sentences "" db.root.cardinality.delimiter

/-- The number of facts that are no beginning of another fact. -/
def size (db : FactDatabase) : Nat :=
  db.root.children.leafCount

def isEmpty (db : FactDatabase) : Bool :=
  db.root.children.isEmpty

end FactDatabase

end Society
