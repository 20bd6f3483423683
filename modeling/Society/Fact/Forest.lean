import Society.Sentence

/-!
# Fact trees

A node has a value, a cardinality and children. The children of a node form a forest, listed by
key; the key of a child is the symbol of its value.
-/

namespace Society

/-- The children of a node, in the order of their keys. -/
inductive Forest where
  | nil
  | cons (key : String) (value : NodeValue) (cardinality : Cardinality) (children rest : Forest)
deriving DecidableEq, Repr

/-- A node of a fact tree. Its symbol is not kept beside its value but written from it. No operation
changes the value of a node, so a symbol that is kept would stay that of the value; here it is so by
definition, and what `WellKept.key_eq` says of the symbol and the value is `rfl`. -/
structure FactNode where
  value : NodeValue
  cardinality : Cardinality
  children : Forest
deriving DecidableEq, Repr

namespace Forest

/-- The child under a key. -/
def find? (key : String) : Forest → Option FactNode
  | nil => none
  | cons k v c children rest => if k = key then some ⟨v, c, children⟩ else rest.find? key

/-- Puts a child under a key, in the place of one that is there. -/
def insert (key : String) (node : FactNode) : Forest → Forest
  | nil => cons key node.value node.cardinality node.children nil
  | cons k v c children rest =>
    if key < k then cons key node.value node.cardinality node.children (cons k v c children rest)
    else if key = k then cons key node.value node.cardinality node.children rest
    else cons k v c children (rest.insert key node)

def erase (key : String) : Forest → Forest
  | nil => nil
  | cons k v c children rest => if k = key then rest else cons k v c children (rest.erase key)

def isEmpty : Forest → Bool
  | nil => true
  | cons .. => false

/-- The trees of the forest with their keys. -/
def toList : Forest → List (String × FactNode)
  | nil => []
  | cons k v c children rest => (k, ⟨v, c, children⟩) :: rest.toList

/-- The number of nodes without children. -/
def leafCount : Forest → Nat
  | nil => 0
  | cons _ _ _ children rest => (if children.isEmpty then 1 else children.leafCount) + rest.leafCount

/-- The sentences of the nodes without children, behind the path of their common parent. Behind an
empty path no delimiter is written. -/
def sentences (path delimiter : String) : Forest → List String
  | nil => []
  | cons key _ c children rest =>
    let here := if path.isEmpty then Sentence.escape key else path ++ delimiter ++ Sentence.escape key
    (if children.isEmpty then [here] else children.sentences here c.delimiter) ++
      rest.sentences path delimiter

/-- Every node of the forest with its depth, parents before their children. -/
def preorder (depth : Nat) : Forest → List (Nat × FactNode)
  | nil => []
  | cons _ v c children rest =>
    (depth, ⟨v, c, children⟩) :: children.preorder (depth + 1) ++ rest.preorder depth

end Forest

namespace FactNode

/-- A node without children. -/
def leaf (value : NodeValue) (cardinality : Cardinality) : FactNode :=
  ⟨value, cardinality, .nil⟩

def toSymbol (n : FactNode) : String :=
  n.value.toSymbol

/-- A copy of the node without its children. -/
def detached (n : FactNode) : FactNode :=
  leaf n.value n.cardinality

def child? (n : FactNode) (key : String) : Option FactNode :=
  n.children.find? key

def hasChild (n : FactNode) (key : String) : Bool :=
  (n.child? key).isSome

def childCount (n : FactNode) : Nat :=
  n.children.toList.length

def setChild (n : FactNode) (key : String) (child : FactNode) : FactNode :=
  { n with children := n.children.insert key child }

def removeChild (n : FactNode) (key : String) : FactNode :=
  { n with children := n.children.erase key }

def clearChildren (n : FactNode) : FactNode :=
  { n with children := .nil }

/-- Adds a child under its symbol, where the cardinality of the node lets it. A child that is
already there is kept. -/
def addChild (n : FactNode) (child : FactNode) : Except FactError FactNode :=
  if n.hasChild child.toSymbol ∧ n.cardinality ≠ .none then .ok n
  else match n.cardinality with
    | .none => .error (.childless child.toSymbol n.toSymbol)
    | .one =>
      if n.children.isEmpty then .ok (n.setChild child.toSymbol child)
      else .error (.secondChild child.toSymbol n.toSymbol)
    | .many => .ok (n.setChild child.toSymbol child)

/-- The node at the end of a path of keys. -/
def at? : List String → FactNode → Option FactNode
  | [], n => some n
  | key :: path, n => (n.child? key).bind (at? path)

/-- Changes the node at the end of a path of keys, if there is one. -/
def modifyAt (f : FactNode → FactNode) : List String → FactNode → FactNode
  | [], n => f n
  | key :: path, n =>
    match n.child? key with
    | some child => n.setChild key (modifyAt f path child)
    | none => n

/-- Every node of the tree with its depth, parents before their children. -/
def preorder (n : FactNode) : List (Nat × FactNode) :=
  (0, n) :: n.children.preorder 1

/-- The first symbol of a path whose node is kept with another cardinality than the path asks for. -/
def mismatch? : List Segment → FactNode → Option String
  | [], _ => none
  | s :: path, n =>
    match n.child? s.toSymbol with
    | some child =>
      if child.cardinality = s.cardinality then mismatch? path child else some s.toSymbol
    | none => none

/-- Adds the nodes of a path, one below the other, where they are not there yet. A node that may have
one child is cleared before it is given another, and a node may refuse its child. -/
def addAlong : List Segment → FactNode → Except FactError FactNode
  | [], n => .ok n
  | s :: path, n => do
    let n ←
      if n.hasChild s.toSymbol then pure n
      else (if n.cardinality = .one then n.clearChildren else n).addChild (leaf s.value s.cardinality)
    match n.child? s.toSymbol with
    | some child => return n.setChild s.toSymbol (← addAlong path child)
    | none => throw (.missingChild s.toSymbol)

/-- Grows the path below a node. Where the path leaves the tree below a node that may have one
child, it takes the place of the children that are there. This is what adding along the path comes
to where every node may have children, see `addAlong_eq_ok`. -/
def grow : List Segment → FactNode → FactNode
  | [], n => n
  | s :: path, n =>
    match n.child? s.toSymbol with
    | some child => n.setChild s.toSymbol (grow path child)
    | none =>
      (if n.cardinality = .one then n.clearChildren else n).setChild s.toSymbol
        (grow path (leaf s.value s.cardinality))

/-- Whether a path is there, each node but its last with the cardinality that the path asks for. -/
def holds : List Segment → FactNode → Bool
  | [], _ => true
  | s :: path, n =>
    match n.child? s.toSymbol with
    | some child => path.isEmpty || (child.cardinality = s.cardinality && holds path child)
    | none => false

/-- Cuts off the last node of a path, and says whether it was there. The nodes before it have to be
there, with any cardinality. -/
def prune : List Segment → FactNode → Except FactError (FactNode × Bool)
  | [], n => .ok (n, false)
  | [s], n => .ok (n.removeChild s.toSymbol, n.hasChild s.toSymbol)
  | s :: path, n =>
    match n.child? s.toSymbol with
    | some child =>
      (prune path child).map fun (pruned, found) => (n.setChild s.toSymbol pruned, found)
    | none => .error (.missingChild s.toSymbol)

end FactNode

end Society
