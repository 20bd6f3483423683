import Society.Document.Basic

/-!
# TOML tables

The tables that a text builds up. A table that only longer keys have brought about can still be
defined once; one that was defined, or whose value was written out, cannot be extended.
-/

namespace Society.Toml

/-- What stands under a key: a value that is written out, a table, or a list of tables that grows. -/
inductive Item where
  | value (d : Document)
  | table (implicit dotted : Bool) (entries : List (String × Item))
  | tables (elements : List (List (String × Item)))

/-- The entries of a table. -/
abbrev Entries := List (String × Item)

/-- Puts an item under a key, in the place of one that is there. -/
def Entries.set (key : String) (item : Item) : Entries → Entries
  | [] => [(key, item)]
  | (k, i) :: rest => if k = key then (key, item) :: rest else (k, i) :: Entries.set key item rest

def Entries.erase (key : String) (es : Entries) : Entries :=
  es.filter fun e => e.1 != key

/-- Changes the table at the end of a path, with an answer. Tables on the way are brought about
where there are none, and of a list of tables the last one is entered. A dotted path does not enter
tables that were defined. The change is told whether its table was brought about by dotted keys. -/
def Entries.at? {α : Type} (viaDots : Bool) (f : Bool → Entries → Option (α × Entries)) :
    (dotted : Bool) → List String → Entries → Option (α × Entries)
  | dotted, [], es => f dotted es
  | _, key :: path, es =>
    match es.lookup key with
    | none => do
      let (a, sub) ← Entries.at? viaDots f viaDots path []
      return (a, Entries.set key (.table true viaDots sub) es)
    | some (.value _) => none
    | some (.table implicit dotted sub) => do
      if viaDots && !implicit then none
      let (a, sub) ← Entries.at? viaDots f dotted path sub
      return (a, Entries.set key (.table implicit dotted sub) es)
    | some (.tables elements) => do
      let (a, last) ← Entries.at? viaDots f false path (← elements.getLast?)
      return (a, Entries.set key (.tables (elements.dropLast ++ [last])) es)

/-- Adds a value under a path of keys. The table that gets the value is this one, or one that dotted
keys have brought about, and it has no such key yet. -/
def Entries.add? (path : List String) (d : Document) (es : Entries) : Option Entries := do
  let key ← path.getLast?
  let tables := path.dropLast
  let put (dotted : Bool) (es : Entries) : Option (Unit × Entries) :=
    if dotted == tables.isEmpty || (es.lookup key).isSome then none
    else some ((), Entries.set key (.value d) es)
  return (← Entries.at? true put false tables es).2

mutual

/-- The document that an item stands for. -/
def Item.toDocument : Item → Document
  | .value d => d
  | .table _ _ es => .table (Item.fields es)
  | .tables elements => .list (Item.rows elements)

def Item.fields : List (String × Item) → List (String × Document)
  | [] => []
  | (key, item) :: rest => (key, item.toDocument) :: Item.fields rest

def Item.rows : List (List (String × Item)) → List Document
  | [] => []
  | es :: rest => .table (Item.fields es) :: Item.rows rest

end

/-- Where the following key and value lines belong. -/
inductive Heading where
  | root
  | table (path : List String)
  | element (path : List String)

/-- The tables of the text so far, and the table that is being filled. -/
structure Progress where
  root : Entries
  heading : Heading
  current : Entries

namespace Progress

def start : Progress :=
  ⟨[], .root, []⟩

/-- Puts the table that is being filled in its place. -/
def finish? (p : Progress) : Option Entries :=
  match p.heading with
  | .root => some p.current
  | .table path => do
    let key ← path.getLast?
    let put (_ : Bool) (es : Entries) : Option (Unit × Entries) :=
      match es.lookup key with
      | none => some ((), Entries.set key (.table false false p.current) es)
      | some _ => none
    return (← Entries.at? false put false path.dropLast p.root).2
  | .element path => do
    let key ← path.getLast?
    let put (_ : Bool) (es : Entries) : Option (Unit × Entries) :=
      match es.lookup key with
      | none => some ((), Entries.set key (.tables [p.current]) es)
      | some (.tables elements) => some ((), Entries.set key (.tables (elements ++ [p.current])) es)
      | some _ => none
    return (← Entries.at? false put false path.dropLast p.root).2

/-- Begins a table. A table that other headings have brought about goes on. -/
def openTable? (p : Progress) (path : List String) : Option Progress := do
  let root ← p.finish?
  let key ← path.getLast?
  let take (_ : Bool) (es : Entries) : Option (Entries × Entries) :=
    match es.lookup key with
    | none => some ([], es)
    | some (.table true false sub) => some (sub, Entries.erase key es)
    | some _ => none
  let (current, root) ← Entries.at? false take false path.dropLast root
  return ⟨root, .table path, current⟩

/-- Begins the next table of a list of tables. -/
def openElement? (p : Progress) (path : List String) : Option Progress := do
  let root ← p.finish?
  let key ← path.getLast?
  let prepare (_ : Bool) (es : Entries) : Option (Unit × Entries) :=
    match es.lookup key with
    | none => some ((), Entries.set key (.tables []) es)
    | some (.tables _) => some ((), es)
    | some _ => none
  let (_, root) ← Entries.at? false prepare false path.dropLast root
  return ⟨root, .element path, []⟩

/-- Adds a key and its value to the table that is being filled. -/
def add? (p : Progress) (path : List String) (d : Document) : Option Progress := do
  return { p with current := ← Entries.add? path d p.current }

end Progress

end Society.Toml
