/-!
# Documents

The values that structured text is made of: numbers, texts, lists, and tables of named fields.
-/

namespace Society

inductive Document where
  | null
  | bool (value : Bool)
  | int (value : Int)
  | float (value : Float)
  | text (value : String)
  /-- A date or a time, whose parts are of no interest. -/
  | moment
  | list (items : List Document)
  | table (fields : List (String × Document))
deriving Inhabited

namespace Document

/-- A list of texts. -/
def texts (items : List String) : Document :=
  .list (items.map .text)

/-- A value that may be missing. -/
def ofOption {α : Type} (f : α → Document) : Option α → Document
  | some a => f a
  | none => .null

/-- A field of a table. -/
def field? (name : String) : Document → Option Document
  | .table fields => fields.lookup name
  | _ => none

end Document

end Society
