import Society.Document.Basic
import Society.Node.Value

/-!
# Exchanging raw values

A raw value as a document. Which number it is shows in the document: an integer of 64 bits with a
sign is an integer, and every other number a float.
-/

namespace Society.RawValue

def toDocument : RawValue → Document
  | .int i => .int i
  | .float x => .float x
  | .text s => .text s

/-- The raw value that a document is, if it is a number or a text. -/
def ofDocument? : Document → Option RawValue
  | .int i =>
    some (if -Text.int64Limit ≤ i ∧ i < Text.int64Limit then .int i else .float (Float.ofInt i))
  | .float x => some (.float x)
  | .text s => some (.text s)
  | _ => none

end Society.RawValue
