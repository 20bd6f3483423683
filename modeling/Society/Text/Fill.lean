/-!
# Filling placeholders

Replacing every occurrence of one text in another, from left to right and without overlaps.
-/

namespace Society.Text

/-- What follows `pattern` at the front of a text, if the text begins with it. -/
def stripFront? : (pattern text : List Char) → Option (List Char)
  | [], text => some text
  | _ :: _, [] => none
  | p :: pattern, c :: text => if p = c then stripFront? pattern text else none

/-- Puts `value` for every occurrence of the placeholder; while `skip` is not zero the text still
belongs to the occurrence that was replaced last. -/
def fillFrom (pattern value : List Char) : (skip : Nat) → List Char → List Char
  | _, [] => []
  | skip + 1, _ :: text => fillFrom pattern value skip text
  | 0, c :: text =>
    if (stripFront? pattern (c :: text)).isSome then
      value ++ fillFrom pattern value (pattern.length - 1) text
    else
      c :: fillFrom pattern value 0 text

/-- The template with `value` in the place of every occurrence of a nonempty placeholder. -/
def fill (placeholder value template : String) : String :=
  String.ofList (fillFrom placeholder.toList value.toList 0 template.toList)

end Society.Text
