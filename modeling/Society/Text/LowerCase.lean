import Society.Text.LowerCase.Table

/-!
# Lower case

The lower case form of a text, character by character. Two characters are special: capital sigma
depends on whether it ends a word, and the capital I with a dot becomes two characters.
-/

namespace Society.Text.LowerCase

def inRuns (runs : List (Nat × Nat)) (c : Char) : Bool :=
  runs.any fun (first, last) => first ≤ c.toNat && c.toNat ≤ last

/-- The lower case form of a single character. -/
def char (c : Char) : Char :=
  if c.toNat < 0x80 then c.toLower
  else
    let n := c.toNat
    match shifts.find? fun (first, last, step, _) =>
      first ≤ n && n ≤ last && (n - first) % step == 0 with
    | some (_, _, _, shift) => Char.ofNat (n + shift).toNat
    | none => c

/-- Whether the nearest character that is not passed over has a case. -/
def casedNext (cs : List Char) : Bool :=
  match cs.dropWhile (inRuns ignorable) with
  | c :: _ => inRuns cased c
  | [] => false

/-- A capital sigma ends a word if a letter stands before it and none after it. -/
def sigma (before after : List Char) : Char :=
  if casedNext before && !casedNext after then 'ς' else 'σ'

/-- The lower case form of a text whose beginning, last character first, is `before`. -/
def charsAfter (before : List Char) : List Char → List Char
  | [] => []
  | c :: cs =>
    (if c = 'Σ' then [sigma before cs] else if c = 'İ' then ['i', '\u0307'] else [char c]) ++
      charsAfter (c :: before) cs

end Society.Text.LowerCase

namespace Society.Text

/-- The lower case form of a text. -/
def toLowerCase (s : String) : String :=
  String.ofList (LowerCase.charsAfter [] s.toList)

end Society.Text
