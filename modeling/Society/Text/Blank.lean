/-!
# Blank characters

Which characters separate words, and the two operations that rest on them: trimming a text and
splitting it into words.
-/

namespace Society.Text

/-- The characters that Unicode calls white space. -/
def isBlank (c : Char) : Bool :=
  let n := c.toNat
  (9 ≤ n && n ≤ 13) || n == 0x20 || n == 0x85 || n == 0xA0 || n == 0x1680 ||
    (0x2000 ≤ n && n ≤ 0x200A) || n == 0x2028 || n == 0x2029 || n == 0x202F || n == 0x205F ||
    n == 0x3000

/-- The text without the blanks at its two ends. -/
def trim (cs : List Char) : List Char :=
  ((cs.dropWhile isBlank).reverse.dropWhile isBlank).reverse

/-- A finished word, as a list of none or one: an empty word is no word. -/
def wordOf (reversed : List Char) : List String :=
  if reversed.isEmpty then [] else [String.ofList reversed.reverse]

/-- The words of a text, the first of them continuing a word whose characters are given last first. -/
def wordsAfter (reversed : List Char) : List Char → List String
  | [] => wordOf reversed
  | c :: cs =>
    if isBlank c then wordOf reversed ++ wordsAfter [] cs else wordsAfter (c :: reversed) cs

/-- The maximal runs of characters that are not blank, in order. -/
def words (s : String) : List String :=
  wordsAfter [] s.toList

end Society.Text
