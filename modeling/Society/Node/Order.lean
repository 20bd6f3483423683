import Society.Fact.Error
import Society.Text.LowerCase

/-!
# Comparing node values

Equality tells kinds apart. The order is defined between two numbers of either kind and between two
symbols, and for nothing else.
-/

namespace Society

/-- The order of two doubles; NaN has none. -/
def orderFloats? (x y : Float) : Option Ordering :=
  if x < y then some .lt
  else if y < x then some .gt
  else if x == y then some .eq
  else none

/-- Symbols are ordered by their lower case forms, and with equal ones lower case comes first. -/
def orderSymbols (a b : String) : Ordering :=
  (compare (Text.toLowerCase a) (Text.toLowerCase b)).then (compare b a)

namespace NodeValue

/-- Whether two values are of one kind and equal. -/
def equalTo : NodeValue → NodeValue → Bool
  | .var a, .var b => a == b
  | .symbol a, .symbol b => a == b
  | .int a, .int b => a == b
  | .float a, .float b => a == b
  | _, _ => false

/-- The order of two values, where there is one. An integer is compared with a float as the double
that is nearest to it. -/
def order? : NodeValue → NodeValue → Option Ordering
  | .int a, .int b => some (compare a b)
  | .int a, .float b => orderFloats? (Float.ofInt a) b
  | .float a, .int b => orderFloats? a (Float.ofInt b)
  | .float a, .float b => orderFloats? a b
  | .symbol a, .symbol b => some (orderSymbols a b)
  | _, _ => none

end NodeValue

namespace Comparator

/-- Whether the comparator accepts an order. -/
def accepts : Comparator → Ordering → Bool
  | .eq, o => o == .eq
  | .neq, o => o != .eq
  | .lt, o => o == .lt
  | .gt, o => o == .gt
  | .lte, o => o != .gt
  | .gte, o => o != .lt

/-- Compares two values. The two equality tests always answer, the others need an order. -/
def compare (c : Comparator) (a b : NodeValue) : Except FactError Bool :=
  match c with
  | .eq => .ok (a.equalTo b)
  | .neq => .ok !(a.equalTo b)
  | _ =>
    match a.order? b with
    | some o => .ok (c.accepts o)
    | none => .error (.unordered c a.kind b.kind)

end Comparator

end Society
