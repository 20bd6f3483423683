import Society.Decimal.Significant

/-!
# The value of a stat

How modifiers change a base value, and how the outcome is brought into the bounds of the stat. The
formula is stated over any arithmetic that has the operations it needs.
-/

namespace Society

/-- The arithmetic of stats. -/
class Quantity (α : Type) extends Zero α, One α, Add α, Sub α, Mul α, Div α where
  /-- Whether the first quantity is below the second. -/
  below : α → α → Bool
  /-- The smaller of two quantities, or the one that is comparable. -/
  smaller : α → α → α
  /-- The larger of two quantities, or the one that is comparable. -/
  larger : α → α → α
  floor : α → α
  /-- Rounds to three significant digits, halves away from zero. -/
  roundThree : α → α

/-- Doubles. Where the smaller or the larger one is taken, NaN gives way to the other operand, and
of two zeros the second operand is taken. -/
instance : Quantity Float where
  zero := 0
  one := 1
  below x y := x < y
  smaller x y := if y.isNaN || x < y then x else y
  larger x y := if y.isNaN || y < x then x else y
  floor := Decimal.floor
  roundThree x := Decimal.roundSignificant x 3

/-- How a modifier changes a value. -/
inductive ModifierKind where
  /-- Adds an amount. -/
  | flat
  /-- Adds a share of the value; shares that follow each other are summed first. -/
  | percentAdd
  /-- Multiplies the value by one more than the amount. -/
  | percentMultiply
deriving DecidableEq, Repr, Inhabited

/-- Where a kind stands among the others, if nothing else is asked for. -/
def ModifierKind.defaultOrder : ModifierKind → Int
  | .flat => 100
  | .percentAdd => 200
  | .percentMultiply => 300

/-- The bounds of a stat, and whether it has whole values only. -/
structure Bounds (α : Type) where
  least : α
  greatest : α
  discrete : Bool

/-- A value, and its place between the bounds from zero to one. -/
structure Reading (α : Type) where
  value : α
  normalized : α

namespace Quantity

variable {α : Type} [Quantity α]

/-- Applies modifiers in order to a value, with the sum of the shares that have not been applied. A
share is applied with the last one of its row. -/
def modifyFrom (value shares : α) : List (ModifierKind × α) → α
  | [] => value
  | (.flat, amount) :: rest => modifyFrom (value + amount) shares rest
  | (.percentMultiply, amount) :: rest => modifyFrom (value * (1 + amount)) shares rest
  | (.percentAdd, amount) :: rest =>
    match rest with
    | (.percentAdd, _) :: _ => modifyFrom value (shares + amount) rest
    | _ => modifyFrom (value * (1 + (shares + amount))) 0 rest

/-- Applies modifiers in order to a base value. -/
def modified (base : α) (modifiers : List (ModifierKind × α)) : α :=
  modifyFrom base 0 modifiers

/-- The reading of a modified value: moved into the bounds, rounded down if the stat is discrete, and
rounded to three significant digits. -/
def settle (bounds : Bounds α) (value : α) : Reading α :=
  let inside := larger (smaller value bounds.greatest) bounds.least
  let value := roundThree (if bounds.discrete then floor inside else inside)
  { value
    normalized :=
      if below bounds.least bounds.greatest then
        roundThree ((value - bounds.least) / (bounds.greatest - bounds.least))
      else 0 }

/-- The reading of a base value with modifiers. -/
def reading (bounds : Bounds α) (base : α) (modifiers : List (ModifierKind × α)) : Reading α :=
  settle bounds (modified base modifiers)

end Quantity

end Society
