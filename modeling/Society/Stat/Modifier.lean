import Society.Stat.Formula
import Society.Timer

/-!
# Stat modifiers

A trait or a rule declares how it changes stats; what is attached to a stat is an instance of such a
declaration, which knows what attached it and how long it lasts.
-/

namespace Society

/-- What tells modifiers apart: an id that was given, or a number that is not used twice. -/
inductive ModifierId where
  | given (id : String)
  | fresh (number : Nat)
deriving DecidableEq, Repr

/-- An id as text. The numbers mean nothing outside and are not written. -/
def ModifierId.display : ModifierId → String
  | .given id => id
  | .fresh _ => "auto"

/-- What attached a modifier. -/
inductive ModifierSource where
  | trait (id : String)
  | rule (id : String)
  | relationshipModifier (id : ModifierId)
  | effect (name : String)
  | custom (label : String)
deriving DecidableEq, Repr

def ModifierSource.display : ModifierSource → String
  | .trait id => "trait:" ++ id
  | .rule id => "rule:" ++ id
  | .relationshipModifier id => "relationship-modifier:" ++ id.display
  | .effect name => "effect:" ++ name
  | .custom label => label

/-- A change of a stat, as traits and rules declare it. -/
structure ModifierSpec where
  stat : String
  amount : Float
  kind : ModifierKind
deriving DecidableEq

/-- A change that is attached to a stat. Lower orders apply first. -/
structure StatModifier extends ModifierSpec where
  id : ModifierId
  order : Int
  source : Option ModifierSource
  timer : Timer
deriving DecidableEq

/-- The permanent modifier of a declaration, ordered by its kind. -/
def ModifierSpec.instance (spec : ModifierSpec) (id : ModifierId) (source : Option ModifierSource) :
    StatModifier :=
  { spec with id, source, order := spec.kind.defaultOrder, timer := none }

namespace StatModifier

def isFrom (m : StatModifier) (source : ModifierSource) : Bool :=
  m.source == some source

/-- Counts down one tick. -/
def tick (m : StatModifier) : StatModifier :=
  { m with timer := m.timer.tick }

/-- What the modifier does, in words. -/
def description (m : StatModifier) : String :=
  match m.kind with
  | .flat => "Add " ++ Decimal.display m.amount ++ " to " ++ m.stat
  | .percentAdd => "Add " ++ Decimal.display (m.amount * 100) ++ "% to " ++ m.stat
  | .percentMultiply => "Scales " ++ m.stat ++ " to " ++ Decimal.display (m.amount * 100) ++ "%"

end StatModifier

end Society
