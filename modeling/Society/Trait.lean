import Society.Dict
import Society.Stat.Modifier
import Society.Text.Fill

/-!
# Traits

A trait is a tag that agents or relationships hold. It carries modifiers, and excludes other traits.
-/

namespace Society

/-- What there is in the world. -/
inductive EntityKind where
  | agent
  | relationship
deriving DecidableEq, Repr, Inhabited

def EntityKind.name : EntityKind → String
  | .agent => "agent"
  | .relationship => "relationship"

/-- A trait, and which kind of entity may hold it. -/
structure Trait where
  id : String
  kind : EntityKind
  name : String
  description : String
  modifiers : List ModifierSpec
  conflicts : TextSet

/-- Whether one of two traits excludes the other. -/
def Trait.conflictsWith (a b : Trait) : Bool :=
  a.conflicts.contains b.id || b.conflicts.contains a.id

/-- A trait that is held, with its description filled in. -/
structure HeldTrait where
  definition : Trait
  description : String
  timer : Timer

def HeldTrait.tick (h : HeldTrait) : HeldTrait :=
  { h with timer := h.timer.tick }

/-- The traits of one holder, by their ids. -/
abbrev HeldTraits := Dict HeldTrait

namespace HeldTraits

def conflicting (held : HeldTraits) (t : Trait) : Bool :=
  held.values.any fun h => h.definition.conflictsWith t

/-- Whether a trait is neither held nor excluded. -/
def canAdd (held : HeldTraits) (t : Trait) : Bool :=
  !held.contains t.id && !held.conflicting t

/-- Holds a trait for a number of ticks. -/
def hold (held : HeldTraits) (t : Trait) (description : String) (duration : Int) : HeldTraits :=
  held.insert t.id ⟨t, description, .ofDuration duration⟩

/-- Counts down all timers. Traits whose time is over stay held. -/
def tick (held : HeldTraits) : HeldTraits :=
  held.map HeldTrait.tick

/-- The ids of the traits whose time is over. -/
def expired (held : HeldTraits) : List String :=
  (held.values.filter (·.timer.expired)).map (·.definition.id)

end HeldTraits

end Society
