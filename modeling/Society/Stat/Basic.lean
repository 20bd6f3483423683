import Society.Stat.Modifier

/-!
# Stats

A stat has a base value, bounds, and modifiers in the order in which they apply. Every change takes a
new reading of it, and is told to those who observe the stat.
-/

namespace Society

/-- An observer that was told the value of a stat after a change. -/
structure Announcement where
  observer : String
  value : Float
deriving DecidableEq

/-- What a change made of a value, and what was announced on the way. -/
structure Change (α : Type) where
  result : α
  announced : List Announcement

/-- What a stat is created with. -/
structure StatSchema where
  stat : String
  base : Float
  bounds : Bounds Float

structure Stat where
  base : Float
  bounds : Bounds Float
  modifiers : List StatModifier
  observers : List String
  /-- The reading that was taken after the last change. -/
  reading : Reading Float

namespace Stat

/-- The bounds of a stat for which none are given. -/
def wideBounds : Bounds Float :=
  ⟨-999999, 999999, false⟩

/-- Reads the stat anew. -/
def measure (s : Stat) : Reading Float :=
  Quantity.reading s.bounds s.base (s.modifiers.map fun m => (m.kind, m.amount))

/-- A stat without modifiers. -/
def create (base : Float) (bounds : Bounds Float) : Stat :=
  { base, bounds, modifiers := [], observers := [], reading := Quantity.reading bounds base [] }

def value (s : Stat) : Float :=
  s.reading.value

def normalized (s : Stat) : Float :=
  s.reading.normalized

/-- Takes a new reading after a change, and announces it. -/
def changed (s : Stat) : Change Stat :=
  let reading := s.measure
  ⟨{ s with reading }, s.observers.map fun o => ⟨o, reading.value⟩⟩

/-- Nothing has changed. -/
def unchanged (s : Stat) : Change Stat :=
  ⟨s, []⟩

def setBase (s : Stat) (base : Float) : Change Stat :=
  changed { s with base }

def increment (s : Stat) (delta : Float) : Change Stat :=
  s.setBase (s.base + delta)

/-- Puts a modifier behind those of the same or a lower order. -/
def insertByOrder (m : StatModifier) : List StatModifier → List StatModifier
  | [] => [m]
  | x :: xs => if m.order < x.order then m :: x :: xs else x :: insertByOrder m xs

def add (s : Stat) (m : StatModifier) : Change Stat :=
  changed { s with modifiers := insertByOrder m s.modifiers }

/-- Whether a modifier with an id is attached. -/
def has (s : Stat) (id : ModifierId) : Bool :=
  s.modifiers.any (·.id == id)

/-- Whether a modifier from a source is attached. -/
def hasFrom (s : Stat) (source : ModifierSource) : Bool :=
  s.modifiers.any (·.isFrom source)

/-- Whether a modifier's time is over after one more tick. -/
def expiring (s : Stat) : Bool :=
  s.modifiers.any (·.tick.timer.expired)

/-- Removes modifiers; if there are none to remove nothing changes. -/
def keepOnly (s : Stat) (keep : StatModifier → Bool) : Change Stat :=
  if s.modifiers.all keep then s.unchanged
  else changed { s with modifiers := s.modifiers.filter keep }

/-- Removes the first modifier with an id. -/
def remove (s : Stat) (id : ModifierId) : Change Stat :=
  if s.has id then
    changed { s with modifiers := s.modifiers.eraseP (·.id == id) }
  else s.unchanged

/-- Removes all modifiers from a source. -/
def removeFrom (s : Stat) (source : ModifierSource) : Change Stat :=
  s.keepOnly fun m => !m.isFrom source

/-- Counts down all timers, and removes the modifiers whose time is over. -/
def tick (s : Stat) : Change Stat :=
  let s := { s with modifiers := s.modifiers.map StatModifier.tick }
  s.keepOnly fun m => !m.timer.expired

/-- Registers an observer of all later changes. -/
def observe (s : Stat) (observer : String) : Stat :=
  { s with observers := s.observers ++ [observer] }

end Stat

/-- The stat of a schema. -/
def StatSchema.create (schema : StatSchema) : Stat :=
  Stat.create schema.base schema.bounds

end Society
