import Society.World.Evaluation

/-!
# Traits of entities

Holding a trait is three things at once: the trait is on the sheet of its holder, its modifiers are
attached to the holder's stats, and a fact tells of it.
-/

namespace Society

namespace Act

/-- A trait of the library that is for a kind of entity. -/
def requireTraitFor (kind : EntityKind) (id : String) : Act Trait := do
  let t ← requireTrait id
  if t.kind ≠ kind then throw (.traitKindMismatch id kind)
  return t

/-- The description of a trait that is held: the one that is given unless it is empty, or else that
of the trait with the names of the holder filled in. -/
def describe (e : Entity) (t : Trait) (description : Option String) : String :=
  match description.filter (!·.isEmpty) with
  | some given => given
  | none => e.fillIn t.description

/-- Lets an entity hold a trait. A trait that is held already, or excluded by one that is held, is
not added. -/
def addTrait (e : Entity) (id : String) (duration : Int) (description : Option String) :
    Act Bool := do
  let t ← requireTraitFor e.kind id
  let sheet ← requireSheet e
  if !sheet.traits.canAdd t then return false
  requireStats e t.modifiers
  insertFact (e.traitFact id)
  changeTraits e (·.hold t (describe e t description) duration)
  attach e (.trait t.id) t.modifiers
  reevaluateAround e
  return true

/-- Clears the type of a relationship if it is the trait `id`, with the fact that tells of it. -/
def clearKind (e : Entity) (id : String) : Act Unit :=
  match e with
  | .agent _ => pure ()
  | .relationship owner target => do
    if (← requireRelationship owner target).kind = some id then
      modify fun w => w.modifyRelationship owner target fun r => { r with kind := none }
      discard <| retract (Relationship.kindFact owner target id)

/-- Takes a trait from an entity. -/
def removeTrait (e : Entity) (id : String) : Act Bool := do
  let sheet ← requireSheet e
  if !sheet.traits.contains id then return false
  changeTraits e (·.erase id)
  changeStats e (·.removeFrom (.trait id))
  clearKind e id
  discard <| retract (e.traitFact id)
  reevaluateAround e
  return true

/-- Records a trait as the type of a relationship, and lets the relationship hold it. The trait that
was the type before is taken from it. -/
def setRelationshipKind (owner target id : String) : Act Bool := do
  discard <| requireTraitFor .relationship id
  if let some previous := (← requireRelationship owner target).kind then
    discard <| removeTrait (.relationship owner target) previous
  discard <| requireRelationship owner target
  modify fun w => w.modifyRelationship owner target fun r => { r with kind := some id }
  insertFact (Relationship.kindFact owner target id)
  addTrait (.relationship owner target) id (-1) none

end Act

end Society
