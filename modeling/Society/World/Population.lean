import Society.World.Traits

/-!
# Agents and relationships of a world

Adding and removing agents, relationships and relationship modifiers.
-/

namespace Society

namespace Act

/-- Adds an agent with the stats and traits of its type. -/
def addAgent (agentType uid : String) : Act Unit := do
  let schema ← requireAgentSchema agentType
  if (← get).agents.contains uid then throw (.duplicateAgent uid)
  insertFact uid
  modify fun w => w.setAgent uid (Agent.create uid agentType schema.stats)
  schema.traits.forM fun id => discard (addTrait (.agent uid) id (-1) none)

/-- Adds a relationship with the stats and traits that the types of its agents ask for. -/
def addRelationship (owner target : String) : Act Unit := do
  let ownerType := (← requireAgent owner).agentType
  let targetType := (← requireAgent target).agentType
  let schema ← requireRelationshipSchema ownerType targetType
  if ((← get).relationship? owner target).isSome then throw (.duplicateRelationship owner target)
  insertFact (Entity.relationship owner target).fact
  modify fun w => w.setRelationship owner target (Relationship.create owner target schema.stats)
  modify fun w => w.modifyAgent owner fun a => { a with outgoing := a.outgoing.insert target }
  modify fun w => w.modifyAgent target fun a => { a with incoming := a.incoming.insert owner }
  schema.traits.forM fun id => discard (addTrait (.relationship owner target) id (-1) none)
  reevaluate owner target

/-- Removes a relationship, but not the one in the other direction. -/
def removeRelationship (owner target : String) : Act Bool := do
  if ((← get).relationship? owner target).isNone then return false
  modify fun w => w.eraseRelationship owner target
  modify fun w => w.modifyAgent owner fun a => { a with outgoing := a.outgoing.erase target }
  modify fun w => w.modifyAgent target fun a => { a with incoming := a.incoming.erase owner }
  discard <| retract (Entity.relationship owner target).fact
  return true

/-- Removes an agent and all relationships it takes part in. -/
def removeAgent (uid : String) : Act Bool := do
  match (← get).agent? uid with
  | none => return false
  | some a =>
    a.outgoing.keys.forM fun target => discard (removeRelationship uid target)
    a.incoming.keys.forM fun owner => discard (removeRelationship owner uid)
    discard <| deleteFact uid
    modify fun w => { w with agents := w.agents.erase uid }
    reevaluateAll
    return true

/-- Attaches a relationship modifier to an agent, under an id that is given or else a fresh one. -/
def addRelationshipModifier (uid : String) (id : Option String) (m : RelationshipModifier) :
    Act ModifierId := do
  discard <| requireAgent uid
  let id ← match id with
    | some given => pure (.given given)
    | none => freshId
  modify fun w => w.modifyAgent uid fun a => { a with modifiers := a.modifiers ++ [{ m with id }] }
  reevaluateAgent uid
  return id

/-- Detaches the relationship modifiers with an id from an agent. -/
def removeRelationshipModifier (uid : String) (id : ModifierId) : Act Bool := do
  let a ← requireAgent uid
  if a.modifiers.all (·.id ≠ id) then return false
  modify fun w => w.modifyAgent uid fun a =>
    { a with modifiers := a.modifiers.filter (·.id ≠ id) }
  reevaluateAgent uid
  return true

end Act

end Society
