import Society.World.Population

/-!
# Configurations

A configuration lists the libraries of a world and what the world begins with.
-/

namespace Society

/-- An agent that the world begins with. -/
structure AgentEntry where
  uid : String
  agentType : String
  traits : List String
  /-- Relationship modifiers with the ids that are given for them. -/
  modifiers : List (Option String × RelationshipModifier)

/-- A relationship that the world begins with. -/
structure RelationshipEntry where
  owner : String
  target : String
  kind : Option String
  traits : List String

structure Config where
  agentSchemas : List AgentSchema
  relationshipSchemas : List RelationshipSchema
  traits : List Trait
  rules : List SocialRule
  events : List SocialEvent
  facts : List String
  agents : List AgentEntry
  relationships : List RelationshipEntry

namespace Config

def empty : Config where
  agentSchemas := []
  relationshipSchemas := []
  traits := []
  rules := []
  events := []
  facts := []
  agents := []
  relationships := []

/-- Fills the libraries of a world. -/
def fillLibraries (c : Config) (w : World) : World :=
  let w := c.traits.foldl World.addTrait w
  let w := c.rules.foldl World.addRule w
  let w := c.events.foldl World.addEvent w
  let w := c.agentSchemas.foldl World.addAgentSchema w
  c.relationshipSchemas.foldl World.addRelationshipSchema w

/-- Adds an agent with its traits and relationship modifiers. -/
def addAgent (e : AgentEntry) : Act Unit := do
  Act.addAgent e.agentType e.uid
  e.traits.forM fun id => discard (Act.addTrait (.agent e.uid) id (-1) none)
  e.modifiers.forM fun (id, m) => discard (Act.addRelationshipModifier e.uid id m)

/-- Adds a relationship with its type and traits. -/
def addRelationship (e : RelationshipEntry) : Act Unit := do
  Act.addRelationship e.owner e.target
  if let some kind := e.kind then discard (Act.setRelationshipKind e.owner e.target kind)
  e.traits.forM fun id => discard (Act.addTrait (.relationship e.owner e.target) id (-1) none)

/-- Fills the libraries, then adds facts, agents and relationships in order. -/
def build (c : Config) : Act Unit := do
  modify c.fillLibraries
  c.facts.forM Act.insertFact
  c.agents.forM addAgent
  c.relationships.forM addRelationship

end Config

/-- The world that a configuration describes. -/
def World.ofConfig (c : Config) : Except WorldError World :=
  match c.build.runOn ∅ with
  | (.ok (), w) => .ok w
  | (.error e, _) => .error e

end Society
