import Society.Error
import Society.Sheet

/-!
# Agents and relationships

An agent is known by its uid, and a relationship by the uids of its owner and its target. Both are
entities: they have a sheet, and facts that tell what they hold.
-/

namespace Society

/-- The name of an agent or of a relationship. -/
inductive Entity where
  | agent (uid : String)
  | relationship (owner target : String)
deriving DecidableEq, Repr

namespace Entity

def kind : Entity → EntityKind
  | .agent _ => .agent
  | .relationship .. => .relationship

/-- The fact that says that the entity is there. -/
def fact : Entity → String
  | .agent uid => uid
  | .relationship owner target => owner ++ ".relationships." ++ target

/-- The fact that says that the entity holds a trait. -/
def traitFact (e : Entity) (trait : String) : String :=
  e.fact ++ ".traits." ++ trait

/-- The error that there is no such entity. -/
def notFound : Entity → WorldError
  | .agent uid => .agentNotFound uid
  | .relationship owner target => .relationshipNotFound owner target

/-- A template with the names of the entity filled in. -/
def fillIn : Entity → String → String
  | .agent uid, template => Text.fill "[owner]" uid template
  | .relationship owner target, template =>
    Text.fill "[target]" target (Text.fill "[owner]" owner template)

end Entity

/-- What agents of a type begin with. -/
structure AgentSchema where
  agentType : String
  stats : List StatSchema
  traits : List String

/-- What relationships between agents of two types begin with. -/
structure RelationshipSchema where
  ownerType : String
  targetType : String
  stats : List StatSchema
  traits : List String

/-- Which relationships of an agent a modifier is for: those that lead to the agent, or those that it
owns. -/
inductive Direction where
  | incoming
  | outgoing
deriving DecidableEq, Repr, Inhabited

def Direction.name : Direction → String
  | .incoming => "incoming"
  | .outgoing => "outgoing"

/-- Modifiers that an agent projects onto its relationships while the preconditions hold. -/
structure RelationshipModifier where
  description : String
  direction : Direction
  preconditions : List String
  modifiers : List ModifierSpec
  timer : Timer

/-- A relationship modifier that is attached to an agent. -/
structure AttachedModifier extends RelationshipModifier where
  id : ModifierId

/-- A rule that adds modifiers to every relationship for which its preconditions hold. -/
structure SocialRule where
  id : String
  description : String
  preconditions : List String
  modifiers : List ModifierSpec

/-- A rule that applies to a relationship, with its description filled in. -/
structure ActiveRule where
  id : String
  description : String
deriving DecidableEq

structure Agent where
  uid : String
  agentType : String
  sheet : Sheet
  /-- The targets of the relationships that the agent owns. -/
  outgoing : TextSet
  /-- The owners of the relationships that lead to the agent. -/
  incoming : TextSet
  modifiers : List AttachedModifier

structure Relationship where
  owner : String
  target : String
  sheet : Sheet
  /-- The trait that is recorded as the type of the relationship. -/
  kind : Option String
  activeRules : List ActiveRule
  activeModifiers : List ModifierId

namespace Agent

/-- An agent without relationships and traits. -/
def create (uid agentType : String) (stats : List StatSchema) : Agent :=
  { uid, agentType, sheet := ⟨.ofSchemas stats, ∅⟩, outgoing := ∅, incoming := ∅, modifiers := [] }

/-- Counts down the timers of the relationship modifiers, and drops those whose time is over. -/
def tickModifiers (a : Agent) : Agent :=
  { a with
    modifiers := (a.modifiers.map fun m => { m with timer := m.timer.tick }).filter fun m =>
      !m.timer.expired }

/-- The relationship modifiers of a direction. -/
def projecting (a : Agent) (direction : Direction) : List AttachedModifier :=
  a.modifiers.filter (·.direction = direction)

end Agent

namespace Relationship

/-- A relationship without traits and a type. -/
def create (owner target : String) (stats : List StatSchema) : Relationship :=
  { owner, target, sheet := ⟨.ofSchemas stats, ∅⟩, kind := none, activeRules := []
    activeModifiers := [] }

def entity (r : Relationship) : Entity :=
  .relationship r.owner r.target

/-- The sources of all modifiers that the last evaluation attached. -/
def activeSources (r : Relationship) : List ModifierSource :=
  r.activeRules.map (.rule ·.id) ++ r.activeModifiers.map .relationshipModifier

/-- The fact that says that the relationship has a type. -/
def kindFact (owner target kind : String) : String :=
  (Entity.relationship owner target).fact ++ ".type!" ++ kind

end Relationship

end Society
