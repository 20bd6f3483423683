import Society.Config.Basic
import Society.Document.Basic

/-!
# Writing configurations

Definitions and configurations as documents, with every field written out.
-/

namespace Society

def ModifierKind.name : ModifierKind → String
  | .flat => "flat"
  | .percentAdd => "percent_add"
  | .percentMultiply => "percent_multiply"

namespace Config

def ofModifierSpec (m : ModifierSpec) : Document :=
  .table [("stat", .text m.stat), ("value", .float m.amount), ("modifier_type", .text m.kind.name)]

def ofStatSchema (s : StatSchema) : Document :=
  .table [("stat", .text s.stat), ("base_value", .float s.base),
    ("min_value", .float s.bounds.least), ("max_value", .float s.bounds.greatest),
    ("is_discrete", .bool s.bounds.discrete)]

def ofTrait (t : Trait) : Document :=
  .table [("trait_id", .text t.id), ("trait_type", .text t.kind.name), ("name", .text t.name),
    ("description", .text t.description), ("modifiers", .list (t.modifiers.map ofModifierSpec)),
    ("conflicting_traits", .texts t.conflicts.keys)]

def ofRule (r : SocialRule) : Document :=
  .table [("rule_id", .text r.id), ("description", .text r.description),
    ("preconditions", .texts r.preconditions), ("modifiers", .list (r.modifiers.map ofModifierSpec))]

def ofResponse (r : EventResponse) : Document :=
  .table [("preconditions", .texts r.preconditions), ("effects", .texts r.effects),
    ("description", .text r.description)]

def ofEvent (e : SocialEvent) : Document :=
  .table [("name", .text e.name), ("roles", .texts e.roles), ("description", .text e.description),
    ("responses", .list (e.responses.map ofResponse))]

def ofAgentSchema (s : AgentSchema) : Document :=
  .table [("agent_type", .text s.agentType), ("stats", .list (s.stats.map ofStatSchema)),
    ("traits", .texts s.traits)]

def ofRelationshipSchema (s : RelationshipSchema) : Document :=
  .table [("owner_type", .text s.ownerType), ("target_type", .text s.targetType),
    ("stats", .list (s.stats.map ofStatSchema)), ("traits", .texts s.traits)]

/-- A relationship modifier; in place of an id that is not given stands `auto`. -/
def ofRelationshipModifier (id : Option String) (m : RelationshipModifier) : Document :=
  .table [("id", .text (id.getD "auto")), ("description", .text m.description),
    ("direction", .text m.direction.name), ("preconditions", .texts m.preconditions),
    ("modifiers", .list (m.modifiers.map ofModifierSpec)),
    ("remaining_duration", .ofOption (fun n : Nat => .int n) m.timer)]

def ofAgentEntry (e : AgentEntry) : Document :=
  .table [("uid", .text e.uid), ("agent_type", .text e.agentType), ("traits", .texts e.traits),
    ("relationship_modifiers", .list (e.modifiers.map fun (id, m) => ofRelationshipModifier id m))]

def ofRelationshipEntry (e : RelationshipEntry) : Document :=
  .table [("owner", .text e.owner), ("target", .text e.target),
    ("relationship_type", .ofOption .text e.kind), ("traits", .texts e.traits)]

/-- A configuration with all its sections. -/
def toDocument (c : Config) : Document :=
  .table [("agent_schemas", .list (c.agentSchemas.map ofAgentSchema)),
    ("relationship_schemas", .list (c.relationshipSchemas.map ofRelationshipSchema)),
    ("traits", .list (c.traits.map ofTrait)), ("social_rules", .list (c.rules.map ofRule)),
    ("social_events", .list (c.events.map ofEvent)), ("facts", .texts c.facts),
    ("agents", .list (c.agents.map ofAgentEntry)),
    ("relationships", .list (c.relationships.map ofRelationshipEntry))]

end Config

end Society
