import Society.World.Basic

/-!
# Libraries of a world

Traits, rules, events and schemas are kept under their names; what is added under a name that is
taken replaces what was there.
-/

namespace Society

/-- Adds a rule behind the others, or in the place of the rule with the same id. -/
def SocialRule.addTo (rule : SocialRule) : List SocialRule → List SocialRule
  | [] => [rule]
  | r :: rules => if r.id = rule.id then rule :: rules else r :: rule.addTo rules

namespace World

def addTrait (w : World) (t : Trait) : World :=
  { w with traits := w.traits.insert t.id t }

def addRule (w : World) (rule : SocialRule) : World :=
  { w with rules := rule.addTo w.rules }

def addEvent (w : World) (e : SocialEvent) : World :=
  { w with events := w.events.insert e.symbol e }

def addAgentSchema (w : World) (s : AgentSchema) : World :=
  { w with agentSchemas := w.agentSchemas.insert s.agentType s }

def addRelationshipSchema (w : World) (s : RelationshipSchema) : World :=
  { w with
    relationshipSchemas := w.relationshipSchemas.insert s.ownerType
      (((w.relationshipSchemas.get? s.ownerType).getD ∅).insert s.targetType s) }

def rule? (w : World) (id : String) : Option SocialRule :=
  w.rules.find? (·.id = id)

def relationshipSchema? (w : World) (ownerType targetType : String) : Option RelationshipSchema :=
  (w.relationshipSchemas.get? ownerType).bind (·.get? targetType)

end World

namespace Act

def requireTrait (id : String) : Act Trait := do
  orElse ((← get).traits.get? id) (.traitNotFound id)

def requireRule (id : String) : Act SocialRule := do
  orElse ((← get).rule? id) (.ruleNotFound id)

def requireEvent (symbol : String) : Act SocialEvent := do
  orElse ((← get).events.get? symbol) (.eventNotFound symbol)

def requireAgentSchema (agentType : String) : Act AgentSchema := do
  orElse ((← get).agentSchemas.get? agentType) (.agentSchemaNotFound agentType)

def requireRelationshipSchema (ownerType targetType : String) : Act RelationshipSchema := do
  orElse ((← get).relationshipSchema? ownerType targetType)
    (.relationshipSchemaNotFound ownerType targetType)

end Act

end Society
