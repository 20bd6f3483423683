import Society.World.Effects

/-!
# Commands

Everything that can be done to a world from outside, and the worlds that are reached by doing it.
-/

namespace Society

inductive Command where
  | addTrait (t : Trait)
  | addRule (r : SocialRule)
  | addEvent (e : SocialEvent)
  | addAgentSchema (s : AgentSchema)
  | addRelationshipSchema (s : RelationshipSchema)
  | addAgent (agentType uid : String)
  | removeAgent (uid : String)
  | addRelationship (owner target : String)
  | removeRelationship (owner target : String)
  | giveTrait (e : Entity) (id : String) (duration : Int) (description : Option String)
  | takeTrait (e : Entity) (id : String)
  | setRelationshipKind (owner target id : String)
  | addRelationshipModifier (uid : String) (id : Option String) (m : RelationshipModifier)
  | removeRelationshipModifier (uid : String) (id : ModifierId)
  | reevaluate (owner target : String)
  | reevaluateAgent (uid : String)
  | reevaluateAll
  | dispatch (event : String) (agents : List String)
  | tick
  | reset
  | insertFact (s : String)
  | deleteFact (s : String)
  | clearFacts

namespace Command

/-- What a command does; answers are dropped. -/
def act : Command → Act Unit
  | addTrait t => modify (·.addTrait t)
  | addRule r => modify (·.addRule r)
  | addEvent e => modify (·.addEvent e)
  | addAgentSchema s => modify (·.addAgentSchema s)
  | addRelationshipSchema s => modify (·.addRelationshipSchema s)
  | addAgent agentType uid => Act.addAgent agentType uid
  | removeAgent uid => discard (Act.removeAgent uid)
  | addRelationship owner target => Act.addRelationship owner target
  | removeRelationship owner target => discard (Act.removeRelationship owner target)
  | giveTrait e id duration description => discard (Act.addTrait e id duration description)
  | takeTrait e id => discard (Act.removeTrait e id)
  | setRelationshipKind owner target id => discard (Act.setRelationshipKind owner target id)
  | addRelationshipModifier uid id m => discard (Act.addRelationshipModifier uid id m)
  | removeRelationshipModifier uid id => discard (Act.removeRelationshipModifier uid id)
  | reevaluate owner target => Act.reevaluate owner target
  | reevaluateAgent uid => Act.reevaluateAgent uid
  | reevaluateAll => Act.reevaluateAll
  | dispatch event agents => Act.dispatch event agents
  | tick => Act.tick
  | reset => Act.reset
  | insertFact s => Act.insertFact s
  | deleteFact s => discard (Act.deleteFact s)
  | clearFacts => Act.clearFacts

end Command

/-- The world after a command, whether or not the command fails. -/
def World.after (w : World) (c : Command) : World :=
  (c.act.runOn w).2

/-- The worlds that commands lead to, beginning with the empty one. -/
inductive World.Reachable : World → Prop where
  | empty : Reachable ∅
  | step {w : World} (c : Command) : Reachable w → Reachable (w.after c)

end Society
