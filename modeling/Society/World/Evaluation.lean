import Society.World.Library

/-!
# Evaluating relationships

Social rules and the relationship modifiers of agents apply to a relationship while their
preconditions hold. An evaluation takes off what the last one attached, and attaches what applies
now.
-/

namespace Society

namespace Act

/-- Whether preconditions hold for a relationship. -/
def preconditionsHold (owner target : String) (preconditions : List String) : Act Bool := do
  let row := Dict.ofList [("?owner", RawValue.text owner), ("?target", .text target)]
  return (← ofFacts ((← get).facts.query preconditions [row])).success

/-- Takes off everything that the last evaluation of a relationship attached. -/
def forgetActive (owner target : String) : Act Unit := do
  let r ← requireRelationship owner target
  modify fun w => w.modifyRelationship owner target fun r =>
    { r with activeRules := [], activeModifiers := [] }
  changeStats (.relationship owner target) (·.removeFromAll r.activeSources)

/-- Applies a rule to a relationship, if its preconditions hold. -/
def applyRule (owner target : String) (rule : SocialRule) : Act Unit := do
  if ← preconditionsHold owner target rule.preconditions then
    attach (.relationship owner target) (.rule rule.id) rule.modifiers
    let entry := ⟨rule.id, (Entity.relationship owner target).fillIn rule.description⟩
    modify fun w => w.modifyRelationship owner target fun r =>
      { r with activeRules := r.activeRules ++ [entry] }

/-- Applies a relationship modifier to a relationship, if its preconditions hold. -/
def applyModifier (owner target : String) (m : AttachedModifier) : Act Unit := do
  if ← preconditionsHold owner target m.preconditions then
    attach (.relationship owner target) (.relationshipModifier m.id) m.modifiers
    modify fun w => w.modifyRelationship owner target fun r =>
      { r with activeModifiers := r.activeModifiers ++ [m.id] }

/-- The relationship modifiers that are for a relationship: those of its owner, then those of its
target. -/
def projected (w : World) (owner target : String) : List AttachedModifier :=
  ((w.agent? owner).elim [] (·.projecting .outgoing)) ++
    ((w.agent? target).elim [] (·.projecting .incoming))

/-- Finds out anew what applies to a relationship. -/
def reevaluate (owner target : String) : Act Unit := do
  forgetActive owner target
  (← get).rules.forM (applyRule owner target)
  (projected (← get) owner target).forM (applyModifier owner target)

/-- Evaluates the relationships that an agent owns, then those that lead to it. -/
def reevaluateAgent (uid : String) : Act Unit := do
  let a ← requireAgent uid
  a.outgoing.keys.forM fun target => reevaluate uid target
  a.incoming.keys.forM fun owner => reevaluate owner uid

/-- Evaluates what a change of an entity can affect first. -/
def reevaluateAround : Entity → Act Unit
  | .agent uid => reevaluateAgent uid
  | .relationship owner target => reevaluate owner target

/-- Evaluates all relationships, by the owner and then the target. -/
def reevaluateAll : Act Unit := do
  (← get).allRelationships.forM fun r => reevaluate r.owner r.target

end Act

end Society
