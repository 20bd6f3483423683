import Society.World.Population

/-!
# Time

A tick counts down all timers. Traits whose time is over are taken from their holders, and everything
is evaluated anew.
-/

namespace Society

namespace Act

/-- Counts down the timers on the sheet of an entity, and names the traits whose time is over. -/
def tickSheet (e : Entity) : Act (List String) := do
  changeTraits e HeldTraits.tick
  let expired := (← requireSheet e).traits.expired
  changeStats e Stats.tick
  return expired

/-- One tick for an agent, if it is still there. -/
def tickAgent (uid : String) : Act Unit := do
  if ((← get).agent? uid).isSome then
    let expired ← tickSheet (.agent uid)
    modify fun w => w.modifyAgent uid Agent.tickModifiers
    expired.forM fun id => discard (removeTrait (.agent uid) id)
    reevaluateAgent uid

/-- One tick for a relationship. -/
def tickRelationship (owner target : String) : Act Unit := do
  let expired ← tickSheet (.relationship owner target)
  expired.forM fun id => discard (removeTrait (.relationship owner target) id)
  reevaluate owner target

/-- One tick: for all agents by their uids, then for all relationships. -/
def tick : Act Unit := do
  (← get).agents.keys.forM tickAgent
  (← get).allRelationships.forM fun r => tickRelationship r.owner r.target

/-- Takes all agents, relationships and facts out of the world. -/
def reset : Act Unit :=
  modify fun w => { w with agents := ∅, relationships := ∅, facts := w.facts.clear }

end Act

end Society
