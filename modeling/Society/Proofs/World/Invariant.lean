import Society.Proofs.World.Entries

/-!
# Invariants of the entities

All that commands do to agents and relationships is put together from a few things: entities come and
go, a trait is added or taken, a relationship is evaluated, timers are counted down, and an effect
changes a stat. What survives each of these, and is known from the entities alone, survives every
command, whether or not it fails.
-/

namespace Society

namespace Act

open World (OfEntities)

variable {P : World → Prop}

/-- What is known from the entities alone, holds where there are none, and survives all that commands
do to them. -/
structure Invariant (P : World → Prop) : Prop where
  of_entities : OfEntities P
  of_no_entities : ∀ w : World, w.agents = ∅ → w.relationships = ∅ → P w
  modifyAgent : ∀ (w : World) (uid : String) (f : Agent → Agent), (∀ a, (f a).sheet = a.sheet) →
    P w → P (w.modifyAgent uid f)
  modifyKind : ∀ (w : World) (owner target : String) (kind : Option String), P w →
    P (w.modifyRelationship owner target fun r => { r with kind })
  setAgent : ∀ (w : World) (uid agentType : String) (stats : List StatSchema), P w →
    P (w.setAgent uid (.create uid agentType stats))
  setRelationship : ∀ (w : World) (owner target : String) (stats : List StatSchema), P w →
    P (w.setRelationship owner target (.create owner target stats))
  eraseAgent : ∀ (w : World) (uid : String), P w → P { w with agents := w.agents.erase uid }
  eraseRelationship : ∀ (w : World) (owner target : String), P w →
    P (w.eraseRelationship owner target)
  reevaluate : ∀ owner target, (reevaluate owner target).Keeps P
  addTrait : ∀ e id duration description, (addTrait e id duration description).Keeps P
  removeTrait : ∀ e id, (removeTrait e id).Keeps P
  tickSheet : ∀ e, (tickSheet e).Keeps P
  buff : ∀ effect e stat amount duration, (Effect.buff effect e stat amount duration).apply.Keeps P
  increment : ∀ e stat delta, (Effect.increment e stat delta).apply.Keeps P

namespace Invariant

theorem keeps_modifyAgent (h : Invariant P) (uid : String) {f : Agent → Agent}
    (hf : ∀ a, (f a).sheet = a.sheet) : Keeps P (modify fun w => w.modifyAgent uid f) :=
  keeps_modify fun w hw => h.modifyAgent w uid f hf hw

theorem keeps_removeTraits (h : Invariant P) (e : Entity) (ids : List String) :
    Keeps P (ids.forM fun id => discard (Act.removeTrait e id)) :=
  Keeps.forM fun id => Ensures.discard (h.removeTrait e id)

theorem keeps_addTraits (h : Invariant P) (e : Entity) (ids : List String) :
    Keeps P (ids.forM fun id => discard (Act.addTrait e id (-1) none)) :=
  Keeps.forM fun id => Ensures.discard (h.addTrait e id _ _)

/-! ## Evaluations and types -/

theorem reevaluateAgent (h : Invariant P) (uid : String) : (reevaluateAgent uid).Keeps P :=
  reevaluateAgent_keeps_of (h.reevaluate uid) fun owner => h.reevaluate owner uid

theorem reevaluateAll (h : Invariant P) : reevaluateAll.Keeps P :=
  reevaluateAll_keeps_of h.reevaluate

theorem setRelationshipKind (h : Invariant P) (owner target id : String) :
    (setRelationshipKind owner target id).Keeps P := by
  have hrecord : Keeps P (do
      discard <| requireRelationship owner target
      modify fun w => w.modifyRelationship owner target fun r => { r with kind := some id }
      insertFact (Relationship.kindFact owner target id)
      Act.addTrait (.relationship owner target) id (-1) none) := by
    refine Keeps.bind (Ensures.discard (keeps_look _ _)) fun _ => ?_
    refine Keeps.bind (keeps_modify fun w hw => h.modifyKind w owner target _ hw) fun _ => ?_
    exact (insertFact_keeps h.of_entities _).bind fun _ => h.addTrait _ _ _ _
  refine Keeps.bind (Ensures.discard (requireTraitFor_keeps _ _)) fun _ => ?_
  refine Keeps.bind (keeps_look _ _) fun r => ?_
  cases r.kind with
  | none => exact hrecord
  | some previous => exact Keeps.bind (Ensures.discard (h.removeTrait _ _)) fun _ => hrecord

/-! ## Agents and relationships -/

theorem addAgent (h : Invariant P) (agentType uid : String) : (addAgent agentType uid).Keeps P := by
  refine Keeps.bind (keeps_look _ _) fun schema => keeps_get.bind fun w => ?_
  have hadd : Keeps P (do
      insertFact uid
      modify fun w => w.setAgent uid (Agent.create uid agentType schema.stats)
      schema.traits.forM fun id => discard (Act.addTrait (.agent uid) id (-1) none)) := by
    refine (insertFact_keeps h.of_entities _).bind fun _ => ?_
    refine Keeps.bind (keeps_modify fun w hw => h.setAgent w uid agentType _ hw) fun _ => ?_
    exact h.keeps_addTraits _ _
  exact Ensures.ite (fun _ => (keeps_throw _).bind fun _ => hadd) fun _ => hadd

theorem addRelationship (h : Invariant P) (owner target : String) :
    (addRelationship owner target).Keeps P := by
  refine Keeps.bind (keeps_look _ _) fun o => Keeps.bind (keeps_look _ _) fun t => ?_
  refine Keeps.bind (keeps_look _ _) fun schema => keeps_get.bind fun w => ?_
  have hadd : Keeps P (do
      insertFact (Entity.relationship owner target).fact
      modify fun w => w.setRelationship owner target (Relationship.create owner target schema.stats)
      modify fun w => w.modifyAgent owner fun a => { a with outgoing := a.outgoing.insert target }
      modify fun w => w.modifyAgent target fun a => { a with incoming := a.incoming.insert owner }
      schema.traits.forM fun id => discard (Act.addTrait (.relationship owner target) id (-1) none)
      Act.reevaluate owner target) := by
    refine (insertFact_keeps h.of_entities _).bind fun _ => ?_
    refine Keeps.bind (keeps_modify fun w hw => h.setRelationship w owner target _ hw) fun _ => ?_
    refine (h.keeps_modifyAgent owner (by intro a; rfl)).bind fun _ => ?_
    refine (h.keeps_modifyAgent target (by intro a; rfl)).bind fun _ => ?_
    exact (h.keeps_addTraits _ _).bind fun _ => h.reevaluate owner target
  exact Ensures.ite (fun _ => (keeps_throw _).bind fun _ => hadd) fun _ => hadd

theorem removeRelationship (h : Invariant P) (owner target : String) :
    (removeRelationship owner target).Keeps P := by
  refine keeps_get.bind fun w => Ensures.ite (fun _ => keeps_pure _) fun _ => ?_
  refine Keeps.bind (keeps_modify fun w hw => h.eraseRelationship w owner target hw) fun _ => ?_
  refine (h.keeps_modifyAgent owner (by intro a; rfl)).bind fun _ => ?_
  refine (h.keeps_modifyAgent target (by intro a; rfl)).bind fun _ => ?_
  exact Keeps.bind (Ensures.discard (retract_keeps h.of_entities _)) fun _ => keeps_pure _

theorem removeAgent (h : Invariant P) (uid : String) : (removeAgent uid).Keeps P := by
  have hremove : ∀ owner target, (discard (Act.removeRelationship owner target)).Keeps P :=
    fun owner target => Ensures.discard (h.removeRelationship owner target)
  refine keeps_get.bind fun w => ?_
  split
  · exact keeps_pure _
  · refine Keeps.bind (Keeps.forM fun _ => hremove _ _) fun _ => ?_
    refine Keeps.bind (Keeps.forM fun _ => hremove _ _) fun _ => ?_
    refine Keeps.bind (Ensures.discard (deleteFact_keeps h.of_entities _)) fun _ => ?_
    refine Keeps.bind (keeps_modify fun w hw => h.eraseAgent w uid hw) fun _ => ?_
    exact h.reevaluateAll.bind fun _ => keeps_pure _

theorem addRelationshipModifier (h : Invariant P) (uid : String) (id : Option String)
    (m : RelationshipModifier) : (addRelationshipModifier uid id m).Keeps P := by
  have hadd (id : ModifierId) : Keeps P (do
      modify fun w => w.modifyAgent uid fun a => { a with modifiers := a.modifiers ++ [{ m with id }] }
      Act.reevaluateAgent uid
      return id) :=
    (h.keeps_modifyAgent uid (by intro a; rfl)).bind fun _ => (h.reevaluateAgent uid).bind fun _ =>
      keeps_pure _
  refine Keeps.bind (Ensures.discard (keeps_look _ _)) fun _ => ?_
  cases id with
  | some given => exact hadd (.given given)
  | none => exact Keeps.bind (freshId_ensures h.of_entities) hadd

theorem removeRelationshipModifier (h : Invariant P) (uid : String) (id : ModifierId) :
    (removeRelationshipModifier uid id).Keeps P := by
  refine Keeps.bind (keeps_look _ _) fun a => Ensures.ite (fun _ => keeps_pure _) fun _ => ?_
  exact (h.keeps_modifyAgent uid (by intro a; rfl)).bind fun _ => (h.reevaluateAgent uid).bind fun _ =>
    keeps_pure _

/-! ## Time -/

theorem tickAgent (h : Invariant P) (uid : String) : (tickAgent uid).Keeps P := by
  refine keeps_get.bind fun w => Ensures.ite (fun _ => ?_) fun _ => keeps_pure _
  refine (h.tickSheet _).bind fun expired => ?_
  refine (h.keeps_modifyAgent uid (by intro a; rfl)).bind fun _ => ?_
  exact (h.keeps_removeTraits _ expired).bind fun _ => h.reevaluateAgent uid

theorem tickRelationship (h : Invariant P) (owner target : String) :
    (tickRelationship owner target).Keeps P :=
  (h.tickSheet _).bind fun expired => (h.keeps_removeTraits _ expired).bind fun _ =>
    h.reevaluate owner target

theorem tick (h : Invariant P) : tick.Keeps P :=
  keeps_get.bind fun _ => Keeps.bind (Keeps.forM h.tickAgent) fun _ =>
    keeps_get.bind fun _ => Keeps.forM fun _ => h.tickRelationship _ _

/-! ## Effects and events -/

theorem apply (h : Invariant P) (effect : Effect) : effect.apply.Keeps P := by
  cases effect with
  | addTrait e id duration description => exact Ensures.discard (h.addTrait _ _ _ _)
  | removeTrait e id => exact Ensures.discard (h.removeTrait _ _)
  | buff effect e stat amount duration => exact h.buff _ _ _ _ _
  | increment e stat delta => exact h.increment _ _ _

theorem respond (h : Invariant P) (event : String) (ctx : EffectContext) (response : EventResponse) :
    (respond event ctx response).Keeps P := by
  refine keeps_get.bind fun w => (keeps_ofFacts _).bind fun answer => ?_
  refine Ensures.ite (fun _ => Keeps.forM fun scope => ?_) fun _ => keeps_pure _
  refine Ensures.adapt ?_ _
  exact Keeps.bind (Keeps.mapM (createEffect_keeps scope)) fun _ => Keeps.forM h.apply

theorem dispatch (h : Invariant P) (event : String) (agents : List String) :
    (dispatch event agents).Keeps P :=
  Keeps.bind (keeps_look _ _) fun _ => Keeps.forM (h.respond _ _)

/-! ## Commands -/

theorem act (h : Invariant P) (c : Command) : c.act.Keeps P := by
  cases c with
  | addTrait | addRule | addEvent | addAgentSchema | addRelationshipSchema =>
      exact keeps_modify fun w hw => h.of_entities w _ rfl rfl hw
  | addAgent agentType uid => exact h.addAgent _ _
  | removeAgent uid => exact Ensures.discard (h.removeAgent _)
  | addRelationship owner target => exact h.addRelationship _ _
  | removeRelationship owner target => exact Ensures.discard (h.removeRelationship _ _)
  | giveTrait e id duration description => exact Ensures.discard (h.addTrait _ _ _ _)
  | takeTrait e id => exact Ensures.discard (h.removeTrait _ _)
  | setRelationshipKind owner target id => exact Ensures.discard (h.setRelationshipKind _ _ _)
  | addRelationshipModifier uid id m => exact Ensures.discard (h.addRelationshipModifier _ _ _)
  | removeRelationshipModifier uid id => exact Ensures.discard (h.removeRelationshipModifier _ _)
  | reevaluate owner target => exact h.reevaluate _ _
  | reevaluateAgent uid => exact h.reevaluateAgent _
  | reevaluateAll => exact h.reevaluateAll
  | dispatch event agents => exact h.dispatch _ _
  | tick => exact h.tick
  | reset => exact keeps_modify fun w _ => h.of_no_entities _ rfl rfl
  | insertFact s => exact insertFact_keeps h.of_entities _
  | deleteFact s => exact Ensures.discard (deleteFact_keeps h.of_entities _)
  | clearFacts => exact clearFacts_keeps h.of_entities

/-- An invariant holds in every world that commands lead to, however they end. -/
theorem of_reachable (h : Invariant P) {w : World} (hw : w.Reachable) : P w := by
  induction hw with
  | empty => exact h.of_no_entities _ rfl rfl
  | step c _ ih => exact (h.act c).holds ih

end Invariant

end Act

end Society
