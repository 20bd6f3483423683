import Society.Proofs.World.Countdown

/-!
# What operations take

An operation takes something that is timed from its place if it removes the holder, takes the trait
or detaches the modifier, and an event does if one of its effects takes it. Whatever else succeeds
leaves it there as it is, until a tick counts it down.
-/

namespace Society

namespace Act

variable {α β : Type}

/-! ## Events with the effects that are applied -/

/-- Creates all effects of a list, applies them in order, and names them. -/
def appliedEffects (ctx : EffectContext) (texts : List String) : Act (List Effect) := do
  let effects ← texts.mapM (createEffect ctx)
  effects.forM Effect.apply
  return effects

/-- Lets a response to an event follow, and names the effects that are applied. -/
def responseEffects (event : String) (ctx : EffectContext) (response : EventResponse) :
    Act (List Effect) := do
  let answer ← ofFacts ((← get).facts.query response.preconditions [ctx.bindings])
  if answer.success then
    let applied ← (responseContexts ctx response answer).mapM fun scope =>
      ExceptT.adapt (.eventFailed event) (appliedEffects scope response.effects)
    return applied.flatten
  else return []

/-- Lets an event happen between agents, and names the effects that are applied. -/
def eventEffects (event : String) (agents : List String) : Act (List Effect) := do
  let e ← requireEvent (SocialEvent.symbolOf event agents.length)
  let applied ← e.responses.mapM (responseEffects event (eventContext e agents))
  return applied.flatten

theorem discard_eq (x : Act α) : discard x = x >>= fun _ => pure ⟨⟩ := rfl

theorem forM_eq_discard {f : α → Act PUnit} {g : α → Act β} (h : ∀ a, f a = discard (g a))
    (l : List α) : l.forM f = discard (l.mapM g) := by
  induction l with
  | nil => rfl
  | cons a l ih =>
      rw [List.mapM_cons]
      show (f a >>= fun _ => l.forM f) = _
      rw [ih, h, discard_eq, discard_eq, discard_eq]
      simp only [bind_assoc, pure_bind]

theorem adapt_discard (f : WorldError → WorldError) (x : Act α) :
    ExceptT.adapt f (discard x) = discard (ExceptT.adapt f x) := by
  funext w
  show Act.runOn (ExceptT.adapt f (discard x)) w = Act.runOn (discard (ExceptT.adapt f x)) w
  rw [runOn_adapt, discard_eq, discard_eq, runOn_bind, runOn_bind, runOn_adapt]
  cases x.runOn w with
  | mk r w' => cases r <;> rfl

theorem applyEffects_eq (ctx : EffectContext) (texts : List String) :
    applyEffects ctx texts = discard (appliedEffects ctx texts) := by
  rw [discard_eq]
  simp only [applyEffects, appliedEffects, bind_assoc, pure_bind]
  simp

theorem respond_eq (event : String) (ctx : EffectContext) (response : EventResponse) :
    respond event ctx response = discard (responseEffects event ctx response) := by
  rw [discard_eq]
  simp only [respond, responseEffects, bind_assoc]
  congr 1
  funext w
  congr 1
  funext answer
  split
  · have hscope : ∀ scope, forEvent event (applyEffects scope response.effects) =
        discard (ExceptT.adapt (.eventFailed event) (appliedEffects scope response.effects)) :=
      fun scope => by rw [forEvent, applyEffects_eq, adapt_discard]
    rw [forM_eq_discard hscope]
    simp only [discard_eq, bind_assoc, pure_bind]
  · rfl

/-- An event is its effects. -/
theorem dispatch_eq (event : String) (agents : List String) :
    dispatch event agents = discard (eventEffects event agents) := by
  rw [discard_eq]
  simp only [dispatch, eventEffects, bind_assoc, pure_bind]
  congr 1
  funext e
  rw [forM_eq_discard (respond_eq event (eventContext e agents)), discard_eq]

end Act

/-! ## Operations -/

/-- What a host can do to a world: give a command, apply an effect, or edit one stat in any way. -/
inductive Operation where
  | command (c : Command)
  | effect (effect : Effect)
  | edit (e : Entity) (stat : String) (f : Stat → Change Stat)

namespace Operation

def act : Operation → Act Unit
  | command c => c.act
  | effect f => f.apply
  | edit e stat f => Act.changeStat e stat fun s => ((), f s)

/-- How often the operation lets the time go on. -/
def ticks : Operation → Nat
  | command .tick => 1
  | _ => 0

theorem eq_tick_of_ticks_pos {o : Operation} (h : 0 < o.ticks) : o = command .tick := by
  cases o with
  | command c =>
      cases c with
      | tick => rfl
      | _ => cases h
  | _ => cases h

end Operation

/-- Whether an effect takes what is at a place. -/
def Effect.Takes (e : Entity) (p : Place) : Effect → Prop
  | removeTrait e' id => e' = e ∧ p = .trait id
  | _ => False

/-- Whether a command of its own accord takes `x` from a place of an entity, or takes the entity.
Ticks only count down. -/
def Command.Takes (w : World) (e : Entity) (p : Place) (x : Timed) : Command → Prop
  | removeAgent uid => (Entity.agent uid).Near e
  | removeRelationship owner target => e = .relationship owner target
  | takeTrait e' id => e' = e ∧ p = .trait id
  | setRelationshipKind owner target _ =>
    e = .relationship owner target ∧
      ∃ r previous, w.relationship? owner target = some r ∧ r.kind = some previous ∧
        p = .trait previous
  | removeRelationshipModifier uid id => e = .agent uid ∧ ∃ m, x = .attached m ∧ m.id = id
  | dispatch event agents =>
    ∃ applied, ((Act.eventEffects event agents).runOn w).1 = .ok applied ∧
      ∃ effect ∈ applied, effect.Takes e p
  | reset => True
  | _ => False

/-- Whether an operation takes `x` from a place of an entity, or takes the entity. -/
def Operation.Takes (w : World) (e : Entity) (p : Place) (x : Timed) : Operation → Prop
  | command c => c.Takes w e p x
  | effect f => f.Takes e p
  | edit e' stat f =>
    e' = e ∧ p = .stat stat ∧ ∃ sheet s m, w.sheet? e = some sheet ∧ sheet.stats.get? stat = some s ∧
      x = .buff m ∧ m ∉ (f s).result.modifiers

/-! ## What is there -/

namespace World

/-- What is at a place of an entity. -/
def Has (e : Entity) (p : Place) (x : Timed) (w : World) : Prop :=
  x ∈ w.timed e p

variable {w : World} {e : Entity} {p : Place} {x : Timed}

/-- Links are nothing that an agent has of its own. -/
theorem own_modifyLinks (outgoing incoming : TextSet → TextSet) (w : World)
    (owner target : String) (e : Entity) :
    ((w.modifyAgent owner fun a => { a with outgoing := outgoing a.outgoing }).modifyAgent target
      fun a => { a with incoming := incoming a.incoming }).own e = w.own e :=
  (own_modifyAgent (by intro a; rfl) (by intro a; rfl) _ _ e).trans
    (own_modifyAgent (by intro a; rfl) (by intro a; rfl) _ _ e)

theorem own_link {owner target : String} (h : e ≠ .relationship owner target) (w : World)
    (r : Relationship) : (w.link owner target r).own e = w.own e :=
  (own_modifyLinks (·.insert target) (·.insert owner) _ owner target e).trans <| own_congr <|
    entity?_of_relationship? h rfl fun o t hot => by rw [relationship?_setRelationship, if_neg hot]

theorem own_unlink {owner target : String} (h : e ≠ .relationship owner target) (w : World) :
    (w.unlink owner target).own e = w.own e :=
  (own_modifyLinks (·.erase target) (·.erase owner) _ owner target e).trans <| own_congr <|
    entity?_of_relationship? h (agents_eraseRelationship w owner target) fun o t hot => by
      rw [relationship?_eraseRelationship, if_neg hot]

theorem own_setAgent {uid : String} (h : e ≠ .agent uid) (w : World) (a : Agent) :
    (w.setAgent uid a).own e = w.own e :=
  own_congr <| entity?_of_agent? h rfl fun u hu => by
    rw [agent?, setAgent, Dict.get?_insert, if_neg hu, agent?]

theorem own_eraseAgent {uid : String} (h : e ≠ .agent uid) (w : World) :
    own { w with agents := w.agents.erase uid } e = w.own e :=
  own_congr <| entity?_of_agent? h rfl fun u hu => by
    rw [agent?, Dict.get?_erase, if_neg hu, agent?]

theorem Has.of_own {w' : World} (h : w.Has e p x) (hown : w'.own e = w.own e) : w'.Has e p x := by
  rw [Has, timed_of_own hown]
  exact h

theorem Has.of_entities {w' : World} (h : w.Has e p x) (ha : w'.agents = w.agents)
    (hr : w'.relationships = w.relationships) : w'.Has e p x :=
  h.of_own (own_congr (entity?_congr ha hr e))

/-- What is at a place is at a place of somebody. -/
theorem Has.sheet?_ne_none (h : w.Has e p x) : w.sheet? e ≠ none := by
  intro hs
  rw [Has, timed_eq_nil hs] at h
  cases h

/-- What is at a place is still there when the relationship modifiers of an agent change around it. -/
theorem Has.modifyAgent (h : w.Has e p x) {uid : String} {f : Agent → Agent}
    (hsheet : ∀ a, (f a).sheet = a.sheet)
    (hf : e = .agent uid → ∀ a m, x = .attached m → m ∈ a.modifiers → m ∈ (f a).modifiers) :
    (w.modifyAgent uid f).Has e p x := by
  by_cases hp : e = .agent uid ∧ p = .attached
  · obtain ⟨rfl, rfl⟩ := hp
    rw [Has, timed_attached, attached] at h ⊢
    rw [agent?_modifyAgent, if_pos rfl]
    cases ha : w.agent? uid with
    | none => simp [ha] at h
    | some a =>
        rw [ha] at h
        obtain ⟨m, hm, rfl⟩ := List.mem_map.mp h
        exact List.mem_map_of_mem (hf rfl a m rfl hm)
  · rw [Has, timed_modifyAgent hsheet fun he hp' => absurd ⟨he, hp'⟩ hp]
    exact h

end World

namespace Act

open World (Has)

variable {e : Entity} {p : Place} {x : Timed}

theorem Fixes.has {y : Act α} (h : y.Fixes (·.timed e p)) :
    Ensures (Has e p x) y (fun _ => Has e p x) fun _ => True :=
  Ensures.weaken (h.keeps fun _ _ heq hx => by rw [Has, heq]; exact hx) fun _ _ => trivial

theorem fixes_timed {y : Act α} (h : ∀ e p, y.Fixes (·.timed e p)) : y.Fixes World.timed :=
  fun _ => keeps_of_holds fun w hw => by
    funext e p
    exact ((h e p).eq w).trans (congrFun (congrFun hw e) p)

/-! ## Stats -/

/-- Modifiers from effects stay through changes of stats that leave them. -/
theorem leads_changeStats_has {w : World} {e' : Entity} {f : Stats → Change Stats}
    (hw : w.Has e p x)
    (hf : ∀ s name m, w.sheet? e' = some s → e = e' → p = .stat name → x = .buff m →
      m ∈ s.stats.buffsOn name → m ∈ (f s.stats).result.buffsOn name) :
    (changeStats e' f).Leads (fun _ => Has e p x) (fun _ => True) w := by
  refine leads_bind.mpr (leads_look.mpr ⟨fun s hs => leads_modify.mpr ?_, fun _ => trivial⟩)
  refine World.Has.of_entities (w := w.setSheet { s with stats := (f s.stats).result } e') ?_ rfl rfl
  rw [Has, World.timed_setSheet hs]
  split
  · rename_i he
    rw [Has, he, World.timed_of_sheet? hs] at hw
    cases p with
    | stat name =>
        obtain ⟨m, hm, hx⟩ := List.mem_map.mp hw
        exact List.mem_map.mpr ⟨m, hf s name m hs he rfl hx.symm hm, hx⟩
    | _ => exact hw
  · exact hw

theorem leads_changeStat_has {w : World} {e' : Entity} {stat : String} {f : Stat → Change Stat}
    (hw : w.Has e p x)
    (hf : ∀ sheet s m, w.sheet? e' = some sheet → sheet.stats.get? stat = some s → e = e' →
      p = .stat stat → x = .buff m → m ∈ s.modifiers → m ∈ (f s).result.modifiers) :
    (changeStat e' stat fun s => ((), f s)).Leads (fun _ => Has e p x) (fun _ => True) w := by
  refine leads_bind.mpr (leads_look.mpr ⟨fun sheet hsheet => ?_, fun _ => trivial⟩)
  refine leads_bind.mpr (leads_orElse.mpr ⟨fun s hs => ?_, fun _ => trivial⟩)
  refine leads_bind.mpr (leads_changeStats_has hw fun sheet' name m hsheet' he hp hx hm => ?_)
  obtain rfl := Option.some.inj (hsheet.symm.trans hsheet')
  obtain ⟨hm, hbuff⟩ := List.mem_filter.mp hm
  refine List.mem_filter.mpr ⟨?_, hbuff⟩
  rw [Stats.modifiersOn, Stats.get?_change]
  split
  · rename_i hname
    subst hname
    rw [Stats.modifiersOn_of_get? hs] at hm
    rw [hs]
    exact hf sheet s m hsheet hs he hp hx hm
  · exact hm

/-! ## Traits -/

/-- When a trait is added, it comes to its place and all else that is timed stays. -/
theorem leads_addTrait {w : World} {id : String} {duration : Int} {description : Option String}
    {Q : Bool → World → Prop} (hskip : Q false w)
    (hhold : ∀ t s w', w.traits.get? id = some t → w.sheet? e = some s → s.traits.canAdd t = true →
      w'.timed = (w.setSheet
        { s with traits := s.traits.hold t (describe e t description) duration } e).timed →
          Q true w') : (addTrait e id duration description).Leads Q (fun _ => True) w := by
  refine leads_bind.mpr (leads_requireTraitFor (fun t ht _ => ?_) trivial)
  refine leads_bind.mpr (leads_look.mpr ⟨fun s hs => ?_, fun _ => trivial⟩)
  refine leads_ite.mpr ⟨fun _ => hskip, fun hadd => ?_⟩
  rw [leads_bind, requireStats, leads_bind, leads_requireSheet hs]
  cases hm : s.stats.missing? t.modifiers with
  | some stat => exact trivial
  | none =>
      refine leads_bind.mpr (leads_insertFact.mpr ⟨fun facts hf => ?_, fun _ _ => trivial⟩)
      have hs' : World.sheet? { w with facts } e = some s := by
        cases e <;> exact hs
      refine leads_bind.mpr ((leads_changeTraits hs').mpr ?_)
      have hattach : (attach e (.trait t.id) t.modifiers).Fixes World.timed :=
        fixes_timed fun e' p => attach_fixes_timed rfl e e' _ p
      have haround : (reevaluateAround e).Fixes World.timed :=
        fixes_timed fun e' p => (reevaluateAround_fixes_own e e').timed p
      refine (Ensures.bind ((hattach _).weaken fun _ _ => trivial) fun _ =>
        ((haround _).weaken fun _ _ => trivial).bind fun _ => ensures_pure fun w' hw' =>
          hhold t s w' ht hs (by simpa using hadd) hw') _ ?_
      funext e' p
      refine World.timed_congr (World.entity?_congr ?_ ?_ e') p <;> cases e <;> rfl

/-- A trait that is added comes to a place where there is none. -/
theorem addTrait_has (e' : Entity) (id : String) (duration : Int) (description : Option String) :
    Ensures (Has e p x) (addTrait e' id duration description) (fun _ => Has e p x)
      fun _ => True := by
  intro w hw
  refine leads_addTrait hw fun t s w' _ hs hadd hw' => ?_
  rw [Has, hw', World.timed_setTraits hs]
  · exact hw
  · rintro id' rfl rfl
    have hid : id' ≠ t.id := by
      rintro rfl
      simp only [HeldTraits.canAdd, Bool.and_eq_true, Bool.not_eq_true'] at hadd
      rw [Has, (World.timed_trait_eq_nil_iff hs).mpr hadd.1] at hw
      cases hw
    rw [HeldTraits.hold, Dict.get?_insert, if_neg hid]

/-! ## Effects -/

theorem apply_has {effect : Effect} (h : ¬ effect.Takes e p) :
    Ensures (Has e p x) effect.apply (fun _ => Has e p x) fun _ => True := by
  cases effect with
  | addTrait e' id duration description => exact (addTrait_has e' id duration description).discard
  | removeTrait e' id =>
      exact (removeTrait_fixes_timed fun he hp => h ⟨he.symm, hp⟩).has.discard
  | increment e' stat delta =>
      exact fun w hw => leads_changeStat_has hw fun _ _ _ _ _ _ _ _ hm => hm
  | buff effect e' stat amount duration =>
      refine Ensures.bind (fixes_look _ _).has fun s => ?_
      refine Ensures.bind (fixes_orElse _ _).discard.has fun _ => ?_
      refine Ensures.bind ((freshId_apart e).own.timed p).has fun id w hw => ?_
      exact leads_changeStats_has hw fun _ _ _ _ _ _ _ hm => Stats.subset_buffsOn_add _ _ _ _ hm

theorem ensures_mapM_of {β : Type} {P : World → Prop} {ok : β → Prop} {f : α → Act β}
    (h : ∀ a, Ensures P (f a) (fun b w => ok b → P w) fun _ => True) (l : List α) :
    Ensures P (l.mapM f) (fun bs w => (∀ b ∈ bs, ok b) → P w) fun _ => True := by
  induction l with
  | nil => exact ensures_pure fun _ hw _ => hw
  | cons a l ih =>
      rw [List.mapM_cons]
      refine (h a).bind fun b => ?_
      by_cases hb : ok b
      · refine Ensures.bind (ih.mono (fun _ hw => hw hb) fun _ _ h => h) fun bs => ?_
        exact ensures_pure fun _ hw hbs => hw (List.forall_mem_cons.mp hbs).2
      · refine Ensures.bind (Q := fun _ _ => True) (ensures_of_forall (fun _ _ => trivial) fun _ =>
          trivial) fun bs => ensures_pure fun _ _ hbs => ?_
        exact absurd (List.forall_mem_cons.mp hbs).1 hb

theorem appliedEffects_has (ctx : EffectContext) (texts : List String) :
    Ensures (Has e p x) (appliedEffects ctx texts)
      (fun effects w => (∀ effect ∈ effects, ¬ effect.Takes e p) → w.Has e p x) fun _ => True := by
  refine Ensures.bind (Fixes.mapM (createEffect_fixes ctx)).has fun effects => ?_
  by_cases h : ∀ effect ∈ effects, ¬ effect.Takes e p
  · exact (ensures_forM_of_mem fun effect he => apply_has (h effect he)).bind fun _ =>
      ensures_pure fun _ hw _ => hw
  · refine Ensures.bind (Q := fun _ _ => True) (ensures_of_forall (fun _ _ => trivial) fun _ =>
      trivial) fun _ => ensures_pure fun _ _ hall => absurd hall h

theorem responseEffects_has (event : String) (ctx : EffectContext) (response : EventResponse) :
    Ensures (Has e p x) (responseEffects event ctx response)
      (fun effects w => (∀ effect ∈ effects, ¬ effect.Takes e p) → w.Has e p x) fun _ => True := by
  refine Ensures.bind fixes_get.has fun w => Ensures.bind (fixes_ofFacts _).has fun answer => ?_
  refine Ensures.ite (fun _ => ?_) fun _ => ensures_pure fun _ hw _ => hw
  refine (ensures_mapM_of (fun scope => (appliedEffects_has scope _).adapt _) _).bind fun applied => ?_
  refine ensures_pure fun _ hw hall => hw fun effects he effect hmem => ?_
  exact hall effect (List.mem_flatten.mpr ⟨effects, he, hmem⟩)

/-- An event of which no effect takes `x` leaves it there. -/
theorem eventEffects_has (event : String) (agents : List String) :
    Ensures (Has e p x) (eventEffects event agents)
      (fun effects w => (∀ effect ∈ effects, ¬ effect.Takes e p) → w.Has e p x) fun _ => True := by
  refine Ensures.bind (fixes_look _ _).has fun event => ?_
  refine (ensures_mapM_of (responseEffects_has _ _) _).bind fun applied => ?_
  refine ensures_pure fun _ hw hall => hw fun effects he effect hmem => ?_
  exact hall effect (List.mem_flatten.mpr ⟨effects, he, hmem⟩)

/-! ## Agents and relationships -/

theorem addAgent_has (agentType uid : String) :
    Ensures (Has e p x) (addAgent agentType uid) (fun _ => Has e p x) fun _ => True := by
  refine addAgent_rule (fun _ _ => trivial) (fun w _ facts hw _ hnone _ => ?_) fun _ =>
    addTrait_has _ _ _ _
  have hne : e ≠ .agent uid := by
    rintro rfl
    exact hw.sheet?_ne_none (by simp [World.sheet?, hnone])
  have hfacts : World.Has e p x { w with facts } := hw.of_entities rfl rfl
  exact hfacts.of_own (World.own_setAgent hne _ _)

theorem addRelationship_has (owner target : String) :
    Ensures (Has e p x) (addRelationship owner target) (fun _ => Has e p x) fun _ => True := by
  refine addRelationship_rule (R := Has e p x) (fun _ _ => trivial)
    (fun w _ _ _ facts hw _ _ hnone _ => ?_) (fun _ => addTrait_has _ _ _ _)
    ((reevaluate_fixes_own owner target e).timed p).has
  have hne : e ≠ .relationship owner target := by
    rintro rfl
    exact hw.sheet?_ne_none (by simp [World.sheet?, hnone])
  have hfacts : World.Has e p x { w with facts } := hw.of_entities rfl rfl
  exact hfacts.of_own (World.own_link hne _ _)

theorem removeRelationship_has {owner target : String} (h : e ≠ .relationship owner target) :
    Ensures (Has e p x) (removeRelationship owner target) (fun _ => Has e p x) fun _ => True :=
  removeRelationship_rule (fun _ hw _ => hw) fun w _ hw _ =>
    ((retract_apart e _).own.timed p).has _ (hw.of_own (World.own_unlink h w))

/-- An agent that goes takes its relationships along, and nobody else. -/
theorem removeAgent_has {uid : String} (h : ¬ (Entity.agent uid).Near e) :
    Ensures (Has e p x) (removeAgent uid) (fun _ => Has e p x) fun _ => True := by
  obtain ⟨hne, haround⟩ := not_or.mp h
  have hout : ∀ target, e ≠ .relationship uid target := by
    rintro target rfl
    exact haround (.inl rfl)
  have hin : ∀ owner, e ≠ .relationship owner uid := by
    rintro owner rfl
    exact haround (.inr rfl)
  refine Ensures.bind fixes_get.has fun w => ?_
  split
  · exact ensures_pure fun _ hw => hw
  · refine Ensures.bind (ensures_forM_of_mem fun target _ =>
      (removeRelationship_has (hout target)).discard) fun _ => ?_
    refine Ensures.bind (ensures_forM_of_mem fun owner _ =>
      (removeRelationship_has (hin owner)).discard) fun _ => ?_
    refine Ensures.bind ((deleteFact_apart e uid).own.timed p).discard.has fun _ => ?_
    refine Ensures.bind (Q := fun _ => Has e p x)
      (ensures_modify fun w hw => hw.of_own (World.own_eraseAgent hne w)) fun _ => ?_
    exact Ensures.bind ((reevaluateAll_fixes_own e).timed p).has fun _ =>
      ensures_pure fun _ hw => hw

/-- The type that a relationship had is taken from it, and no other trait. -/
theorem leads_setRelationshipKind_has {w : World} {owner target id : String} (hw : w.Has e p x)
    (h : ¬ (e = .relationship owner target ∧ ∃ r previous, w.relationship? owner target = some r ∧
      r.kind = some previous ∧ p = .trait previous)) :
    (setRelationshipKind owner target id).Leads (fun _ => Has e p x) (fun _ => True) w := by
  refine leads_setRelationshipKind (P := Has e p x) (R := Has e p x) hw (fun _ _ => trivial)
    (fun r previous hr hkind => ?_) (fun _ w _ hw _ => ?_) (addTrait_has _ _ _ _)
  · exact (removeTrait_fixes_timed fun he hp => h ⟨he, r, previous, hr, hkind, hp⟩).has w hw
  · refine ((insertFact_apart e _).own.timed p).has _ (hw.of_own ?_)
    exact World.own_modifyRelationship (by intro r; rfl) w owner target e

theorem addRelationshipModifier_has (uid : String) (id : Option String) (m : RelationshipModifier) :
    Ensures (Has e p x) (addRelationshipModifier uid id m) (fun _ => Has e p x) fun _ => True :=
  addRelationshipModifier_rule (fun _ _ => trivial) (fun _ _ hw => hw.of_entities rfl rfl)
    (fun _ _ _ hw _ => hw.modifyAgent (by intro a; rfl) fun _ _ _ _ hm => List.mem_append_left _ hm)
    fun _ => ((reevaluateAgent_fixes_own uid e).timed p).has

theorem removeRelationshipModifier_has {uid : String} {id : ModifierId}
    (h : ¬ (e = .agent uid ∧ ∃ m, x = .attached m ∧ m.id = id)) :
    Ensures (Has e p x) (removeRelationshipModifier uid id) (fun _ => Has e p x)
      fun _ => True := by
  refine Ensures.bind (fixes_look _ _).has fun a => ?_
  refine Ensures.ite (fun _ => ensures_pure fun _ hw => hw) fun _ => ?_
  refine Ensures.bind (Q := fun _ => Has e p x) (ensures_modify fun w hw => ?_) fun _ => ?_
  · refine hw.modifyAgent (by intro a; rfl) fun he a m hx hm => List.mem_filter.mpr ⟨hm, ?_⟩
    simpa using fun hid => h ⟨he, m, hx, hid⟩
  · exact Ensures.bind ((reevaluateAgent_fixes_own uid e).timed p).has fun _ =>
      ensures_pure fun _ hw => hw

theorem leads_dispatch_has {w : World} {event : String} {agents : List String} (hw : w.Has e p x)
    (h : ¬ ∃ applied, ((eventEffects event agents).runOn w).1 = .ok applied ∧
      ∃ effect ∈ applied, effect.Takes e p) :
    (dispatch event agents).Leads (fun _ => Has e p x) (fun _ => True) w := by
  have hevent := eventEffects_has event agents w hw
  rw [dispatch_eq, leads_discard]
  unfold Leads
  cases hrun : (eventEffects event agents).runOn w with
  | mk answer w' =>
      rw [hrun] at hevent h
      cases answer with
      | error error => trivial
      | ok applied => exact hevent fun effect he ht => h ⟨applied, rfl, effect, he, ht⟩

end Act

/-! ## Operations that take nothing -/

open World (Has)

variable {w : World} {e : Entity} {p : Place} {x : Timed}

/-- A command leaves `x` where it is, unless it takes `x` or counts it down. -/
theorem Command.act_has {c : Command} (hw : w.Has e p x) (h : ¬ c.Takes w e p x)
    (htick : c ≠ .tick) : c.act.Leads (fun _ => Has e p x) (fun _ => True) w := by
  cases c with
  | addTrait | addRule | addEvent | addAgentSchema | addRelationshipSchema | clearFacts =>
      exact Act.leads_modify.mpr (hw.of_entities rfl rfl)
  | addAgent agentType uid => exact Act.addAgent_has agentType uid w hw
  | removeAgent uid => exact (Act.removeAgent_has h).discard w hw
  | addRelationship owner target => exact Act.addRelationship_has owner target w hw
  | removeRelationship owner target => exact (Act.removeRelationship_has h).discard w hw
  | giveTrait e' id duration description =>
      exact (Act.addTrait_has e' id duration description).discard w hw
  | takeTrait e' id =>
      exact (Act.removeTrait_fixes_timed fun he hp => h ⟨he.symm, hp⟩).has.discard w hw
  | setRelationshipKind owner target id =>
      exact Act.leads_discard.mpr (Act.leads_setRelationshipKind_has hw h)
  | addRelationshipModifier uid id m => exact (Act.addRelationshipModifier_has uid id m).discard w hw
  | removeRelationshipModifier uid id => exact (Act.removeRelationshipModifier_has h).discard w hw
  | reevaluate owner target => exact ((Act.reevaluate_fixes_own owner target e).timed p).has w hw
  | reevaluateAgent uid => exact ((Act.reevaluateAgent_fixes_own uid e).timed p).has w hw
  | reevaluateAll => exact ((Act.reevaluateAll_fixes_own e).timed p).has w hw
  | dispatch event agents => exact Act.leads_dispatch_has hw h
  | tick => exact absurd rfl htick
  | reset => exact absurd trivial h
  | insertFact s => exact ((Act.insertFact_apart e s).own.timed p).has w hw
  | deleteFact s => exact ((Act.deleteFact_apart e s).own.timed p).discard.has w hw

theorem Operation.act_has {o : Operation} (hw : w.Has e p x) (h : ¬ o.Takes w e p x)
    (hticks : o.ticks = 0) : o.act.Leads (fun _ => Has e p x) (fun _ => True) w := by
  cases o with
  | command c =>
      refine Command.act_has hw h ?_
      rintro rfl
      cases hticks
  | effect f => exact Act.apply_has h w hw
  | edit e' stat f =>
      refine Act.leads_changeStat_has hw fun sheet s m hsheet hs he hp hx hm => ?_
      by_contra hnot
      exact h ⟨he.symm, hp, sheet, s, m, he ▸ hsheet, hs, hx, hnot⟩

end Society
