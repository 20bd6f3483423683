import Society.Proofs.World.Bereft
import Society.Proofs.World.Reach
import Society.Proofs.World.Shown

/-!
# Commands that fail

A command checks what it is given before it changes anything. What it changes can still make a later
step of it fail, which is an evaluation most of the time, and nothing is taken back then. So a
command that fails has changed nothing, or it fails late: its own part is done and stays.
-/

namespace Society

open World (Framed Evaluated Leaving Readable Records)

/-- A step fails in a world of a kind, and what it leaves, the world `w'`, is of that kind still. -/
def Act.FailsIn {α : Type} (P : World → Prop) (step : Act α) (w' : World) : Prop :=
  P w' ∧ ∃ w error, P w ∧ step.runOn w = (.error error, w')

/-- How a command can fail in the world `w` after it has changed it, and what it leaves. -/
inductive Command.Late (w : World) : Command → World → Prop where
  /-- The agent is there. A trait of its type could not be added. -/
  | addAgent {agentType uid id : String} {schema : AgentSchema} {facts : FactDatabase} {w' : World}
      (schema_eq : w.agentSchemas.get? agentType = some schema) (new : w.agent? uid = none)
      (told : w.facts.insert uid = .ok facts) (mem : id ∈ schema.traits)
      (fails : Act.FailsIn
        (Framed (Entity.agent uid).Near (w.setAgent uid (.create uid agentType schema.stats)))
        (Act.addTrait (.agent uid) id (-1) none) w') :
      Late w (.addAgent agentType uid) w'
  /-- The relationships of the agent are gone, but its own fact could not be deleted. -/
  | removeAgent_fact {uid : String} {error : FactError} {w' : World}
      (there : (w.agent? uid).isSome = true) (bereft : w.Bereft uid w')
      (kept : w'.facts.delete uid = .error error) :
      Late w (.removeAgent uid) w'
  /-- The agent is gone with its relationships. An evaluation failed. -/
  | removeAgent {uid : String} {w' : World} (there : (w.agent? uid).isSome = true)
      (fails : Act.FailsIn
        (fun v => ∃ (u : World) (facts : FactDatabase) (found : Bool), w.Bereft uid u ∧
          u.facts.delete uid = .ok (facts, found) ∧
          Evaluated (·.kind = .relationship) { u with facts, agents := u.agents.erase uid } v)
        Act.reevaluateAll w') :
      Late w (.removeAgent uid) w'
  /-- The relationship is there, linked to its agents. A trait that their types ask for could not be
  added, or the relationship could not be evaluated. -/
  | addRelationship {owner target : String} {a b : Agent} {schema : RelationshipSchema}
      {facts : FactDatabase} {w' : World}
      (owner_eq : w.agent? owner = some a) (target_eq : w.agent? target = some b)
      (schema_eq : w.relationshipSchema? a.agentType b.agentType = some schema)
      (new : w.relationship? owner target = none)
      (told : w.facts.insert (Entity.relationship owner target).fact = .ok facts)
      (fails :
        let linked := Framed (· = .relationship owner target)
          (w.link owner target (.create owner target schema.stats))
        (∃ id ∈ schema.traits,
          Act.FailsIn linked (Act.addTrait (.relationship owner target) id (-1) none) w') ∨
        Act.FailsIn linked (Act.reevaluate owner target) w') :
      Late w (.addRelationship owner target) w'
  /-- The trait is held, with its fact. The evaluation around the holder failed. -/
  | giveTrait {e : Entity} {id : String} {duration : Int} {description : Option String} {t : Trait}
      {s : Sheet} {facts : FactDatabase} {w' : World}
      (trait_eq : w.traits.get? id = some t) (kind_eq : t.kind = e.kind) (sheet_eq : w.sheet? e = some s)
      (can : s.traits.canAdd t = true) (told : w.facts.insert (e.traitFact id) = .ok facts)
      (framed : Framed e.Near w w')
      (fails : Act.FailsIn (World.Records facts fun r => r = .holds e id ∨ w.Shows r)
        (Act.reevaluateAround e) w') :
      Late w (.giveTrait e id duration description) w'
  /-- The trait is held no longer and is not the type of its holder, and its facts are gone. The
  evaluation around the holder failed. -/
  | takeTrait {e : Entity} {id : String} {w' : World} (held : w.Shows (.holds e id))
      (framed : Framed e.Near w w')
      (fails : Act.FailsIn
        (World.Records (w.factsWithoutTrait e id) fun r => w.Shows r ∧ ¬ r.IsOfTrait e id)
        (Act.reevaluateAround e) w') :
      Late w (.takeTrait e id) w'
  /-- The relationship is on its way from one type to the other. -/
  | setRelationshipKind {owner target id : String} {t : Trait} {r : Relationship} {w' : World}
      (trait_eq : w.traits.get? id = some t) (kind_eq : t.kind = .relationship)
      (relationship_eq : w.relationship? owner target = some r)
      (framed : Framed (· = .relationship owner target) w w')
      (retyped : w.Retyped owner target id r w') :
      Late w (.setRelationshipKind owner target id) w'
  /-- The modifier is attached. A relationship of the agent could not be evaluated. -/
  | addRelationshipModifier {uid : String} {id : Option String} {m : RelationshipModifier} {a : Agent}
      {w' : World} (agent_eq : w.agent? uid = some a)
      (fails : Act.FailsIn
        (Evaluated (Entity.agent uid).Around (w.modifyAgent uid fun a => { a with
          modifiers := a.modifiers ++ [{ m with id := id.elim (.fresh w.nextId) .given }] }))
        (Act.reevaluateAgent uid) w') :
      Late w (.addRelationshipModifier uid id m) w'
  /-- The modifiers are detached. A relationship of the agent could not be evaluated. -/
  | removeRelationshipModifier {uid : String} {id : ModifierId} {a : Agent} {m : AttachedModifier}
      {w' : World} (agent_eq : w.agent? uid = some a) (mem : m ∈ a.modifiers) (id_eq : m.id = id)
      (fails : Act.FailsIn
        (Evaluated (Entity.agent uid).Around (w.modifyAgent uid fun a => { a with
          modifiers := a.modifiers.filter (·.id ≠ id) }))
        (Act.reevaluateAgent uid) w') :
      Late w (.removeRelationshipModifier uid id) w'
  /-- Some effects have been applied: all effects of one of the responses had been created. -/
  | dispatch {event : String} {agents : List String} {e : SocialEvent} {response : EventResponse}
      {scope : EffectContext} {w' : World}
      (event_eq : w.events.get? (SocialEvent.symbolOf event agents.length) = some e)
      (mem : response ∈ e.responses) (effects_ne_nil : response.effects ≠ [])
      (created : ∀ text ∈ response.effects, ∃ effect, Effect.parse w scope text = .ok effect)
      (frame_eq : w'.frame = w.frame) :
      Late w (.dispatch event agents) w'
  /-- Timers are counted down for some. Traits whose time was over may be gone, and none is new. -/
  | tick {w' : World} (frame_eq : w'.frame = w.frame)
      (differs : w.Differs (fun r => ∃ e id, r.IsOfTrait e id) (fun _ => False) w') :
      Late w .tick w'
  /-- An evaluation is left where it failed. -/
  | reevaluate {owner target : String} {w' : World}
      (evaluated : Evaluated (· = .relationship owner target) w w') :
      Late w (.reevaluate owner target) w'
  | reevaluateAgent {uid : String} {w' : World} (evaluated : Evaluated (Entity.agent uid).Around w w') :
      Late w (.reevaluateAgent uid) w'
  | reevaluateAll {w' : World} (evaluated : Evaluated (·.kind = .relationship) w w') :
      Late w .reevaluateAll w'

theorem Act.Keeps.failsIn {α : Type} {P : World → Prop} {x : Act α} (h : x.Keeps P) :
    Act.Ensures P x (fun _ => P) (Act.FailsIn P x) := by
  intro w hw
  have hend := h w hw
  cases hx : x.runOn w with
  | mk r w' =>
      rw [hx] at hend
      cases r with
      | ok a => exact hend
      | error error => exact ⟨hend, w, error, hw, hx⟩

namespace Command

open Act

variable {w : World}

/-- A command has changed nothing, or it failed late. -/
def Fails (w : World) (c : Command) (w' : World) : Prop :=
  w' = w ∨ c.Late w w'

/-! ## Agents and relationships -/

theorem addAgent_fails (w : World) (agentType uid : String) :
    (Act.addAgent agentType uid).Leads (fun _ _ => True) (Fails w (.addAgent agentType uid)) w := by
  refine leads_bind.mpr (leads_look.mpr ⟨fun schema hs => ?_, fun _ => .inl rfl⟩)
  refine leads_bind.mpr (leads_ite.mpr ⟨fun _ => leads_bind.mpr (.inl rfl), fun hn => ?_⟩)
  refine leads_bind.mpr (leads_insertFact.mpr ⟨fun facts hf => ?_, fun _ _ => .inl rfl⟩)
  have hnone : w.agent? uid = none := by simpa [Dict.contains, World.agent?] using hn
  let new := w.setAgent uid (.create uid agentType schema.stats)
  have htraits : ∀ id ∈ schema.traits, Ensures (Framed (Entity.agent uid).Near new)
      (discard (Act.addTrait (.agent uid) id (-1) none))
      (fun _ => Framed (Entity.agent uid).Near new) (Fails w (.addAgent agentType uid)) :=
    fun id hid => ((addTrait_framed (.agent uid) id (-1) none new).failsIn.weaken
      fun _ hw' => .inr (.addAgent hs hnone hf hid hw')).discard
  refine leads_bind.mpr (leads_modify.mpr ?_)
  exact (ensures_forM_of_mem htraits).mono (fun _ h => h) (fun _ _ _ => trivial) _
    ⟨rfl, fun e _ => World.entity?_congr rfl rfl e⟩

theorem addRelationship_fails (w : World) (owner target : String) :
    (Act.addRelationship owner target).Leads (fun _ _ => True)
      (Fails w (.addRelationship owner target)) w := by
  refine leads_bind.mpr (leads_look.mpr ⟨fun a ha => ?_, fun _ => .inl rfl⟩)
  refine leads_bind.mpr (leads_look.mpr ⟨fun b hb => ?_, fun _ => .inl rfl⟩)
  refine leads_bind.mpr (leads_look.mpr ⟨fun schema hs => ?_, fun _ => .inl rfl⟩)
  refine leads_bind.mpr (leads_ite.mpr ⟨fun _ => leads_bind.mpr (.inl rfl), fun hn => ?_⟩)
  refine leads_bind.mpr (leads_insertFact.mpr ⟨fun facts hf => ?_, fun _ _ => .inl rfl⟩)
  have hnone : w.relationship? owner target = none := by simpa using hn
  let linked := w.link owner target (.create owner target schema.stats)
  have htraits : ∀ id ∈ schema.traits, Ensures (Framed (· = .relationship owner target) linked)
      (discard (Act.addTrait (.relationship owner target) id (-1) none))
      (fun _ => Framed (· = .relationship owner target) linked)
      (Fails w (.addRelationship owner target)) :=
    fun id hid => ((addTrait_framed_relationship owner target id (-1) none linked).failsIn.weaken
      fun _ hw' => .inr (.addRelationship ha hb hs hnone hf (.inl ⟨id, hid, hw'⟩))).discard
  have hlast : Ensures (Framed (· = .relationship owner target) linked)
      (Act.reevaluate owner target) (fun _ _ => True) (Fails w (.addRelationship owner target)) :=
    ((reevaluate_framed owner target linked).failsIn.weaken
      fun _ hw' => .inr (.addRelationship ha hb hs hnone hf (.inr hw'))).mono (fun _ h => h)
        fun _ _ _ => trivial
  have hend := ((ensures_forM_of_mem htraits).bind fun _ => hlast)
    (({ w with facts } : World).link owner target (.create owner target schema.stats))
    ⟨rfl, fun e _ => World.entity?_congr rfl rfl e⟩
  rw [← Leads, World.link] at hend
  simpa only [leads_bind, leads_modify] using hend

theorem removeAgent_fails (hw : w.Readable) (uid : String) :
    (Act.removeAgent uid).Leads (fun _ _ => True) (Fails w (.removeAgent uid)) w := by
  let gone : World → Prop := fun v => ∃ (u : World) (facts : FactDatabase) (found : Bool),
    w.Bereft uid u ∧ u.facts.delete uid = .ok (facts, found) ∧
      Evaluated (·.kind = .relationship) { u with facts, agents := u.agents.erase uid } v
  have hkeeps : Act.reevaluateAll.Keeps gone :=
    keeps_of_holds fun v ⟨u, facts, found, hbereft, hdelete, hv⟩ =>
      ⟨u, facts, found, hbereft, hdelete, (reevaluateAll_evaluates _).holds hv⟩
  have hrule : Ensures (Leaving uid w) (Act.removeAgent uid) (fun _ _ => True)
      (Fails w (.removeAgent uid)) := by
    refine removeAgent_rule (Q := fun v => (w.agent? uid).isSome = true ∧ gone v)
      (fun _ hv => hv.readable.linked) (fun _ _ => trivial)
      (fun _ _ hends => removeRelationship_leaving hends) ?_ ?_
    · rintro ⟨u, a, hu, ha⟩ v hv hnone
      have hthere : (w.agent? uid).isSome = true := by
        simpa [ha] using (congrArg Option.isSome (hu.agents uid)).symm
      have hbereft := hv.bereft hnone
      refine leads_deleteFact.mpr ⟨fun facts found hf => ?_, fun e he => ?_⟩
      · exact ⟨hthere, v, facts, found, hbereft, hf, .refl _ _⟩
      · exact .inr (.removeAgent_fact hthere hbereft he)
    · exact fun v hv => Leads.imp (hkeeps.failsIn v hv.2) (fun _ _ _ => trivial)
        fun _ hfails => .inr (.removeAgent hv.1 hfails)
  exact hrule w ⟨hw, fun _ => rfl, fun _ _ _ _ => rfl⟩

/-! ## Traits and types -/

theorem giveTrait_fails (hw : w.Readable) (e : Entity) (id : String) (duration : Int)
    (description : Option String) :
    (Act.addTrait e id duration description).Leads (fun _ _ => True)
      (Fails w (.giveTrait e id duration description)) w := by
  have hrule : Ensures (· = w) (Act.addTrait e id duration description) (fun _ _ => True) fun w' =>
      w' = w ∨ ∃ t s facts, w.traits.get? id = some t ∧ t.kind = e.kind ∧ w.sheet? e = some s ∧
        s.traits.canAdd t = true ∧ w.facts.insert (e.traitFact id) = .ok facts ∧
          FailsIn (Records facts fun r => r = .holds e id ∨ w.Shows r) (reevaluateAround e) w' := by
    refine addTrait_rule (R := fun v => ∃ t s facts, w.traits.get? id = some t ∧ t.kind = e.kind ∧
      w.sheet? e = some s ∧ s.traits.canAdd t = true ∧
        w.facts.insert (e.traitFact id) = .ok facts ∧
          v.Records facts fun r => r = .holds e id ∨ w.Shows r) ?_ (fun _ h => .inl h)
      (fun _ _ => trivial) ?_ ?_
    · rintro v v' hv ⟨t, s, facts, ht, hk, hs, hcan, hf, hrec⟩
      exact ⟨t, s, facts, ht, hk, hs, hcan, hf, hrec.of_face (World.face_eq_of_outline_eq hv)⟩
    · rintro w t s facts text rfl ht hk hs hcan hf
      refine ⟨t, s, facts, ht, hk, hs, hcan, hf, by cases e <;> rfl, fun r => ?_⟩
      have hs' : World.sheet? { w with facts } e = some s := by
        cases e <;> exact hs
      rw [World.shows_hold hs', hw.library id t ht]
      exact or_congr_right (World.shows_congr rfl rfl r)
    · rintro v ⟨t, s, facts, ht, hk, hs, hcan, hf, hrec⟩
      exact Leads.imp ((reevaluateAround_records e).failsIn v hrec) (fun _ _ _ => trivial)
        fun _ hfails => .inr ⟨t, s, facts, ht, hk, hs, hcan, hf, hfails⟩
  have hframed := addTrait_framed e id duration description w w (.refl _ w)
  refine Leads.imp (Leads.and (hrule w rfl) hframed) (fun _ _ _ => trivial) ?_
  rintro w' ⟨rfl | ⟨t, s, facts, ht, hk, hs, hcan, hf, hfails⟩, hframed⟩
  · exact .inl rfl
  · exact .inr (.giveTrait ht hk hs hcan hf hframed hfails)

theorem takeTrait_fails (hw : w.Readable) (e : Entity) (id : String) :
    (Act.removeTrait e id).Leads (fun _ _ => True) (Fails w (.takeTrait e id)) w := by
  let left : World → Prop :=
    Records (w.factsWithoutTrait e id) fun r => w.Shows r ∧ ¬ r.IsOfTrait e id
  let late : World → Prop := fun w' =>
    w' = w ∨ w.Shows (.holds e id) ∧ FailsIn left (reevaluateAround e) w'
  have hclear : Ensures
      (fun v => w.Shows (.holds e id) ∧ v.Records w.facts fun r => w.Shows r ∧ r ≠ .holds e id)
      (clearKind e id)
      (fun _ v => w.Shows (.holds e id) ∧
        v.Records (w.factsWithoutKind id e) fun r => w.Shows r ∧ ¬ r.IsOfTrait e id) late :=
    fun v hv => Leads.imp (clearKind_records hw hv.1 v hv.2) (fun _ _ h => ⟨hv.1, h⟩) fun _ h => h.elim
  have hretract : Ensures
      (fun v => w.Shows (.holds e id) ∧
        v.Records (w.factsWithoutKind id e) fun r => w.Shows r ∧ ¬ r.IsOfTrait e id)
      (retract (e.traitFact id)) (fun _ v => w.Shows (.holds e id) ∧ left v) late := by
    refine fun v hv => leads_retract_of_isFact (hw.reports _ hv.1) fun _ => ⟨hv.1, ?_, fun r => ?_⟩
    · exact congrArg (FactDatabase.without · (e.traitFact id)) hv.2.facts_eq
    · exact (World.shows_congr rfl rfl r).trans (hv.2.shows_iff r)
  have hlast : Ensures (fun v => w.Shows (.holds e id) ∧ left v) (reevaluateAround e)
      (fun _ _ => True) late :=
    fun v hv => Leads.imp ((reevaluateAround_records e).failsIn v hv.2) (fun _ _ _ => trivial)
      fun _ h => .inr ⟨hv.1, h⟩
  have hrule : Ensures (· = w) (Act.removeTrait e id) (fun _ _ => True) late := by
    refine removeTrait_rule (fun v v' hv h => ?_) (fun _ h => .inl h) (fun _ _ => trivial) ?_ hclear
      hretract hlast
    · exact ⟨h.1, h.2.of_face (World.face_eq_of_outline_eq hv)⟩
    · rintro w s rfl hs hheld
      exact ⟨by simp [World.Shows, hs, hheld], by cases e <;> rfl, World.shows_erase hs id⟩
  have hframed := removeTrait_framed e id w w (.refl _ w)
  refine Leads.imp (Leads.and (hrule w rfl) hframed) (fun _ _ _ => trivial) ?_
  rintro w' ⟨rfl | ⟨hheld, hfails⟩, hframed⟩
  · exact .inl rfl
  · exact .inr (.takeTrait hheld hframed hfails)

theorem setRelationshipKind_fails (hw : w.Readable) (owner target id : String) :
    (Act.setRelationshipKind owner target id).Leads (fun _ _ => True)
      (Fails w (.setRelationshipKind owner target id)) w := by
  let retyped : World → Prop := fun w' => w' = w ∨ ∃ t r, w.traits.get? id = some t ∧
    t.kind = .relationship ∧ w.relationship? owner target = some r ∧ w.Retyped owner target id r w'
  have hretypes : (Act.setRelationshipKind owner target id).Leads (fun _ _ => True) retyped w := by
    refine leads_bind.mpr (leads_discard.mpr (leads_requireTraitFor (fun t ht hk => ?_) (.inl rfl)))
    refine leads_bind.mpr (leads_look.mpr ⟨fun r hr => ?_, fun _ => .inl rfl⟩)
    have hrecord := (recordKind_retypes hr id).weaken
      fun w' h => (.inr ⟨t, r, ht, hk, hr, h⟩ : retyped w')
    have hstart : w.Readable ∧ w.Retyped owner target id r w :=
      ⟨hw, fun _ h => .inl h, fun _ h => .inl h⟩
    cases hprevious : r.kind with
    | none => exact hrecord w hstart
    | some previous =>
        have htake : (Act.removeTrait (.relationship owner target) previous).Keeps
            (w.Retyped owner target id r) :=
          removeTrait_differs fun _ hx => ⟨previous, hprevious, hx⟩
        exact (((removeTrait_readable _ previous).and htake).weaken
          fun _ h => .inr ⟨t, r, ht, hk, hr, h.2⟩).discard.bind (fun _ => hrecord) w hstart
  have hframed := setRelationshipKind_framed owner target id w w (.refl _ w)
  refine Leads.imp (Leads.and hretypes hframed) (fun _ _ _ => trivial) ?_
  rintro w' ⟨rfl | ⟨t, r, ht, hk, hr, hretyped⟩, hframed⟩
  · exact .inl rfl
  · exact .inr (.setRelationshipKind ht hk hr hframed hretyped)

/-! ## Relationship modifiers -/

theorem addRelationshipModifier_fails (w : World) (uid : String) (id : Option String)
    (m : RelationshipModifier) :
    (Act.addRelationshipModifier uid id m).Leads (fun _ _ => True)
      (Fails w (.addRelationshipModifier uid id m)) w := by
  refine leads_bind.mpr (leads_discard.mpr (leads_look.mpr ⟨fun a ha => ?_, fun _ => .inl rfl⟩))
  let attached := w.modifyAgent uid fun a => { a with
    modifiers := a.modifiers ++ [{ m with id := id.elim (.fresh w.nextId) .given }] }
  have hlast : Ensures (Evaluated (Entity.agent uid).Around attached) (Act.reevaluateAgent uid)
      (fun _ _ => True) (Fails w (.addRelationshipModifier uid id m)) :=
    ((reevaluateAround_evaluates (.agent uid) attached).failsIn.weaken
      fun _ hw' => .inr (.addRelationshipModifier ha hw')).mono (fun _ h => h) fun _ _ _ => trivial
  have hsame : ∀ n, Evaluated (Entity.agent uid).Around attached { attached with nextId := n } :=
    fun _ => ⟨⟨rfl, fun e _ => World.entity?_congr rfl rfl e⟩, rfl⟩
  cases id with
  | some given => exact leads_bind.mpr (leads_bind.mpr (leads_bind.mpr (hlast _ (hsame w.nextId))))
  | none =>
      exact leads_bind.mpr (leads_freshId.mpr (leads_bind.mpr (leads_bind.mpr
        (hlast _ (hsame (w.nextId + 1))))))

theorem removeRelationshipModifier_fails (w : World) (uid : String) (id : ModifierId) :
    (Act.removeRelationshipModifier uid id).Leads (fun _ _ => True)
      (Fails w (.removeRelationshipModifier uid id)) w := by
  refine leads_bind.mpr (leads_look.mpr ⟨fun a ha => ?_, fun _ => .inl rfl⟩)
  refine leads_ite.mpr ⟨fun _ => trivial, fun hany => ?_⟩
  obtain ⟨m, hm, hid⟩ : ∃ m ∈ a.modifiers, m.id = id := by simpa using hany
  let detached := w.modifyAgent uid fun a => { a with
    modifiers := a.modifiers.filter (·.id ≠ id) }
  have hlast : Ensures (Evaluated (Entity.agent uid).Around detached) (Act.reevaluateAgent uid)
      (fun _ _ => True) (Fails w (.removeRelationshipModifier uid id)) :=
    ((reevaluateAround_evaluates (.agent uid) detached).failsIn.weaken
      fun _ hw' => .inr (.removeRelationshipModifier ha hm hid hw')).mono (fun _ h => h)
        fun _ _ _ => trivial
  exact leads_bind.mpr (leads_bind.mpr (hlast detached (.refl _ _)))

/-! ## Events and time -/

theorem createEffects_creates (w : World) (scope : EffectContext) (texts : List String) :
    Ensures (· = w) (texts.mapM (createEffect scope))
      (fun effects w' => w' = w ∧ effects.length = texts.length ∧
        ∀ text ∈ texts, ∃ effect, Effect.parse w scope text = .ok effect) (· = w) := by
  rintro w rfl
  refine Leads.imp (mapM_createEffect_leads w scope texts) (fun effects w' h => ?_) fun _ h => h
  refine ⟨h.1, by simpa using (congrArg List.length h.2).symm, fun text htext => ?_⟩
  have hok := List.mem_map_of_mem (f := Effect.parse w scope) htext
  rw [h.2] at hok
  obtain ⟨effect, -, hparse⟩ := List.mem_map.mp hok
  exact ⟨effect, hparse.symm⟩

/-- Nothing is changed by a response unless all of its effects, of which there are some, have been
created in one of its scopes. -/
theorem respond_creates (w : World) (event : String) (ctx : EffectContext) (response : EventResponse)
    {D : Prop} (hD : response.effects ≠ [] → ∀ scope, (∀ text ∈ response.effects,
      ∃ effect, Effect.parse w scope text = .ok effect) → D) :
    Ensures (fun w' => w' = w ∨ D) (respond event ctx response) (fun _ w' => w' = w ∨ D)
      fun w' => w' = w ∨ D := by
  have hscope : ∀ scope, Ensures (fun w' => w' = w ∨ D)
      (forEvent event (applyEffects scope response.effects)) (fun _ w' => w' = w ∨ D)
        fun w' => w' = w ∨ D := by
    refine fun scope => Ensures.adapt ?_ _
    rintro v (rfl | hd)
    · refine Leads.bind (Q := fun effects w' => w' = v ∧ effects.length = response.effects.length ∧
        ∀ text ∈ response.effects, ∃ effect, Effect.parse v scope text = .ok effect)
        (Leads.imp (createEffects_creates v scope response.effects v rfl) (fun _ _ h => h)
          fun _ h => .inl h) fun effects => ?_
      rintro v ⟨rfl, hlength, hcreated⟩
      cases effects with
      | nil => exact .inl rfl
      | cons effect effects =>
          have hne : response.effects ≠ [] := by
            intro hnil
            simp [hnil] at hlength
          have hd : D := hD hne scope hcreated
          exact ensures_of_forall (P := fun _ => True) (fun _ _ => .inr hd) (fun _ => .inr hd) _
            trivial
    · exact ensures_of_forall (P := fun _ => True) (fun _ _ => .inr hd) (fun _ => .inr hd) _ trivial
  have hloop : ∀ scopes : List EffectContext, Ensures (fun w' => w' = w ∨ D)
      (scopes.forM fun scope => forEvent event (applyEffects scope response.effects))
      (fun _ w' => w' = w ∨ D) fun w' => w' = w ∨ D :=
    fun scopes => ensures_forM_of_mem fun scope _ => hscope scope
  refine Ensures.bind (Q := fun _ w' => w' = w ∨ D) (ensures_get fun _ h => h) fun _ => ?_
  refine Ensures.bind (keeps_ofFacts _) fun answer => ?_
  exact Ensures.ite (fun _ => hloop _) fun _ => ensures_pure fun _ h => h

theorem dispatch_fails (w : World) (event : String) (agents : List String) :
    (Act.dispatch event agents).Leads (fun _ _ => True) (Fails w (.dispatch event agents)) w := by
  let created : Prop := ∃ e response scope,
    w.events.get? (SocialEvent.symbolOf event agents.length) = some e ∧ response ∈ e.responses ∧
      response.effects ≠ [] ∧
        ∀ text ∈ response.effects, ∃ effect, Effect.parse w scope text = .ok effect
  have hcreated : (Act.dispatch event agents).Leads (fun _ _ => True)
      (fun w' => w' = w ∨ created) w := by
    refine leads_bind.mpr (leads_look.mpr ⟨fun e he => ?_, fun _ => .inl rfl⟩)
    have hresponses : ∀ response ∈ e.responses, Ensures (fun w' => w' = w ∨ created)
        (respond event (eventContext e agents) response) (fun _ w' => w' = w ∨ created)
          fun w' => w' = w ∨ created :=
      fun response hr => respond_creates w event (eventContext e agents) response
        fun hne scope hc => ⟨e, response, scope, he, hr, hne, hc⟩
    exact Leads.imp (ensures_forM_of_mem hresponses w (.inl rfl)) (fun _ _ _ => trivial) fun _ h => h
  have hframe : (Act.dispatch event agents).Leads (fun _ w' => w'.frame = w.frame)
      (fun w' => w'.frame = w.frame) w :=
    ensures_dispatch (steady_of_frame fun _ _ h hw => h.trans hw) event agents w rfl
  refine Leads.imp (Leads.and hcreated hframe) (fun _ _ _ => trivial) ?_
  rintro w' ⟨rfl | ⟨e, response, scope, he, hr, hne, hc⟩, hframe⟩
  · exact .inl rfl
  · exact .inr (.dispatch he hr hne hc hframe)

theorem tick_fails (w : World) : Act.tick.Leads (fun _ _ => True) (Fails w .tick) w := by
  have hframe : Act.tick.Leads (fun _ w' => w'.frame = w.frame) (fun w' => w'.frame = w.frame) w :=
    ensures_tick (steady_of_frame fun _ _ h hw => h.trans hw) w rfl
  have holder := tick_older w ⟨fun _ h => .inl h, fun _ h => .inl h⟩
  exact Leads.imp (Leads.and hframe holder) (fun _ _ _ => trivial) fun _ h => .inr (.tick h.1 h.2)

/-! ## Evaluations, and everything else -/

theorem reevaluate_fails (w : World) (owner target : String) :
    (Act.reevaluate owner target).Leads (fun _ _ => True) (Fails w (.reevaluate owner target)) w :=
  Leads.imp (reevaluateAround_evaluates (.relationship owner target) w w (.refl _ w))
    (fun _ _ _ => trivial) fun _ h => .inr (.reevaluate h)

theorem reevaluateAgent_fails (w : World) (uid : String) :
    (Act.reevaluateAgent uid).Leads (fun _ _ => True) (Fails w (.reevaluateAgent uid)) w :=
  Leads.imp (reevaluateAround_evaluates (.agent uid) w w (.refl _ w)) (fun _ _ _ => trivial)
    fun _ h => .inr (.reevaluateAgent h)

theorem reevaluateAll_fails (w : World) :
    Act.reevaluateAll.Leads (fun _ _ => True) (Fails w .reevaluateAll) w :=
  Leads.imp (reevaluateAll_evaluates w w (.refl _ w)) (fun _ _ _ => trivial)
    fun _ h => .inr (.reevaluateAll h)

theorem act_fails (hw : w.Readable) (c : Command) :
    c.act.Leads (fun _ _ => True) (Fails w c) w := by
  cases c with
  | addAgent agentType uid => exact addAgent_fails w agentType uid
  | removeAgent uid => exact leads_discard.mpr (removeAgent_fails hw uid)
  | addRelationship owner target => exact addRelationship_fails w owner target
  | removeRelationship owner target =>
      exact leads_discard.mpr (Leads.imp (removeRelationship_succeeds owner target w hw)
        (fun _ _ _ => trivial) fun _ h => h.elim)
  | giveTrait e id duration description =>
      exact leads_discard.mpr (giveTrait_fails hw e id duration description)
  | takeTrait e id => exact leads_discard.mpr (takeTrait_fails hw e id)
  | setRelationshipKind owner target id =>
      exact leads_discard.mpr (setRelationshipKind_fails hw owner target id)
  | addRelationshipModifier uid id m =>
      exact leads_discard.mpr (addRelationshipModifier_fails w uid id m)
  | removeRelationshipModifier uid id =>
      exact leads_discard.mpr (removeRelationshipModifier_fails w uid id)
  | reevaluate owner target => exact reevaluate_fails w owner target
  | reevaluateAgent uid => exact reevaluateAgent_fails w uid
  | reevaluateAll => exact reevaluateAll_fails w
  | dispatch event agents => exact dispatch_fails w event agents
  | tick => exact tick_fails w
  | insertFact s => exact leads_insertFact.mpr ⟨fun _ _ => trivial, fun _ _ => .inl rfl⟩
  | deleteFact s =>
      exact leads_discard.mpr (leads_deleteFact.mpr ⟨fun _ _ _ => trivial, fun _ _ => .inl rfl⟩)
  | _ => exact trivial

end Command

namespace World

/-- A command that fails has changed nothing, or it failed late, and what it had done stays. Removing
a relationship never fails. -/
theorem Reachable.failure {w : World} (h : w.Reachable) (c : Command) {error : WorldError}
    (he : (c.act.runOn w).1 = .error error) :
    (∀ owner target, c ≠ .removeRelationship owner target) ∧
      (w.after c = w ∨ c.Late w (w.after c)) := by
  constructor
  · rintro owner target rfl
    have hnever : (Command.removeRelationship owner target).act.Leads (fun _ _ => True)
        (fun _ => False) w :=
      Act.leads_discard.mpr (Act.Leads.imp (Act.removeRelationship_succeeds owner target w h.readable)
        (fun _ _ _ => trivial) fun _ h => h)
    exact hnever.error he
  · exact (Command.act_fails h.readable c).error he

/-- Commands up to a grudge of one of two agents, which is about trust, of which relationships know
nothing. -/
def grudgeRun : List Command := [
  .addAgentSchema ⟨"person", [], []⟩, .addRelationshipSchema ⟨"person", "person", [], []⟩,
  .addAgent "person" "ann", .addAgent "person" "bob", .addRelationship "ann" "bob"]

def grudge : Command :=
  .addRelationshipModifier "ann" none ⟨"grudge", .outgoing, [], [⟨"Trust", 1, .flat⟩], none⟩

theorem grudge_refused :
    (grudge.act.runOn (grudgeRun.foldl World.after ∅)).1 = .error (.statNotFound "Trust") := by
  decide +kernel

/-- The grudge is attached late, and stays. -/
theorem failure_of_grudge :
    ∃ w : World, w.Reachable ∧ (grudge.act.runOn w).1 = .error (.statNotFound "Trust") ∧
      (∀ owner target, grudge ≠ .removeRelationship owner target) ∧
      (w.after grudge = w ∨ grudge.Late w (w.after grudge)) ∧
      (((w.after grudge).agent? "ann").map fun a => a.modifiers.map (·.id)) =
        some [.fresh 0] := by
  have hw : World.Reachable (grudgeRun.foldl World.after ∅) := Reachable.empty.run _
  obtain ⟨hremove, hlate⟩ := hw.failure grudge grudge_refused
  exact ⟨_, hw, grudge_refused, hremove, hlate, by decide +kernel⟩

/-- So a relationship modifier that is refused may change its agent. -/
theorem refused_modifier_stays :
    ¬ ∀ (w : World) (uid : String) (id : Option String) (m : RelationshipModifier)
      (error : WorldError), w.Reachable →
      ((Command.addRelationshipModifier uid id m).act.runOn w).1 = .error error →
        (w.after (.addRelationshipModifier uid id m)).agents = w.agents ∧
        (w.after (.addRelationshipModifier uid id m)).relationships = w.relationships ∧
        (w.after (.addRelationshipModifier uid id m)).facts = w.facts := by
  intro h
  have hw : World.Reachable (grudgeRun.foldl World.after ∅) := Reachable.empty.run _
  have hagents := (h _ _ _ _ _ hw grudge_refused).1
  have hmodifiers := congrArg (fun agents => (agents.get? "ann").map (·.modifiers.length)) hagents
  have hchanged : (((grudgeRun.foldl World.after ∅).after grudge).agents.get? "ann").map
      (·.modifiers.length) = some 1 := by decide +kernel
  have hempty : ((grudgeRun.foldl World.after ∅).agents.get? "ann").map
      (·.modifiers.length) = some 0 := by decide +kernel
  exact absurd (hchanged.symm.trans (hmodifiers.trans hempty)) (by decide)

end World

end Society
