import Society.Proofs.World.Frame

/-!
# The registry of agents and relationships

Each relationship is told of three times: in the registry of relationships, by the outgoing links of
its owner, and by the incoming links of its target. No command lets the three disagree, however it
ends.
-/

namespace Society

namespace World

/-- The links of the agents say which relationships there are, and everything is kept under its
name. -/
structure Linked (w : World) : Prop where
  outgoing : ∀ owner target, (w.agent? owner).any (·.outgoing.contains target) =
    (w.relationship? owner target).isSome
  incoming : ∀ owner target, (w.agent? target).any (·.incoming.contains owner) =
    (w.relationship? owner target).isSome
  ends : ∀ owner target r, w.relationship? owner target = some r →
    r.owner = owner ∧ r.target = target
  uid : ∀ uid a, w.agent? uid = some a → a.uid = uid
  targets : ∀ owner targets, w.relationships.get? owner = some targets → targets.isEmpty = false

variable {w w' : World}

/-- The registry is known from the frame. -/
theorem Linked.of_frame (hw : w.Linked) (h : w'.frame = w.frame) : w'.Linked := by
  have hagent : ∀ uid, (w'.agent? uid).map Agent.frame = (w.agent? uid).map Agent.frame := by
    intro uid
    rw [← agent?_frame, h, agent?_frame]
  have hrel : ∀ owner target, (w'.relationship? owner target).map Relationship.frame =
      (w.relationship? owner target).map Relationship.frame := by
    intro owner target
    rw [← relationship?_frame, h, relationship?_frame]
  have hsome : ∀ owner target, (w'.relationship? owner target).isSome =
      (w.relationship? owner target).isSome := by
    intro owner target
    rw [← Option.isSome_map (f := Relationship.frame), hrel, Option.isSome_map]
  constructor
  case outgoing =>
    intro owner target
    have hany := congrArg (·.any (·.outgoing.contains target)) (hagent owner)
    simp only [Option.any_map] at hany
    exact hany.trans ((hw.outgoing owner target).trans (hsome owner target).symm)
  case incoming =>
    intro owner target
    have hany := congrArg (·.any (·.incoming.contains owner)) (hagent target)
    simp only [Option.any_map] at hany
    exact hany.trans ((hw.incoming owner target).trans (hsome owner target).symm)
  case ends =>
    intro owner target r hr
    have hmap := hrel owner target
    rw [hr] at hmap
    obtain ⟨r', hr', heq⟩ := Option.map_eq_some_iff.mp hmap.symm
    have hends := hw.ends owner target r' hr'
    exact ⟨(congrArg (·.owner) heq).symm.trans hends.1,
      (congrArg (·.target) heq).symm.trans hends.2⟩
  case uid =>
    intro uid a ha
    have hmap := hagent uid
    rw [ha] at hmap
    obtain ⟨a', ha', heq⟩ := Option.map_eq_some_iff.mp hmap.symm
    exact (congrArg (·.uid) heq).symm.trans (hw.uid uid a' ha')
  case targets =>
    intro owner targets ht
    have hmap : (w'.relationships.get? owner).map (·.map Relationship.frame) =
        (w.relationships.get? owner).map (·.map Relationship.frame) := by
      have hget := congrArg (·.relationships.get? owner) h
      simpa only [frame, mask, Dict.get?_map] using hget
    rw [ht] at hmap
    obtain ⟨targets', ht', heq⟩ := Option.map_eq_some_iff.mp hmap.symm
    have hempty := congrArg Dict.isEmpty heq
    simp only [Dict.isEmpty_map] at hempty
    exact hempty.symm.trans (hw.targets owner targets' ht')

/-- Both agents of a relationship are there. -/
theorem Linked.isSome_agents (h : w.Linked) {owner target : String}
    (hr : (w.relationship? owner target).isSome = true) :
    (w.agent? owner).isSome = true ∧ (w.agent? target).isSome = true := by
  have hout := (h.outgoing owner target).trans hr
  have hin := (h.incoming owner target).trans hr
  obtain ⟨a, ha, -⟩ := (Option.any_eq_true ..).mp hout
  obtain ⟨b, hb, -⟩ := (Option.any_eq_true ..).mp hin
  simp [ha, hb]

/-! ## Links -/

theorem relationship?_link (w : World) (owner target owner' target' : String) (r : Relationship) :
    (w.link owner target r).relationship? owner' target' =
      if owner' = owner ∧ target' = target then some r else w.relationship? owner' target' :=
  relationship?_setRelationship w owner target owner' target' r

theorem agent?_link (w : World) (owner target uid : String) (r : Relationship) :
    (w.link owner target r).agent? uid = (w.agent? uid).map fun a =>
      { a with
        outgoing := if uid = owner then a.outgoing.insert target else a.outgoing
        incoming := if uid = target then a.incoming.insert owner else a.incoming } := by
  simp only [link, agent?_modifyAgent]
  have hset : ∀ uid, (w.setRelationship owner target r).agent? uid = w.agent? uid := fun _ => rfl
  by_cases ht : uid = target <;> by_cases ho : uid = owner <;>
    cases h : w.agent? uid <;> simp_all

theorem relationship?_unlink (w : World) (owner target owner' target' : String) :
    (w.unlink owner target).relationship? owner' target' =
      if owner' = owner ∧ target' = target then none else w.relationship? owner' target' :=
  relationship?_eraseRelationship w owner target owner' target'

theorem agent?_unlink (w : World) (owner target uid : String) :
    (w.unlink owner target).agent? uid = (w.agent? uid).map fun a =>
      { a with
        outgoing := if uid = owner then a.outgoing.erase target else a.outgoing
        incoming := if uid = target then a.incoming.erase owner else a.incoming } := by
  have herase : ∀ uid, (w.eraseRelationship owner target).agent? uid = w.agent? uid := fun uid => by
    simp only [agent?, agents_eraseRelationship]
  simp only [unlink, agent?_modifyAgent]
  by_cases ht : uid = target <;> by_cases ho : uid = owner <;>
    cases h : w.agent? uid <;> simp_all

theorem relationships_modifyAgent (w : World) (uid : String) (f : Agent → Agent) :
    (w.modifyAgent uid f).relationships = w.relationships := rfl

/-- A relationship that is entered is linked to its agents. -/
theorem Linked.link (h : w.Linked) {owner target : String} {a b : Agent}
    (ha : w.agent? owner = some a) (hb : w.agent? target = some b) (stats : List StatSchema) :
    (w.link owner target (.create owner target stats)).Linked := by
  constructor
  case outgoing =>
    intro o t
    have hout := h.outgoing o t
    rw [agent?_link, relationship?_link, Option.any_map]
    by_cases ho : o = owner
    · subst ho
      simp only [ha, Option.any_some] at hout
      by_cases ht : t = target <;> simp [ha, hout, ht, TextSet.contains_insert]
    · simpa [ho, Function.comp_def] using hout
  case incoming =>
    intro o t
    have hin := h.incoming o t
    rw [agent?_link, relationship?_link, Option.any_map]
    by_cases ht : t = target
    · subst ht
      simp only [hb, Option.any_some] at hin
      by_cases ho : o = owner <;> simp [hb, hin, ho, TextSet.contains_insert]
    · simpa [ht, Function.comp_def] using hin
  case ends =>
    intro o t r hr
    rw [relationship?_link] at hr
    split at hr
    · rename_i hot
      obtain rfl := Option.some.inj hr
      exact ⟨hot.1.symm, hot.2.symm⟩
    · exact h.ends o t r hr
  case uid =>
    intro uid c hc
    rw [agent?_link] at hc
    obtain ⟨c', hc', rfl⟩ := Option.map_eq_some_iff.mp hc
    exact h.uid uid c' hc'
  case targets =>
    intro o targets ht
    simp only [World.link, relationships_modifyAgent, setRelationship, Dict.get?_insert] at ht
    split at ht
    · obtain rfl := Option.some.inj ht
      exact Dict.isEmpty_eq_false_iff.mpr ⟨target, by simp [Dict.contains_insert]⟩
    · exact h.targets o targets ht

/-- A relationship that is taken out leaves no link. -/
theorem Linked.unlink (h : w.Linked) (owner target : String) : (w.unlink owner target).Linked := by
  constructor
  case outgoing =>
    intro o t
    have hout := h.outgoing o t
    rw [agent?_unlink, relationship?_unlink, Option.any_map]
    by_cases ho : o = owner
    · subst ho
      cases ha : w.agent? o with
      | none => by_cases ht : t = target <;> simp_all
      | some a => by_cases ht : t = target <;> simp_all [Dict.contains_erase]
    · simpa [ho, Function.comp_def] using hout
  case incoming =>
    intro o t
    have hin := h.incoming o t
    rw [agent?_unlink, relationship?_unlink, Option.any_map]
    by_cases ht : t = target
    · subst ht
      cases hb : w.agent? t with
      | none => by_cases ho : o = owner <;> simp_all
      | some b => by_cases ho : o = owner <;> simp_all [Dict.contains_erase]
    · simpa [ht, Function.comp_def] using hin
  case ends =>
    intro o t r hr
    rw [relationship?_unlink] at hr
    split at hr
    · cases hr
    · exact h.ends o t r hr
  case uid =>
    intro uid c hc
    rw [agent?_unlink] at hc
    obtain ⟨c', hc', rfl⟩ := Option.map_eq_some_iff.mp hc
    exact h.uid uid c' hc'
  case targets =>
    intro o targets ht
    simp only [World.unlink, relationships_modifyAgent, eraseRelationship] at ht
    split at ht
    · exact h.targets o targets ht
    · dsimp only at ht
      split at ht
      · rw [Dict.get?_erase] at ht
        split at ht
        · cases ht
        · exact h.targets o targets ht
      · rename_i hleft
        rw [Dict.get?_insert] at ht
        split at ht
        · obtain rfl := Option.some.inj ht
          simpa using hleft
        · exact h.targets o targets ht

/-! ## Agents -/

/-- An agent without links takes the place of no one. -/
theorem Linked.setAgent (h : w.Linked) {uid : String} (hn : w.agent? uid = none)
    (agentType : String) (stats : List StatSchema) :
    (w.setAgent uid (.create uid agentType stats)).Linked := by
  have hagent : ∀ u, (w.setAgent uid (.create uid agentType stats)).agent? u =
      if u = uid then some (.create uid agentType stats) else w.agent? u :=
    fun u => Dict.get?_insert _ _ _ _
  constructor
  case outgoing =>
    intro o t
    show _ = (w.relationship? o t).isSome
    rw [hagent, ← h.outgoing]
    split
    · rename_i ho
      rw [ho, hn]
      rfl
    · rfl
  case incoming =>
    intro o t
    show _ = (w.relationship? o t).isSome
    rw [hagent, ← h.incoming]
    split
    · rename_i ht
      rw [ht, hn]
      rfl
    · rfl
  case ends => exact h.ends
  case uid =>
    intro u a ha
    rw [hagent] at ha
    split at ha
    · rename_i hu
      rw [← Option.some.inj ha, hu]
      rfl
    · exact h.uid u a ha
  case targets => exact h.targets

/-- An agent without relationships may go. -/
theorem Linked.eraseAgent (h : w.Linked) {uid : String}
    (hnone : ∀ other, w.relationship? uid other = none ∧ w.relationship? other uid = none) :
    Linked { w with agents := w.agents.erase uid } := by
  have hagent : ∀ u, World.agent? { w with agents := w.agents.erase uid } u =
      if u = uid then none else w.agent? u :=
    fun u => Dict.get?_erase _ _ _
  constructor
  case outgoing =>
    intro o t
    show _ = (w.relationship? o t).isSome
    rw [hagent]
    split
    · rename_i ho
      rw [ho, (hnone t).1]
      rfl
    · exact h.outgoing o t
  case incoming =>
    intro o t
    show _ = (w.relationship? o t).isSome
    rw [hagent]
    split
    · rename_i ht
      rw [ht, (hnone o).2]
      rfl
    · exact h.incoming o t
  case ends => exact h.ends
  case uid =>
    intro u a ha
    rw [hagent] at ha
    split at ha
    · cases ha
    · exact h.uid u a ha
  case targets => exact h.targets

theorem ofEntities_linked : OfEntities Linked := by
  intro w w' ha hr h
  constructor
  case outgoing => simpa only [agent?, relationship?, ha, hr] using h.outgoing
  case incoming => simpa only [agent?, relationship?, ha, hr] using h.incoming
  case ends => simpa only [relationship?, hr] using h.ends
  case uid => simpa only [agent?, ha] using h.uid
  case targets => simpa only [hr] using h.targets

theorem linked_of_no_entities (ha : w.agents = ∅) (hr : w.relationships = ∅) : w.Linked := by
  constructor <;> simp [agent?, relationship?, ha, hr]

end World

/-! ## Acts -/

namespace Act

open World (Linked)

section RemoveAgent

/-- An agent owns relationships to some agents only, and is the target of those of some only. -/
structure Within (uid : String) (targets owners : List String) (w : World) : Prop where
  owned : ∀ other, (w.relationship? uid other).isSome → other ∈ targets
  leading : ∀ other, (w.relationship? other uid).isSome → other ∈ owners

variable {P Q E : World → Prop} {uid : String} {targets owners : List String}

/-- Removing a relationship takes it from all agents, and no agent gains one. -/
theorem removeRelationship_within {owner target : String} {targets' owners' : List String}
    (ht : ∀ other ∈ targets, owner = uid ∧ target = other ∨ other ∈ targets')
    (ho : ∀ other ∈ owners, owner = other ∧ target = uid ∨ other ∈ owners') :
    Ensures (Within uid targets owners) (removeRelationship owner target)
      (fun _ => Within uid targets' owners') fun _ => True := by
  refine removeRelationship_rule (fun w hw hn => ⟨fun other hother => ?_, fun other hother => ?_⟩)
    fun w r hw _ => leads_retract.mpr ⟨fun facts _ _ => ?_, fun _ _ => trivial⟩
  · refine (ht other (hw.owned other hother)).resolve_left ?_
    rintro ⟨rfl, rfl⟩
    simp [hn] at hother
  · refine (ho other (hw.leading other hother)).resolve_left ?_
    rintro ⟨rfl, rfl⟩
    simp [hn] at hother
  · have hrel := World.relationship?_unlink w owner target
    constructor
    · intro other hother
      change ((w.unlink owner target).relationship? uid other).isSome at hother
      rw [hrel] at hother
      split at hother
      · cases hother
      · rename_i hne
        exact (ht other (hw.owned other hother)).resolve_left fun h => hne ⟨h.1.symm, h.2.symm⟩
    · intro other hother
      change ((w.unlink owner target).relationship? other uid).isSome at hother
      rw [hrel] at hother
      split at hother
      · cases hother
      · rename_i hne
        exact (ho other (hw.leading other hother)).resolve_left fun h => hne ⟨h.1.symm, h.2.symm⟩

/-- The relationships of an agent go one by one; when its fact and the agent itself go, none of them
is left. -/
theorem removeAgent_rule {R : Bool → World → Prop} (hlinked : ∀ w, P w → w.Linked)
    (hskip : ∀ w, P w → R false w)
    (hremove : ∀ owner target, owner = uid ∨ target = uid →
      Ensures P (removeRelationship owner target) (fun _ => P) E)
    (hlast : (∃ w a, P w ∧ w.agent? uid = some a) → ∀ w, P w →
      (∀ other, w.relationship? uid other = none ∧ w.relationship? other uid = none) →
        (deleteFact uid).Leads (fun _ w' => Q { w' with agents := w'.agents.erase uid }) E w)
    (hend : Ensures Q reevaluateAll (fun _ => R true) E) : Ensures P (removeAgent uid) R E := by
  intro w hw
  refine leads_bind.mpr (leads_get.mpr ?_)
  have hl := hlinked w hw
  split
  · exact hskip w hw
  · rename_i a ha
    have howned : ∀ target l, Ensures (Within uid (target :: l) a.incoming.keys)
        (removeRelationship uid target) (fun _ => Within uid l a.incoming.keys) fun _ => True :=
      fun target l => removeRelationship_within (by simp [eq_comm]) (by simp +contextual)
    have hleading : ∀ owner l, Ensures (Within uid [] (owner :: l))
        (removeRelationship owner uid) (fun _ => Within uid [] l) fun _ => True :=
      fun owner l => removeRelationship_within (by simp) (by simp [eq_comm])
    have hstart : Within uid a.outgoing.keys a.incoming.keys w := by
      constructor
      · intro other hother
        rw [← hl.outgoing, ha] at hother
        exact Dict.mem_keys_iff.mpr hother
      · intro other hother
        rw [← hl.incoming, ha] at hother
        exact Dict.mem_keys_iff.mpr hother
    refine Leads.bind (ensures_forM (I := fun l w => P w ∧ Within uid l a.incoming.keys w)
      (fun target l => (((hremove uid target (.inl rfl)).and (howned target l)).weaken
        fun _ h => h.1).discard) _ w ⟨hw, hstart⟩) fun _ => ?_
    refine (ensures_forM (I := fun l w => P w ∧ Within uid [] l w)
      (fun owner l => (((hremove owner uid (.inr rfl)).and (hleading owner l)).weaken
        fun _ h => h.1).discard) _).bind fun _ w' hw' => ?_
    have hnone : ∀ other,
        w'.relationship? uid other = none ∧ w'.relationship? other uid = none := by
      intro other
      constructor
      · exact Option.not_isSome_iff_eq_none.mp fun h => by cases hw'.2.owned other h
      · exact Option.not_isSome_iff_eq_none.mp fun h => by cases hw'.2.leading other h
    have hdelete : Leads (discard (deleteFact uid))
        (fun _ w' => Q { w' with agents := w'.agents.erase uid }) E w' :=
      leads_discard.mpr (hlast ⟨w, a, hw, ha⟩ w' hw'.1 hnone)
    refine hdelete.bind fun _ => ?_
    exact Ensures.bind (Q := fun _ => Q) (ensures_modify fun _ h => h) fun _ =>
      hend.bind fun _ => ensures_pure fun _ h => h

end RemoveAgent

theorem steady_linked : Steady Linked Linked :=
  steady_of_frame fun _ _ h hw => hw.of_frame h

theorem addAgent_linked (agentType uid : String) : (addAgent agentType uid).Keeps Linked := by
  refine addAgent_rule (fun _ hw => hw) (fun w schema facts hw _ hn _ => ?_) fun id =>
    steady_linked.addTrait _ _ _ _
  exact (World.ofEntities_linked w { w with facts } rfl rfl hw).setAgent hn agentType schema.stats

theorem addRelationship_linked (owner target : String) :
    (addRelationship owner target).Keeps Linked := by
  refine addRelationship_rule (fun _ hw => hw) (fun w a b stats facts hw ha hb _ _ => ?_)
    (fun id => steady_linked.addTrait _ _ _ _) (steady_linked.reevaluate _ _)
  exact (World.ofEntities_linked w { w with facts } rfl rfl hw).link ha hb stats

theorem removeRelationship_linked (owner target : String) :
    (removeRelationship owner target).Keeps Linked := by
  refine removeRelationship_rule (fun _ hw _ => hw) fun w r hw _ => ?_
  exact (retract_fixes _).keeps (fun _ _ h hw => hw.of_frame h) _ (hw.unlink owner target)

theorem removeAgent_linked (uid : String) : (removeAgent uid).Keeps Linked := by
  refine removeAgent_rule (Q := Linked) (fun _ hw => hw) (fun _ hw => hw)
    (fun _ _ _ => removeRelationship_linked _ _) (fun _ w hw hnone => leads_deleteFact.mpr
      ⟨fun facts _ _ => ?_, fun _ _ => hw⟩) (ensures_reevaluateAll steady_linked)
  exact (World.ofEntities_linked w { w with facts } rfl rfl hw).eraseAgent hnone

end Act

/-! ## Commands -/

open World (Linked) in
theorem Command.act_linked (c : Command) : c.act.Keeps Linked := by
  have hframe : ∀ w w' : World, w'.frame = w.frame → w.Linked → w'.Linked :=
    fun _ _ h hw => hw.of_frame h
  cases c with
  | addAgent agentType uid => exact Act.addAgent_linked agentType uid
  | removeAgent uid => exact Act.Ensures.discard (Act.removeAgent_linked uid)
  | addRelationship owner target => exact Act.addRelationship_linked owner target
  | removeRelationship owner target =>
      exact Act.Ensures.discard (Act.removeRelationship_linked owner target)
  | setRelationshipKind owner target id =>
      exact (Act.setRelationshipKind_fixes owner target id).discard.keeps hframe
  | insertFact s => exact (Act.insertFact_fixes s).keeps hframe
  | deleteFact s => exact (Act.deleteFact_fixes s).discard.keeps hframe
  | addTrait | addRule | addEvent | addAgentSchema | addRelationshipSchema | clearFacts =>
      exact Act.keeps_modify fun w hw => World.ofEntities_linked w _ rfl rfl hw
  | reset => exact Act.keeps_modify fun w _ => World.linked_of_no_entities rfl rfl
  | _ => exact Act.steady_linked.act rfl

namespace World

theorem Reachable.linked {w : World} (h : w.Reachable) : w.Linked := by
  induction h with
  | empty => exact linked_of_no_entities rfl rfl
  | step c _ ih => exact c.act_linked.holds ih

/-- There is a relationship exactly where both agents are there and linked to each other, no agent
is linked where there is none, and agents and relationships are kept under their own names. -/
structure Registry (w : World) : Prop where
  relationship_iff : ∀ owner target, (w.relationship? owner target).isSome = true ↔
    ∃ a b, w.agent? owner = some a ∧ w.agent? target = some b ∧
      a.outgoing.contains target = true ∧ b.incoming.contains owner = true
  outgoing : ∀ owner a target, w.agent? owner = some a → a.outgoing.contains target = true →
    (w.relationship? owner target).isSome = true
  incoming : ∀ owner b target, w.agent? target = some b → b.incoming.contains owner = true →
    (w.relationship? owner target).isSome = true
  ends : ∀ owner target r, w.relationship? owner target = some r →
    r.owner = owner ∧ r.target = target
  uid : ∀ uid a, w.agent? uid = some a → a.uid = uid
  targets : ∀ owner targets, w.relationships.get? owner = some targets →
    ∃ target, targets.contains target = true

/-- The registry is in order in every world that commands lead to, however they end. -/
theorem Reachable.registry {w : World} (h : w.Reachable) : w.Registry := by
  have hl := h.linked
  constructor
  case relationship_iff =>
    intro owner target
    constructor
    · intro hr
      have hout := (hl.outgoing owner target).trans hr
      have hin := (hl.incoming owner target).trans hr
      obtain ⟨a, ha, hat⟩ := (Option.any_eq_true ..).mp hout
      obtain ⟨b, hb, hbo⟩ := (Option.any_eq_true ..).mp hin
      exact ⟨a, b, ha, hb, hat, hbo⟩
    · rintro ⟨a, b, ha, -, hat, -⟩
      rw [← hl.outgoing, ha]
      exact hat
  case outgoing =>
    intro owner a target ha hat
    rw [← hl.outgoing, ha]
    exact hat
  case incoming =>
    intro owner b target hb hbo
    rw [← hl.incoming, hb]
    exact hbo
  case ends => exact hl.ends
  case uid => exact hl.uid
  case targets =>
    intro owner targets ht
    exact Dict.isEmpty_eq_false_iff.mp (hl.targets owner targets ht)

/-- Of relationships that ask for a trait that there is not: adding one fails, but it stays and so
do its links. An agent that goes takes its relationships along. -/
theorem registry_of_missing_trait :
    ∃ w : World, w.Reachable ∧ w.Registry ∧
      ((Command.addRelationship "ann" "bob").act.runOn w).1.isOk = false ∧
      ((w.relationship? "ann" "ann").isSome, (w.relationship? "ann" "bob").isSome) =
        (true, false) ∧
      ((w.agent? "ann").map fun a => (a.outgoing.keys, a.incoming.keys)) =
        some (["ann"], ["ann", "cat"]) := by
  have hw : World.Reachable ([
      Command.addAgentSchema ⟨"person", [], []⟩,
      .addRelationshipSchema ⟨"person", "person", [], ["close"]⟩,
      .addAgent "person" "ann", .addAgent "person" "bob", .addAgent "person" "cat",
      .addRelationship "ann" "ann", .addRelationship "ann" "bob", .addRelationship "cat" "ann",
      .removeAgent "bob"].foldl World.after ∅) :=
    Reachable.empty.run _
  exact ⟨_, hw, hw.registry, by decide +kernel, by decide +kernel, by decide +kernel⟩

end World

end Society
