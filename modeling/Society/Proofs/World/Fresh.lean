import Mathlib.Data.List.Nodup
import Society.Proofs.World.Local
import Society.Proofs.World.Mirror

/-!
# Which listed rules are never stale

A command evaluates the relationships next to what it changes, and no others. So a rule that is met
by what is reported about a relationship and its two agents is listed exactly where it is met, but a
rule that looks further may be listed for too long.
-/

namespace Society

namespace World

/-- Some rules of the library are listed, in its order. A local rule is one of them exactly if it is
met by facts that report what the world shows. -/
def Lists (w : World) (owner target : String) (listed : List ActiveRule) : Prop :=
  ∃ p : SocialRule → Bool, listed.map (·.id) = (w.rules.filter p).map (·.id) ∧
    ∀ rule ∈ w.rules, rule.Local owner target →
      ∀ (db : FactDatabase) (T : Report → Prop), db.Tells T →
        (∀ r : Report, r.IsOf owner target → (T r ↔ w.Shows r)) →
          p rule = db.meets owner target rule.preconditions

/-- What is listed is right, but for relationships that are still to be evaluated. -/
structure FreshBut (stale : String → String → Prop) (w : World) : Prop where
  nodup : (w.rules.map (·.id)).Nodup
  lists : ∀ owner target listed, w.active? owner target = some listed → ¬ stale owner target →
    w.Lists owner target listed

/-- The facts mirror the world, and what is listed is right but for some relationships. -/
def CurrentBut (stale : String → String → Prop) (w : World) : Prop :=
  w.Mirrors [] ∧ w.FreshBut stale

variable {w w' : World} {stale stale' : String → String → Prop} {owner target : String}

/-! ## Changes that no local rule sees -/

theorem isSome_active? (w : World) (owner target : String) :
    (w.active? owner target).isSome = (w.relationship? owner target).isSome :=
  Option.isSome_map

/-- The lists stay right where they are the same and the same is shown. -/
theorem FreshBut.congr (h : w.FreshBut stale) (hrules : w'.rules = w.rules)
    (hsame : ∀ o t listed, w'.active? o t = some listed → ¬ stale' o t →
      w.active? o t = some listed ∧ ¬ stale o t ∧
        ∀ r : Report, r.IsOf o t → (w'.Shows r ↔ w.Shows r)) : w'.FreshBut stale' := by
  refine ⟨hrules ▸ h.nodup, fun o t listed hl hs => ?_⟩
  obtain ⟨hl', hs', hshows⟩ := hsame o t listed hl hs
  obtain ⟨p, hids, hp⟩ := h.lists o t listed hl' hs'
  rw [← hrules] at hids hp
  refine ⟨p, hids, fun rule hrule hlocal db T hT hTw => ?_⟩
  exact hp rule hrule hlocal db T hT fun r hr => (hTw r hr).trans (hshows r hr)

/-- Where there is no relationship nothing is stale. -/
theorem FreshBut.mono (h : w.FreshBut stale)
    (hs : ∀ o t, (w.relationship? o t).isSome = true → stale o t → stale' o t) :
    w.FreshBut stale' := by
  refine h.congr rfl fun o t listed hl hn =>
    ⟨hl, fun hstale => hn (hs o t ?_ hstale), fun _ _ => .rfl⟩
  rw [← isSome_active?, hl]
  rfl

theorem FreshBut.of_outline (h : w.FreshBut stale) (hw : w'.outline = w.outline) :
    w'.FreshBut stale := by
  refine h.congr (congrArg (·.rules) hw) fun o t listed hl hs => ⟨?_, hs, fun r _ => ?_⟩
  · rwa [← active?_of_outline hw]
  · exact shows_of_face (face_eq_of_outline_eq hw) r

theorem CurrentBut.mono (h : w.CurrentBut stale)
    (hs : ∀ o t, (w.relationship? o t).isSome = true → stale o t → stale' o t) :
    w.CurrentBut stale' :=
  ⟨h.1, h.2.mono hs⟩

theorem CurrentBut.of_outline (h : w.CurrentBut stale) (hw : w'.outline = w.outline) :
    w'.CurrentBut stale :=
  ⟨h.1.of_face (face_eq_of_outline_eq hw), h.2.of_outline hw⟩

theorem FreshBut.of_entities (h : w.FreshBut stale) (hrules : w'.rules = w.rules)
    (ha : w'.agents = w.agents) (hr : w'.relationships = w.relationships) : w'.FreshBut stale := by
  refine h.congr hrules fun o t listed hl hs => ⟨?_, hs, fun r _ => shows_congr ha hr r⟩
  simpa only [active?, relationship?, hr] using hl

/-- Of an entity everything may change, as long as the relationships next to it are evaluated then.
-/
theorem FreshBut.setSheet {e : Entity} {s new : Sheet} (h : w.FreshBut stale)
    (hs : w.sheet? e = some s) :
    (w.setSheet new e).FreshBut fun o t => stale o t ∨ e.IsOf o t := by
  have hactive : ∀ o t, (w.setSheet new e).active? o t = w.active? o t := by
    intro o t
    cases e with
    | agent uid => rfl
    | relationship owner target =>
        rw [World.setSheet, active?_modifyRelationship]
        split
        · rename_i hot
          rw [hot.1, hot.2]
          rfl
        · rfl
  refine h.congr (by cases e <;> rfl) fun o t listed hl hn => ?_
  rw [hactive] at hl
  obtain ⟨hstale, he⟩ := not_or.mp hn
  refine ⟨hl, hstale, fun r hr => ?_⟩
  rw [shows_setSheet hs]
  cases r with
  | present e' => rfl
  | kind owner target id => rfl
  | holds e' trait =>
      have hne : e' ≠ e := fun heq => he (heq ▸ hr)
      simp [hne]

theorem FreshBut.modifyKind {rel : Relationship} (h : w.FreshBut stale)
    (hrel : w.relationship? owner target = some rel) (kind : Option String) :
    (w.modifyRelationship owner target fun r => { r with kind }).FreshBut stale := by
  refine h.congr rfl fun o t listed hl hs => ⟨?_, hs, fun r hr => ?_⟩
  · rw [active?_modifyRelationship] at hl
    split at hl
    · rename_i hot
      rwa [hot.1, hot.2]
    · exact hl
  · rw [shows_modifyKind hrel]
    cases r with
    | kind o' t' id => cases hr
    | _ => rfl

/-- No relationship is next to an agent that was not there. -/
theorem FreshBut.setAgent {uid : String} (h : w.FreshBut stale) (hl : w.Linked)
    (hn : w.agent? uid = none) (agentType : String) (stats : List StatSchema) :
    (w.setAgent uid (.create uid agentType stats)).FreshBut stale := by
  refine h.congr rfl fun o t listed hlisted hs => ⟨hlisted, hs, fun r hr => ?_⟩
  rw [shows_setAgent hn, or_iff_right]
  rintro rfl
  have hrel : (w.relationship? o t).isSome = true := by
    rw [← isSome_active?]
    exact Option.isSome_iff_exists.mpr ⟨listed, hlisted⟩
  obtain ⟨ho, ht⟩ := hl.isSome_agents hrel
  rcases hr with heq | heq | heq
  · simp [← Entity.agent.inj heq, hn] at ho
  · simp [← Entity.agent.inj heq, hn] at ht
  · cases heq

/-- A new relationship is still to be evaluated. -/
theorem FreshBut.link (h : w.FreshBut stale) (hn : w.relationship? owner target = none)
    (stats : List StatSchema) :
    (w.link owner target (.create owner target stats)).FreshBut fun o t =>
      stale o t ∨ (o = owner ∧ t = target) := by
  refine h.congr rfl fun o t listed hl hs => ?_
  obtain ⟨hstale, hot⟩ := not_or.mp hs
  rw [active?, relationship?_link, if_neg hot] at hl
  refine ⟨hl, hstale, fun r hr => ?_⟩
  rw [shows_link hn, or_iff_right]
  rintro rfl
  rcases hr with heq | heq | heq
  · cases heq
  · cases heq
  · exact hot ((Entity.relationship.inj heq).imp Eq.symm Eq.symm)

/-- What another relationship takes along is no concern of a relationship. -/
theorem FreshBut.unlink (h : w.FreshBut stale) (owner target : String) :
    (w.unlink owner target).FreshBut stale := by
  have hrules : (w.unlink owner target).rules = w.rules := by
    simp only [World.unlink, eraseRelationship]
    split <;> rfl
  refine h.congr hrules fun o t listed hl hs => ?_
  rw [active?, relationship?_unlink] at hl
  split at hl
  · cases hl
  · rename_i hot
    refine ⟨hl, hs, fun r hr => ?_⟩
    rw [shows_unlink, and_iff_left]
    rintro hpre
    have hne : ¬ (owner = o ∧ target = t) := fun heq => hot ⟨heq.1.symm, heq.2.symm⟩
    rcases r with e | ⟨e, trait⟩ | _
    · rcases hr with rfl | rfl | rfl <;> simp [List.cons_prefix_cons, hne] at hpre
    · rcases hr with rfl | rfl | rfl <;> simp [List.cons_prefix_cons] at hpre
      exact hne hpre
    · cases hr

/-- What an agent without relationships takes along is no concern of a relationship. -/
theorem FreshBut.eraseAgent {uid : String} (h : w.FreshBut stale)
    (hnone : ∀ other, w.relationship? uid other = none ∧ w.relationship? other uid = none) :
    FreshBut stale { w with agents := w.agents.erase uid } := by
  refine h.congr rfl fun o t listed hl hs => ⟨hl, hs, fun r hr => ?_⟩
  have hrel : w.relationship? o t ≠ none := by
    intro hn
    have hactive : w.active? o t = some listed := hl
    simp [active?, hn] at hactive
  have ho : uid ≠ o := by
    rintro rfl
    exact hrel (hnone t).1
  have ht : uid ≠ t := by
    rintro rfl
    exact hrel (hnone o).2
  rw [shows_eraseAgent fun other => (hnone other).1, and_iff_left]
  intro hpre
  rcases r with e | ⟨e, trait⟩ | _
  · rcases hr with rfl | rfl | rfl <;> simp [List.cons_prefix_cons, ho, ht] at hpre
  · rcases hr with rfl | rfl | rfl <;> simp [List.cons_prefix_cons, ho, ht] at hpre
  · cases hr

/-! ## Evaluations -/

/-- A relationship that is evaluated is stale no longer. -/
theorem FreshBut.listing {v : World} (h : v.FreshBut stale) (hm : v.Mirrors [])
    (hw : Listing v owner target
      ((v.rules.filter fun rule => v.facts.meets owner target rule.preconditions).map
        (·.entry owner target)) w) :
    w.FreshBut fun o t => stale o t ∧ ¬ (o = owner ∧ t = target) := by
  have hshows : ∀ r, w.Shows r ↔ v.Shows r := shows_of_face hw.face_eq
  refine ⟨hw.rules_eq ▸ h.nodup, fun o t listed hl hs => ?_⟩
  rw [hw.active?_eq] at hl
  split at hl
  · rename_i hot
    obtain ⟨rfl, rfl⟩ := hot
    obtain rfl := Option.some.inj hl
    obtain ⟨T₀, hT₀, hiff⟩ := hm.tells
    refine ⟨fun rule => v.facts.meets o t rule.preconditions, ?_, ?_⟩
    · rw [List.map_map, hw.rules_eq]
      rfl
    · intro rule _ hlocal db T hT hTw
      refine hlocal v.facts db T₀ T hT₀ hT fun r hr => ?_
      rw [hiff r (by simp), ← hshows, hTw r hr]
  · rename_i hot
    obtain ⟨p, hids, hp⟩ := h.lists o t listed hl fun hstale => hs ⟨hstale, hot⟩
    rw [← hw.rules_eq] at hids hp
    refine ⟨p, hids, fun rule hrule hlocal db T hT hTw => ?_⟩
    exact hp rule hrule hlocal db T hT fun r hr => (hTw r hr).trans (hshows r)

end World

/-! ## Acts -/

namespace Act

open World (Mirrors FreshBut CurrentBut Shows)

variable {stale : String → String → Prop}

theorem reevaluate_current (owner target : String) :
    Ensures (CurrentBut stale) (reevaluate owner target)
      (fun _ => CurrentBut fun o t => stale o t ∧ ¬ (o = owner ∧ t = target)) fun _ => True := by
  intro w hw
  have hmirrors : (reevaluate owner target).Keeps (Mirrors []) :=
    reevaluateAround_mirrors (.relationship owner target)
  have hboth := (reevaluate_lists w owner target).and hmirrors
  exact ((hboth.mono (fun _ h => h) fun _ _ h => ⟨h.2, hw.2.listing hw.1 h.1⟩).weaken
    fun _ _ => trivial) w ⟨rfl, hw.1⟩

/-- Relationships of an agent are evaluated one after the other until none of them is stale. -/
theorem reevaluateAgent_current (uid : String) :
    Ensures (CurrentBut fun o t => stale o t ∨ (Entity.agent uid).IsOf o t) (reevaluateAgent uid)
      (fun _ => CurrentBut stale) fun _ => True := by
  intro w hw
  refine leads_bind.mpr (leads_look.mpr ⟨fun a ha => ?_, fun _ => trivial⟩)
  have hstart : CurrentBut (fun o t => stale o t ∨ (o = uid ∧ t ∈ a.outgoing.keys) ∨
      (t = uid ∧ o ∈ a.incoming.keys)) w := by
    refine hw.mono fun o t hrel hs => hs.imp_right ?_
    have hout := (hw.1.linked.outgoing o t).trans hrel
    have hin := (hw.1.linked.incoming o t).trans hrel
    rintro (heq | heq | heq)
    · obtain rfl := Entity.agent.inj heq
      exact .inl ⟨rfl, Dict.mem_keys_iff.mpr (by simpa [ha] using hout)⟩
    · obtain rfl := Entity.agent.inj heq
      exact .inr ⟨rfl, Dict.mem_keys_iff.mpr (by simpa [ha] using hin)⟩
    · cases heq
  refine (Ensures.bind (ensures_forM (I := fun l => CurrentBut fun o t => stale o t ∨
    (o = uid ∧ t ∈ l) ∨ (t = uid ∧ o ∈ a.incoming.keys)) (fun target l => ?_) _) fun _ => ?_)
    w hstart
  · refine (reevaluate_current uid target).mono (fun _ h => h) fun _ w' h =>
      h.mono fun o t _ hs => ?_
    grind
  · refine (ensures_forM (I := fun l => CurrentBut fun o t => stale o t ∨ (t = uid ∧ o ∈ l))
      (fun owner l => ?_) _).mono (fun w' h => h.mono fun o t _ hs => ?_)
        fun _ w' h => h.mono fun o t _ hs => ?_
    · refine (reevaluate_current owner uid).mono (fun _ h => h) fun _ w' h =>
        h.mono fun o t _ hs => ?_
      grind
    · simpa using hs
    · simpa using hs

/-- After a change of an entity the relationships next to it are evaluated. -/
theorem reevaluateAround_current (e : Entity) :
    Ensures (CurrentBut fun o t => stale o t ∨ e.IsOf o t) (reevaluateAround e)
      (fun _ => CurrentBut stale) fun _ => True := by
  cases e with
  | agent uid => exact reevaluateAgent_current uid
  | relationship owner target =>
      refine (reevaluate_current owner target).mono (fun _ h => h) fun _ w h =>
        h.mono fun o t _ hs => ?_
      refine hs.1.resolve_right fun he => hs.2 ?_
      simpa [Entity.IsOf, eq_comm] using he

theorem addTrait_current (e : Entity) (id : String) (duration : Int) (description : Option String) :
    Ensures (CurrentBut stale) (addTrait e id duration description) (fun _ => CurrentBut stale)
      fun _ => True := by
  refine addTrait_rule (R := CurrentBut fun o t => stale o t ∨ e.IsOf o t) (fun w w' h hw => ?_)
    (fun _ _ => trivial) (fun _ hw => hw) (fun w t s facts text hw ht _ hs _ hf => ?_)
    (reevaluateAround_current e)
  · exact hw.of_outline h
  · have hs' : World.sheet? { w with facts } e = some s := by
      cases e <;> exact hs
    have hfacts : FreshBut stale { w with facts } := hw.2.of_entities rfl rfl rfl
    exact ⟨hw.1.hold ht hs hf text duration, hfacts.setSheet hs'⟩

theorem retract_fresh (s : String) :
    Ensures (FreshBut stale) (retract s) (fun _ => FreshBut stale) fun _ => True :=
  fun _ hw => leads_retract.mpr ⟨fun _ _ _ => hw.of_entities rfl rfl rfl, fun _ _ => trivial⟩

theorem clearKind_fresh (e : Entity) (id : String) :
    Ensures (FreshBut stale) (clearKind e id) (fun _ => FreshBut stale) fun _ => True := by
  refine clearKind_rule (fun _ _ _ => trivial) (fun _ hw _ => hw) ?_
  rintro owner target rel - w hw hrel -
  exact retract_fresh _ _ (hw.modifyKind hrel none)

theorem removeTrait_current (e : Entity) (id : String) :
    Ensures (CurrentBut stale) (removeTrait e id) (fun _ => CurrentBut stale) fun _ => True := by
  have hclear : Ensures
      (fun w => (Mirrors [.holds e id] w ∧ w.Shows (.present e)) ∧
        FreshBut (fun o t => stale o t ∨ e.IsOf o t) w)
      (clearKind e id)
      (fun _ w => Mirrors [.holds e id] w ∧ FreshBut (fun o t => stale o t ∨ e.IsOf o t) w)
      fun _ => True :=
    ((clearKind_mirrors (E := fun _ => True) e id).and (clearKind_fresh e id)).weaken
      fun _ _ => trivial
  have hretract : Ensures
      (fun w => Mirrors [.holds e id] w ∧ FreshBut (fun o t => stale o t ∨ e.IsOf o t) w)
      (retract (e.traitFact id))
      (fun _ => CurrentBut fun o t => stale o t ∨ e.IsOf o t) fun _ => True :=
    ((retract_mirrors (E := fun _ => True) (.holds e id)).and (retract_fresh _)).weaken
      fun _ _ => trivial
  refine removeTrait_rule (fun w w' h hw => ?_) (fun _ _ => trivial) (fun _ hw => hw)
    (fun w s hw hs hheld => ?_) hclear hretract (reevaluateAround_current e)
  · have hface := World.face_eq_of_outline_eq h
    exact ⟨⟨hw.1.1.of_face hface, (World.shows_of_face hface _).mpr hw.1.2⟩, hw.2.of_outline h⟩
  · refine ⟨⟨hw.1.takeTrait hs hheld, ?_⟩, hw.2.setSheet hs⟩
    exact (World.shows_erase hs id _).mpr ⟨by simp [Shows, hs], by simp⟩

theorem steady_current : Steady (CurrentBut stale) fun _ => True where
  weaken _ _ := trivial
  of_outline _ _ h hw := hw.of_outline h
  reevaluate owner target := (reevaluate_current owner target).mono (fun _ h => h) fun _ _ h =>
    h.mono fun _ _ _ hs => hs.1
  addTrait := addTrait_current
  removeTrait := removeTrait_current

theorem setRelationshipKind_current (owner target id : String) :
    Ensures (CurrentBut stale) (setRelationshipKind owner target id) (fun _ => CurrentBut stale)
      fun _ => True := by
  refine setRelationshipKind_rule (fun _ _ => trivial)
    (fun previous => removeTrait_current _ previous) ?_ (addTrait_current _ _ _ _)
  rintro ⟨w₀, t, hw₀, ht⟩ w rel hw hrel
  obtain ⟨facts, hf, hmirrors⟩ := hw.1.setKind (hw₀.1.library id t ht).2 hrel
  refine leads_insertFact.mpr ⟨fun facts' hf' => ?_, fun _ _ => trivial⟩
  obtain rfl := Except.ok.inj (hf.symm.trans hf')
  exact ⟨hmirrors, (hw.2.modifyKind hrel (some id)).of_entities rfl rfl rfl⟩

theorem addAgent_current {uid : String} (huid : Sentence.IsWord uid) (agentType : String) :
    Ensures (CurrentBut stale) (addAgent agentType uid) (fun _ => CurrentBut stale)
      fun _ => True := by
  refine addAgent_rule (fun _ _ => trivial) (fun w schema facts hw _ hn hf => ?_) fun id =>
    addTrait_current _ _ _ _
  have hfacts : FreshBut stale { w with facts } := hw.2.of_entities rfl rfl rfl
  exact ⟨hw.1.setAgent huid hn hf agentType _,
    hfacts.setAgent (World.ofEntities_linked w _ rfl rfl hw.1.linked) hn agentType _⟩

theorem addRelationship_current (owner target : String) :
    Ensures (CurrentBut stale) (addRelationship owner target) (fun _ => CurrentBut stale)
      fun _ => True := by
  refine addRelationship_rule (R := CurrentBut fun o t => stale o t ∨ (o = owner ∧ t = target))
    (fun _ _ => trivial) (fun w a b stats facts hw ha hb hn hf => ?_)
    (fun id => addTrait_current _ _ _ _) ?_
  · have hfacts : FreshBut stale { w with facts } := hw.2.of_entities rfl rfl rfl
    exact ⟨hw.1.link ha hb hn hf stats, hfacts.link hn stats⟩
  · exact (reevaluate_current owner target).mono (fun _ h => h) fun _ _ h =>
      h.mono fun _ _ _ hs => hs.1.resolve_right hs.2

theorem removeRelationship_current (owner target : String) :
    Ensures (CurrentBut stale) (removeRelationship owner target) (fun _ => CurrentBut stale)
      fun _ => True := by
  have hfresh : Ensures (FreshBut stale) (removeRelationship owner target)
      (fun _ => FreshBut stale) fun _ => True :=
    removeRelationship_rule (fun _ hw _ => hw) fun _ _ hw _ =>
      retract_fresh _ _ (hw.unlink owner target)
  exact ((removeRelationship_mirrors owner target).and hfresh).weaken fun _ _ => trivial

theorem removeAgent_current (uid : String) :
    Ensures (CurrentBut stale) (removeAgent uid) (fun _ => CurrentBut stale) fun _ => True := by
  refine removeAgent_rule (Q := CurrentBut stale) (fun _ hw => hw.1.linked) (fun _ hw => hw)
    (fun _ _ _ => removeRelationship_current _ _) ?_ (ensures_reevaluateAll steady_current)
  rintro ⟨w₀, a, hw₀, ha⟩ w hw hnone
  have huid := isWord_of_agent ⟨w₀, a, hw₀.1, ha⟩
  refine leads_deleteFact.mpr ⟨fun facts found hf => ?_, fun _ _ => trivial⟩
  have hfacts : FreshBut stale { w with facts } := hw.2.of_entities rfl rfl rfl
  exact ⟨hw.1.eraseAgent huid hnone hf, hfacts.eraseAgent hnone⟩

theorem Ensures.after_ok {P E : World → Prop} {x : Act Unit} (h : Ensures P x (fun _ => P) E)
    {w : World} (hw : P w) (hok : (x.runOn w).1.isOk = true) : P (x.runOn w).2 := by
  have hend := h w hw
  cases hx : x.runOn w with
  | mk r w' =>
      rw [hx] at hend hok
      cases r with
      | ok _ => exact hend
      | error e => cases hok

end Act

/-! ## Commands -/

/-- The command succeeds and brings words only, and no rule where there are agents. -/
structure Command.Orderly (w : World) (c : Command) : Prop where
  plain : c.Plain
  succeeds : (c.act.runOn w).1.isOk = true
  early : ∀ rule, c = .addRule rule → w.agents = ∅

namespace SocialRule

theorem mem_map_id_addTo {rule : SocialRule} {rules : List SocialRule} {id : String}
    (h : id ∈ (rule.addTo rules).map (·.id)) : id = rule.id ∨ id ∈ rules.map (·.id) := by
  induction rules with
  | nil => simpa [addTo] using h
  | cons r rules ih =>
      rw [addTo] at h
      split at h
      · rename_i hid
        exact (List.mem_cons.mp h).imp_right (List.mem_cons_of_mem _)
      · rcases List.mem_cons.mp h with rfl | h
        · exact .inr List.mem_cons_self
        · exact (ih h).imp_right (List.mem_cons_of_mem _)

/-- No two rules of a library have the same id. -/
theorem nodup_addTo (rule : SocialRule) {rules : List SocialRule}
    (h : (rules.map (·.id)).Nodup) : ((rule.addTo rules).map (·.id)).Nodup := by
  induction rules with
  | nil => simp [addTo]
  | cons r rules ih =>
      obtain ⟨hr, hrules⟩ := List.nodup_cons.mp h
      rw [addTo]
      split
      · rename_i hid
        exact List.nodup_cons.mpr ⟨by simpa only [hid] using hr, hrules⟩
      · rename_i hid
        exact List.nodup_cons.mpr ⟨fun hmem => (mem_map_id_addTo hmem).elim hid hr, ih hrules⟩

end SocialRule

namespace World

variable {w : World} {owner target : String}

theorem Linked.no_relationships (h : w.Linked) (ha : w.agents = ∅) (owner target : String) :
    w.relationship? owner target = none := by
  have hagent : w.agent? owner = none := by simp [agent?, ha]
  refine Option.not_isSome_iff_eq_none.mp fun hrel => ?_
  simpa [hagent] using (h.isSome_agents hrel).1

theorem CurrentBut.after {c : Command} (h : w.CurrentBut fun _ _ => False) (hc : c.Orderly w) :
    (w.after c).CurrentBut fun _ _ => False := by
  have hmirrors : (w.after c).Mirrors [] := (Command.act_mirrors hc.plain).holds h.1
  cases c with
  | addTrait t => exact ⟨hmirrors, h.2.of_entities rfl rfl rfl⟩
  | addRule rule =>
      refine ⟨hmirrors, SocialRule.nodup_addTo rule h.2.nodup, fun o t listed hl _ => ?_⟩
      have hnone := h.1.linked.no_relationships (hc.early rule rfl) o t
      have hactive : w.active? o t = some listed := hl
      simp [active?, hnone] at hactive
  | addEvent e => exact ⟨hmirrors, h.2.of_entities rfl rfl rfl⟩
  | addAgentSchema s => exact ⟨hmirrors, h.2.of_entities rfl rfl rfl⟩
  | addRelationshipSchema s => exact ⟨hmirrors, h.2.of_entities rfl rfl rfl⟩
  | addAgent agentType uid =>
      exact (Act.addAgent_current hc.plain agentType).after_ok h hc.succeeds
  | removeAgent uid => exact (Act.removeAgent_current uid).discard.after_ok h hc.succeeds
  | addRelationship owner target =>
      exact (Act.addRelationship_current owner target).after_ok h hc.succeeds
  | removeRelationship owner target =>
      exact (Act.removeRelationship_current owner target).discard.after_ok h hc.succeeds
  | setRelationshipKind owner target id =>
      exact (Act.setRelationshipKind_current owner target id).discard.after_ok h hc.succeeds
  | reset => exact ⟨hmirrors, h.2.nodup, fun o t listed hl _ => by cases hl⟩
  | insertFact s => cases hc.plain
  | deleteFact s => cases hc.plain
  | clearFacts => cases hc.plain
  | _ => exact (Act.steady_current.act rfl).after_ok h hc.succeeds

theorem ReachableBy.current (h : w.ReachableBy fun w c => c.Orderly w) :
    w.CurrentBut fun _ _ => False := by
  induction h with
  | empty =>
      have hempty : World.ReachableBy (fun _ c => c.Plain) ∅ := .empty
      exact ⟨hempty.mirrors, List.nodup_nil, fun o t listed hl _ => by cases hl⟩
  | step c _ hc ih => exact ih.after hc

/-- A local rule is listed for a relationship exactly if the facts meet it, and if the library has
local rules only, then the rules that are met are listed in its order. -/
theorem ReachableBy.fresh (h : w.ReachableBy fun w c => c.Orderly w) {r : Relationship}
    (hr : w.relationship? owner target = some r) :
    (∀ rule ∈ w.rules, rule.Local owner target →
      (rule.id ∈ r.activeRules.map (·.id) ↔
        w.facts.meets owner target rule.preconditions = true)) ∧
    ((∀ rule ∈ w.rules, rule.Local owner target) →
      r.activeRules.map (·.id) =
        (w.rules.filter fun rule => w.facts.meets owner target rule.preconditions).map (·.id)) := by
  obtain ⟨hm, hfresh⟩ := h.current
  obtain ⟨T, hT, hiff⟩ := hm.tells
  obtain ⟨p, hids, hp⟩ := hfresh.lists owner target r.activeRules (by simp [active?, hr]) id
  have hmeets : ∀ rule ∈ w.rules, rule.Local owner target →
      p rule = w.facts.meets owner target rule.preconditions :=
    fun rule hrule hlocal => hp rule hrule hlocal w.facts T hT fun r _ => hiff r (by simp)
  constructor
  · intro rule hrule hlocal
    rw [hids, ← hmeets rule hrule hlocal, List.mem_map]
    constructor
    · rintro ⟨rule', hrule', hid⟩
      obtain ⟨hmem, hp'⟩ := List.mem_filter.mp hrule'
      rwa [← List.inj_on_of_nodup_map hfresh.nodup hmem hrule hid]
    · exact fun hp' => ⟨rule, List.mem_filter.mpr ⟨hrule, hp'⟩, rfl⟩
  · intro hlocal
    rw [hids, List.filter_congr fun rule hrule => hmeets rule hrule (hlocal rule hrule)]

/-- Ann is friendly, and there is a rule by which she welcomes who is not rude. -/
def welcomeRun : List Command := [
  .addRule ⟨"welcome", "", ["?owner.traits.friendly", "not ?target.traits.rude"], []⟩,
  .addTrait ⟨"friendly", .agent, "Friendly", "", [], ∅⟩,
  .addAgentSchema ⟨"person", [], []⟩, .addRelationshipSchema ⟨"person", "person", [], []⟩,
  .addAgent "person" "ann", .addAgent "person" "bob", .addRelationship "ann" "bob",
  .giveTrait (.agent "ann") "friendly" (-1) none]

/-- Whoever is not rude is welcomed by a friendly one: this rule is local, and listed where it is
met. -/
theorem fresh_of_welcome :
    ∃ (w : World) (r : Relationship) (rule : SocialRule),
      (w.ReachableBy fun w c => c.Orderly w) ∧ w.relationship? "ann" "bob" = some r ∧
      rule ∈ w.rules ∧ rule.Local "ann" "bob" ∧ rule.id ∈ r.activeRules.map (·.id) ∧
      w.facts.meets "ann" "bob" rule.preconditions = true := by
  have hw : World.ReachableBy (fun w c => c.Orderly w) (welcomeRun.foldl World.after ∅) :=
    ReachableBy.empty.run
      ⟨⟨trivial, rfl, fun _ _ => rfl⟩, ⟨rfl, rfl, nofun⟩, ⟨trivial, rfl, nofun⟩,
        ⟨trivial, rfl, nofun⟩, ⟨rfl, by decide +kernel, nofun⟩, ⟨rfl, by decide +kernel, nofun⟩,
        ⟨trivial, by decide +kernel, nofun⟩, ⟨trivial, by decide +kernel, nofun⟩, trivial⟩
  obtain ⟨r, hr⟩ := Option.isSome_iff_exists.mp
    (show ((welcomeRun.foldl World.after ∅).relationship? "ann" "bob").isSome = true by
      decide +kernel)
  have hrules : (welcomeRun.foldl World.after ∅).rules.map (·.preconditions) =
      [["?owner.traits.friendly", "not ?target.traits.rude"]] := by decide +kernel
  obtain ⟨rule, hrule, hpre⟩ := List.mem_map.mp (hrules ▸ List.mem_singleton_self _)
  have hlocal : rule.Local "ann" "bob" := by
    refine SocialRule.local_of_tests fun clause hc => ?_
    rw [hpre] at hc
    rcases List.mem_pair.mp hc with rfl | rfl
    · exact ⟨true, .holds (.agent "ann") "friendly", ⟨⟨rfl, rfl⟩, _, _, rfl, rfl, rfl⟩, .inl rfl⟩
    · exact ⟨false, .holds (.agent "bob") "rude", ⟨⟨rfl, rfl⟩, _, _, rfl, rfl, rfl⟩,
        .inr (.inl rfl)⟩
  have hmeets : (welcomeRun.foldl World.after ∅).facts.meets "ann" "bob" rule.preconditions =
      true := by
    rw [hpre]
    decide +kernel
  exact ⟨_, r, rule, hw, hr, hrule, hlocal, ((hw.fresh hr).1 rule hrule hlocal).mpr hmeets, hmeets⟩

/-- Ann tells tales of who has to do with Carl, and then Bob has to do with Carl no longer. -/
def gossipRun : List Command := [
  .addRule ⟨"gossip", "", ["?target.relationships.carl"], []⟩,
  .addAgentSchema ⟨"person", [], []⟩, .addRelationshipSchema ⟨"person", "person", [], []⟩,
  .addAgent "person" "ann", .addAgent "person" "bob", .addAgent "person" "carl",
  .addRelationship "bob" "carl", .addRelationship "ann" "bob", .removeRelationship "bob" "carl"]

/-- A rule that looks at another relationship stays listed when that relationship is gone. -/
theorem gossip_is_stale :
    ¬ ∀ (w : World) (owner target : String) (r : Relationship),
      (w.ReachableBy fun w c => c.Orderly w) → w.relationship? owner target = some r →
        r.activeRules.map (·.id) =
          (w.rules.filter fun rule => w.facts.meets owner target rule.preconditions).map
            (·.id) := by
  intro h
  have hw : World.ReachableBy (fun w c => c.Orderly w) (gossipRun.foldl World.after ∅) :=
    ReachableBy.empty.run
      ⟨⟨trivial, rfl, fun _ _ => rfl⟩, ⟨trivial, rfl, nofun⟩, ⟨trivial, rfl, nofun⟩,
        ⟨rfl, by decide +kernel, nofun⟩, ⟨rfl, by decide +kernel, nofun⟩,
        ⟨rfl, by decide +kernel, nofun⟩, ⟨trivial, by decide +kernel, nofun⟩,
        ⟨trivial, by decide +kernel, nofun⟩, ⟨trivial, by decide +kernel, nofun⟩, trivial⟩
  have hlisted : ((gossipRun.foldl World.after ∅).relationship? "ann" "bob").map
      (·.activeRules.map (·.id)) = some ["gossip"] := by decide +kernel
  have hmet : ((gossipRun.foldl World.after ∅).rules.filter fun rule =>
      (gossipRun.foldl World.after ∅).facts.meets "ann" "bob" rule.preconditions).map (·.id) =
        [] := by decide +kernel
  obtain ⟨r, hr, hids⟩ := Option.map_eq_some_iff.mp hlisted
  have heq := h _ "ann" "bob" r hw hr
  rw [hids, hmet] at heq
  cases heq

end World

end Society
