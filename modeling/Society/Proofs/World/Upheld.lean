import Society.Proofs.World.Mirror

/-!
# What is upheld

What can be said of any facts whatever is inserted and deleted, and of any entity whatever traits
come, go and are counted down, every world upholds: no command ends it, however the command ends.
-/

namespace Society

/-- Of facts, whatever is asked of them. -/
def FactDatabase.Stable (F : FactDatabase → Prop) : Prop :=
  ∀ db c, F db → F (db.step c).2

/-- Of an entity, the traits that it holds and its type, whatever time is left. -/
def HeldTraits.Timeless (T : Entity → HeldTraits → Option String → Prop) : Prop :=
  ∀ e held held' kind,
    Dict.map held' HeldTrait.outline = Dict.map held HeldTrait.outline →
      T e held kind → T e held' kind

/-- Whatever traits come and go, too. A type goes with its trait. -/
structure HeldTraits.Stable (T : Entity → HeldTraits → Option String → Prop) : Prop where
  timeless : Timeless T
  empty : ∀ e, T e ∅ none
  hold : ∀ e held kind (t : Trait) text duration, T e held kind → t.kind = e.kind →
    held.canAdd t = true → T e (held.hold t text duration) kind
  erase : ∀ e held kind id, T e held kind → T e (Dict.erase held id) (kind.filter (· ≠ id))

/-! ## Facts -/

namespace FactDatabase

variable {F : FactDatabase → Prop} {db db' : FactDatabase} {s : String} {found : Bool}

theorem stable_true : Stable fun _ => True := fun _ _ _ => trivial

theorem Stable.insert (h : Stable F) (hdb : F db) (hi : db.insert s = .ok db') : F db' := by
  simpa only [step, hi] using h db (.insert s) hdb

theorem Stable.delete (h : Stable F) (hdb : F db) (hd : db.delete s = .ok (db', found)) :
    F db' := by
  simpa only [step, hd] using h db (.delete s) hdb

theorem Stable.clear (h : Stable F) (hdb : F db) : F db.clear :=
  h db .clear hdb

/-- Either there was nothing to take back, or it was deleted. -/
theorem retract_eq_ok (hr : db.retract s = .ok (db', found)) :
    db.assert s = .ok false ∧ db' = db ∨
      db.assert s = .ok true ∧ db.delete s = .ok (db', found) := by
  cases ha : db.assert s with
  | error e => simp [FactDatabase.retract, ha, bind, Except.bind] at hr
  | ok there =>
      simp only [FactDatabase.retract, ha, bind, Except.bind] at hr
      cases there with
      | true => exact .inr ⟨rfl, by simpa using hr⟩
      | false =>
          cases hr
          exact .inl ⟨rfl, rfl⟩

theorem Stable.retract (h : Stable F) (hdb : F db) (hr : db.retract s = .ok (db', found)) :
    F db' := by
  cases retract_eq_ok hr with
  | inl hkept => exact hkept.2 ▸ hdb
  | inr hd => exact h.delete hdb hd.2

end FactDatabase

/-! ## Types -/

namespace World

/-- The type that is recorded of an entity. An agent has none. -/
def kind? (w : World) : Entity → Option String
  | .agent _ => none
  | .relationship owner target => (w.relationship? owner target).bind (·.kind)

variable {w w' : World}

theorem kind?_congr (hr : w'.relationships = w.relationships) (e : Entity) :
    w'.kind? e = w.kind? e := by
  cases e <;> simp [kind?, relationship?, hr]

theorem kind?_face (w : World) (e : Entity) : w.face.kind? e = w.kind? e := by
  cases e with
  | agent uid => rfl
  | relationship owner target =>
      simp only [kind?, face, relationship?_mask]
      cases w.relationship? owner target <;> rfl

theorem kind?_of_face (h : w'.face = w.face) (e : Entity) : w'.kind? e = w.kind? e := by
  rw [← kind?_face w', h, kind?_face]

theorem kind?_setSheet (w : World) (s : Sheet) (e e' : Entity) :
    (w.setSheet s e).kind? e' = w.kind? e' := by
  cases e with
  | agent uid => exact kind?_congr rfl e'
  | relationship owner target =>
      cases e' with
      | agent uid => rfl
      | relationship o t =>
          simp only [setSheet, kind?, relationship?_modifyRelationship]
          split
          · rename_i hot
            rw [hot.1, hot.2]
            cases w.relationship? owner target <;> rfl
          · rfl

theorem kind?_modifyKind {owner target : String} {r : Relationship}
    (hr : w.relationship? owner target = some r) (kind : Option String) (e : Entity) :
    (w.modifyRelationship owner target fun r => { r with kind }).kind? e =
      if e = .relationship owner target then kind else w.kind? e := by
  cases e with
  | agent uid => simp [kind?]
  | relationship o t =>
      simp only [kind?, relationship?_modifyRelationship, Entity.relationship.injEq]
      split <;> simp [hr]

theorem kind?_link (w : World) (owner target : String) (r : Relationship) (e : Entity) :
    (w.link owner target r).kind? e =
      if e = .relationship owner target then r.kind else w.kind? e := by
  cases e with
  | agent uid => simp [kind?]
  | relationship o t =>
      simp only [kind?, relationship?_link, Entity.relationship.injEq]
      split <;> rfl

theorem kind?_unlink (w : World) (owner target : String) (e : Entity) :
    (w.unlink owner target).kind? e =
      if e = .relationship owner target then none else w.kind? e := by
  cases e with
  | agent uid => simp [kind?]
  | relationship o t =>
      simp only [kind?, relationship?_unlink, Entity.relationship.injEq]
      split <;> rfl

end World

/-! ## Worlds -/

namespace World

/-- The facts are as `F` says, and everybody is as `T` says. -/
structure Upholds (F : FactDatabase → Prop) (T : Entity → HeldTraits → Option String → Prop)
    (w : World) : Prop where
  facts : F w.facts
  traits : ∀ e s, w.sheet? e = some s → T e s.traits (w.kind? e)

section

variable {F : FactDatabase → Prop} {T T' : Entity → HeldTraits → Option String → Prop}
  {w w' : World}

/-- Those who were there as they are or who are as `T` says do no harm. -/
theorem Upholds.of_sheets (h : w.Upholds F T) (hfacts : F w'.facts)
    (hsheets : ∀ e s, w'.sheet? e = some s →
      w.sheet? e = some s ∧ w'.kind? e = w.kind? e ∨ T e s.traits (w'.kind? e)) :
    w'.Upholds F T where
  facts := hfacts
  traits e s hs := by
    cases hsheets e s hs with
    | inl hsame => exact hsame.2 ▸ h.traits e s hsame.1
    | inr hT => exact hT

theorem Upholds.of_face (h : w.Upholds F T) (hT : HeldTraits.Timeless T) (hface : w'.face = w.face) :
    w'.Upholds F T where
  facts := by
    have hfacts : w'.facts = w.facts := congrArg (·.facts) hface
    exact hfacts ▸ h.facts
  traits e s hs := by
    have hsheet : (w.sheet? e).map Sheet.outline = some s.outline := by
      rw [← sheet?_face, ← hface, sheet?_face, hs]
      rfl
    obtain ⟨s₀, hs₀, heq⟩ := Option.map_eq_some_iff.mp hsheet
    rw [kind?_of_face hface]
    exact hT e _ _ _ (congrArg Sheet.traits heq).symm (h.traits e s₀ hs₀)

theorem Upholds.of_entities (h : w.Upholds F T) (ha : w'.agents = w.agents)
    (hr : w'.relationships = w.relationships) (hfacts : F w'.facts) : w'.Upholds F T := by
  apply h.of_sheets hfacts
  intro e s hs
  exact .inl ⟨(sheet?_congr ha hr e).symm.trans hs, kind?_congr hr e⟩

theorem Upholds.setFacts (h : w.Upholds F T) {facts : FactDatabase} (hfacts : F facts) :
    Upholds F T { w with facts } :=
  h.of_entities rfl rfl hfacts

theorem upholds_of_no_entities (ha : w.agents = ∅) (hr : w.relationships = ∅) (hf : F w.facts) :
    w.Upholds F T where
  facts := hf
  traits e s hs := by cases e <;> simp [sheet?, agent?, relationship?, ha, hr] at hs

theorem Upholds.setSheet (h : w.Upholds F T) {e : Entity} {s new : Sheet}
    (hs : w.sheet? e = some s) (hother : ∀ e' held kind, e' ≠ e → T e' held kind → T' e' held kind)
    (hnew : T e s.traits (w.kind? e) → T' e new.traits (w.kind? e)) :
    (w.setSheet new e).Upholds F T' where
  facts := by cases e <;> exact h.facts
  traits e' s' hs' := by
    rw [sheet?_setSheet_apply hs] at hs'
    rw [kind?_setSheet]
    split at hs'
    · rename_i he
      subst he
      cases hs'
      exact hnew (h.traits e' s hs)
    · rename_i he
      exact hother e' s'.traits _ he (h.traits e' s' hs')

theorem Upholds.modifyKind (h : w.Upholds F T) {owner target : String} {r : Relationship}
    (hr : w.relationship? owner target = some r) {kind : Option String}
    (hother : ∀ e held kind, e ≠ .relationship owner target → T e held kind → T' e held kind)
    (hkind : ∀ held, T (.relationship owner target) held r.kind →
      T' (.relationship owner target) held kind) :
    (w.modifyRelationship owner target fun r => { r with kind }).Upholds F T' where
  facts := h.facts
  traits e s hs := by
    rw [sheet?_modifyRelationship (by intro r; rfl)] at hs
    rw [kind?_modifyKind hr]
    have hT := h.traits e s hs
    split
    · rename_i he
      subst he
      apply hkind
      simpa [kind?, hr] using hT
    · rename_i he
      exact hother e _ _ he hT

theorem Upholds.setAgent (h : w.Upholds F T) (hT : HeldTraits.Stable T) (uid agentType : String)
    (stats : List StatSchema) : (w.setAgent uid (.create uid agentType stats)).Upholds F T := by
  apply h.of_sheets
  · exact h.facts
  · intro e s hs
    rw [sheet?_setAgent] at hs
    split at hs
    · rename_i he
      subst he
      cases hs
      exact .inr (hT.empty _)
    · exact .inl ⟨hs, kind?_congr rfl e⟩

theorem Upholds.link (h : w.Upholds F T) (hT : HeldTraits.Stable T) (owner target : String)
    (stats : List StatSchema) :
    (w.link owner target (.create owner target stats)).Upholds F T := by
  apply h.of_sheets
  · exact h.facts
  · intro e s hs
    rw [World.link, sheet?_modifyAgent (by intro a; rfl), sheet?_modifyAgent (by intro a; rfl),
      sheet?_setRelationship] at hs
    rw [kind?_link]
    split at hs
    · rename_i he
      cases hs
      right
      rw [if_pos he]
      exact hT.empty e
    · rename_i he
      exact .inl ⟨hs, if_neg he⟩

theorem Upholds.unlink (h : w.Upholds F T) (owner target : String) :
    (w.unlink owner target).Upholds F T := by
  apply h.of_sheets
  · exact facts_unlink w owner target ▸ h.facts
  · intro e s hs
    rw [World.unlink, sheet?_modifyAgent (by intro a; rfl), sheet?_modifyAgent (by intro a; rfl),
      sheet?_eraseRelationship] at hs
    rw [kind?_unlink]
    split at hs
    · cases hs
    · rename_i he
      exact .inl ⟨hs, if_neg he⟩

theorem Upholds.eraseAgent (h : w.Upholds F T) (uid : String) :
    Upholds F T { w with agents := w.agents.erase uid } := by
  apply h.of_sheets
  · exact h.facts
  · intro e s hs
    rw [sheet?_eraseAgent] at hs
    split at hs
    · cases hs
    · exact .inl ⟨hs, kind?_congr rfl e⟩

/-- Everybody is as `T` says, once `id` is no longer the type of `e`. -/
def UpholdsBut (e : Entity) (id : String) (F : FactDatabase → Prop)
    (T : Entity → HeldTraits → Option String → Prop) : World → Prop :=
  Upholds F fun e' held kind => T e' held (if e' = e then kind.filter (· ≠ id) else kind)

theorem Upholds.erase (h : w.Upholds F T) (hT : HeldTraits.Stable T) {e : Entity} {s : Sheet}
    (hs : w.sheet? e = some s) (id : String) :
    (w.setSheet { s with traits := s.traits.erase id } e).UpholdsBut e id F T := by
  apply h.setSheet hs
  · intro e' held kind he hkind
    rwa [if_neg he]
  · intro hheld
    rw [if_pos rfl]
    exact hT.erase e _ _ id hheld

theorem UpholdsBut.of_face {e : Entity} {id : String} (h : w.UpholdsBut e id F T)
    (hT : HeldTraits.Timeless T) (hface : w'.face = w.face) : w'.UpholdsBut e id F T :=
  Upholds.of_face h (fun _ _ _ _ hout hheld => hT _ _ _ _ hout hheld) hface

/-- Nothing is left to be done if `id` is not the type of `e`. -/
theorem UpholdsBut.settled {e : Entity} {id : String} (h : w.UpholdsBut e id F T)
    (hkind : ∀ s, w.sheet? e = some s → w.kind? e ≠ some id) : w.Upholds F T where
  facts := h.facts
  traits e' s hs := by
    have hT := h.traits e' s hs
    split at hT
    · rename_i he
      subst he
      have hne := hkind s hs
      cases hk : w.kind? e' with
      | none => simpa [hk] using hT
      | some kind =>
          have hid : kind ≠ id := fun heq => hne (heq ▸ hk)
          simpa [hk, Option.filter, hid] using hT
    · exact hT

end

end World

/-! ## Acts -/

namespace Act

open World (Upholds UpholdsBut)

variable {F : FactDatabase → Prop} {T : Entity → HeldTraits → Option String → Prop}

theorem leads_insertFact_upholds (hF : FactDatabase.Stable F) {w : World} (h : w.Upholds F T)
    {s : String} : (insertFact s).Leads (fun _ => Upholds F T) (Upholds F T) w :=
  leads_insertFact.mpr ⟨fun _ hf => h.setFacts (hF.insert h.facts hf), fun _ _ => h⟩

theorem deleteFact_upholds (hF : FactDatabase.Stable F) (s : String) :
    (deleteFact s).Keeps (Upholds F T) :=
  fun _ hw => leads_deleteFact.mpr
    ⟨fun _ _ hf => hw.setFacts (hF.delete hw.facts hf), fun _ _ => hw⟩

theorem retract_upholds (hF : FactDatabase.Stable F) (s : String) :
    (retract s).Keeps (Upholds F T) :=
  fun _ hw => leads_retract.mpr
    ⟨fun _ _ hf => hw.setFacts (hF.retract hw.facts hf), fun _ _ => hw⟩

theorem reevaluateAround_upholds (hT : HeldTraits.Timeless T) (e : Entity) :
    (reevaluateAround e).Keeps (Upholds F T) :=
  (reevaluateAround_fixes e).keeps fun _ _ h hw => hw.of_face hT h

theorem addTrait_upholds (hF : FactDatabase.Stable F) (hT : HeldTraits.Stable T) (e : Entity)
    (id : String) (duration : Int) (description : Option String) :
    (addTrait e id duration description).Keeps (Upholds F T) := by
  apply addTrait_rule (R := Upholds F T)
  case hR => exact fun _ _ h hw => hw.of_face hT.timeless (World.face_eq_of_outline_eq h)
  case hE => exact fun _ hw => hw
  case hskip => exact fun _ hw => hw
  case hlast => exact reevaluateAround_upholds hT.timeless e
  case hhold =>
    intro w t s facts text hw _ hkind hs hadd hf
    have hs' : World.sheet? { w with facts } e = some s := by
      cases e <;> exact hs
    apply (hw.setFacts (hF.insert hw.facts hf)).setSheet hs'
    · exact fun _ _ _ _ hheld => hheld
    · exact fun hheld => hT.hold e _ _ t text duration hheld hkind hadd

/-- The type of an entity goes with the trait that was taken from it. -/
theorem clearKind_upholds (hF : FactDatabase.Stable F) (e : Entity) (id : String) :
    Ensures (UpholdsBut e id F T) (clearKind e id) (fun _ => Upholds F T) (Upholds F T) := by
  apply clearKind_rule
  case hE =>
    intro w hw hnone
    apply hw.settled
    simp [hnone]
  case hskip =>
    intro w hw hkind
    apply hw.settled
    intro s hs
    cases e with
    | agent uid => simp [World.kind?]
    | relationship owner target =>
        obtain ⟨r, hr, -⟩ := Option.map_eq_some_iff.mp hs
        simpa [World.kind?, hr] using hkind owner target r rfl hr
  case hclear =>
    rintro owner target r rfl w hw hr hk
    apply retract_upholds hF
    apply hw.modifyKind hr
    · intro e held kind he hheld
      rwa [if_neg he] at hheld
    · intro held hheld
      simpa [hk, Option.filter] using hheld

theorem removeTrait_upholds (hF : FactDatabase.Stable F) (hT : HeldTraits.Stable T) (e : Entity)
    (id : String) : (removeTrait e id).Keeps (Upholds F T) := by
  refine removeTrait_rule ?_ (fun _ hw => hw) (fun _ hw => hw) ?_ (clearKind_upholds hF e id)
    (retract_upholds hF _) (reevaluateAround_upholds hT.timeless e)
  · exact fun _ _ h hw => hw.of_face hT.timeless (World.face_eq_of_outline_eq h)
  · exact fun _ _ hw hs _ => hw.erase hT hs id

theorem steady_upholds (hF : FactDatabase.Stable F) (hT : HeldTraits.Stable T) :
    Steady (Upholds F T) (Upholds F T) where
  weaken _ hw := hw
  of_outline _ _ h hw := hw.of_face hT.timeless (World.face_eq_of_outline_eq h)
  reevaluate owner target := reevaluateAround_upholds hT.timeless (.relationship owner target)
  addTrait := addTrait_upholds hF hT
  removeTrait := removeTrait_upholds hF hT

/-- A type that is recorded ends nothing that is said of any type. -/
theorem setRelationshipKind_upholds (hF : FactDatabase.Stable F) (hT : HeldTraits.Stable T)
    (hany : ∀ e held kind kind', T e held kind → T e held kind') (owner target id : String) :
    (setRelationshipKind owner target id).Keeps (Upholds F T) := by
  apply setRelationshipKind_rule (R := Upholds F T)
  case hE => exact fun _ hw => hw
  case htake => exact fun previous => removeTrait_upholds hF hT _ previous
  case hadd => exact addTrait_upholds hF hT _ _ _ _
  case hset =>
    intro _ w r hw hr
    apply leads_insertFact_upholds hF
    apply hw.modifyKind hr
    · exact fun _ _ _ _ hheld => hheld
    · exact fun held hheld => hany _ _ _ _ hheld

theorem addAgent_upholds (hF : FactDatabase.Stable F) (hT : HeldTraits.Stable T)
    (agentType uid : String) : (addAgent agentType uid).Keeps (Upholds F T) :=
  addAgent_rule (fun _ hw => hw)
    (fun _ schema _ hw _ _ hf =>
      (hw.setFacts (hF.insert hw.facts hf)).setAgent hT uid agentType schema.stats)
    fun _ => addTrait_upholds hF hT _ _ _ _

theorem addRelationship_upholds (hF : FactDatabase.Stable F) (hT : HeldTraits.Stable T)
    (owner target : String) : (addRelationship owner target).Keeps (Upholds F T) :=
  addRelationship_rule (fun _ hw => hw)
    (fun _ _ _ stats _ hw _ _ _ hf =>
      (hw.setFacts (hF.insert hw.facts hf)).link hT owner target stats)
    (fun _ => addTrait_upholds hF hT _ _ _ _)
    (reevaluateAround_upholds hT.timeless (.relationship owner target))

theorem removeRelationship_upholds (hF : FactDatabase.Stable F) (owner target : String) :
    (removeRelationship owner target).Keeps (Upholds F T) :=
  removeRelationship_rule (fun _ hw _ => hw) fun _ _ hw _ =>
    retract_upholds hF _ _ (hw.unlink owner target)

theorem removeAgent_upholds (hF : FactDatabase.Stable F) (hT : HeldTraits.Stable T) (uid : String) :
    (removeAgent uid).Keeps (Upholds F T) := by
  have hremove : ∀ owner target, (discard (removeRelationship owner target)).Keeps (Upholds F T) :=
    fun owner target => Ensures.discard (removeRelationship_upholds hF owner target)
  apply keeps_get.bind
  intro w
  split
  · exact keeps_pure _
  · apply Keeps.bind (Keeps.forM fun _ => hremove _ _)
    intro _
    apply Keeps.bind (Keeps.forM fun _ => hremove _ _)
    intro _
    apply Keeps.bind (Ensures.discard (deleteFact_upholds hF uid))
    intro _
    apply Keeps.bind (keeps_modify fun w hw => hw.eraseAgent uid)
    intro _
    exact Keeps.bind (ensures_reevaluateAll (steady_upholds hF hT)) fun _ => keeps_pure _

end Act

open World (Upholds) in
/-- Every command keeps what is stable, if those that record a type do. -/
theorem Command.act_upholds {F : FactDatabase → Prop}
    {T : Entity → HeldTraits → Option String → Prop} (hF : FactDatabase.Stable F)
    (hT : HeldTraits.Stable T) (c : Command)
    (hset : ∀ owner target id, c = .setRelationshipKind owner target id →
      c.act.Keeps (Upholds F T)) : c.act.Keeps (Upholds F T) := by
  cases c with
  | addTrait | addRule | addEvent | addAgentSchema | addRelationshipSchema =>
      exact Act.keeps_modify fun w hw => hw.of_entities rfl rfl hw.facts
  | addAgent agentType uid => exact Act.addAgent_upholds hF hT agentType uid
  | removeAgent uid => exact Act.Ensures.discard (Act.removeAgent_upholds hF hT uid)
  | addRelationship owner target => exact Act.addRelationship_upholds hF hT owner target
  | removeRelationship owner target =>
      exact Act.Ensures.discard (Act.removeRelationship_upholds hF owner target)
  | setRelationshipKind owner target id => exact hset owner target id rfl
  | reset =>
      exact Act.keeps_modify fun w hw =>
        World.upholds_of_no_entities rfl rfl (hF.clear hw.facts)
  | insertFact s => exact fun _ hw => Act.leads_insertFact_upholds hF hw
  | deleteFact s => exact Act.Ensures.discard (Act.deleteFact_upholds hF s)
  | clearFacts => exact Act.keeps_modify fun w hw => hw.setFacts (hF.clear hw.facts)
  | _ => exact (Act.steady_upholds hF hT).act rfl

end Society
