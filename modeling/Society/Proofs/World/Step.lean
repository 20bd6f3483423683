import Society.Proofs.Sheet.Renewal
import Society.Proofs.World.Outline

/-!
# What one step does

For each act that changes facts, traits or links: the worlds it goes through, each given by the
world before it. Whatever holds of these holds of the act, so nothing else has to follow an act
through.
-/

namespace Society

/-- The facts without a sentence, and whether it was one of them. -/
def FactDatabase.retract (db : FactDatabase) (s : String) :
    Except FactError (FactDatabase × Bool) := do
  if ← db.assert s then db.delete s else return (db, false)

/-- The sheet with traits to which one has been added, and with its modifiers, numbered from `n`. -/
def Sheet.holding (s : Sheet) (t : Trait) (n : Nat) (held : HeldTraits) : Sheet :=
  ⟨(s.stats.attach (StatModifier.numbered n (t.modifiers.map (.trait t.id, ·)))).result, held⟩

namespace World

theorem sheet?_setSheet {w : World} {e : Entity} {s : Sheet} (hs : w.sheet? e = some s)
    (new : Sheet) : (w.setSheet new e).sheet? e = some new := by
  rw [sheet?_setSheet_apply hs, if_pos rfl]

theorem setSheet_setSheet (w : World) (s new : Sheet) (e : Entity) :
    (w.setSheet s e).setSheet new e = w.setSheet new e := by
  cases e with
  | agent uid =>
      simp only [setSheet, modifyAgent, Dict.modify_modify]
      rfl
  | relationship owner target =>
      simp only [setSheet, modifyRelationship, Dict.modify_modify]
      congr 2
      funext targets
      exact Dict.modify_modify targets target _ _

/-- An entity has a trait on its sheet and its modifiers on its stats, and the facts are others. -/
def holding (w : World) (e : Entity) (s : Sheet) (t : Trait) (held : HeldTraits)
    (facts : FactDatabase) : World :=
  { World.setSheet { w with facts, nextId := w.nextId + t.modifiers.length }
      (s.holding t w.nextId held) e with
    announcements := w.announcements ++
      (s.stats.attach (StatModifier.numbered w.nextId (t.modifiers.map (.trait t.id, ·)))).announced }

theorem outline_holding {w : World} {e : Entity} {s : Sheet} (hs : w.sheet? e = some s) {t : Trait}
    (held : HeldTraits) (facts : FactDatabase) :
    (w.holding e s t held facts).outline =
      (World.setSheet { w with facts } { s with traits := held } e).outline := by
  have hs' : World.sheet? { w with facts } e = some s := by
    cases e <;> exact hs
  rw [← outline_setStats (sheet?_setSheet hs' { s with traits := held })
    (s.holding t w.nextId held).stats, setSheet_setSheet]
  cases e <;> rfl

theorem sheet?_holding {w : World} {e : Entity} {s : Sheet} (hs : w.sheet? e = some s) {t : Trait}
    (held : HeldTraits) (facts : FactDatabase) :
    (w.holding e s t held facts).sheet? e = some (s.holding t w.nextId held) := by
  have hs' : World.sheet? { w with facts, nextId := w.nextId + t.modifiers.length } e = some s := by
    cases e <;> exact hs
  rw [← sheet?_setSheet hs']
  cases e <;> rfl

/-- A relationship is entered, with the links of its agents. -/
def link (w : World) (owner target : String) (r : Relationship) : World :=
  ((w.setRelationship owner target r).modifyAgent owner fun a =>
    { a with outgoing := a.outgoing.insert target }).modifyAgent target fun a =>
      { a with incoming := a.incoming.insert owner }

/-- A relationship is taken out, with the links of its agents. -/
def unlink (w : World) (owner target : String) : World :=
  ((w.eraseRelationship owner target).modifyAgent owner fun a =>
    { a with outgoing := a.outgoing.erase target }).modifyAgent target fun a =>
      { a with incoming := a.incoming.erase owner }

theorem facts_unlink (w : World) (owner target : String) :
    (w.unlink owner target).facts = w.facts := by
  simp only [unlink, eraseRelationship]
  split <;> rfl

end World

namespace Act

variable {P R E : World → Prop} {w : World}

/-! ## Facts -/

theorem leads_insertFact {s : String} {Q : Unit → World → Prop} :
    (insertFact s).Leads Q E w ↔
      (∀ facts, w.facts.insert s = .ok facts → Q () { w with facts }) ∧
        ∀ e, w.facts.insert s = .error e → E w := by
  simp only [insertFact, leads_bind, leads_get, leads_ofFacts, leads_modify]

theorem leads_deleteFact {s : String} {Q : Bool → World → Prop} :
    (deleteFact s).Leads Q E w ↔
      (∀ facts found, w.facts.delete s = .ok (facts, found) → Q found { w with facts }) ∧
        ∀ e, w.facts.delete s = .error e → E w := by
  simp only [deleteFact, leads_bind, leads_get, leads_ofFacts, leads_modify, leads_pure,
    Prod.forall]

theorem leads_retract {s : String} {Q : Bool → World → Prop} :
    (retract s).Leads Q E w ↔
      (∀ facts found, w.facts.retract s = .ok (facts, found) → Q found { w with facts }) ∧
        ∀ e, w.facts.retract s = .error e → E w := by
  simp only [retract, FactDatabase.retract, leads_bind, leads_get, leads_ofFacts, leads_ite,
    leads_deleteFact, leads_pure]
  cases w.facts.assert s with
  | error e => simp [bind, Except.bind]
  | ok there => cases there <;> simp [bind, Except.bind, pure, Except.pure]

/-! ## Sheets -/

variable {e : Entity} {s : Sheet}

theorem leads_requireSheet (hs : w.sheet? e = some s) {Q : Sheet → World → Prop} :
    (requireSheet e).Leads Q E w ↔ Q s w := by
  rw [requireSheet, leads_look]
  simp [hs]

theorem leads_changeTraits (hs : w.sheet? e = some s) {f : HeldTraits → HeldTraits}
    {Q : Unit → World → Prop} :
    (changeTraits e f).Leads Q E w ↔ Q () (w.setSheet { s with traits := f s.traits } e) := by
  rw [changeTraits, leads_bind, leads_requireSheet hs, leads_modify]

theorem leads_changeStats_iff (hs : w.sheet? e = some s) {f : Stats → Change Stats}
    {Q : Unit → World → Prop} :
    (changeStats e f).Leads Q E w ↔
      Q () { w.setSheet { s with stats := (f s.stats).result } e with
        announcements := w.announcements ++ (f s.stats).announced } := by
  rw [changeStats, leads_bind, leads_requireSheet hs, leads_modify]

theorem leads_changeStats (hs : w.sheet? e = some s) {f : Stats → Change Stats}
    {Q : Unit → World → Prop} (hQ : ∀ w', w'.outline = w.outline → Q () w') :
    (changeStats e f).Leads Q E w :=
  (leads_changeStats_iff hs).mpr (hQ _ (World.outline_setStats hs _))

theorem leads_freshId {Q : ModifierId → World → Prop} :
    freshId.Leads Q E w ↔ Q (.fresh w.nextId) { w with nextId := w.nextId + 1 } :=
  Iff.rfl

theorem leads_instances {source : ModifierSource} {specs : List ModifierSpec}
    {Q : List StatModifier → World → Prop} :
    (instances source specs).Leads Q E w ↔
      Q (StatModifier.numbered w.nextId (specs.map (source, ·)))
        { w with nextId := w.nextId + specs.length } := by
  induction specs generalizing w Q with
  | nil => exact Iff.rfl
  | cons spec specs ih =>
      rw [instances, List.mapM_cons, leads_bind, leads_bind, leads_freshId, leads_pure, leads_bind,
        ← instances, ih, leads_pure]
      simp only [List.length_cons, Nat.add_assoc, Nat.add_comm 1]
      rfl

/-- Modifiers are attached wherever no stat is missing, with the numbers that are next. -/
theorem leads_attach_iff {source : ModifierSource} {specs : List ModifierSpec}
    (hs : w.sheet? e = some s) {Q : Unit → World → Prop} :
    (attach e source specs).Leads Q E w ↔
      (s.stats.missing? specs = none →
        let change := s.stats.attach (StatModifier.numbered w.nextId (specs.map (source, ·)))
        Q () { World.setSheet { w with nextId := w.nextId + specs.length }
            { s with stats := change.result } e with
          announcements := w.announcements ++ change.announced }) ∧
      (s.stats.missing? specs ≠ none → E w) := by
  rw [attach, leads_bind, requireStats, leads_bind, leads_requireSheet hs]
  cases s.stats.missing? specs with
  | some stat => simp
  | none =>
      have hs' : World.sheet? { w with nextId := w.nextId + specs.length } e = some s := by
        cases e <;> exact hs
      simp [leads_instances, leads_changeStats_iff hs']

/-! ## Traits -/

section Traits

variable {Q : Bool → World → Prop} {id : String}

theorem leads_requireTraitFor {kind : EntityKind} {Q : Trait → World → Prop}
    (hQ : ∀ t, w.traits.get? id = some t → t.kind = kind → Q t w) (hE : E w) :
    (requireTraitFor kind id).Leads Q E w := by
  refine leads_bind.mpr (leads_look.mpr ⟨fun t ht => ?_, fun _ => hE⟩)
  refine leads_ite.mpr ⟨fun _ => leads_bind.mpr hE, fun hk => ?_⟩
  exact hQ t ht (Classical.not_not.mp hk)

theorem leads_requireTraitFor_of {kind : EntityKind} {t : Trait} {Q : Trait → World → Prop}
    (ht : w.traits.get? id = some t) (hk : t.kind = kind) :
    (requireTraitFor kind id).Leads Q E w ↔ Q t w := by
  rw [requireTraitFor, leads_bind, requireTrait, leads_look]
  simp [ht, hk]

/-- The library has a trait for an entity that is there. -/
structure Offers (w : World) (e : Entity) (id : String) (t : Trait) (s : Sheet) : Prop where
  library : w.traits.get? id = some t
  kind : t.kind = e.kind
  sheet : w.sheet? e = some s

/-- Lets an entity hold a trait, but evaluates nothing. -/
def holdTrait (e : Entity) (id : String) (duration : Int) (description : Option String) :
    Act Bool := do
  let t ← requireTraitFor e.kind id
  let sheet ← requireSheet e
  if !sheet.traits.canAdd t then return false
  requireStats e t.modifiers
  insertFact (e.traitFact id)
  changeTraits e (·.hold t (describe e t description) duration)
  attach e (.trait t.id) t.modifiers
  return true

/-- Evaluates around an entity, if something was done there. -/
def thenEvaluate (e : Entity) (start : Act Bool) : Act Bool := do
  if ← start then
    reevaluateAround e
    return true
  else
    return false

theorem addTrait_eq (e : Entity) (id : String) (duration : Int) (description : Option String) :
    addTrait e id duration description = thenEvaluate e (holdTrait e id duration description) := by
  simp only [addTrait, holdTrait, thenEvaluate, bind_assoc]
  congr
  funext t
  congr
  funext sheet
  split
  · rfl
  · simp

/-- Without an offer nothing is added, and a trait that cannot be added is refused. It fails for want
of a stat or if its fact cannot be told; or else the holder has it. -/
theorem leads_holdTrait_holding {duration : Int} {description : Option String}
    {Q : Bool → World → Prop}
    (hlost : (∀ t s, ¬ Offers w e id t s) → E w)
    (hrefused : ∀ t s, Offers w e id t s → s.traits.canAdd t = false → Q false w)
    (hfails : ∀ t s, Offers w e id t s → s.traits.canAdd t = true →
      s.stats.missing? t.modifiers ≠ none ∨ (∃ error, w.facts.insert (e.traitFact id) = .error error) →
        E w)
    (hholds : ∀ t s facts, Offers w e id t s → s.traits.canAdd t = true →
      s.stats.missing? t.modifiers = none → w.facts.insert (e.traitFact id) = .ok facts →
        Q true (w.holding e s t (s.traits.hold t (describe e t description) duration) facts)) :
    (holdTrait e id duration description).Leads Q E w := by
  rw [holdTrait, leads_bind]
  by_cases hthere : ∃ t s, Offers w e id t s
  case neg =>
    have hE : E w := hlost fun t s h => hthere ⟨t, s, h⟩
    refine leads_requireTraitFor (fun t ht hk => ?_) hE
    exact leads_bind.mpr (leads_look.mpr ⟨fun s hs => absurd ⟨t, s, ht, hk, hs⟩ hthere, fun _ => hE⟩)
  case pos =>
    obtain ⟨t, s, h⟩ := hthere
    rw [leads_requireTraitFor_of h.library h.kind, leads_bind, leads_requireSheet h.sheet]
    refine leads_ite.mpr ⟨fun hadd => hrefused t s h (by simpa using hadd), fun hadd => ?_⟩
    have hadd : s.traits.canAdd t = true := by simpa using hadd
    rw [leads_bind, requireStats, leads_bind, leads_requireSheet h.sheet]
    cases hm : s.stats.missing? t.modifiers with
    | some stat => exact hfails t s h hadd (.inl (by simp [hm]))
    | none =>
        refine leads_bind.mpr (leads_insertFact.mpr ⟨fun facts hf => ?_, fun error hf =>
          hfails t s h hadd (.inr ⟨error, hf⟩)⟩)
        have hs' : World.sheet? { w with facts } e = some s := by
          cases e <;> exact h.sheet
        refine leads_bind.mpr ((leads_changeTraits hs').mpr (leads_bind.mpr ?_))
        refine (leads_attach_iff (World.sheet?_setSheet hs' _)).mpr
          ⟨fun _ => ?_, fun hnot => absurd hm hnot⟩
        have hend := hholds t s facts h hadd hm hf
        rw [World.holding, ← World.setSheet_setSheet _
          { s with traits := s.traits.hold t (describe e t description) duration }] at hend
        cases e <;> exact hend

theorem leads_holdTrait {duration : Int} {description : Option String} {Q : Bool → World → Prop}
    (hlost : (∀ t s, ¬ Offers w e id t s) → E w)
    (hrefused : ∀ t s, Offers w e id t s → s.traits.canAdd t = false → Q false w)
    (hfails : ∀ t s, Offers w e id t s → s.traits.canAdd t = true →
      s.stats.missing? t.modifiers ≠ none ∨ (∃ error, w.facts.insert (e.traitFact id) = .error error) →
        E w)
    (hholds : ∀ t s facts w', Offers w e id t s → s.traits.canAdd t = true →
      s.stats.missing? t.modifiers = none → w.facts.insert (e.traitFact id) = .ok facts →
        w'.outline = ({ w with facts }.setSheet
          { s with traits := s.traits.hold t (describe e t description) duration } e).outline →
        (w'.sheet? e).map (·.traits) = some (s.traits.hold t (describe e t description) duration) →
          Q true w') :
    (holdTrait e id duration description).Leads Q E w := by
  apply leads_holdTrait_holding hlost hrefused hfails
  intro t s facts h hadd hm hf
  refine hholds t s facts _ h hadd hm hf ?_ ?_
  · exact World.outline_holding h.sheet _ facts
  · rw [World.sheet?_holding h.sheet]
    rfl

/-- What holds of a trait that is added holds after the evaluations that follow. -/
theorem leads_addTrait_of_offers {duration : Int} {description : Option String}
    (hlost : (∀ t s, ¬ Offers w e id t s) → E w)
    (hrefused : ∀ t s, Offers w e id t s → s.traits.canAdd t = false → Q false w)
    (hfails : ∀ t s, Offers w e id t s → s.traits.canAdd t = true →
      s.stats.missing? t.modifiers ≠ none ∨ (∃ error, w.facts.insert (e.traitFact id) = .error error) →
        E w)
    (hholds : ∀ t s facts w', Offers w e id t s → s.traits.canAdd t = true →
      s.stats.missing? t.modifiers = none → w.facts.insert (e.traitFact id) = .ok facts →
        w'.outline = ({ w with facts }.setSheet
          { s with traits := s.traits.hold t (describe e t description) duration } e).outline →
            (reevaluateAround e).Leads (fun _ => Q true) E w') :
    (addTrait e id duration description).Leads Q E w := by
  rw [addTrait_eq, thenEvaluate, leads_bind]
  apply leads_holdTrait hlost
  case hrefused => exact fun t s h hadd => hrefused t s h hadd
  case hfails => exact hfails
  case hholds =>
    intro t s facts w' h hadd hm hf hw' _
    exact leads_bind.mpr (hholds t s facts w' h hadd hm hf hw')

/-- A trait is refused, or not added; or its fact is there, and the holder has it. -/
theorem addTrait_rule {duration : Int} {description : Option String}
    (hR : ∀ w w', w'.outline = w.outline → R w → R w') (hE : ∀ w, P w → E w)
    (hskip : ∀ w, P w → Q false w)
    (hhold : ∀ w t s facts text, P w → w.traits.get? id = some t → t.kind = e.kind →
      w.sheet? e = some s → s.traits.canAdd t = true → w.facts.insert (e.traitFact id) = .ok facts →
        R ({ w with facts }.setSheet { s with traits := s.traits.hold t text duration } e))
    (hlast : Ensures R (reevaluateAround e) (fun _ => Q true) E) :
    Ensures P (addTrait e id duration description) Q E := by
  intro w hw
  apply leads_addTrait_of_offers
  case hlost => exact fun _ => hE w hw
  case hrefused => exact fun _ _ _ _ => hskip w hw
  case hfails => exact fun _ _ _ _ _ => hE w hw
  case hholds =>
    intro t s facts w' h hadd _ hf hw'
    apply hlast
    exact hR _ _ hw' (hhold w t s facts _ hw h.library h.kind h.sheet hadd hf)

/-- The type of a relationship stays, or goes with the fact that tells of it. -/
theorem clearKind_rule {R : World → Prop} (hE : ∀ w, P w → w.sheet? e = none → E w)
    (hskip : ∀ w, P w → (∀ owner target r, e = .relationship owner target →
      w.relationship? owner target = some r → r.kind ≠ some id) → R w)
    (hclear : ∀ owner target r, e = .relationship owner target → ∀ w, P w →
      w.relationship? owner target = some r → r.kind = some id →
        (retract (Relationship.kindFact owner target id)).Leads (fun _ => R) E
          (w.modifyRelationship owner target fun r => { r with kind := none })) :
    Ensures P (clearKind e id) (fun _ => R) E := by
  cases e with
  | agent uid => exact fun w hw => hskip w hw (by simp)
  | relationship owner target =>
      intro w hw
      refine leads_bind.mpr (leads_look.mpr ⟨fun r hr => ?_, fun hn => hE w hw ?_⟩)
      case refine_2 => simp [World.sheet?, hn]
      refine leads_ite.mpr ⟨fun hk => ?_, fun hk => hskip w hw ?_⟩
      · exact leads_bind.mpr (leads_discard.mpr (hclear owner target r rfl w hw hr hk))
      · rintro _ _ r' he hr'
        obtain ⟨rfl, rfl⟩ := Entity.relationship.inj he
        obtain rfl := Option.some.inj (hr.symm.trans hr')
        exact hk

/-- A trait that is not held stays away; one that is held is taken from its holder, then its facts
go. -/
theorem removeTrait_rule {R₁ R₂ : World → Prop}
    (hR₁ : ∀ w w', w'.outline = w.outline → R₁ w → R₁ w') (hE : ∀ w, P w → E w)
    (hskip : ∀ w, P w → Q false w)
    (htake : ∀ w s, P w → w.sheet? e = some s → s.traits.contains id = true →
      R₁ (w.setSheet { s with traits := s.traits.erase id } e))
    (hclear : Ensures R₁ (clearKind e id) (fun _ => R₂) E)
    (hretract : Ensures R₂ (retract (e.traitFact id)) (fun _ => R) E)
    (hlast : Ensures R (reevaluateAround e) (fun _ => Q true) E) :
    Ensures P (removeTrait e id) Q E := by
  intro w hw
  refine leads_bind.mpr (leads_look.mpr ⟨fun s hs => ?_, fun _ => hE w hw⟩)
  refine leads_ite.mpr ⟨fun _ => hskip w hw, fun hheld => ?_⟩
  refine leads_bind.mpr ((leads_changeTraits hs).mpr ?_)
  refine leads_bind.mpr (leads_changeStats (World.sheet?_setSheet hs _) fun w' hw' => ?_)
  have hw₁ : R₁ w' := hR₁ _ _ hw' (htake w s hw hs (by simpa using hheld))
  exact (hclear.bind fun _ => hretract.discard.bind fun _ => hlast.bind fun _ =>
    ensures_pure fun _ h => h) w' hw₁

/-- The type that a relationship had is taken from it; the new one is recorded, then its fact, and
then the relationship holds it. -/
theorem leads_setRelationshipKind {owner target : String} (hw : P w) (hE : ∀ w, P w → E w)
    (htake : ∀ r previous, w.relationship? owner target = some r → r.kind = some previous →
      (removeTrait (.relationship owner target) previous).Leads (fun _ => P) E w)
    (hset : (∃ w t, P w ∧ w.traits.get? id = some t) → ∀ w r, P w →
      w.relationship? owner target = some r →
        (insertFact (Relationship.kindFact owner target id)).Leads (fun _ => R) E
          (w.modifyRelationship owner target fun r => { r with kind := some id }))
    (hadd : Ensures R (addTrait (.relationship owner target) id (-1) none) Q E) :
    (setRelationshipKind owner target id).Leads Q E w := by
  refine leads_bind.mpr (leads_discard.mpr (leads_requireTraitFor (fun t ht _ => ?_) (hE w hw)))
  have hend : Ensures P (do
      discard <| requireRelationship owner target
      modify fun w => w.modifyRelationship owner target fun r => { r with kind := some id }
      insertFact (Relationship.kindFact owner target id)
      addTrait (.relationship owner target) id (-1) none) Q E := by
    intro w' hw'
    refine leads_bind.mpr (leads_discard.mpr (leads_look.mpr ⟨fun r hr => ?_, fun _ => hE w' hw'⟩))
    refine leads_bind.mpr (leads_modify.mpr ?_)
    exact (hset ⟨w, t, hw, ht⟩ w' r hw' hr).bind fun _ => hadd
  refine leads_bind.mpr (leads_look.mpr ⟨fun r hr => ?_, fun _ => hE w hw⟩)
  cases hk : r.kind with
  | none => exact hend w hw
  | some previous =>
      have hdiscard : (discard (removeTrait (.relationship owner target) previous)).Leads
          (fun _ => P) E w :=
        leads_discard.mpr (htake r previous hr hk)
      exact hdiscard.bind fun _ => hend

theorem setRelationshipKind_rule {owner target : String} (hE : ∀ w, P w → E w)
    (htake : ∀ previous,
      Ensures P (removeTrait (.relationship owner target) previous) (fun _ => P) E)
    (hset : (∃ w t, P w ∧ w.traits.get? id = some t) → ∀ w r, P w →
      w.relationship? owner target = some r →
        (insertFact (Relationship.kindFact owner target id)).Leads (fun _ => R) E
          (w.modifyRelationship owner target fun r => { r with kind := some id }))
    (hadd : Ensures R (addTrait (.relationship owner target) id (-1) none) Q E) :
    Ensures P (setRelationshipKind owner target id) Q E :=
  fun w hw => leads_setRelationshipKind hw hE (fun _ previous _ _ => htake previous w hw) hset hadd

end Traits

/-! ## Agents and relationships -/

theorem addAgent_rule {agentType uid : String} (hE : ∀ w, P w → E w)
    (hnew : ∀ w schema facts, P w → w.agentSchemas.get? agentType = some schema →
      w.agent? uid = none → w.facts.insert uid = .ok facts →
        R ({ w with facts }.setAgent uid (.create uid agentType schema.stats)))
    (htraits : ∀ id, Ensures R (addTrait (.agent uid) id (-1) none) (fun _ => R) E) :
    Ensures P (addAgent agentType uid) (fun _ => R) E := by
  intro w hw
  refine leads_bind.mpr (leads_look.mpr ⟨fun schema hs => ?_, fun _ => hE w hw⟩)
  refine leads_bind.mpr (leads_ite.mpr ⟨fun _ => leads_bind.mpr (hE w hw), fun hn => ?_⟩)
  refine leads_bind.mpr (leads_insertFact.mpr ⟨fun facts hf => ?_, fun _ _ => hE w hw⟩)
  have hnone : w.agent? uid = none := by simpa [Dict.contains, World.agent?] using hn
  exact ensures_forM (I := fun _ => R) (fun id _ => (htraits id).discard) schema.traits _
    (hnew w schema facts hw hs hnone hf)

theorem addRelationship_rule {owner target : String} {Q : Unit → World → Prop}
    (hE : ∀ w, P w → E w)
    (hlink : ∀ w a b schema facts, P w → w.agent? owner = some a → w.agent? target = some b →
      w.relationship? owner target = none →
        w.facts.insert (Entity.relationship owner target).fact = .ok facts →
          R ({ w with facts }.link owner target (.create owner target schema)))
    (htraits : ∀ id, Ensures R (addTrait (.relationship owner target) id (-1) none) (fun _ => R) E)
    (hlast : Ensures R (reevaluate owner target) Q E) :
    Ensures P (addRelationship owner target) Q E := by
  intro w hw
  refine leads_bind.mpr (leads_look.mpr ⟨fun a ha => ?_, fun _ => hE w hw⟩)
  refine leads_bind.mpr (leads_look.mpr ⟨fun b hb => ?_, fun _ => hE w hw⟩)
  refine leads_bind.mpr (leads_look.mpr ⟨fun schema _ => ?_, fun _ => hE w hw⟩)
  refine leads_bind.mpr (leads_ite.mpr ⟨fun _ => leads_bind.mpr (hE w hw), fun hn => ?_⟩)
  refine leads_bind.mpr (leads_insertFact.mpr ⟨fun facts hf => ?_, fun _ _ => hE w hw⟩)
  have hloop := ensures_forM (I := fun _ => R) (fun id _ => (htraits id).discard) schema.traits
  have hend := (hloop.bind fun _ => hlast) _
    (hlink w a b schema.stats facts hw ha hb (by simpa using hn) hf)
  rw [← Leads, World.link] at hend
  simpa only [leads_bind, leads_modify] using hend

theorem removeRelationship_rule {owner target : String} {Q : Bool → World → Prop}
    (hskip : ∀ w, P w → w.relationship? owner target = none → Q false w)
    (hunlink : ∀ w r, P w → w.relationship? owner target = some r →
      (retract (Entity.relationship owner target).fact).Leads (fun _ => Q true) E
        (w.unlink owner target)) :
    Ensures P (removeRelationship owner target) Q E := by
  intro w hw
  refine leads_bind.mpr (leads_ite.mpr ⟨fun hn => hskip w hw (by simpa using hn), fun hn => ?_⟩)
  obtain ⟨r, hr⟩ := Option.ne_none_iff_exists'.mp (by simpa using hn)
  have hend := hunlink w r hw hr
  simp only [World.unlink] at hend
  simp only [leads_bind, leads_modify, leads_discard]
  exact hend

/-- A relationship modifier is attached behind the others, and then its agent is evaluated. -/
theorem addRelationshipModifier_rule {uid : String} {given : Option String}
    {m : RelationshipModifier} {R : ModifierId → World → Prop} {Q : ModifierId → World → Prop}
    (hE : ∀ w, P w → E w) (hfresh : ∀ w n, P w → P { w with nextId := n })
    (hattach : ∀ w a id, P w → w.agent? uid = some a →
      R id (w.modifyAgent uid fun a => { a with modifiers := a.modifiers ++ [{ m with id }] }))
    (hlast : ∀ id, Ensures (R id) (reevaluateAgent uid) (fun _ => Q id) E) :
    Ensures P (addRelationshipModifier uid given m) Q E := by
  intro w hw
  refine leads_bind.mpr (leads_discard.mpr (leads_look.mpr ⟨fun a ha => ?_, fun _ => hE w hw⟩))
  have hend (id : ModifierId) : Ensures (fun w => P w ∧ w.agent? uid = some a) (do
      modify fun w => w.modifyAgent uid fun a =>
        { a with modifiers := a.modifiers ++ [{ m with id }] }
      reevaluateAgent uid
      return id) Q E :=
    Ensures.bind (Q := fun _ => R id) (ensures_modify fun w hw => hattach w a id hw.1 hw.2) fun _ =>
      (hlast id).bind fun _ => ensures_pure fun _ h => h
  cases given with
  | some given => exact hend (.given given) w ⟨hw, ha⟩
  | none => exact leads_bind.mpr (leads_freshId.mpr (hend (.fresh w.nextId) _ ⟨hfresh w _ hw, ha⟩))

end Act

end Society
