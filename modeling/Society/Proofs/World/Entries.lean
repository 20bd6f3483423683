import Society.Proofs.World.Influence
import Society.Proofs.World.Page

/-!
# Acts on the page of an entity

What the acts that read and write one page ensure, as long as all other pages are balanced. When such
an act fails before the page has changed, everything is balanced still.
-/

namespace Society.Act

open World (OfEntities Balanced BalancedBut)

variable {α : Type}

/-! ## Acts that leave the entities alone -/

section Entities

variable {P E : World → Prop}

theorem Keeps.ensures {x : Act α} (h : x.Keeps P) (hE : ∀ w, P w → E w) :
    Ensures P x (fun _ => P) E := by
  intro w hw
  have hend := h w hw
  split at hend
  · exact hend
  · exact hE _ hend

theorem insertFact_keeps (hP : OfEntities P) (s : String) : (insertFact s).Keeps P :=
  keeps_get.bind fun _ => (keeps_ofFacts _).bind fun _ => keeps_modify fun w hw => hP w _ rfl rfl hw

theorem deleteFact_keeps (hP : OfEntities P) (s : String) : (deleteFact s).Keeps P :=
  keeps_get.bind fun _ => (keeps_ofFacts _).bind fun (_, _) =>
    Keeps.bind (keeps_modify fun w hw => hP w _ rfl rfl hw) fun _ => keeps_pure _

theorem clearFacts_keeps (hP : OfEntities P) : clearFacts.Keeps P :=
  keeps_modify fun w hw => hP w _ rfl rfl hw

theorem retract_keeps (hP : OfEntities P) (s : String) : (retract s).Keeps P :=
  keeps_get.bind fun _ => (keeps_ofFacts _).bind fun _ =>
    Ensures.ite (fun _ => deleteFact_keeps hP s) fun _ => keeps_pure _

/-- Clearing the type of a relationship changes its entry, and the facts. -/
theorem clearKind_keeps (e : Entity) (id : String)
    (hkind : ∀ (w : World) (owner target : String), e = .relationship owner target → P w →
      P (w.modifyRelationship owner target fun r => { r with kind := none }))
    (hretract : ∀ s, (retract s).Keeps P) : (clearKind e id).Keeps P := by
  cases e with
  | agent uid => exact keeps_pure _
  | relationship owner target =>
      refine Keeps.bind (keeps_look _ _) fun r => Ensures.ite (fun _ => ?_) fun _ => keeps_pure _
      exact Keeps.bind (keeps_modify fun w hw => hkind w owner target rfl hw) fun _ =>
        Ensures.discard (hretract _)

theorem freshId_ensures (hP : OfEntities P) : Ensures P freshId (fun _ => P) E := by
  refine Ensures.bind (Q := fun w w' => P w ∧ w' = w) (ensures_get fun w hw => ⟨hw, rfl⟩) fun w => ?_
  exact Ensures.bind (Q := fun _ => P) (ensures_set fun w' hw => hP w _ rfl rfl hw.1) fun _ =>
    ensures_pure fun _ hw => hw

theorem requireTraitFor_keeps (kind : EntityKind) (id : String) :
    (requireTraitFor kind id).Keeps P := by
  refine Keeps.bind (keeps_get.bind fun _ => keeps_orElse _ _) fun t => ?_
  exact Ensures.ite (fun _ => (keeps_throw _).bind fun _ => keeps_pure _) fun _ => keeps_pure _

theorem requireStats_keeps (e : Entity) (specs : List ModifierSpec) :
    (requireStats e specs).Keeps P := by
  refine Keeps.bind (keeps_look _ _) fun s => ?_
  split
  · exact keeps_throw _
  · exact keeps_pure _

theorem createEffect_keeps (ctx : EffectContext) (text : String) :
    (createEffect ctx text).Keeps P := by
  refine keeps_get.bind fun w => ?_
  split
  · exact keeps_pure _
  · exact keeps_throw _

/-- Making modifiers of declarations never fails. -/
theorem instances_ensures (hP : OfEntities P) (source : ModifierSource) (specs : List ModifierSpec) :
    Ensures P (instances source specs)
      (fun ms w => P w ∧ ModifierSpec.Instances source specs ms) E := by
  unfold instances
  induction specs with
  | nil => exact ensures_pure fun w hw => ⟨hw, rfl, by simp⟩
  | cons spec specs ih =>
      rw [List.mapM_cons]
      refine Ensures.bind (Q := fun m w => P w ∧ ∃ id, m = spec.instance id (some source)) ?_ ?_
      · exact Ensures.bind (freshId_ensures hP) fun id => ensures_pure fun w hw => ⟨hw, id, rfl⟩
      · intro m
        refine ensures_of_pure ?_
        rintro ⟨id, rfl⟩
        exact ih.bind fun ms => ensures_pure fun w hw => ⟨hw.1, hw.2.cons spec id⟩

end Entities

/-! ## Acts on one page -/

section Page

variable {e : Entity} {Q R : Sheet → List ModifierSource → Prop}

theorem requireSheet_page :
    Ensures (BalancedBut e Q) (requireSheet e)
      (fun s => BalancedBut e fun s' active => s' = s ∧ Q s' active) Balanced := by
  refine Ensures.bind (Q := fun w w' => BalancedBut e Q w ∧ w' = w)
    (ensures_get fun w hw => ⟨hw, rfl⟩) fun w => ?_
  cases hs : w.sheet? e with
  | none =>
      exact ensures_throw fun w' hw => hw.2 ▸ (hw.1.of_sheet?_eq_none hs).balanced fun _ _ h => h
  | some s =>
      refine ensures_pure fun w' hw => ?_
      obtain ⟨hw, rfl⟩ := hw
      refine ⟨hw.1, fun s' active hp => ⟨?_, hw.2 s' active hp⟩⟩
      rw [World.sheet?_eq, hp] at hs
      exact Option.some.inj hs

theorem changeTraits_page {f : HeldTraits → HeldTraits}
    (hQ : ∀ s active, Q s active → R { s with traits := f s.traits } active) :
    Ensures (BalancedBut e Q) (changeTraits e f) (fun _ => BalancedBut e R) Balanced := by
  refine requireSheet_page.bind fun s => ensures_modify fun w hw => hw.setSheet ?_
  rintro _ active ⟨rfl, h⟩
  exact hQ _ active h

theorem changeStats_page {f : Stats → Change Stats}
    (hQ : ∀ s active, Q s active → R { s with stats := (f s.stats).result } active) :
    Ensures (BalancedBut e Q) (changeStats e f) (fun _ => BalancedBut e R) Balanced := by
  refine requireSheet_page.bind fun s => ensures_modify fun w hw => ?_
  refine World.ofEntities_balancedBut e R _ _ rfl rfl (hw.setSheet ?_)
  rintro _ active ⟨rfl, h⟩
  exact hQ _ active h

theorem requireStats_page {specs : List ModifierSpec}
    (hQ : ∀ s active, Q s active → s.stats.missing? specs ≠ none → s.Balanced active) :
    Ensures (BalancedBut e Q) (requireStats e specs)
      (fun _ => BalancedBut e fun s active => Q s active ∧ s.stats.missing? specs = none)
      Balanced := by
  refine requireSheet_page.bind fun s => ?_
  split
  · rename_i stat hm
    refine ensures_throw fun w hw => hw.balanced ?_
    rintro _ active ⟨rfl, h⟩
    exact hQ _ active h (by simp [hm])
  · rename_i hm
    refine ensures_pure fun w hw => hw.mono ?_
    rintro _ active ⟨rfl, h⟩
    exact ⟨h, hm⟩

/-- Attaching either finds a stat missing or puts the modifiers on the page. -/
theorem attach_page {source : ModifierSource} {specs : List ModifierSpec}
    (hQ : ∀ s active, Q s active → s.stats.missing? specs ≠ none → s.Balanced active)
    (hQ' : ∀ s active ms, Q s active → s.stats.missing? specs = none →
      ModifierSpec.Instances source specs ms →
        R { s with stats := (s.stats.attach ms).result } active) :
    Ensures (BalancedBut e Q) (attach e source specs) (fun _ => BalancedBut e R) Balanced := by
  refine (requireStats_page hQ).bind fun _ => ?_
  refine (instances_ensures (World.ofEntities_balancedBut e _) source specs).bind fun ms => ?_
  refine ensures_of_pure fun hms => changeStats_page fun s active h => ?_
  exact hQ' s active ms h.1 h.2 hms

end Page

theorem modifyRelationship_page {owner target : String} {f : Relationship → Relationship}
    {Q R : Sheet → List ModifierSource → Prop} {E : World → Prop}
    (hQ : ∀ r, Q r.sheet r.activeSources → R (f r).sheet (f r).activeSources) :
    Ensures (BalancedBut (.relationship owner target) Q)
      (modify fun w => w.modifyRelationship owner target f)
      (fun _ => BalancedBut (.relationship owner target) R) E :=
  ensures_modify fun _ hw => hw.modifyRelationship hQ

theorem requireRelationship_page {owner target : String}
    {Q : Sheet → List ModifierSource → Prop} :
    Ensures (BalancedBut (.relationship owner target) Q) (requireRelationship owner target)
      (fun r => BalancedBut (.relationship owner target) fun s active =>
        active = r.activeSources ∧ Q s active) Balanced := by
  refine Ensures.bind (Q := fun w w' => BalancedBut (.relationship owner target) Q w ∧ w' = w)
    (ensures_get fun w hw => ⟨hw, rfl⟩) fun w => ?_
  cases hr : w.relationship? owner target with
  | none =>
      refine ensures_throw fun w' hw => hw.2 ▸ (hw.1.of_sheet?_eq_none ?_).balanced fun _ _ h => h
      simp [World.sheet?, hr]
  | some r =>
      refine ensures_pure fun w' hw => ?_
      obtain ⟨hw, rfl⟩ := hw
      refine ⟨hw.1, fun s active hp => ⟨?_, hw.2 s active hp⟩⟩
      simp only [World.page?, hr, Option.map_some, Option.some.injEq, Prod.mk.injEq] at hp
      exact hp.2.symm

end Society.Act
