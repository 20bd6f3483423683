import Society.Proofs.World.Steady

/-!
# What evaluations and traits leave alone

Evaluations leave the face of a world as it is, and adding and removing traits leaves its frame. So
everything that is known from the frame is steady.
-/

namespace Society.Act

open World (face frame)

variable {α : Type}

theorem Fixes.face {x : Act α} (h : x.Fixes World.outline) : x.Fixes face :=
  h.of_coarser fun _ _ => World.face_eq_of_outline_eq

theorem Fixes.frame {x : Act α} (h : x.Fixes World.face) : x.Fixes frame :=
  h.of_coarser fun _ _ => World.frame_eq_of_face_eq

/-! ## Evaluations leave the face -/

theorem listActive_fixes {f : Relationship → Relationship} (hf : ∀ r, (f r).face = r.face)
    (owner target : String) :
    (modify fun w => w.modifyRelationship owner target f : Act PUnit).Fixes face :=
  fixes_modify fun _ => World.mask_modifyRelationship fun r _ => hf r

theorem preconditionsHold_fixes {γ : Type} {look : World → γ} (owner target : String)
    (preconditions : List String) : (preconditionsHold owner target preconditions).Fixes look :=
  fun _ => preconditionsHold_keeps owner target preconditions

theorem forgetActive_fixes (owner target : String) : (forgetActive owner target).Fixes face :=
  (fixes_look _ _).bind fun _ => (listActive_fixes (by intro r; rfl) owner target).bind fun _ =>
    (changeStats_fixes _ _).face

theorem applyInfluence_fixes (owner target : String) (i : Influence) :
    (applyInfluence owner target i).Fixes face := by
  refine (preconditionsHold_fixes owner target _).bind fun _ => Fixes.ite ?_ (fixes_pure _)
  exact (attach_fixes _ _ _).face.bind fun _ => listActive_fixes (by intro r; rfl) owner target

theorem reevaluate_fixes (owner target : String) : (reevaluate owner target).Fixes face :=
  fun v => reevaluate_keeps_of (forgetActive_fixes owner target v) fun i =>
    applyInfluence_fixes owner target i v

theorem reevaluateAgent_fixes (uid : String) : (reevaluateAgent uid).Fixes face :=
  fun v => reevaluateAgent_keeps_of (fun target => reevaluate_fixes uid target v) fun owner =>
    reevaluate_fixes owner uid v

theorem reevaluateAround_fixes (e : Entity) : (reevaluateAround e).Fixes face :=
  fun v => reevaluateAround_keeps_of (fun owner target => reevaluate_fixes owner target v) e

theorem reevaluateAll_fixes : reevaluateAll.Fixes face :=
  fun v => reevaluateAll_keeps_of fun owner target => reevaluate_fixes owner target v

/-! ## Facts and traits leave the frame -/

theorem insertFact_fixes (s : String) : (insertFact s).Fixes frame :=
  fixes_get.bind fun _ => (fixes_ofFacts _).bind fun _ => fixes_modify fun _ => rfl

theorem deleteFact_fixes (s : String) : (deleteFact s).Fixes frame :=
  fixes_get.bind fun _ => (fixes_ofFacts _).bind fun (_, _) =>
    Fixes.bind (fixes_modify fun _ => rfl) fun _ => fixes_pure _

theorem retract_fixes (s : String) : (retract s).Fixes frame :=
  fixes_get.bind fun _ => (fixes_ofFacts _).bind fun _ =>
    Fixes.ite (deleteFact_fixes s) (fixes_pure _)

theorem changeTraits_fixes (e : Entity) (f : HeldTraits → HeldTraits) :
    (changeTraits e f).Fixes frame := by
  intro v w hw
  refine leads_bind.mpr (leads_look.mpr ⟨fun s hs => ?_, fun _ => hw⟩)
  exact (World.frame_setSheet _ _ _).trans hw

theorem requireTraitFor_fixes {γ : Type} {look : World → γ} (kind : EntityKind) (id : String) :
    (requireTraitFor kind id).Fixes look :=
  fun _ => requireTraitFor_keeps kind id

theorem addTrait_fixes (e : Entity) (id : String) (duration : Int) (description : Option String) :
    (addTrait e id duration description).Fixes frame := by
  refine (requireTraitFor_fixes _ _).bind fun t => (fixes_look _ _).bind fun s => ?_
  refine Fixes.ite (fixes_pure _) ((requireStats_fixes e _).bind fun _ => ?_)
  refine (insertFact_fixes _).bind fun _ => (changeTraits_fixes e _).bind fun _ => ?_
  exact (attach_fixes e _ _).face.frame.bind fun _ => (reevaluateAround_fixes e).frame.bind fun _ =>
    fixes_pure _

theorem frame_modifyKind (w : World) (owner target : String) (kind : Option String) :
    (w.modifyRelationship owner target fun r => { r with kind }).frame = w.frame := by
  have hmask : (w.modifyRelationship owner target fun r => { r with kind }).mask Agent.frame
      Relationship.frame = w.mask Agent.frame Relationship.frame :=
    World.mask_modifyRelationship fun _ _ => rfl
  simp only [World.frame, hmask]

theorem clearKind_fixes (e : Entity) (id : String) : (clearKind e id).Fixes frame :=
  fun v => clearKind_keeps e id
    (fun w owner target _ hw => (frame_modifyKind w owner target none).trans hw)
    fun s => retract_fixes s v

theorem removeTrait_fixes (e : Entity) (id : String) : (removeTrait e id).Fixes frame := by
  refine (fixes_look _ _).bind fun s => Fixes.ite (fixes_pure _) ?_
  refine (changeTraits_fixes e _).bind fun _ => (changeStats_fixes e _).face.frame.bind fun _ => ?_
  refine (clearKind_fixes e id).bind fun _ => (retract_fixes _).discard.bind fun _ => ?_
  exact (reevaluateAround_fixes e).frame.bind fun _ => fixes_pure _

theorem setRelationshipKind_fixes (owner target id : String) :
    (setRelationshipKind owner target id).Fixes frame := by
  intro v
  refine setRelationshipKind_rule (fun _ hw => hw) (fun previous => removeTrait_fixes _ _ v) ?_
    (addTrait_fixes _ _ _ _ v)
  intro _ w r hw _
  exact insertFact_fixes _ v _ ((frame_modifyKind w owner target (some id)).trans hw)

/-- What is known of a world from its frame is steady. -/
theorem steady_of_frame {P : World → Prop} (hP : ∀ w w', w'.frame = w.frame → P w → P w') :
    Steady P P where
  weaken _ hw := hw
  of_outline _ _ h := hP _ _ (World.frame_eq_of_face_eq (World.face_eq_of_outline_eq h))
  reevaluate owner target := (reevaluate_fixes owner target).frame.keeps hP
  addTrait e id duration description := (addTrait_fixes e id duration description).keeps hP
  removeTrait e id := (removeTrait_fixes e id).keeps hP

end Society.Act
