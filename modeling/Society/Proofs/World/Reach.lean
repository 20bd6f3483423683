import Society.Proofs.World.Frame

/-!
# How far acts reach

An evaluation changes nothing but the relationship that it is about, and a trait that comes or goes
changes its holder and the relationships that are evaluated with it. Every other agent and
relationship stays exactly as it is, with its stats and modifiers.
-/

namespace Society

/-- What is evaluated around an entity: the relationships of an agent, or the relationship itself. -/
def Entity.Around : Entity → Entity → Prop
  | .agent uid, .relationship owner target => owner = uid ∨ target = uid
  | .agent _, .agent _ => False
  | .relationship owner target, e => e = .relationship owner target

/-- The entity, or what is evaluated around it. -/
def Entity.Near (e e' : Entity) : Prop :=
  e' = e ∨ e.Around e'

namespace World

/-- All that is kept of an agent or of a relationship. -/
def entity? (w : World) : Entity → Option (Agent ⊕ Relationship)
  | .agent uid => (w.agent? uid).map .inl
  | .relationship owner target => (w.relationship? owner target).map .inr

variable {w w' : World} {e e' : Entity}

/-- Where the agents differ at one uid and nothing else does, every other entity is the same. -/
theorem entity?_of_agent? {uid : String} (h : e ≠ .agent uid)
    (hr : w'.relationships = w.relationships) (ha : ∀ u, u ≠ uid → w'.agent? u = w.agent? u) :
    w'.entity? e = w.entity? e := by
  cases e with
  | agent u =>
      have hu : u ≠ uid := fun hu => h (hu ▸ rfl)
      simp only [entity?, ha u hu]
  | relationship owner target => simp only [entity?, relationship?, hr]

/-- Where the relationships differ at one place and nothing else does, every other entity is the
same. -/
theorem entity?_of_relationship? {owner target : String} (h : e ≠ .relationship owner target)
    (ha : w'.agents = w.agents)
    (hr : ∀ o t, ¬ (o = owner ∧ t = target) → w'.relationship? o t = w.relationship? o t) :
    w'.entity? e = w.entity? e := by
  cases e with
  | agent u => simp only [entity?, agent?, ha]
  | relationship o t =>
      have hot : ¬ (o = owner ∧ t = target) := fun hot => h (by rw [hot.1, hot.2])
      simp only [entity?, hr o t hot]

theorem entity?_modifyAgent {uid : String} (h : e ≠ .agent uid) (f : Agent → Agent) :
    (w.modifyAgent uid f).entity? e = w.entity? e :=
  entity?_of_agent? h rfl fun u hu => by rw [agent?_modifyAgent, if_neg hu]

theorem entity?_modifyRelationship {owner target : String} (h : e ≠ .relationship owner target)
    (f : Relationship → Relationship) :
    (w.modifyRelationship owner target f).entity? e = w.entity? e :=
  entity?_of_relationship? h rfl fun o t hot => by rw [relationship?_modifyRelationship, if_neg hot]

theorem entity?_setSheet (h : e' ≠ e) (s : Sheet) : (w.setSheet s e).entity? e' = w.entity? e' := by
  cases e with
  | agent uid => exact entity?_modifyAgent h _
  | relationship owner target => exact entity?_modifyRelationship h _

theorem entity?_congr (ha : w'.agents = w.agents)
    (hr : w'.relationships = w.relationships) (e : Entity) : w'.entity? e = w.entity? e := by
  cases e <;> simp [entity?, agent?, relationship?, ha, hr]

end World

namespace Act

variable {α : Type} {e e' : Entity}

/-! ## Facts and numbers -/

theorem insertFact_apart (e : Entity) (s : String) : (insertFact s).Fixes (·.entity? e) :=
  fixes_get.bind fun _ => (fixes_ofFacts _).bind fun _ =>
    fixes_modify fun _ => World.entity?_congr rfl rfl e

theorem deleteFact_apart (e : Entity) (s : String) : (deleteFact s).Fixes (·.entity? e) :=
  fixes_get.bind fun _ => (fixes_ofFacts _).bind fun (_, _) =>
    Fixes.bind (fixes_modify fun _ => World.entity?_congr rfl rfl e) fun _ => fixes_pure _

theorem retract_apart (e : Entity) (s : String) : (retract s).Fixes (·.entity? e) :=
  fixes_get.bind fun _ => (fixes_ofFacts _).bind fun _ =>
    Fixes.ite (deleteFact_apart e s) (fixes_pure _)

theorem freshId_apart (e : Entity) : freshId.Fixes (·.entity? e) :=
  fun _ w hw => (World.entity?_congr (w := w) rfl rfl e).trans hw

theorem changeStats_apart (h : e' ≠ e) (f : Stats → Change Stats) :
    (changeStats e f).Fixes (·.entity? e') :=
  (fixes_look _ _).bind fun _ => fixes_modify fun w =>
    (World.entity?_congr rfl rfl e').trans (World.entity?_setSheet (w := w) h _)

theorem changeTraits_apart (h : e' ≠ e) (f : HeldTraits → HeldTraits) :
    (changeTraits e f).Fixes (·.entity? e') :=
  (fixes_look _ _).bind fun _ => fixes_modify fun _ => World.entity?_setSheet h _

theorem attach_apart (h : e' ≠ e) (source : ModifierSource) (specs : List ModifierSpec) :
    (attach e source specs).Fixes (·.entity? e') :=
  (requireStats_fixes e specs).bind fun _ =>
    (Fixes.mapM fun _ => (freshId_apart e').bind fun _ => fixes_pure _).bind fun _ =>
      changeStats_apart h _

/-! ## Evaluations -/

section Evaluations

variable {owner target uid : String}

theorem forgetActive_apart (h : e ≠ .relationship owner target) :
    (forgetActive owner target).Fixes (·.entity? e) :=
  (fixes_look _ _).bind fun _ =>
    (fixes_modify fun _ => World.entity?_modifyRelationship h _).bind fun _ =>
      changeStats_apart h _

theorem applyInfluence_apart (h : e ≠ .relationship owner target) (i : Influence) :
    (applyInfluence owner target i).Fixes (·.entity? e) := by
  refine (preconditionsHold_fixes owner target _).bind fun _ => Fixes.ite ?_ (fixes_pure _)
  exact (attach_apart h _ _).bind fun _ => fixes_modify fun _ =>
    World.entity?_modifyRelationship h _

/-- An evaluation of a relationship changes that relationship only. -/
theorem reevaluate_apart (h : e ≠ .relationship owner target) :
    (reevaluate owner target).Fixes (·.entity? e) :=
  fun v => reevaluate_keeps_of (forgetActive_apart h v) fun i => applyInfluence_apart h i v

theorem reevaluateAgent_apart (h : ¬ (Entity.agent uid).Around e) :
    (reevaluateAgent uid).Fixes (·.entity? e) := by
  have hout : ∀ target, e ≠ .relationship uid target := by
    rintro target rfl
    exact h (.inl rfl)
  have hin : ∀ owner, e ≠ .relationship owner uid := by
    rintro owner rfl
    exact h (.inr rfl)
  exact fun v => reevaluateAgent_keeps_of (fun target => reevaluate_apart (hout target) v)
    fun owner => reevaluate_apart (hin owner) v

theorem reevaluateAround_apart (h : ¬ e.Around e') : (reevaluateAround e).Fixes (·.entity? e') := by
  cases e with
  | agent uid => exact reevaluateAgent_apart h
  | relationship owner target => exact reevaluate_apart h

/-- No agent is changed by an evaluation. -/
theorem reevaluateAll_apart (uid : String) : reevaluateAll.Fixes (·.entity? (.agent uid)) :=
  fun v => reevaluateAll_keeps_of fun _ _ => reevaluate_apart (by simp) v

end Evaluations

/-! ## Traits -/

theorem addTrait_apart (h : ¬ e.Near e') (id : String) (duration : Int)
    (description : Option String) :
    (addTrait e id duration description).Fixes (·.entity? e') := by
  obtain ⟨hne, haround⟩ := not_or.mp h
  refine (requireTraitFor_fixes _ _).bind fun t => (fixes_look _ _).bind fun s => ?_
  refine Fixes.ite (fixes_pure _) ((requireStats_fixes e _).bind fun _ => ?_)
  refine (insertFact_apart e' _).bind fun _ => (changeTraits_apart hne _).bind fun _ => ?_
  exact (attach_apart hne _ _).bind fun _ => (reevaluateAround_apart haround).bind fun _ =>
    fixes_pure _

theorem clearKind_apart (h : e' ≠ e) (id : String) : (clearKind e id).Fixes (·.entity? e') :=
  fun v => clearKind_keeps e id
    (fun _ _ _ he hw => (World.entity?_modifyRelationship (he ▸ h) _).trans hw)
    fun s => retract_apart e' s v

theorem removeTrait_apart (h : ¬ e.Near e') (id : String) :
    (removeTrait e id).Fixes (·.entity? e') := by
  obtain ⟨hne, haround⟩ := not_or.mp h
  refine (fixes_look _ _).bind fun s => Fixes.ite (fixes_pure _) ?_
  refine (changeTraits_apart hne _).bind fun _ => (changeStats_apart hne _).bind fun _ => ?_
  refine (clearKind_apart hne id).bind fun _ => (retract_apart e' _).discard.bind fun _ => ?_
  exact (reevaluateAround_apart haround).bind fun _ => fixes_pure _

theorem setRelationshipKind_apart {owner target : String} (h : e ≠ .relationship owner target)
    (id : String) : (setRelationshipKind owner target id).Fixes (·.entity? e) := by
  have hnear : ¬ (Entity.relationship owner target).Near e := not_or.mpr ⟨h, h⟩
  intro v
  refine setRelationshipKind_rule (fun _ hw => hw) (fun previous => removeTrait_apart hnear _ v) ?_
    (addTrait_apart hnear _ _ _ v)
  intro _ w r hw _
  exact insertFact_apart e _ v _ ((World.entity?_modifyRelationship h _).trans hw)

end Act

/-! ## Worlds that differ in places -/

namespace World

/-- Who is there and who is linked to whom is the same in `v` as in `u`, and so is everything about
entities that are not near. -/
structure Framed (near : Entity → Prop) (u v : World) : Prop where
  frame : v.frame = u.frame
  same : ∀ e, ¬ near e → v.entity? e = u.entity? e

/-- What is near is the same as well, but for stats, timers and what the last evaluations found. -/
structure Evaluated (near : Entity → Prop) (u v : World) : Prop extends Framed near u v where
  face : v.face = u.face

variable {near : Entity → Prop} {u v w : World}

theorem Framed.refl (near : Entity → Prop) (w : World) : Framed near w w :=
  ⟨rfl, fun _ _ => rfl⟩

theorem Framed.trans (h : Framed near u v) (h' : Framed near v w) : Framed near u w :=
  ⟨h'.frame.trans h.frame, fun e he => (h'.same e he).trans (h.same e he)⟩

theorem Evaluated.refl (near : Entity → Prop) (w : World) : Evaluated near w w :=
  ⟨.refl near w, rfl⟩

theorem Evaluated.trans (h : Evaluated near u v) (h' : Evaluated near v w) : Evaluated near u w :=
  ⟨h.toFramed.trans h'.toFramed, h'.face.trans h.face⟩

end World

namespace Act

open World (Framed Evaluated)

variable {α : Type} {near : Entity → Prop} {x : Act α}

theorem keeps_framed (hframe : x.Fixes World.frame) (hsame : ∀ e, ¬ near e → x.Fixes (·.entity? e))
    (u : World) : x.Keeps (Framed near u) :=
  keeps_of_holds fun w hw => hw.trans ⟨hframe.eq w, fun e he => (hsame e he).eq w⟩

theorem keeps_evaluated (hface : x.Fixes World.face)
    (hsame : ∀ e, ¬ near e → x.Fixes (·.entity? e)) (u : World) : x.Keeps (Evaluated near u) :=
  keeps_of_holds fun w hw =>
    hw.trans ⟨⟨hface.frame.eq w, fun e he => (hsame e he).eq w⟩, hface.eq w⟩

theorem reevaluateAround_evaluates (e : Entity) (u : World) :
    (reevaluateAround e).Keeps (Evaluated e.Around u) :=
  keeps_evaluated (reevaluateAround_fixes e) (fun _ he => reevaluateAround_apart he) u

theorem reevaluateAll_evaluates (u : World) :
    reevaluateAll.Keeps (Evaluated (·.kind = .relationship) u) := by
  refine keeps_evaluated reevaluateAll_fixes (fun e he => ?_) u
  cases e with
  | agent uid => exact reevaluateAll_apart uid
  | relationship owner target => exact absurd rfl he

theorem addTrait_framed (e : Entity) (id : String) (duration : Int) (description : Option String)
    (u : World) : (addTrait e id duration description).Keeps (Framed e.Near u) :=
  keeps_framed (addTrait_fixes e id duration description) (fun _ he => addTrait_apart he _ _ _) u

theorem addTrait_framed_relationship (owner target id : String) (duration : Int)
    (description : Option String) (u : World) :
    (addTrait (.relationship owner target) id duration description).Keeps
      (Framed (· = .relationship owner target) u) :=
  keeps_framed (addTrait_fixes _ id duration description)
    (fun _ he => addTrait_apart (e := .relationship owner target) (not_or.mpr ⟨he, he⟩) _ _ _) u

theorem reevaluate_framed (owner target : String) (u : World) :
    (reevaluate owner target).Keeps (Framed (· = .relationship owner target) u) :=
  keeps_framed (reevaluate_fixes owner target).frame (fun _ he => reevaluate_apart he) u

theorem removeTrait_framed (e : Entity) (id : String) (u : World) :
    (removeTrait e id).Keeps (Framed e.Near u) :=
  keeps_framed (removeTrait_fixes e id) (fun _ he => removeTrait_apart he _) u

theorem setRelationshipKind_framed (owner target id : String) (u : World) :
    (setRelationshipKind owner target id).Keeps (Framed (· = .relationship owner target) u) :=
  keeps_framed (setRelationshipKind_fixes owner target id)
    (fun _ he => setRelationshipKind_apart he id) u

end Act

end Society
