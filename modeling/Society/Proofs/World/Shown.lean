import Society.Proofs.World.Readable

/-!
# What acts do to what could be told

Adding and removing traits, types and time change what a world shows in a few reports only. What an
act could lose and gain is known even where it fails on the way.
-/

namespace Society

open World (Readable)

/-- The report tells that an entity holds a trait, or that the trait is its type. -/
def Report.IsOfTrait (e : Entity) (id : String) : Report → Prop
  | present _ => False
  | holds e' trait => e' = e ∧ trait = id
  | kind owner target trait => e = .relationship owner target ∧ trait = id

namespace World

/-- The facts once a trait is no longer the type of an entity. -/
def factsWithoutKind (w : World) (id : String) : Entity → FactDatabase
  | .agent _ => w.facts
  | .relationship owner target =>
    if (w.relationship? owner target).any (·.kind = some id) then
      w.facts.without (Relationship.kindFact owner target id)
    else w.facts

/-- The facts once a trait is taken from its holder. -/
def factsWithoutTrait (w : World) (e : Entity) (id : String) : FactDatabase :=
  (w.factsWithoutKind id e).without (e.traitFact id)

/-- What a world holds for facts, and what could be told of it. -/
structure Records (facts : FactDatabase) (shown : Report → Prop) (w : World) : Prop where
  facts_eq : w.facts = facts
  shows_iff : ∀ r, w.Shows r ↔ shown r

theorem Records.of_face {facts : FactDatabase} {shown : Report → Prop} {w w' : World}
    (h : w.Records facts shown) (hface : w'.face = w.face) : w'.Records facts shown :=
  ⟨(congrArg (·.facts) hface).trans h.facts_eq,
    fun r => (shows_of_face hface r).trans (h.shows_iff r)⟩

/-- What could be told of `v` is what could be told of `w`, but for what may be lost and what may be
gained. -/
structure Differs (lost gained : Report → Prop) (w v : World) : Prop where
  gains : ∀ r, v.Shows r → w.Shows r ∨ gained r
  loses : ∀ r, w.Shows r → v.Shows r ∨ lost r

/-- The relationship may have lost its type, with the trait, and may have gained the new one. -/
def Retyped (w : World) (owner target id : String) (r : Relationship) (v : World) : Prop :=
  w.Differs
    (fun x => ∃ previous, r.kind = some previous ∧ x.IsOfTrait (.relationship owner target) previous)
    (·.IsOfTrait (.relationship owner target) id) v

theorem Differs.of_shows {lost gained : Report → Prop} {w v v' : World} (h : w.Differs lost gained v)
    (hshows : ∀ r, v'.Shows r ↔ v.Shows r) : w.Differs lost gained v' :=
  ⟨fun r hr => h.gains r ((hshows r).mp hr), fun r hr => (h.loses r hr).imp_left (hshows r).mpr⟩

end World

namespace Act

open World (Records Differs)

variable {w : World}

/-! ## Traits that go -/

theorem reevaluateAround_records {facts : FactDatabase} {shown : Report → Prop} (e : Entity) :
    (reevaluateAround e).Keeps (Records facts shown) :=
  (reevaluateAround_fixes e).keeps fun _ _ hface h => h.of_face hface

/-- The type goes with its fact, if it is the trait, since that fact can be taken back. -/
theorem clearKind_records (hw : w.Readable) {e : Entity} {id : String}
    (held : w.Shows (.holds e id)) :
    Ensures (Records w.facts fun r => w.Shows r ∧ r ≠ .holds e id) (clearKind e id)
      (fun _ => Records (w.factsWithoutKind id e) fun r => w.Shows r ∧ ¬ r.IsOfTrait e id)
      fun _ => False := by
  have hthere : w.Shows (.present e) := Option.isSome_of_any held
  refine clearKind_rule (fun v hv hn => ?_) (fun v hv hkind => ?_) ?_
  · have hpresent := (hv.shows_iff (.present e)).mpr ⟨hthere, by simp⟩
    simp [World.Shows, hn] at hpresent
  · have huntyped : ∀ owner target, e = .relationship owner target →
        ¬ w.Shows (.kind owner target id) := by
      intro owner target he hs
      have hs' := (hv.shows_iff (.kind owner target id)).mpr ⟨hs, by simp⟩
      obtain ⟨r, hr, hk⟩ := (Option.any_eq_true ..).mp hs'
      exact hkind owner target r he hr (by simpa using hk)
    constructor
    case facts_eq =>
      refine hv.facts_eq.trans ?_
      cases e with
      | agent uid => rfl
      | relationship owner target => exact (if_neg (huntyped owner target rfl)).symm
    case shows_iff =>
      intro r
      refine (hv.shows_iff r).trans (and_congr_right fun hr => ?_)
      cases r with
      | present e' => simp [Report.IsOfTrait]
      | holds e' trait => simp [Report.IsOfTrait]
      | kind owner target trait =>
          simp only [ne_eq, reduceCtorEq, not_false_eq_true, Report.IsOfTrait, true_iff]
          rintro ⟨he, rfl⟩
          exact huntyped owner target he hr
  · rintro owner target rel rfl v hv hrel hk
    refine leads_retract_of_isFact (hw.isFact_kindFact held) fun _ => ?_
    have htyped : w.Shows (.kind owner target id) :=
      ((hv.shows_iff (.kind owner target id)).mp (by simp [World.Shows, hrel, hk])).1
    constructor
    case facts_eq =>
      change v.facts.without _ = _
      rw [hv.facts_eq]
      exact (if_pos htyped).symm
    case shows_iff =>
      intro r
      refine Iff.trans (World.shows_congr rfl rfl r)
        ((World.shows_modifyKind hrel none r).trans ?_)
      cases r with
      | present e' => simp [hv.shows_iff, Report.IsOfTrait]
      | holds e' trait => simp [hv.shows_iff, Report.IsOfTrait]
      | kind o t trait =>
          by_cases hot : o = owner ∧ t = target
          · obtain ⟨rfl, rfl⟩ := hot
            have hkind := hv.shows_iff (.kind o t trait)
            simp only [World.Shows, hrel, Option.any_some, hk, decide_eq_true_eq, ne_eq, reduceCtorEq,
              not_false_eq_true, and_true] at hkind
            simp [Report.IsOfTrait, World.Shows, ← hkind, eq_comm]
          · simp only [if_neg hot, hv.shows_iff, ne_eq, reduceCtorEq, not_false_eq_true, and_true]
            refine (and_iff_left ?_).symm
            rintro ⟨he, -⟩
            obtain ⟨rfl, rfl⟩ := Entity.relationship.inj he
            exact hot ⟨rfl, rfl⟩

/-! ## What may be lost and gained -/

section Differing

variable {lost gained : Report → Prop}

theorem addTrait_differs {e : Entity} {id : String} (hgained : gained (.holds e id)) (duration : Int)
    (description : Option String) :
    Ensures (fun v => v.Readable ∧ w.Differs lost gained v) (Act.addTrait e id duration description)
      (fun _ => w.Differs lost gained) (w.Differs lost gained) := by
  refine addTrait_rule (R := w.Differs lost gained) (fun v v' hv h => ?_) (fun _ h => h.2)
    (fun _ h => h.2) (fun v t s facts text h ht _ hs _ _ => ?_) ?_
  · exact h.of_shows (World.shows_of_face (World.face_eq_of_outline_eq hv))
  · have hs' : World.sheet? { v with facts } e = some s := by
      cases e <;> exact hs
    have hhold := World.shows_hold hs' t text duration
    have hsame : ∀ r, World.Shows { v with facts } r ↔ v.Shows r := World.shows_congr rfl rfl
    constructor
    case gains =>
      intro r hr
      rcases (hhold r).mp hr with rfl | hr
      · exact .inr (h.1.library id t ht ▸ hgained)
      · exact h.2.gains r ((hsame r).mp hr)
    case loses =>
      exact fun r hr => (h.2.loses r hr).imp_left fun hr => (hhold r).mpr (.inr ((hsame r).mpr hr))
  · exact (reevaluateAround_fixes e).keeps fun _ _ hface h => h.of_shows (World.shows_of_face hface)

theorem retract_differs (s : String) : (retract s).Keeps (w.Differs lost gained) :=
  fun _ h => leads_retract.mpr
    ⟨fun _ _ _ => h.of_shows (World.shows_congr rfl rfl), fun _ _ => h⟩

/-- The type that a relationship has may be lost, and another one gained. -/
theorem modifyKind_differs {owner target : String} {r : Relationship} {v : World}
    (h : w.Differs lost gained v) (hr : v.relationship? owner target = some r) {kind : Option String}
    (hlost : ∀ id, r.kind = some id → kind ≠ some id → lost (.kind owner target id))
    (hgained : ∀ id, kind = some id → gained (.kind owner target id)) :
    w.Differs lost gained (v.modifyRelationship owner target fun r => { r with kind }) := by
  have hshows := World.shows_modifyKind hr kind
  constructor
  case gains =>
    intro x hx
    rw [hshows] at hx
    split at hx
    · split at hx
      · rename_i hot
        obtain ⟨rfl, rfl⟩ := hot
        exact .inr (hgained _ hx)
      · exact h.gains _ hx
    · exact h.gains _ hx
  case loses =>
    intro x hx
    rw [hshows]
    split
    · split
      · rename_i id hot
        obtain ⟨rfl, rfl⟩ := hot
        refine (h.loses _ hx).elim (fun hv => ?_) .inr
        have hid : r.kind = some id := by simpa [World.Shows, hr] using hv
        exact or_iff_not_imp_left.mpr (hlost id hid)
      · exact h.loses _ hx
    · exact h.loses _ hx

theorem removeTrait_differs {e : Entity} {id : String}
    (hlost : ∀ r : Report, r.IsOfTrait e id → lost r) :
    (Act.removeTrait e id).Keeps (w.Differs lost gained) := by
  have hclear : (clearKind e id).Keeps (w.Differs lost gained) := by
    refine clearKind_rule (fun _ h _ => h) (fun _ h _ => h) ?_
    rintro owner target r rfl v h hr hk
    refine retract_differs _ _ (modifyKind_differs h hr (fun x hx _ => ?_) (by simp))
    exact hlost _ ⟨rfl, Option.some.inj (hx.symm.trans hk)⟩
  refine removeTrait_rule (fun v v' hv h => ?_) (fun _ h => h) (fun _ h => h)
    (fun v s h hs _ => ?_) hclear (retract_differs _) ?_
  · exact h.of_shows (World.shows_of_face (World.face_eq_of_outline_eq hv))
  · have herase := World.shows_erase hs id
    constructor
    case gains => exact fun r hr => h.gains r ((herase r).mp hr).1
    case loses =>
      intro r hr
      by_cases hid : r = .holds e id
      · exact .inr (hlost r (hid ▸ ⟨rfl, rfl⟩))
      · exact (h.loses r hr).imp_left fun hr => (herase r).mpr ⟨hr, hid⟩
  · exact (reevaluateAround_fixes e).keeps fun _ _ hface h => h.of_shows (World.shows_of_face hface)

theorem recordKind_retypes {owner target : String} {r : Relationship}
    (hr : w.relationship? owner target = some r) (id : String) :
    Ensures (fun v => v.Readable ∧ w.Retyped owner target id r v) (do
        discard <| requireRelationship owner target
        modify fun w => w.modifyRelationship owner target fun r => { r with kind := some id }
        Act.insertFact (Relationship.kindFact owner target id)
        Act.addTrait (.relationship owner target) id (-1) none) (fun _ _ => True)
      (w.Retyped owner target id r) := by
  rintro v ⟨hv, hretyped⟩
  refine leads_bind.mpr (leads_discard.mpr (leads_look.mpr ⟨fun r' hr' => ?_, fun _ => hretyped⟩))
  have hrecorded : w.Retyped owner target id r (v.modifyRelationship owner target fun r =>
      { r with kind := some id }) := by
    refine modifyKind_differs hretyped hr' (fun x hx hne => ?_) fun x hx => ?_
    · have hshown : v.Shows (.kind owner target x) := by simp [World.Shows, hr', hx]
      rcases hretyped.gains _ hshown with hshown | ⟨-, rfl⟩
      · exact ⟨x, by simpa [World.Shows, hr] using hshown, rfl, rfl⟩
      · exact absurd rfl hne
    · exact ⟨rfl, (Option.some.inj hx).symm⟩
  refine leads_bind.mpr (leads_modify.mpr (leads_bind.mpr (leads_insertFact.mpr
    ⟨fun facts _ => ?_, fun _ _ => hrecorded⟩)))
  exact Leads.imp (addTrait_differs ⟨rfl, rfl⟩ (-1) none _
    ⟨(hv.modifyKind hr' (some id)).setFacts facts,
      hrecorded.of_shows (World.shows_congr rfl rfl)⟩) (fun _ _ _ => trivial) fun _ h => h

end Differing

/-! ## Time -/

/-- The world `v` is `w` after some time: traits may be gone, and none is new. -/
abbrev Older (w v : World) : Prop :=
  w.Differs (fun r => ∃ e id, r.IsOfTrait e id) (fun _ => False) v

theorem keeps_older {α : Type} {x : Act α} (h : x.Fixes World.face) : x.Keeps (Older w) :=
  h.keeps fun _ _ hface hv => hv.of_shows (World.shows_of_face hface)

theorem removeExpired_older (e : Entity) (expired : List String) :
    (expired.forM fun id => discard (Act.removeTrait e id)).Keeps (Older w) :=
  Keeps.forM fun id => Ensures.discard (removeTrait_differs fun _ hr => ⟨e, id, hr⟩)

theorem tickAgent_older (uid : String) : (tickAgent uid).Keeps (Older w) := by
  refine keeps_get.bind fun _ => Ensures.ite (fun _ => ?_) fun _ => keeps_pure _
  refine (keeps_older (tickSheet_fixes _).face).bind fun expired => ?_
  refine (keeps_older (changeModifiers_fixes (by intro a; rfl) uid).face).bind fun _ => ?_
  exact (removeExpired_older _ expired).bind fun _ => keeps_older (reevaluateAgent_fixes uid)

theorem tickRelationship_older (owner target : String) :
    (tickRelationship owner target).Keeps (Older w) :=
  (keeps_older (tickSheet_fixes _).face).bind fun expired =>
    (removeExpired_older _ expired).bind fun _ => keeps_older (reevaluate_fixes owner target)

theorem tick_older : Act.tick.Keeps (Older w) :=
  keeps_get.bind fun _ => (Keeps.forM tickAgent_older).bind fun _ =>
    keeps_get.bind fun _ => Keeps.forM fun _ => tickRelationship_older _ _

end Act

end Society
