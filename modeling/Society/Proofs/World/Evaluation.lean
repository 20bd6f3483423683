import Society.Proofs.World.Step

/-!
# What an evaluation does

An evaluation ends well if and only if the preconditions of all rules and relationship modifiers
are decided and no stat is missing for those that hold. Then it leaves the relationship as it is
without the last evaluation, with all attached and listed that applies now.
-/

namespace Society

/-- The row in which preconditions are evaluated for a relationship. -/
def RawBindings.ofPair (owner target : String) : RawBindings :=
  Dict.ofList [("?owner", .text owner), ("?target", .text target)]

/-- Whether the facts meet preconditions for a relationship. -/
def FactDatabase.meets (db : FactDatabase) (owner target : String) (preconditions : List String) :
    Bool :=
  match db.query preconditions [RawBindings.ofPair owner target] with
  | .ok answer => answer.success
  | .error _ => false

/-- Whether the facts give an answer to preconditions for a relationship. -/
def FactDatabase.Decides (db : FactDatabase) (owner target : String) (preconditions : List String) :
    Prop :=
  ∃ answer, db.query preconditions [RawBindings.ofPair owner target] = .ok answer

namespace Relationship

/-- The relationship without what the last evaluation attached and listed. -/
def forgotten (r : Relationship) : Relationship :=
  { r with
    sheet := { r.sheet with stats := (r.sheet.stats.removeFromAll r.activeSources).result }
    activeRules := []
    activeModifiers := [] }

/-- The relationship with what influences attach, numbered from `n` on, and with these listed. -/
def under (r : Relationship) (owner target : String) (n : Nat) (l : List Influence) : Relationship :=
  { r with
    sheet := { r.sheet with
      stats := (r.sheet.stats.attach (StatModifier.numbered n (l.flatMap (·.declared)))).result }
    activeRules := r.activeRules ++ l.filterMap (·.asRule? owner target)
    activeModifiers := r.activeModifiers ++ l.filterMap (·.asModifier?) }

theorem under_nil (r : Relationship) (owner target : String) (n : Nat) :
    r.under owner target n [] = r := by
  simp [under, StatModifier.numbered, Stats.attach]

theorem under_singleton (r : Relationship) (owner target : String) (n : Nat) (i : Influence) :
    r.under owner target n [i] = { r with
      sheet := { r.sheet with
        stats := (r.sheet.stats.attach (StatModifier.numbered n i.declared)).result }
      activeRules := r.activeRules ++ (i.asRule? owner target).toList
      activeModifiers := r.activeModifiers ++ i.asModifier?.toList } := by
  cases i <;> simp [under, Influence.asRule?, Influence.asModifier?]

theorem under_append (r : Relationship) (owner target : String) (n : Nat) (l l' : List Influence) :
    r.under owner target n (l ++ l') =
      (r.under owner target n l).under owner target (n + (l.flatMap (·.declared)).length) l' := by
  simp [under, StatModifier.numbered_append, Stats.result_attach_append]

end Relationship

namespace World

/-- All that may apply to a relationship, in the order in which it is evaluated. -/
def influences (w : World) (owner target : String) : List Influence :=
  w.rules.map .rule ++ (Act.projected w owner target).map .modifier

/-- What applies to a relationship. -/
def applying (w : World) (owner target : String) : List Influence :=
  (w.influences owner target).filter fun i => w.facts.meets owner target i.preconditions

/-- Whether an influence can be evaluated: its preconditions are decided, and if they hold the stats
are there that it changes. -/
def Admits (w : World) (owner target : String) (stats : Stats) (i : Influence) : Prop :=
  w.facts.Decides owner target i.preconditions ∧
    (w.facts.meets owner target i.preconditions = true →
      ∀ spec ∈ i.modifiers, stats.contains spec.stat = true)

/-- The world with a relationship written anew, and its counters. -/
def put (w : World) (owner target : String) (r : Relationship) (n : Nat) (told : List Announcement) :
    World :=
  { w.modifyRelationship owner target fun _ => r with nextId := n, announcements := told }

/-- The world with a relationship under influences. -/
def under (w : World) (owner target : String) (r : Relationship) (n : Nat)
    (told : List Announcement) (l : List Influence) : World :=
  w.put owner target (r.under owner target n l) (n + (l.flatMap (·.declared)).length) told

variable {w : World} {owner target : String} {r : Relationship} {n : Nat}
  {told : List Announcement}

theorem modifyRelationship_put (f : Relationship → Relationship) :
    (w.put owner target r n told).modifyRelationship owner target f =
      w.put owner target (f r) n told := by
  simp only [put, modifyRelationship, Dict.modify_modify]
  congr 1
  refine Dict.ext_get? fun k => ?_
  simp only [Dict.get?_modify, Function.comp_def, Dict.modify_modify]

theorem setSheet_put (new : Sheet) :
    (w.put owner target r n told).setSheet new (.relationship owner target) =
      w.put owner target { r with sheet := new } n told :=
  modifyRelationship_put _

theorem put_self (hr : w.relationship? owner target = some r) :
    w.put owner target r w.nextId w.announcements = w := by
  have hsame : w.modifyRelationship owner target (fun _ => r) = w := by
    simp only [modifyRelationship]
    rw [Dict.modify_eq_self]
    intro targets ht
    refine Dict.modify_eq_self fun v hv => ?_
    simpa [relationship?, ht, hv] using hr.symm
  rw [put, hsame]

theorem under_under (l l' : List Influence) :
    w.under owner target (r.under owner target n l) (n + (l.flatMap (·.declared)).length) told l' =
      w.under owner target r n told (l ++ l') := by
  simp [under, Relationship.under_append, Nat.add_assoc]

theorem relationship?_put (hthere : (w.relationship? owner target).isSome = true) :
    (w.put owner target r n told).relationship? owner target = some r := by
  show (w.modifyRelationship owner target _).relationship? owner target = some r
  obtain ⟨r', hr'⟩ := Option.isSome_iff_exists.mp hthere
  rw [relationship?_modifyRelationship, if_pos ⟨rfl, rfl⟩, hr']
  rfl

theorem mask_put {f : Agent → Agent} {g : Relationship → Relationship} {r' : Relationship}
    (hr : w.relationship? owner target = some r) (hg : g r' = g r) :
    (w.put owner target r' n told).mask f g = w.mask f g := by
  show (w.modifyRelationship owner target fun _ => r').mask f g = w.mask f g
  apply mask_modifyRelationship
  intro r₀ hr₀
  obtain rfl := Option.some.inj (hr.symm.trans hr₀)
  exact hg

theorem filterMap_asRule? (w : World) (owner target : String) :
    (w.applying owner target).filterMap (·.asRule? owner target) =
      (w.rules.filter fun rule => w.facts.meets owner target rule.preconditions).map
        (·.entry owner target) := by
  simp [applying, influences, List.filter_map, Function.comp_def, Influence.asRule?,
    Influence.preconditions]

end World

namespace Act

open World (Admits)

variable {w : World} {owner target : String} {r : Relationship} {n : Nat}
  {told : List Announcement} {E : World → Prop}

theorem leads_preconditionsHold_iff {w : World} {preconditions : List String}
    {Q : Bool → World → Prop} :
    (preconditionsHold owner target preconditions).Leads Q E w ↔
      (w.facts.Decides owner target preconditions →
        Q (w.facts.meets owner target preconditions) w) ∧
      (¬ w.facts.Decides owner target preconditions → E w) := by
  simp only [preconditionsHold, leads_bind, leads_get, leads_ofFacts, leads_pure,
    FactDatabase.Decides, FactDatabase.meets, RawBindings.ofPair]
  cases w.facts.query preconditions _ <;> simp

/-- Stats neither go with what is taken off nor come with what is attached. -/
theorem admits_forgotten {i : Influence} :
    w.Admits owner target r.forgotten.sheet.stats i ↔ w.Admits owner target r.sheet.stats i := by
  simp [Admits, Relationship.forgotten]

theorem admits_under (l : List Influence) {i : Influence} :
    w.Admits owner target (r.under owner target n l).sheet.stats i ↔
      w.Admits owner target r.sheet.stats i := by
  simp [Admits, Relationship.under]

theorem leads_attach_put (hthere : (w.relationship? owner target).isSome = true)
    {source : ModifierSource} {specs : List ModifierSpec} {Q : Unit → World → Prop}
    (hmiss : ¬ (∀ spec ∈ specs, r.sheet.stats.contains spec.stat = true) →
      E (w.put owner target r n told))
    (hattach : ∀ more, (∀ spec ∈ specs, r.sheet.stats.contains spec.stat = true) →
      Q () (w.put owner target { r with sheet := { r.sheet with
          stats := (r.sheet.stats.attach
            (StatModifier.numbered n (specs.map (source, ·)))).result } }
        (n + specs.length) (told ++ more))) :
    (attach (.relationship owner target) source specs).Leads Q E (w.put owner target r n told) := by
  have hs : (w.put owner target r n told).sheet? (.relationship owner target) = some r.sheet := by
    rw [World.sheet?, World.relationship?_put hthere]
    rfl
  rw [leads_attach_iff hs, ne_eq, Stats.missing?_eq_none_iff]
  refine ⟨fun hm => ?_, hmiss⟩
  show Q () { (w.put owner target r (n + specs.length) told).setSheet _ _ with
    announcements := told ++ _ }
  rw [World.setSheet_put]
  exact hattach _ hm

/-- An influence that cannot be evaluated fails; one that does not apply changes nothing; and one
that applies is attached and listed. -/
theorem leads_applyInfluence (hthere : (w.relationship? owner target).isSome = true)
    {i : Influence} {Q : Unit → World → Prop}
    (hfails : ¬ w.Admits owner target r.sheet.stats i → E (w.put owner target r n told))
    (hskip : w.Admits owner target r.sheet.stats i →
      w.facts.meets owner target i.preconditions = false → Q () (w.put owner target r n told))
    (happly : ∀ more, w.Admits owner target r.sheet.stats i →
      w.facts.meets owner target i.preconditions = true →
        Q () (w.put owner target (r.under owner target n [i]) (n + i.declared.length)
          (told ++ more))) :
    (applyInfluence owner target i).Leads Q E (w.put owner target r n told) := by
  rw [applyInfluence, leads_bind, leads_preconditionsHold_iff]
  refine ⟨fun hdecides => ?_, fun hnot => hfails fun h => hnot h.1⟩
  cases hmeets : w.facts.meets owner target i.preconditions with
  | false =>
      have hmeets' : (w.put owner target r n told).facts.meets owner target i.preconditions =
          false := hmeets
      rw [hmeets']
      exact hskip ⟨hdecides, fun h => by simp [hmeets] at h⟩ hmeets
  | true =>
      have hmeets' : (w.put owner target r n told).facts.meets owner target i.preconditions =
          true := hmeets
      rw [hmeets', if_pos rfl, leads_bind]
      apply leads_attach_put hthere
      · exact fun hmiss => hfails fun h => hmiss (h.2 hmeets)
      · intro more hhas
        rw [leads_modify, World.modifyRelationship_put]
        have hlast := happly more ⟨hdecides, fun _ => hhas⟩ hmeets
        rw [Relationship.under_singleton, Influence.declared, List.length_map] at hlast
        exact hlast

/-- What influences come to, one after the other. -/
theorem leads_applyInfluences (hthere : (w.relationship? owner target).isSome = true)
    (l : List Influence) :
    (l.forM (applyInfluence owner target)).Leads
      (fun _ w' => (∀ i ∈ l, w.Admits owner target r.sheet.stats i) ∧
        ∃ more, w' = w.under owner target r n (told ++ more)
          (l.filter fun i => w.facts.meets owner target i.preconditions))
      (fun _ => ¬ ∀ i ∈ l, w.Admits owner target r.sheet.stats i)
      (w.put owner target r n told) := by
  induction l generalizing r n told with
  | nil =>
      refine ⟨by simp, [], ?_⟩
      simp [World.under, Relationship.under_nil]
  | cons i l ih =>
      apply leads_bind.mpr
      apply leads_applyInfluence hthere
      · exact fun hnot hall => hnot (hall i List.mem_cons_self)
      · intro hadmits hmeets
        refine ih.imp (fun _ w' => ?_) fun _ hnot hall => hnot (List.forall_mem_cons.mp hall).2
        rintro ⟨hall, more, rfl⟩
        refine ⟨List.forall_mem_cons.mpr ⟨hadmits, hall⟩, more, ?_⟩
        rw [List.filter_cons_of_neg (by simp [hmeets])]
      · intro first hadmits hmeets
        refine ih.imp (fun _ w' => ?_) fun _ hnot hall => ?_
        · rintro ⟨hall, more, rfl⟩
          refine ⟨List.forall_mem_cons.mpr ⟨hadmits, fun j hj => (admits_under _).mp (hall j hj)⟩,
            first ++ more, ?_⟩
          rw [List.filter_cons_of_pos (by simp [hmeets]), ← List.append_assoc]
          simpa using World.under_under [i] _
        · exact hnot fun j hj => (admits_under _).mpr (hall j (List.mem_cons_of_mem i hj))

theorem leads_forgetActive (hthere : (w.relationship? owner target).isSome = true)
    {Q : Unit → World → Prop}
    (hQ : ∀ more, Q () (w.put owner target r.forgotten n (told ++ more))) :
    (forgetActive owner target).Leads Q E (w.put owner target r n told) := by
  have hr : (w.put owner target r n told).relationship? owner target = some r :=
    World.relationship?_put hthere
  refine leads_bind.mpr (leads_look.mpr ⟨fun r' hr' => ?_, fun hnone => ?_⟩)
  · obtain rfl := Option.some.inj (hr.symm.trans hr')
    apply leads_bind.mpr
    rw [leads_modify, World.modifyRelationship_put]
    have hs : (w.put owner target { r with activeRules := [], activeModifiers := [] } n told).sheet?
        (.relationship owner target) = some r.sheet := by
      rw [World.sheet?, World.relationship?_put hthere]
      rfl
    rw [leads_changeStats_iff hs, World.setSheet_put]
    exact hQ _
  · rw [hr] at hnone
    cases hnone

/-- An evaluation ends well if and only if each influence can be evaluated; and then it leaves the
relationship as it is without the last evaluation, but under the influences that apply. -/
theorem leads_reevaluate (hr : w.relationship? owner target = some r) :
    (reevaluate owner target).Leads
      (fun _ w' => (∀ i ∈ w.influences owner target, w.Admits owner target r.sheet.stats i) ∧
        ∃ more, w' = w.under owner target r.forgotten w.nextId (w.announcements ++ more)
          (w.applying owner target))
      (fun _ => ¬ ∀ i ∈ w.influences owner target, w.Admits owner target r.sheet.stats i) w := by
  have hthere : (w.relationship? owner target).isSome = true := by simp [hr]
  suffices h : (reevaluate owner target).Leads
      (fun _ w' =>
        (∀ i ∈ w.influences owner target, w.Admits owner target r.forgotten.sheet.stats i) ∧
        ∃ more, w' = w.under owner target r.forgotten w.nextId (w.announcements ++ more)
          (w.applying owner target))
      (fun _ =>
        ¬ ∀ i ∈ w.influences owner target, w.Admits owner target r.forgotten.sheet.stats i)
      (w.put owner target r w.nextId w.announcements) by
    simpa only [World.put_self hr, admits_forgotten] using h
  rw [reevaluate_eq]
  apply leads_bind.mpr
  apply leads_forgetActive hthere
  intro first
  apply leads_bind.mpr
  rw [leads_get]
  apply leads_bind.mpr
  show ((w.rules.map .rule).forM (applyInfluence owner target)).Leads _ _ _
  refine (leads_applyInfluences hthere _).imp (fun _ w' => ?_) fun _ hnot hall => hnot fun i hi =>
    hall i (List.mem_append_left _ hi)
  rintro ⟨hrules, second, rfl⟩
  apply leads_bind.mpr
  rw [leads_get]
  show (((projected w owner target).map .modifier).forM (applyInfluence owner target)).Leads _ _ _
  refine (leads_applyInfluences hthere _).imp (fun _ w' => ?_) fun _ hnot hall => hnot fun i hi => ?_
  · rintro ⟨hmodifiers, third, rfl⟩
    constructor
    · exact List.forall_mem_append.mpr ⟨hrules, fun i hi => (admits_under _).mp (hmodifiers i hi)⟩
    · refine ⟨first ++ second ++ third, ?_⟩
      rw [World.under_under, World.applying, World.influences, List.filter_append]
      simp
  · exact (admits_under _).mpr (hall i (List.mem_append_right _ hi))

theorem leads_reevaluate_of_none (hn : w.relationship? owner target = none)
    {Q : Unit → World → Prop} : (reevaluate owner target).Leads Q (fun _ => True) w := by
  apply leads_bind.mpr
  apply leads_bind.mpr
  exact leads_look.mpr ⟨fun r hr => by simp [hn] at hr, fun _ => trivial⟩

end Act

/-! ## The rules that are listed -/

namespace World

/-- The rules that are listed for a relationship. -/
def active? (w : World) (owner target : String) : Option (List ActiveRule) :=
  (w.relationship? owner target).map (·.activeRules)

theorem active?_of_outline {w w' : World} (h : w'.outline = w.outline) (owner target : String) :
    w'.active? owner target = w.active? owner target := by
  have houtline : ∀ w : World, w.active? owner target =
      (w.outline.relationship? owner target).map (·.activeRules) := by
    intro w
    rw [outline, relationship?_mask, Option.map_map]
    rfl
  rw [houtline, h, ← houtline]

theorem active?_modifyRelationship (w : World) (owner target o t : String)
    (f : Relationship → Relationship) :
    (w.modifyRelationship owner target f).active? o t =
      if o = owner ∧ t = target then
        (w.relationship? owner target).map fun r => (f r).activeRules
      else w.active? o t := by
  rw [active?, relationship?_modifyRelationship]
  split
  · rw [Option.map_map]
    rfl
  · rfl

/-- An evaluation of a relationship has led from the world `v` to the world `w`, and has listed
rules. -/
structure Listing (v : World) (owner target : String) (listed : List ActiveRule) (w : World) :
    Prop where
  face_eq : w.face = v.face
  active?_eq : ∀ o t, w.active? o t =
    if o = owner ∧ t = target then some listed else v.active? o t

theorem Listing.rules_eq {v w : World} {owner target : String} {listed : List ActiveRule}
    (h : Listing v owner target listed w) : w.rules = v.rules :=
  congrArg (·.rules) h.face_eq

end World

/-- An evaluation lists the rules that the facts meet, and leaves the face of the world and all
other lists as they are. -/
theorem Act.reevaluate_lists (v : World) (owner target : String) :
    Ensures (fun w => w = v) (reevaluate owner target)
      (fun _ => World.Listing v owner target
        ((v.rules.filter fun rule => v.facts.meets owner target rule.preconditions).map
          (·.entry owner target)))
      fun _ => True := by
  rintro w rfl
  cases hr : w.relationship? owner target with
  | none => exact leads_reevaluate_of_none hr
  | some r =>
      refine (leads_reevaluate hr).imp (fun _ w' => ?_) fun _ _ => trivial
      rintro ⟨-, more, rfl⟩
      constructor
      case face_eq => exact World.mask_put hr rfl
      case active?_eq =>
        intro o t
        refine (World.active?_modifyRelationship w owner target o t _).trans ?_
        rw [hr, ← World.filterMap_asRule?]
        rfl

end Society
