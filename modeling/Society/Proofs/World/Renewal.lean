import Society.Proofs.World.Countdown
import Society.Proofs.World.Evaluation

/-!
# What an evaluation comes to

An evaluation that ends well has made everything anew that depends on rules and relationship
modifiers: what it leaves is given by the facts, the library and the two agents, whatever was active
before. Nothing else is changed, so a second evaluation changes numbers only.
-/

namespace Society

/-! ## The relationship that an evaluation leaves -/

namespace Relationship

/-- What evaluations leave of a relationship. -/
def bare (r : Relationship) : Relationship :=
  { r with
    sheet := { r.sheet with stats := r.sheet.stats.bare }
    activeRules := []
    activeModifiers := [] }

/-- The relationship without the numbers that evaluations gave. -/
def unnumbered (r : Relationship) : Relationship :=
  { r with sheet := { r.sheet with stats := r.sheet.stats.unnumbered } }

variable {r : Relationship} {owner target : String} {n : Nat} {l : List Influence}

theorem isEvaluated_of_mem_declared {p : ModifierSource × ModifierSpec}
    (hp : p ∈ l.flatMap (·.declared)) : p.1.isEvaluated = true := by
  obtain ⟨i, -, hp⟩ := List.mem_flatMap.mp hp
  obtain ⟨spec, -, rfl⟩ := List.mem_map.mp hp
  exact i.isEvaluated_source

theorem source_mem_activeSources {i : Influence} (hi : i ∈ l) :
    i.source ∈ (r.under owner target n l).activeSources := by
  cases i with
  | rule x =>
      apply List.mem_append_left
      refine List.mem_map.mpr ⟨x.entry owner target, List.mem_append_right _ ?_, rfl⟩
      exact List.mem_filterMap.mpr ⟨.rule x, hi, rfl⟩
  | modifier x =>
      apply List.mem_append_right
      refine List.mem_map.mpr ⟨x.id, List.mem_append_right _ ?_, rfl⟩
      exact List.mem_filterMap.mpr ⟨.modifier x, hi, rfl⟩

theorem bare_forgotten (r : Relationship) : r.forgotten.bare = r.bare := by
  simp only [bare, forgotten]
  rw [Stats.bare_removeFromAll fun _ => isEvaluated_of_mem_activeSources]

theorem bare_under (r : Relationship) (owner target : String) (n : Nat) (l : List Influence) :
    (r.under owner target n l).bare = r.bare := by
  simp only [bare, under]
  rw [Stats.bare_attach (StatModifier.isEvaluated_of_mem_numbered fun _ =>
    isEvaluated_of_mem_declared)]

/-- Nothing that an evaluation attached is left. -/
theorem evaluatedOn_forgotten (hb : r.sheet.Balanced r.activeSources) (name : String) :
    r.forgotten.sheet.stats.evaluatedOn name = [] := by
  have hnone := Stats.Accounted.removeFromAll hb fun _ => isEvaluated_of_mem_activeSources
  rw [Stats.evaluatedOn, List.filter_eq_nil_iff]
  intro m hm heval
  obtain ⟨source, hsource, he⟩ := (Option.any_eq_true _ _).mp heval
  cases hnone.evaluated name m hm source hsource he

/-- A second evaluation under the same influences gives other numbers, and changes nothing else. -/
theorem unnumbered_again (hb : r.sheet.Balanced r.activeSources) (n n' : Nat) :
    ((r.forgotten.under owner target n l).forgotten.under owner target n' l).unnumbered =
      (r.forgotten.under owner target n l).unnumbered := by
  have hstats : (((r.forgotten.sheet.stats.attach
      (StatModifier.numbered n (l.flatMap (·.declared)))).result.removeFromAll
        (r.forgotten.under owner target n l).activeSources).result.attach
          (StatModifier.numbered n' (l.flatMap (·.declared)))).result.unnumbered =
      (r.forgotten.sheet.stats.attach
        (StatModifier.numbered n (l.flatMap (·.declared)))).result.unnumbered := by
    apply Stats.unnumbered_again (evaluatedOn_forgotten hb)
    · exact fun _ => isEvaluated_of_mem_activeSources
    · intro m hm
      obtain ⟨p, hp, k, rfl⟩ := StatModifier.exists_of_mem_numbered hm
      obtain ⟨i, hi, hp⟩ := List.mem_flatMap.mp hp
      obtain ⟨spec, -, rfl⟩ := List.mem_map.mp hp
      exact ⟨i.source, source_mem_activeSources hi, StatModifier.isFrom_iff.mpr rfl⟩
    · exact StatModifier.unnumbered_numbered (fun _ => isEvaluated_of_mem_declared) n' n
  exact congrArg (fun stats => ({ r.forgotten.under owner target n l with
    sheet := { r.sheet with stats } } : Relationship)) hstats

end Relationship

namespace World

/-- What evaluations leave of a world. -/
def bare (w : World) : World :=
  w.mask id Relationship.bare

/-- The world without the numbers that evaluations gave. -/
def unnumbered (w : World) : World :=
  w.mask id Relationship.unnumbered

/-- What an evaluation comes to: the rules and the relationship modifiers that apply are listed in
their order, and what they declare is attached, once each on the stat that it names. -/
structure Settles (w : World) (owner target : String) (r : Relationship) : Prop where
  rules_eq : r.activeRules =
    (w.rules.filter fun rule => w.facts.meets owner target rule.preconditions).map
      (·.entry owner target)
  modifiers_eq : r.activeModifiers =
    ((Act.projected w owner target).filter fun m =>
      w.facts.meets owner target m.preconditions).map (·.id)
  admits : ∀ i ∈ w.influences owner target, w.Admits owner target r.sheet.stats i
  attached_perm : ∀ name,
    ((r.sheet.stats.evaluatedOn name).map fun m => (m.source, m.toModifierSpec)).Perm
      ((((w.applying owner target).flatMap (·.declared)).filter fun p => p.2.stat = name).map
        fun p => (some p.1, p.2))
  eq_instance : ∀ name, ∀ m ∈ r.sheet.stats.evaluatedOn name,
    m = m.toModifierSpec.instance m.id m.source

/-- From one world to the other an evaluation has renewed a relationship, and nothing else has
changed. -/
structure Renewed (w : World) (owner target : String) (w' : World) : Prop where
  bare_eq : w'.bare = w.bare
  apart : ∀ e, e ≠ .relationship owner target → w'.entity? e = w.entity? e
  told : w.announcements <+: w'.announcements
  settles : ∃ r r', w.relationship? owner target = some r ∧
    w'.relationship? owner target = some r' ∧ w'.Settles owner target r' ∧
      ∀ name s', r'.sheet.stats.get? name = some s' →
        r.sheet.stats.get? name = some s' ∨ s'.reading = s'.measure

variable {w w' : World} {owner target : String} {r r' : Relationship} {n : Nat}
  {told : List Announcement}

theorem entity?_put {e : Entity} (he : e ≠ .relationship owner target) :
    (w.put owner target r n told).entity? e = w.entity? e := by
  rw [← entity?_modifyRelationship (w := w) he fun _ => r]
  exact entity?_congr rfl rfl e

theorem Settles.congr (h : w.Settles owner target r) (hbare : w'.bare = w.bare) :
    w'.Settles owner target r := by
  have hfacts : w'.facts = w.facts := congrArg (·.facts) hbare
  have hrules : w'.rules = w.rules := congrArg (·.rules) hbare
  have hagents : w'.agents = w.agents := by
    simpa [bare, mask] using congrArg (·.agents) hbare
  have hprojected : Act.projected w' owner target = Act.projected w owner target := by
    simp only [Act.projected, agent?, hagents]
  have hinfluences : w'.influences owner target = w.influences owner target := by
    rw [influences, influences, hrules, hprojected]
  have happlying : w'.applying owner target = w.applying owner target := by
    rw [applying, applying, hinfluences, hfacts]
  constructor
  case rules_eq => simpa only [hrules, hfacts] using h.rules_eq
  case modifiers_eq => simpa only [hprojected, hfacts] using h.modifiers_eq
  case admits => simpa only [hinfluences, Admits, hfacts] using h.admits
  case attached_perm => simpa only [happlying] using h.attached_perm
  case eq_instance => exact h.eq_instance

theorem filterMap_asModifier? (w : World) (owner target : String) :
    (w.applying owner target).filterMap (·.asModifier?) =
      ((Act.projected w owner target).filter fun m =>
        w.facts.meets owner target m.preconditions).map (·.id) := by
  simp [applying, influences, List.filter_map, Function.comp_def, Influence.asModifier?,
    Influence.preconditions]

theorem settles_under (hb : r.sheet.Balanced r.activeSources)
    (hall : ∀ i ∈ w.influences owner target, w.Admits owner target r.sheet.stats i) (n : Nat) :
    w.Settles owner target (r.forgotten.under owner target n (w.applying owner target)) := by
  have hmodifiers : ∀ m ∈ StatModifier.numbered n
      ((w.applying owner target).flatMap (·.declared)),
      m.isEvaluated = true ∧ r.forgotten.sheet.stats.contains m.stat = true := by
    intro m hm
    refine ⟨StatModifier.isEvaluated_of_mem_numbered
      (fun _ => Relationship.isEvaluated_of_mem_declared) m hm, ?_⟩
    obtain ⟨p, hp, k, rfl⟩ := StatModifier.exists_of_mem_numbered hm
    obtain ⟨i, hi, hp⟩ := List.mem_flatMap.mp hp
    obtain ⟨spec, hspec, rfl⟩ := List.mem_map.mp hp
    obtain ⟨hi, hmeets⟩ := List.mem_filter.mp hi
    exact (Act.admits_forgotten.mpr (hall i hi)).2 hmeets spec hspec
  have hperm := fun name => Stats.evaluatedOn_attach_perm
    (Relationship.evaluatedOn_forgotten hb name) hmodifiers
  constructor
  case rules_eq => exact w.filterMap_asRule? owner target
  case modifiers_eq => exact w.filterMap_asModifier? owner target
  case admits => exact fun i hi => (Act.admits_under _).mpr (Act.admits_forgotten.mpr (hall i hi))
  case attached_perm =>
    intro name
    exact ((hperm name).map _).trans (.of_eq (StatModifier.map_filter_numbered n _ name))
  case eq_instance =>
    intro name m hm
    have hmem := List.mem_of_mem_filter ((hperm name).mem_iff.mp hm)
    obtain ⟨p, -, k, rfl⟩ := StatModifier.exists_of_mem_numbered hmem
    rfl

theorem Renewed.of_under (hr : w.relationship? owner target = some r)
    (hb : r.sheet.Balanced r.activeSources)
    (hall : ∀ i ∈ w.influences owner target, w.Admits owner target r.sheet.stats i)
    (more : List Announcement) :
    w.Renewed owner target (w.under owner target r.forgotten w.nextId (w.announcements ++ more)
      (w.applying owner target)) := by
  have hthere : (w.relationship? owner target).isSome = true := by simp [hr]
  have hbare : (w.under owner target r.forgotten w.nextId (w.announcements ++ more)
      (w.applying owner target)).bare = w.bare :=
    mask_put hr ((Relationship.bare_under _ _ _ _ _).trans r.bare_forgotten)
  constructor
  case bare_eq => exact hbare
  case apart => exact fun e he => entity?_put he
  case told => exact List.prefix_append _ _
  case settles =>
    refine ⟨r, _, hr, relationship?_put hthere, (settles_under hb hall _).congr hbare, ?_⟩
    exact fun name s' hs' => Stats.reading_of_renewed hs'

theorem Balanced.relationship (hw : w.Balanced) (hr : w.relationship? owner target = some r) :
    r.sheet.Balanced r.activeSources :=
  hw (.relationship owner target) _ _ (by simp [page?, hr])

/-- An evaluation that ends well renews the relationship, and so does another one after it, with
other numbers. -/
theorem Balanced.leads_reevaluate (hw : w.Balanced) (owner target : String) :
    (Act.reevaluate owner target).Leads
      (fun _ w' => w.Renewed owner target w' ∧
        ∃ w'', (Act.reevaluate owner target).runOn w' = (.ok (), w'') ∧
          w''.unnumbered = w'.unnumbered)
      (fun _ => True) w := by
  cases hr : w.relationship? owner target with
  | none => exact Act.leads_reevaluate_of_none hr
  | some r =>
      have hb := hw.relationship hr
      refine (Act.leads_reevaluate hr).imp (fun _ w' => ?_) fun _ _ => trivial
      rintro ⟨hall, more, rfl⟩
      refine ⟨.of_under hr hb hall more, ?_⟩
      have hr' : (w.under owner target r.forgotten w.nextId (w.announcements ++ more)
          (w.applying owner target)).relationship? owner target =
            some (r.forgotten.under owner target w.nextId (w.applying owner target)) :=
        relationship?_put (by simp [hr])
      have hagain := (Act.leads_reevaluate hr').imp (fun _ _ h => h.2) fun _ hnot =>
        hnot (settles_under hb hall w.nextId).admits
      obtain ⟨_, w'', hrun, again, rfl⟩ := hagain.exists_ok
      exact ⟨_, hrun, mask_put hr' (Relationship.unnumbered_again hb _ _)⟩

/-- From the world `w` evaluations have led to one in which all relationships are settled, but those
that are left. -/
structure SettledBut (w : World) (left : List Relationship) (v : World) : Prop where
  balanced : v.Balanced
  bare_eq : v.bare = w.bare
  settles : ∀ owner target r, v.relationship? owner target = some r →
    w.Settles owner target r ∨ .relationship owner target ∈ left.map Relationship.entity

theorem SettledBut.reevaluate {w : World} (first : Relationship) (left : List Relationship) :
    Act.Ensures (w.SettledBut (first :: left)) (Act.reevaluate first.owner first.target)
      (fun _ => w.SettledBut left) fun _ => True := by
  intro v hv
  have hkeeps := Act.reevaluate_keeps first.owner first.target v hv.balanced
  refine (Act.Leads.and hkeeps (hv.balanced.leads_reevaluate _ _)).imp (fun _ v' => ?_) fun _ _ =>
    trivial
  rintro ⟨hbalanced, hrenewed, -⟩
  refine ⟨hbalanced, hrenewed.bare_eq.trans hv.bare_eq, fun owner target r hr => ?_⟩
  by_cases hfirst : Entity.relationship owner target = .relationship first.owner first.target
  · obtain ⟨rfl, rfl⟩ := Entity.relationship.inj hfirst
    obtain ⟨_, r', _, hr', hsettles, -⟩ := hrenewed.settles
    obtain rfl := Option.some.inj (hr.symm.trans hr')
    exact .inl (hsettles.congr (hrenewed.bare_eq.trans hv.bare_eq).symm)
  · have hsame : v.relationship? owner target = some r := by
      have happart := hrenewed.apart _ hfirst
      simpa [entity?, hr] using happart.symm
    rcases hv.settles owner target r hsame with hsettles | hleft
    · exact .inl hsettles
    · exact .inr ((List.mem_cons.mp hleft).resolve_left hfirst)

/-- The worlds that commands lead to if, in between, the rules of the library may be exchanged for
others. -/
inductive Visited : World → Prop where
  | empty : Visited ∅
  | step {w : World} (c : Command) : Visited w → Visited (w.after c)
  | exchangeRules {w : World} (rules : List SocialRule) : Visited w → Visited { w with rules }

/-- Rules may be exchanged under what is known from the entities alone. -/
theorem Visited.of_keeps {P : World → Prop} (hP : OfEntities P) (hempty : P ∅)
    (hact : ∀ c : Command, c.act.Keeps P) (h : w.Visited) : P w := by
  induction h with
  | empty => exact hempty
  | step c _ ih => exact (hact c).holds ih
  | @exchangeRules w rules _ ih => exact hP w _ rfl rfl ih

theorem Visited.balanced (h : w.Visited) : w.Balanced :=
  h.of_keeps ofEntities_balanced (balanced_of_no_entities rfl rfl) Act.invariant_balanced.act

theorem Visited.linked (h : w.Visited) : w.Linked :=
  h.of_keeps ofEntities_linked (linked_of_no_entities rfl rfl) fun c => c.act_linked

end World

end Society
