import Society.Proofs.Fact.Opening
import Society.Proofs.World.Holding
import Society.Proofs.World.Measured
import Society.Proofs.World.Renewal

/-!
# Traits that are taken back

A trait that is added and removed again leaves its holder as it was: the traits, the stats and their
readings. A relationship is evaluated anew on the way, so what rules and relationship modifiers
attach to it is what applies then. The facts have lost what goes on from the fact of the trait, but
not what it goes on from.
-/

namespace Society

/-! ## Facts -/

namespace Sentence

/-- A fact is the beginning of another one, with its cardinalities. -/
def Opens (s x : String) : Prop :=
  ∃ p q, parse s = .ok p ∧ anyVariable p = false ∧ parse x = .ok q ∧ OpensPath p q

variable {s x : String} {p q : List Segment}

theorem opens_of_parse (hs : parse s = .ok p) (hv : anyVariable p = false) (hx : parse x = .ok q) :
    Opens s x ↔ OpensPath p q := by
  constructor
  · rintro ⟨p', q', hs', -, hx', hopens⟩
    cases hs.symm.trans hs'
    cases hx.symm.trans hx'
    exact hopens
  · exact fun hopens => ⟨p, q, hs, hv, hx, hopens⟩

end Sentence

namespace FactDatabase

open Sentence (keys Opens OpensPath begins)

/-- Whether an insertion of `x` displaces `s`: the two part at a node that may have one child. -/
def Displaces (db : FactDatabase) (x s : String) : Prop :=
  ∃ q p, Sentence.parse x = .ok q ∧ Sentence.parse s = .ok p ∧ db.view.Displaces q (keys p)

variable {db db' : FactDatabase} {s x : String} {p q : List Segment} {found : Bool}

theorem closed_view (db : FactDatabase) : db.view.Closed :=
  fun _ _ hne hpre hsome => isSome_view_of_isPrefix hne hpre hsome

theorem assert_eq_true_iff :
    db.assert s = .ok true ↔ ∃ p, Sentence.parse s = .ok p ∧ Sentence.anyVariable p = false ∧
      db.view.holds p = true := by
  constructor
  · intro h
    obtain ⟨p, hp, hv⟩ := isFact_of_assert h
    rw [assert_of_parse hp hv, Except.ok.injEq] at h
    exact ⟨p, hp, hv, h⟩
  · rintro ⟨p, hp, hv, h⟩
    rw [assert_of_parse hp hv, h]

/-- After an insertion the facts are those that open what was inserted, and those that were there
before and were not displaced. -/
theorem assert_of_insert_iff (h : db.Sound) (hi : db.insert x = .ok db') :
    db'.assert s = .ok true ↔
      Opens s x ∨ (db.assert s = .ok true ∧ ¬ db.Displaces x s) := by
  obtain ⟨q, hx, hclash, hview⟩ := view_of_insert h hi
  by_cases hs : Sentence.IsFact s
  case neg =>
    have hnot : ∀ db : FactDatabase, db.assert s ≠ .ok true := fun _ ha => hs (isFact_of_assert ha)
    have hnopen : ¬ Opens s x := fun ⟨p, _, hp, hv, _⟩ => hs ⟨p, hp, hv⟩
    simp [hnot, hnopen]
  case pos =>
    obtain ⟨p, hp, hv⟩ := hs
    have hne := (Sentence.proper_of_parse hp).ne_nil
    have hdisplaces : db.Displaces x s ↔ db.view.Displaces q (keys p) := by
      simp [Displaces, hx, hp]
    rw [assert_of_parse hp hv, assert_of_parse hp hv, hview, Sentence.opens_of_parse hp hv hx,
      hdisplaces, Except.ok.injEq, Except.ok.injEq]
    exact FactMap.holds_insert_iff db.closed_view hclash hne

/-- What opens a fact is a fact. -/
theorem assert_of_opens (ho : Opens s x) (ha : db.assert x = .ok true) :
    db.assert s = .ok true := by
  obtain ⟨p, q, hs, hv, hx, hopens⟩ := ho
  obtain ⟨q', hx', -, hholds⟩ := assert_eq_true_iff.mp ha
  cases hx.symm.trans hx'
  exact assert_eq_true_iff.mpr ⟨p, hs, hv, FactMap.holds_of_opensPath db.closed_view
    (Sentence.proper_of_parse hs).ne_nil hopens hholds⟩

/-- What is inserted and taken back again has come and gone, with what it has displaced and what
went on from it; the sentences that open it have come and stay. -/
theorem assert_of_insert_retract {db'' : FactDatabase} (h : db.Sound) (hi : db.insert x = .ok db')
    (hr : db'.retract x = .ok (db'', found)) :
    db''.assert s = .ok true ↔ begins x s = false ∧
      (Opens s x ∨ (db.assert s = .ok true ∧ ¬ db.Displaces x s)) := by
  rw [asserts_of_retract (stable_sound.insert h hi) hr, assert_of_insert hi,
    assert_of_insert_iff h hi, and_comm]
  simp

end FactDatabase

/-- What opens a fact but does not reach its last segment opens the fact without it. -/
theorem Sentence.opens_append_iff {s x y : String} {q : List Segment} {t : Segment}
    (hx : parse x = .ok (q ++ [t])) (hy : parse y = .ok q) :
    Opens s x ∧ begins x s = false ↔ Opens s y := by
  constructor
  · rintro ⟨⟨p, q', hs, hv, hx', hopens⟩, hnot⟩
    cases hx.symm.trans hx'
    have hshort : ¬ keys (q ++ [t]) <+: keys p := by
      rw [← begins_of_parse hx hs, hnot]
      decide
    exact ⟨p, q, hs, hv, hy, opensPath_append_iff.mp ⟨hopens, hshort⟩⟩
  · rintro ⟨p, q', hs, hv, hy', hopens⟩
    cases hy.symm.trans hy'
    obtain ⟨hopens, hshort⟩ := opensPath_append_iff.mpr hopens
    exact ⟨⟨p, _, hs, hv, hx, hopens⟩, by rwa [← Bool.not_eq_true, begins_of_parse hx hs]⟩

/-! ## Sheets -/

/-- The sheet without a trait and its modifiers. -/
def Sheet.without (s : Sheet) (id : String) : Sheet :=
  ⟨(s.stats.removeFrom (.trait id)).result, s.traits.erase id⟩

theorem Sheet.Balanced.without {s : Sheet} {active : List ModifierSource} (h : s.Balanced active)
    (id : String) : (s.without id).Balanced active := by
  rw [Sheet.Balanced, Sheet.without, HeldTraits.due_erase]
  exact h.removeFrom_trait id

/-- A trait is taken from what evaluations leave of a relationship. -/
theorem Relationship.bare_without (r : Relationship) (id : String) :
    ({ r with sheet := r.sheet.without id } : Relationship).bare =
      { r.bare with sheet :=
        ⟨r.bare.sheet.stats.map (·.without (.trait id)), r.bare.sheet.traits.erase id⟩ } := by
  simp only [bare, Sheet.without, Stats.bare_removeFrom_eq]

namespace World

variable {w : World} {e : Entity} {s : Sheet} {id : String}

/-- An entity has neither a trait nor its modifiers, and the facts are others. -/
def dropping (w : World) (e : Entity) (s : Sheet) (id : String) (facts : FactDatabase) : World :=
  { World.setSheet { w with facts } (s.without id) e with
    announcements := w.announcements ++ (s.stats.removeFrom (.trait id)).announced }

theorem agent?_setSheet {uid : String} {a : Agent} (ha : w.agent? uid = some a) (s : Sheet) :
    (w.setSheet s (.agent uid)).agent? uid = some { a with sheet := s } := by
  refine (agent?_modifyAgent w uid uid _).trans ?_
  rw [if_pos rfl, ha]
  rfl

theorem relationship?_setSheet {owner target : String} {r : Relationship}
    (hr : w.relationship? owner target = some r) (s : Sheet) :
    (w.setSheet s (.relationship owner target)).relationship? owner target =
      some { r with sheet := s } := by
  refine (relationship?_modifyRelationship w owner target owner target _).trans ?_
  rw [if_pos ⟨rfl, rfl⟩, hr]
  rfl

theorem agent?_holding {uid : String} {a : Agent} (ha : w.agent? uid = some a) (s : Sheet)
    (t : Trait) (held : HeldTraits) (facts : FactDatabase) :
    (w.holding (.agent uid) s t held facts).agent? uid =
      some { a with sheet := s.holding t w.nextId held } :=
  agent?_setSheet ha _

theorem agent?_dropping {uid : String} {a : Agent} (ha : w.agent? uid = some a) (s : Sheet)
    (id : String) (facts : FactDatabase) :
    (w.dropping (.agent uid) s id facts).agent? uid = some { a with sheet := s.without id } :=
  agent?_setSheet ha _

theorem relationship?_holding {owner target : String} {r : Relationship}
    (hr : w.relationship? owner target = some r) (s : Sheet) (t : Trait) (held : HeldTraits)
    (facts : FactDatabase) :
    (w.holding (.relationship owner target) s t held facts).relationship? owner target =
      some { r with sheet := s.holding t w.nextId held } :=
  relationship?_setSheet hr _

theorem relationship?_dropping {owner target : String} {r : Relationship}
    (hr : w.relationship? owner target = some r) (s : Sheet) (id : String) (facts : FactDatabase) :
    (w.dropping (.relationship owner target) s id facts).relationship? owner target =
      some { r with sheet := s.without id } :=
  relationship?_setSheet hr _

theorem facts_holding (w : World) (e : Entity) (s : Sheet) (t : Trait) (held : HeldTraits)
    (facts : FactDatabase) : (w.holding e s t held facts).facts = facts := by
  cases e <;> rfl

theorem facts_dropping (w : World) (e : Entity) (s : Sheet) (id : String) (facts : FactDatabase) :
    (w.dropping e s id facts).facts = facts := by
  cases e <;> rfl

end World

/-! ## What the two acts do before an evaluation -/

namespace Act

variable {w u w' : World} {e : Entity} {id : String}

theorem runOn_thenEvaluate_true {start : Act Bool}
    (h : (thenEvaluate e start).runOn w = (.ok true, w')) :
    ∃ u, start.runOn w = (.ok true, u) ∧ (reevaluateAround e).runOn u = (.ok (), w') := by
  obtain ⟨u, ended, hstart, hend, htrue⟩ :=
    (runOn_thenEvaluate h).resolve_left fun hnot => hnot.2 rfl
  cases ended with
  | error error => cases htrue
  | ok a => exact ⟨u, hstart, hend⟩

/-- A trait that was added was not held before; it is on the sheet now, and its fact is there. -/
theorem runOn_addTrait_true {duration : Int} {description : Option String}
    (h : (addTrait e id duration description).runOn w = (.ok true, u)) :
    ∃ t s facts, Offers w e id t s ∧ s.traits.contains t.id = false ∧
      w.facts.insert (e.traitFact id) = .ok facts ∧
      (reevaluateAround e).runOn
        (w.holding e s t (s.traits.hold t (describe e t description) duration) facts) =
          (.ok (), u) := by
  rw [addTrait_eq] at h
  obtain ⟨v, hstart, hend⟩ := runOn_thenEvaluate_true h
  have hholds : (holdTrait e id duration description).Leads
      (fun added v => added = true → ∃ t s facts, Offers w e id t s ∧
        s.traits.contains t.id = false ∧ w.facts.insert (e.traitFact id) = .ok facts ∧
        v = w.holding e s t (s.traits.hold t (describe e t description) duration) facts)
      (fun _ => True) w := by
    apply leads_holdTrait_holding
    case hlost => exact fun _ => trivial
    case hrefused => exact fun _ _ _ _ hadded => nomatch hadded
    case hfails => exact fun _ _ _ _ _ => trivial
    case hholds =>
      intro t s facts hoffers hadd _ hf _
      have hnot : s.traits.contains t.id = false := by
        simp only [HeldTraits.canAdd, Bool.and_eq_true, Bool.not_eq_true'] at hadd
        exact hadd.1
      exact ⟨t, s, facts, hoffers, hnot, hf, rfl⟩
  obtain ⟨t, s, facts, hoffers, hnot, hf, rfl⟩ := hholds.ok hstart rfl
  exact ⟨t, s, facts, hoffers, hnot, hf, hend⟩

theorem leads_clearKind_skip {E : World → Prop} {Q : Unit → World → Prop} {s : Sheet}
    (hs : w.sheet? e = some s) (hkind : w.kind? e ≠ some id) (hQ : Q () w) :
    (clearKind e id).Leads Q E w := by
  cases e with
  | agent uid => exact hQ
  | relationship owner target =>
      refine leads_bind.mpr (leads_look.mpr ⟨fun r hr => ?_, fun hnone => ?_⟩)
      · have hk : r.kind ≠ some id := by simpa [World.kind?, hr] using hkind
        exact leads_ite.mpr ⟨fun hsame => absurd hsame hk, fun _ => hQ⟩
      · simp [World.sheet?, hnone] at hs

/-- A trait that was removed and is not the type of its holder was held; it is off the sheet now,
and its fact is taken back. -/
theorem runOn_removeTrait_true (hkind : u.kind? e ≠ some id)
    (h : (removeTrait e id).runOn u = (.ok true, w')) :
    ∃ s facts found, u.sheet? e = some s ∧ u.facts.retract (e.traitFact id) = .ok (facts, found) ∧
      (reevaluateAround e).runOn (u.dropping e s id facts) = (.ok (), w') := by
  rw [removeTrait_eq] at h
  obtain ⟨v, hstart, hend⟩ := runOn_thenEvaluate_true h
  have hdrops : (dropTrait e id).Leads
      (fun dropped v => dropped = true → ∃ s facts found, u.sheet? e = some s ∧
        u.facts.retract (e.traitFact id) = .ok (facts, found) ∧ v = u.dropping e s id facts)
      (fun _ => True) u := by
    refine leads_bind.mpr (leads_look.mpr ⟨fun s hs => leads_ite.mpr ⟨fun _ => ?_, fun _ => ?_⟩,
      fun _ => trivial⟩)
    · exact leads_pure.mpr fun hdropped => nomatch hdropped
    have hs₁ := World.sheet?_setSheet hs { s with traits := s.traits.erase id }
    refine leads_bind.mpr ((leads_changeTraits hs).mpr (leads_bind.mpr ?_))
    refine (leads_changeStats_iff hs₁).mpr (leads_bind.mpr ?_)
    rw [World.setSheet_setSheet]
    apply leads_clearKind_skip
    case hs => exact (World.sheet?_congr rfl rfl e).trans (World.sheet?_setSheet hs _)
    case hkind =>
      rw [← World.kind?_setSheet u _ e e] at hkind
      exact fun hk => hkind ((World.kind?_congr rfl e).symm.trans hk)
    case hQ =>
      refine leads_bind.mpr (leads_discard.mpr (leads_retract.mpr ⟨fun facts found hr => ?_,
        fun _ _ => trivial⟩))
      refine leads_pure.mpr fun _ => ⟨s, facts, found, hs, ?_, ?_⟩
      · cases e <;> exact hr
      · cases e <;> rfl
  obtain ⟨s, facts, found, hs, hr, rfl⟩ := hdrops.ok hstart rfl
  exact ⟨s, facts, found, hs, hr, hend⟩

end Act

/-! ## What is there again -/

namespace World

open Sentence (Opens begins word)

variable {w u w' : World} {e : Entity} {id uid owner target : String} {s : Sheet}
  {r : Relationship} {duration : Int} {description : Option String}

/-- A trait that was not held can be taken from the sheet again. -/
theorem Reachable.without_holding (hw : w.Reachable) (hs : w.sheet? e = some s) {t : Trait}
    (hnot : s.traits.contains t.id = false) (text : String) (n : Nat) :
    (s.holding t n (s.traits.hold t text duration)).without t.id = s := by
  have hnone : ∀ name, ∀ m ∈ s.stats.modifiersOn name, m.isFrom (.trait t.id) = false := by
    intro name m hm
    rw [Bool.eq_false_iff, ne_eq, StatModifier.isFrom_iff]
    exact hw.ledger.not_held e s t.id hs hnot name m hm
  have hms : ∀ m ∈ StatModifier.numbered n (t.modifiers.map (.trait t.id, ·)),
      m.isFrom (.trait t.id) = true := by
    intro m hm
    obtain ⟨p, hp, k, rfl⟩ := StatModifier.exists_of_mem_numbered hm
    obtain ⟨spec, -, rfl⟩ := List.mem_map.mp hp
    exact StatModifier.isFrom_iff.mpr rfl
  rw [Sheet.without, Sheet.holding, HeldTraits.erase_hold hnot,
    Stats.removeFrom_attach (hw.everyStat Stat.stable_measured e s hs) hnone hms]

theorem kind?_holding (w : World) (e : Entity) (s : Sheet) (t : Trait) (held : HeldTraits)
    (facts : FactDatabase) : (w.holding e s t held facts).kind? e = w.kind? e :=
  (kind?_congr rfl e).trans ((kind?_setSheet _ _ e e).trans (kind?_congr rfl e))

theorem facts_of_reevaluateAround {ended : Except WorldError Unit}
    (h : (Act.reevaluateAround e).runOn u = (ended, w')) : w'.facts = u.facts :=
  congrArg (·.facts) (of_reevaluateAround h).1

/-- What two acts have done that add a trait and remove it: the sheet and the facts between them,
and after them, each up to an evaluation. -/
structure Detour (w : World) (e : Entity) (t : Trait) (s : Sheet) (u w' : World) : Prop where
  library : w.traits.get? t.id = some t
  sheet : w.sheet? e = some s
  not_held : s.traits.contains t.id = false
  added : ∃ text duration facts, w.facts.insert (e.traitFact t.id) = .ok facts ∧
    (Act.reevaluateAround e).runOn (w.holding e s t (s.traits.hold t text duration) facts) =
      (.ok (), u)
  removed : ∃ s₁ facts found, u.sheet? e = some s₁ ∧
    u.facts.retract (e.traitFact t.id) = .ok (facts, found) ∧
    (Act.reevaluateAround e).runOn (u.dropping e s₁ t.id facts) = (.ok (), w')

theorem Reachable.detour (hw : w.Reachable)
    (hadd : (Act.addTrait e id duration description).runOn w = (.ok true, u))
    (hremove : (Act.removeTrait e id).runOn u = (.ok true, w')) (hkind : w.kind? e ≠ some id) :
    ∃ t s, t.id = id ∧ w.Detour e t s u w' := by
  obtain ⟨t, s, facts, hoffers, hnot, hf, hend⟩ := Act.runOn_addTrait_true hadd
  obtain rfl := hw.readable.library id t hoffers.library
  have hkind' : u.kind? e ≠ some t.id := by
    rwa [kind?_of_face (of_reevaluateAround hend).1, kind?_holding]
  exact ⟨t, s, rfl, hoffers.library, hoffers.sheet, hnot, ⟨_, _, facts, hf, hend⟩,
    Act.runOn_removeTrait_true hkind' hremove⟩

theorem agent?_of_reevaluateAround {ended : Except WorldError Unit}
    (h : (Act.reevaluateAround (.agent uid)).runOn u = (ended, w')) :
    w'.agent? uid = u.agent? uid := by
  have happart : ¬ (Entity.agent uid).Around (.agent uid) := id
  have hsame := (Act.reevaluateAround_apart happart).eq u
  rw [h] at hsame
  exact Option.map_injective (fun _ _ => Sum.inl.inj) hsame

/-- An agent is as it was. -/
theorem Detour.agent?_eq {t : Trait} (h : w.Detour (.agent uid) t s u w') (hw : w.Reachable) :
    w'.agent? uid = w.agent? uid := by
  obtain ⟨text, duration, facts, -, hend⟩ := h.added
  obtain ⟨s₁, facts₁, found, hs₁, -, hend₁⟩ := h.removed
  obtain ⟨a, ha, rfl⟩ := Option.map_eq_some_iff.mp h.sheet
  -- evaluations change the relationships of an agent, but not the agent
  have hu := (agent?_of_reevaluateAround hend).trans (agent?_holding ha _ _ _ _)
  have hw' := (agent?_of_reevaluateAround hend₁).trans (agent?_dropping hu _ _ _)
  rw [sheet?, hu] at hs₁
  obtain rfl := Option.some.inj hs₁
  rw [hw', ha, hw.without_holding h.sheet h.not_held]

theorem Renewed.of_reevaluate (hr : w.relationship? owner target = some r)
    (hb : r.sheet.Balanced r.activeSources)
    (h : (Act.reevaluate owner target).runOn w = (.ok (), w')) : w.Renewed owner target w' := by
  obtain ⟨hall, more, rfl⟩ := (Act.leads_reevaluate hr).ok h
  exact .of_under hr hb hall more

theorem exists_bare_of_reevaluate (hr : w.relationship? owner target = some r)
    (h : (Act.reevaluate owner target).runOn w = (.ok (), w')) :
    ∃ r', w'.relationship? owner target = some r' ∧ r'.bare = r.bare := by
  obtain ⟨-, more, rfl⟩ := (Act.leads_reevaluate hr).ok h
  exact ⟨_, relationship?_put (by simp [hr]),
    (Relationship.bare_under _ _ _ _ _).trans r.bare_forgotten⟩

/-- A relationship is as it was but for what evaluations attach, and that is what applies now. -/
theorem Detour.exists_relationship {t : Trait} (h : w.Detour (.relationship owner target) t s u w')
    (hw : w.Reachable) (hu : u.Reachable) :
    ∃ r r', w.relationship? owner target = some r ∧ w'.relationship? owner target = some r' ∧
      r'.bare = r.bare ∧ w'.Settles owner target r' := by
  obtain ⟨text, duration, facts, -, hend⟩ := h.added
  obtain ⟨s₁, facts₁, found, hs₁, -, hend₁⟩ := h.removed
  obtain ⟨r, hr, rfl⟩ := Option.map_eq_some_iff.mp h.sheet
  have hholding := relationship?_holding hr r.sheet t (r.sheet.traits.hold t text duration) facts
  obtain ⟨ru, hru, hbare⟩ := exists_bare_of_reevaluate hholding hend
  rw [sheet?, hru] at hs₁
  obtain rfl := Option.some.inj hs₁
  have hdropping := relationship?_dropping hru ru.sheet t.id facts₁
  have hbalanced := (hu.balanced.relationship hru).without t.id
  obtain ⟨_, r', -, hr', hsettles, -⟩ := (Renewed.of_reevaluate hdropping hbalanced hend₁).settles
  obtain ⟨r'', hr'', hbare₁⟩ := exists_bare_of_reevaluate hdropping hend₁
  obtain rfl := Option.some.inj (hr'.symm.trans hr'')
  refine ⟨r, r', hr, hr', ?_, hsettles⟩
  rw [hbare₁, Relationship.bare_without, hbare, ← Relationship.bare_without,
    hw.without_holding h.sheet h.not_held]

/-- The facts are those that open the fact of the trait, and those that were there and were not
displaced, but for what goes on from it. -/
theorem Detour.assert_iff {t : Trait} (h : w.Detour e t s u w') (hw : w.Reachable) (x : String) :
    w'.facts.assert x = .ok true ↔ begins (e.traitFact t.id) x = false ∧
      (Opens x (e.traitFact t.id) ∨
        (w.facts.assert x = .ok true ∧ ¬ w.facts.Displaces (e.traitFact t.id) x)) := by
  obtain ⟨text, duration, facts, hf, hend⟩ := h.added
  obtain ⟨s₁, facts₁, found, -, hr, hend₁⟩ := h.removed
  rw [facts_of_reevaluateAround hend, facts_holding] at hr
  rw [facts_of_reevaluateAround hend₁, facts_dropping]
  exact FactDatabase.assert_of_insert_retract hw.reached.tidy.facts hf hr

/-- Where names are words and nobody edits the facts by hand, the facts are those that were there,
and the one that the holder has traits. -/
theorem Detour.assert_iff_of_plain {t : Trait} (h : w.Detour e t s u w')
    (hw : w.ReachableBy fun _ c => c.Plain) (x : String) :
    w'.facts.assert x = .ok true ↔ w.facts.assert x = .ok true ∨ Opens x (e.fact ++ ".traits") := by
  have hm := hw.mirrors
  have hpresent : w.Shows (.present e) := by simp [Shows, h.sheet]
  have hplain : (Report.holds e t.id).Plain :=
    ⟨hm.plain _ hpresent, (hm.library t.id t h.library).2⟩
  have hfact : Sentence.parse (e.traitFact t.id) = .ok (Report.holds e t.id).path :=
    Report.parse_fact hplain
  have hpath : (Report.holds e t.id).path = e.path ++ [word "traits"] ++ [word t.id] := by
    simp [Report.path]
  have hword : Sentence.IsWord "traits" := rfl
  have htraits : Sentence.parse (e.fact ++ ".traits") = .ok (e.path ++ [word "traits"]) := by
    rw [show ".traits" = "." ++ "traits" from rfl, ← String.append_assoc]
    exact Sentence.parse_append_point (Entity.parse_fact hplain.1) hword
  obtain ⟨T, hT, hiff⟩ := hm.tells
  -- the fact of the trait was not told before, so nothing that was told goes on from it
  have hnone : w.facts.view (Report.holds e t.id).keys = none := by
    rw [← Option.not_isSome_iff_eq_none, hT.isSome_iff, hiff _ (by simp)]
    simp [Shows, h.sheet, h.not_held]
  have hkept : ¬ w.facts.Displaces (e.traitFact t.id) x := by
    rintro ⟨q, p, hq, -, hd⟩
    cases hfact.symm.trans hq
    have hmany : ∀ v ∈ (Report.holds e t.id).path.dropLast, v.cardinality = .many := by
      cases e <;> simp [Report.path, Entity.path, word]
    exact FactMap.not_displaces_of_many rfl (hT.clash?_eq _) hmany _ hd
  rw [h.assert_iff hw.reachable, ← Sentence.opens_append_iff (hpath ▸ hfact) htraits]
  constructor
  · rintro ⟨hnot, hopens | ⟨ha, -⟩⟩
    · exact .inr ⟨hopens, hnot⟩
    · exact .inl ha
  · rintro (ha | ⟨hopens, hnot⟩)
    · refine ⟨?_, .inr ⟨ha, hkept⟩⟩
      obtain ⟨p, hp, -, hholds⟩ := FactDatabase.assert_eq_true_iff.mp ha
      rw [← Bool.not_eq_true, Sentence.begins_of_parse hfact hp]
      intro hpre
      have hsome := w.facts.closed_view _ _ (Report.keys_ne_nil _) hpre
        (FactMap.holds_iff.mp hholds).1
      rw [hnone] at hsome
      cases hsome
    · exact ⟨hnot, .inl hopens⟩

/-- What has become of a world in which an entity was given a trait that was then taken from it: the
world `w'` that there is now compares with the world `w` that there was. -/
structure Reversed (w : World) (e : Entity) (id : String) (w' : World) : Prop where
  /-- An agent is as it was, with its traits and all of its stats. -/
  agent : ∀ uid, e = .agent uid → w'.agent? uid = w.agent? uid
  /-- A relationship has the traits that it had, and the modifiers that no evaluation attaches. Of
  the others it has those that apply now. -/
  relationship : ∀ owner target, e = .relationship owner target →
    ∃ r r', w.relationship? owner target = some r ∧ w'.relationship? owner target = some r' ∧
      r'.sheet.traits = r.sheet.traits ∧ r'.kind = r.kind ∧
      (∀ name, (r'.sheet.stats.modifiersOn name).filter (!·.isEvaluated) =
        (r.sheet.stats.modifiersOn name).filter (!·.isEvaluated)) ∧
      w'.Settles owner target r'
  /-- What opens the fact of the trait is told, and what goes on from it is not. All else is told
  that was told, unless it was displaced. -/
  facts : ∀ x, w'.facts.assert x = .ok true ↔ begins (e.traitFact id) x = false ∧
    (Opens x (e.traitFact id) ∨
      (w.facts.assert x = .ok true ∧ ¬ w.facts.Displaces (e.traitFact id) x))
  /-- Where names are words and nobody edits the facts by hand, all that was told is told, and that
  the holder has traits. -/
  plain_facts : (w.ReachableBy fun _ c => c.Plain) → ∀ x,
    w'.facts.assert x = .ok true ↔ w.facts.assert x = .ok true ∨ Opens x (e.fact ++ ".traits")
  /-- So if that had been told before, the facts are those that there were. -/
  same_facts : (w.ReachableBy fun _ c => c.Plain) →
    w.facts.assert (e.fact ++ ".traits") = .ok true →
      ∀ x, w'.facts.assert x = .ok true ↔ w.facts.assert x = .ok true

/-- To remove a trait that has just been added takes it back, if it is not the type of its
holder. -/
theorem Reachable.reversal (hw : w.Reachable)
    (hadd : (Act.addTrait e id duration description).runOn w = (.ok true, u))
    (hremove : (Act.removeTrait e id).runOn u = (.ok true, w')) (hkind : w.kind? e ≠ some id) :
    w.Reversed e id w' := by
  obtain ⟨t, s, rfl, h⟩ := hw.detour hadd hremove hkind
  have hu : u.Reachable := by
    have hstep := hw.step (.giveTrait e t.id duration description)
    rwa [after, Command.act, Act.runOn_discard_snd, hadd] at hstep
  constructor
  case agent =>
    rintro uid rfl
    exact h.agent?_eq hw
  case relationship =>
    rintro owner target rfl
    obtain ⟨r, r', hr, hr', hbare, hsettles⟩ := h.exists_relationship hw hu
    refine ⟨r, r', hr, hr', congrArg (·.sheet.traits) hbare, congrArg (·.kind) hbare,
      fun name => ?_, hsettles⟩
    rw [← Stats.modifiersOn_bare, ← Stats.modifiersOn_bare]
    exact congrArg (·.sheet.stats.modifiersOn name) hbare
  case facts => exact h.assert_iff hw
  case plain_facts => exact fun hplain => h.assert_iff_of_plain hplain
  case same_facts =>
    intro hplain htold x
    rw [h.assert_iff_of_plain hplain, or_iff_left_iff_imp]
    exact fun hopens => FactDatabase.assert_of_opens hopens htold

/-- Courage comes to Ann and goes again. -/
theorem reversal_of_brave :
    ∃ w u w' : World, (w.ReachableBy fun _ c => c.Plain) ∧
      (Act.addTrait (.agent "ann") "brave" 3 none).runOn w = (.ok true, u) ∧
      (Act.removeTrait (.agent "ann") "brave").runOn u = (.ok true, w') ∧
      w.kind? (.agent "ann") ≠ some "brave" ∧ w.Reversed (.agent "ann") "brave" w' := by
  have hw : World.ReachableBy (fun _ c => c.Plain) (braveRun.foldl World.after ∅) :=
    ReachableBy.empty.run ⟨rfl, trivial, rfl, trivial⟩
  have hadd := Act.runOn_eq_ok (x := Act.addTrait (.agent "ann") "brave" 3 none)
    (w := braveRun.foldl World.after ∅) (a := true) (by decide +kernel)
  have hremove := Act.runOn_eq_ok (x := Act.removeTrait (.agent "ann") "brave")
    (w := ((Act.addTrait (.agent "ann") "brave" 3 none).runOn (braveRun.foldl World.after ∅)).2)
    (a := true) (by decide +kernel)
  have hkind : (braveRun.foldl World.after ∅).kind? (.agent "ann") ≠ some "brave" := by simp [kind?]
  exact ⟨_, _, _, hw, hadd, hremove, hkind, hw.reachable.reversal hadd hremove hkind⟩

/-- Ann trusts Bob as long as nothing is told of traits between them, and something is told by hand
of how brave she is. -/
def waryRun : List Command := [
  .addTrait ⟨"brave", .agent, "Brave", "", [], ∅⟩,
  .addTrait ⟨"rival", .relationship, "Rival", "", [], ∅⟩, .addAgentSchema ⟨"soldier", [], []⟩,
  .addRelationshipSchema ⟨"soldier", "soldier", [⟨"trust", 0, Stat.wideBounds⟩], []⟩,
  .addAgent "soldier" "ann", .addAgent "soldier" "bob", .addRelationship "ann" "bob",
  .addRelationshipModifier "ann" (some "wary") ⟨"", .outgoing,
    ["not ?owner.relationships.?target.traits"], [⟨"trust", 2, .flat⟩], none⟩,
  .insertFact "ann.traits.brave.once"]

/-- What was told of a trait by hand goes with it. That the holder has traits stays told, and so
the modifier goes that was there as long as this was not told. -/
theorem rivalry_leaves_traces :
    ∃ w : World, w.Reachable ∧
      (∃ u w', (Act.addTrait (.agent "ann") "brave" (-1) none).runOn w = (.ok true, u) ∧
        (Act.removeTrait (.agent "ann") "brave").runOn u = (.ok true, w') ∧
        w.facts.assert "ann.traits.brave.once" = .ok true ∧
        w'.facts.assert "ann.traits.brave.once" = .ok false) ∧
      ∃ u w',
        (Act.addTrait (.relationship "ann" "bob") "rival" (-1) none).runOn w = (.ok true, u) ∧
        (Act.removeTrait (.relationship "ann" "bob") "rival").runOn u = (.ok true, w') ∧
        w.kind? (.relationship "ann" "bob") ≠ some "rival" ∧
        w.facts.assert "ann.relationships.bob.traits" = .ok false ∧
        w'.facts.assert "ann.relationships.bob.traits" = .ok true ∧
        ((w.relationship? "ann" "bob").map fun r =>
          (r.sheet.stats.modifiersOn "trust").map (·.source)) =
            some [some (.relationshipModifier (.given "wary"))] ∧
        ((w'.relationship? "ann" "bob").map fun r =>
          (r.sheet.stats.modifiersOn "trust").map (·.source)) = some [] := by
  have hw : World.Reachable (waryRun.foldl World.after ∅) := Reachable.empty.run _
  have hbrave := Act.runOn_eq_ok (x := Act.addTrait (.agent "ann") "brave" (-1) none)
    (w := waryRun.foldl World.after ∅) (a := true) (by decide +kernel)
  have hmeek := Act.runOn_eq_ok (x := Act.removeTrait (.agent "ann") "brave")
    (w := ((Act.addTrait (.agent "ann") "brave" (-1) none).runOn (waryRun.foldl World.after ∅)).2)
    (a := true) (by decide +kernel)
  have hrivals := Act.runOn_eq_ok (x := Act.addTrait (.relationship "ann" "bob") "rival" (-1) none)
    (w := waryRun.foldl World.after ∅) (a := true) (by decide +kernel)
  have hpeace := Act.runOn_eq_ok (x := Act.removeTrait (.relationship "ann" "bob") "rival")
    (w := ((Act.addTrait (.relationship "ann" "bob") "rival" (-1) none).runOn
      (waryRun.foldl World.after ∅)).2) (a := true) (by decide +kernel)
  refine ⟨_, hw, ⟨_, _, hbrave, hmeek, ?_, ?_⟩, _, _, hrivals, hpeace, ?_, ?_, ?_, ?_, ?_⟩ <;>
    decide +kernel

end World

end Society
