import Society.Proofs.Fact.Report
import Society.Proofs.World.Registry

/-!
# Facts mirror the world

Rules read nothing but facts, so facts have to say who is there and what is held. As long as all
names are words and nobody edits the facts by hand, they do, however commands end.
-/

namespace Society

open Sentence (IsWord)

theorem FactDatabase.Tells.retract {db : FactDatabase} {T : Report → Prop} (h : db.Tells T)
    {r : Report} (hr : r.Plain) :
    ∃ db' found, db.retract r.fact = .ok (db', found) ∧
      db'.Tells fun r' => T r' ∧ ¬ r.keys <+: r'.keys := by
  have hassert := h.assert_eq hr
  cases hsome : (db.view r.keys).isSome with
  | true =>
      obtain ⟨db', found, hd, htells⟩ := h.delete hr (.inl ((h.isSome_iff r).mp hsome))
      have hretract : db.retract r.fact = .ok (db', found) := by
        simp [FactDatabase.retract, hassert, hsome, hd, bind, Except.bind]
      exact ⟨db', found, hretract, htells⟩
  | false =>
      refine ⟨db, false, by simp [FactDatabase.retract, hassert, hsome, bind, Except.bind, pure,
        Except.pure], h.congr fun r' => (and_iff_left_of_imp fun hT hpre => ?_).symm⟩
      have hthere := isSome_view_of_isPrefix r.keys_ne_nil hpre ((h.isSome_iff r').mpr hT)
      simp [hsome] at hthere

namespace World

/-- Whether something that facts could report is so. -/
def Shows (w : World) : Report → Prop
  | .present e => (w.sheet? e).isSome = true
  | .holds e trait => (w.sheet? e).any (·.traits.contains trait) = true
  | .kind owner target id => (w.relationship? owner target).any (·.kind = some id) = true

/-- The facts report what the world shows, but for what begins with one of the reports that are
still to be retracted. -/
structure Mirrors (pending : List Report) (w : World) : Prop where
  linked : w.Linked
  library : ∀ id t, w.traits.get? id = some t → t.id = id ∧ IsWord id
  plain : ∀ r, w.Shows r → r.Plain
  pending_plain : ∀ x ∈ pending, x.Plain
  apart : ∀ x ∈ pending, ∀ r, w.Shows r → ¬ x.keys <+: r.keys
  tells : ∃ T, w.facts.Tells T ∧ ∀ r, (∀ x ∈ pending, ¬ x.keys <+: r.keys) → (T r ↔ w.Shows r)

variable {w w' : World} {pending : List Report} {r x : Report}

/-! ## What is shown -/

theorem shows_congr (ha : w'.agents = w.agents) (hr : w'.relationships = w.relationships)
    (r : Report) : w'.Shows r ↔ w.Shows r := by
  rcases r with (_ | _) | ⟨_ | _, _⟩ | _ <;> simp [Shows, sheet?, agent?, relationship?, ha, hr]

theorem sheet?_face (w : World) (e : Entity) :
    w.face.sheet? e = (w.sheet? e).map Sheet.outline := by
  cases e with
  | agent uid => simp [sheet?, face, agent?_mask, Agent.outline, Function.comp_def]
  | relationship owner target =>
      simp [sheet?, face, relationship?_mask, Relationship.face, Function.comp_def]

theorem shows_face (w : World) (r : Report) : w.face.Shows r ↔ w.Shows r := by
  cases r with
  | present e => simp [Shows, sheet?_face]
  | holds e trait =>
      simp [Shows, sheet?_face, Option.any_map, Sheet.outline, Dict.contains, Dict.get?_map]
  | kind owner target id =>
      simp only [Shows, face, relationship?_mask, Option.any_map]
      rfl

theorem shows_of_face (hface : w'.face = w.face) (r : Report) : w'.Shows r ↔ w.Shows r := by
  rw [← shows_face w', hface, shows_face]

theorem Mirrors.of_face (h : w.Mirrors pending) (hface : w'.face = w.face) :
    w'.Mirrors pending := by
  have hshows := shows_of_face hface
  have hfacts : w'.facts = w.facts := congrArg (·.facts) hface
  have htraits : w'.traits = w.traits := congrArg (·.traits) hface
  constructor
  case linked => exact h.linked.of_frame (frame_eq_of_face_eq hface)
  case library => exact htraits ▸ h.library
  case plain => exact fun r hr => h.plain r ((hshows r).mp hr)
  case pending_plain => exact h.pending_plain
  case apart => exact fun x hx r hr => h.apart x hx r ((hshows r).mp hr)
  case tells =>
    obtain ⟨T, hT, hiff⟩ := h.tells
    exact ⟨T, hfacts ▸ hT, fun r hr => (hiff r hr).trans (hshows r).symm⟩

/-- Nothing is amiss if the entities and the facts are the same, and the library is in order. -/
theorem Mirrors.of_entities (h : w.Mirrors pending) (ha : w'.agents = w.agents)
    (hr : w'.relationships = w.relationships) (hfacts : w'.facts = w.facts)
    (hlibrary : ∀ id t, w'.traits.get? id = some t → t.id = id ∧ IsWord id) :
    w'.Mirrors pending := by
  have hshows : ∀ r, w'.Shows r ↔ w.Shows r := shows_congr ha hr
  constructor
  case linked => exact ofEntities_linked w w' ha hr h.linked
  case library => exact hlibrary
  case plain => exact fun r hr => h.plain r ((hshows r).mp hr)
  case pending_plain => exact h.pending_plain
  case apart => exact fun x hx r hr => h.apart x hx r ((hshows r).mp hr)
  case tells =>
    obtain ⟨T, hT, hiff⟩ := h.tells
    exact ⟨T, hfacts ▸ hT, fun r hr => (hiff r hr).trans (hshows r).symm⟩

theorem mirrors_of_no_entities (ha : w.agents = ∅) (hr : w.relationships = ∅)
    (hlibrary : ∀ id t, w.traits.get? id = some t → t.id = id ∧ IsWord id)
    (hfacts : w.facts.Tells fun _ => False) : w.Mirrors [] := by
  have hshows : ∀ r, ¬ w.Shows r := by
    rintro ((_ | _) | ⟨_ | _, _⟩ | _) <;> simp [Shows, sheet?, agent?, relationship?, ha, hr]
  constructor
  case linked => exact linked_of_no_entities ha hr
  case library => exact hlibrary
  case plain => exact fun r hr => absurd hr (hshows r)
  case pending_plain => simp
  case apart => simp
  case tells => exact ⟨_, hfacts, fun r _ => iff_of_false id (hshows r)⟩

/-- The report that an entity is there begins with reports of others that are there. -/
theorem Mirrors.shows_host (h : w.Mirrors pending) {e e' : Entity} (he : w.Shows (.present e))
    (he' : e' ∈ e.hosts) : w.Shows (.present e') := by
  cases e with
  | agent uid =>
      obtain rfl := List.mem_singleton.mp he'
      exact he
  | relationship owner target =>
      rcases List.mem_pair.mp he' with rfl | rfl
      · simp only [Shows, sheet?, Option.isSome_map] at he ⊢
        exact (h.linked.isSome_agents he).1
      · exact he

/-! ## One report more or less -/

/-- What begins with a report is shown no longer, and the report is to be retracted. -/
theorem Mirrors.forget (h : w.Mirrors pending) (hx : x.Plain) (hlinked : w'.Linked)
    (hfacts : w'.facts = w.facts) (htraits : w'.traits = w.traits)
    (hshows : ∀ r, w'.Shows r ↔ w.Shows r ∧ ¬ x.keys <+: r.keys) : w'.Mirrors (x :: pending) := by
  constructor
  case linked => exact hlinked
  case library => exact htraits ▸ h.library
  case plain => exact fun r hr => h.plain r ((hshows r).mp hr).1
  case pending_plain => exact List.forall_mem_cons.mpr ⟨hx, h.pending_plain⟩
  case apart =>
    refine List.forall_mem_cons.mpr ⟨fun r hr => ((hshows r).mp hr).2, fun y hy r hr => ?_⟩
    exact h.apart y hy r ((hshows r).mp hr).1
  case tells =>
    obtain ⟨T, hT, hiff⟩ := h.tells
    refine ⟨T, hfacts ▸ hT, fun r hr => ?_⟩
    obtain ⟨hxr, hr⟩ := List.forall_mem_cons.mp hr
    rw [hiff r hr, hshows, and_iff_left hxr]

/-- Once it is retracted it is done. -/
theorem Mirrors.done (h : w.Mirrors (x :: pending)) {facts : FactDatabase}
    (hfacts : ∀ T, w.facts.Tells T → facts.Tells fun r => T r ∧ ¬ x.keys <+: r.keys) :
    Mirrors pending { w with facts } := by
  have hsame : ∀ r, Shows { w with facts } r ↔ w.Shows r := shows_congr rfl rfl
  obtain ⟨-, hpending⟩ := List.forall_mem_cons.mp h.pending_plain
  obtain ⟨happx, hapart⟩ := List.forall_mem_cons.mp h.apart
  constructor
  case linked => exact ofEntities_linked w _ rfl rfl h.linked
  case library => exact h.library
  case plain => exact fun r hr => h.plain r ((hsame r).mp hr)
  case pending_plain => exact hpending
  case apart => exact fun y hy r hr => hapart y hy r ((hsame r).mp hr)
  case tells =>
    obtain ⟨T, hT, hiff⟩ := h.tells
    refine ⟨_, hfacts T hT, fun r hr => ?_⟩
    rw [hsame]
    by_cases hxr : x.keys <+: r.keys
    · exact iff_of_false (fun hn => hn.2 hxr) fun hs => happx r hs hxr
    · rw [and_iff_left hxr]
      exact hiff r (List.forall_mem_cons.mpr ⟨hxr, hr⟩)

/-- A report is made of what the world shows now. Everything that the report begins with was there,
and its rivals are shown no longer. -/
theorem Mirrors.insert (h : w.Mirrors []) (hx : x.Plain)
    (habove : ∀ r, r.keys <+: x.keys → r ≠ x → w.Shows r) :
    ∃ facts, w.facts.insert x.fact = .ok facts ∧ ∀ w' : World, w'.facts = facts →
      w'.traits = w.traits → w'.Linked →
        (∀ r, w'.Shows r ↔ r = x ∨ (w.Shows r ∧ ¬ x.Rivals r)) → w'.Mirrors [] := by
  obtain ⟨T, hT, hiff⟩ := h.tells
  simp only [List.not_mem_nil, false_imp_iff, implies_true, forall_const] at hiff
  obtain ⟨facts, hinsert, htells⟩ :=
    hT.insert hx fun r hr hne => (hiff r).mpr (habove r hr hne)
  refine ⟨facts, hinsert, fun w' hfacts htraits hlinked hshows => ?_⟩
  constructor
  case linked => exact hlinked
  case library => exact htraits ▸ h.library
  case plain =>
    intro r hr
    rcases (hshows r).mp hr with rfl | ⟨hr, -⟩
    · exact hx
    · exact h.plain r hr
  case pending_plain => simp
  case apart => simp
  case tells =>
    refine ⟨_, hfacts ▸ htells, fun r _ => ?_⟩
    rw [hshows, hiff]

/-! ## What changes show -/

/-- New traits on a sheet are shown, and nothing else is shown anew. -/
theorem shows_setSheet {e : Entity} {s new : Sheet} (hs : w.sheet? e = some s) (r : Report) :
    (w.setSheet new e).Shows r ↔
      match r with
      | .holds e' trait => if e' = e then new.traits.contains trait = true else w.Shows r
      | _ => w.Shows r := by
  have hsheet := sheet?_setSheet_apply hs new
  cases r with
  | present e' =>
      simp only [Shows, hsheet]
      split
      · rename_i he
        simp [he, hs]
      · rfl
  | holds e' trait =>
      simp only [Shows, hsheet]
      split <;> simp
  | kind owner target id =>
      cases e with
      | agent uid => rfl
      | relationship o t =>
          simp only [Shows, setSheet, relationship?_modifyRelationship]
          split
          · rename_i hot
            obtain ⟨rfl, rfl⟩ := hot
            cases w.relationship? owner target <;> rfl
          · rfl

theorem shows_hold {e : Entity} {s : Sheet} (hs : w.sheet? e = some s) (t : Trait) (text : String)
    (duration : Int) (r : Report) :
    (w.setSheet { s with traits := s.traits.hold t text duration } e).Shows r ↔
      r = .holds e t.id ∨ w.Shows r := by
  rw [shows_setSheet hs]
  cases r with
  | present e' => simp
  | kind owner target id => simp
  | holds e' trait =>
      by_cases he : e' = e
      · subst he
        simp [Shows, hs, HeldTraits.hold, Dict.contains_insert]
      · simp [he]

theorem shows_erase {e : Entity} {s : Sheet} (hs : w.sheet? e = some s) (id : String) (r : Report) :
    (w.setSheet { s with traits := s.traits.erase id } e).Shows r ↔
      w.Shows r ∧ r ≠ .holds e id := by
  rw [shows_setSheet hs]
  cases r with
  | present e' => simp
  | kind owner target id => simp
  | holds e' trait =>
      by_cases he : e' = e
      · subst he
        simp [Shows, hs, Dict.contains_erase, and_comm]
      · simp [he]

/-- The type of a relationship is another one now. -/
theorem shows_modifyKind {owner target : String} {rel : Relationship}
    (hrel : w.relationship? owner target = some rel) (kind : Option String) (r : Report) :
    (w.modifyRelationship owner target fun r => { r with kind }).Shows r ↔
      match r with
      | .kind o t id => if o = owner ∧ t = target then kind = some id else w.Shows r
      | _ => w.Shows r := by
  have hsheet : ∀ e, (w.modifyRelationship owner target fun r => { r with kind }).sheet? e =
      w.sheet? e :=
    sheet?_modifyRelationship (by intro r; rfl) w owner target
  cases r with
  | present e => simp only [Shows, hsheet]
  | holds e trait => simp only [Shows, hsheet]
  | kind o t id =>
      simp only [Shows, relationship?_modifyRelationship]
      split <;> simp [hrel]

theorem shows_setAgent {uid : String} (hn : w.agent? uid = none) (agentType : String)
    (stats : List StatSchema) (r : Report) :
    (w.setAgent uid (.create uid agentType stats)).Shows r ↔
      r = .present (.agent uid) ∨ w.Shows r := by
  have hsheet : ∀ e, (w.setAgent uid (.create uid agentType stats)).sheet? e =
      if e = .agent uid then some ⟨.ofSchemas stats, ∅⟩ else w.sheet? e :=
    sheet?_setAgent w uid _
  have hnone : w.sheet? (.agent uid) = none := by simp [sheet?, hn]
  cases r with
  | kind owner target id => simp [Shows, setAgent, relationship?]
  | present e => by_cases he : e = .agent uid <;> simp [Shows, hsheet, he]
  | holds e trait =>
      by_cases he : e = .agent uid
      · simp [Shows, hsheet, he, hnone, Dict.contains]
      · simp [Shows, hsheet, he]

theorem shows_link {owner target : String} (hn : w.relationship? owner target = none)
    (stats : List StatSchema) (r : Report) :
    (w.link owner target (.create owner target stats)).Shows r ↔
      r = .present (.relationship owner target) ∨ w.Shows r := by
  have hsheet : ∀ e, (w.link owner target (.create owner target stats)).sheet? e =
      if e = .relationship owner target then some ⟨.ofSchemas stats, ∅⟩ else w.sheet? e := by
    intro e
    cases e with
    | agent u => simp [sheet?, agent?_link, Function.comp_def]
    | relationship o t =>
        simp only [sheet?, relationship?_link, Entity.relationship.injEq]
        split <;> rfl
  have hnone : w.sheet? (.relationship owner target) = none := by simp [sheet?, hn]
  cases r with
  | present e => by_cases he : e = .relationship owner target <;> simp [Shows, hsheet, he]
  | holds e trait =>
      by_cases he : e = .relationship owner target
      · simp [Shows, hsheet, he, hnone, Dict.contains]
      · simp [Shows, hsheet, he]
  | kind o t id =>
      simp only [Shows, relationship?_link]
      split
      · rename_i hot
        simp [hot, hn, Relationship.create]
      · simp

/-- With a relationship goes what begins with its report. -/
theorem shows_unlink (w : World) (owner target : String) (r : Report) :
    (w.unlink owner target).Shows r ↔
      w.Shows r ∧ ¬ (Report.present (.relationship owner target)).keys <+: r.keys := by
  rcases r with (u | ⟨o, t⟩) | ⟨u | ⟨o, t⟩, trait⟩ | ⟨o, t, id⟩ <;>
    simp only [Shows, sheet?, agent?_unlink, relationship?_unlink, Report.keys_present_agent,
      Report.keys_present_relationship, Report.keys_holds_agent, Report.keys_holds_relationship,
      Report.keys_kind, List.cons_prefix_cons]
  case present.agent => simp
  case holds.agent => simp [Function.comp_def]
  all_goals
    by_cases hot : o = owner ∧ t = target
    · simp [hot]
    · have hot' : ¬ (owner = o ∧ target = t) := fun h => hot ⟨h.1.symm, h.2.symm⟩
      simp [hot, hot']

/-- With an agent without relationships goes what begins with its report. -/
theorem shows_eraseAgent {uid : String} (hnone : ∀ other, w.relationship? uid other = none)
    (r : Report) :
    Shows { w with agents := w.agents.erase uid } r ↔
      w.Shows r ∧ ¬ (Report.present (.agent uid)).keys <+: r.keys := by
  have hagent : ∀ u, agent? { w with agents := w.agents.erase uid } u =
      if u = uid then none else w.agent? u :=
    fun u => Dict.get?_erase _ _ _
  have hrel : ∀ o t, relationship? { w with agents := w.agents.erase uid } o t =
      w.relationship? o t :=
    fun _ _ => rfl
  rcases r with (u | ⟨o, t⟩) | ⟨u | ⟨o, t⟩, trait⟩ | ⟨o, t, id⟩ <;>
    simp only [Shows, sheet?, hagent, hrel, Report.keys_present_agent,
      Report.keys_present_relationship, Report.keys_holds_agent, Report.keys_holds_relationship,
      Report.keys_kind, List.cons_prefix_cons, List.nil_prefix, and_true, eq_comm (a := uid)]
  case present.agent => by_cases hu : u = uid <;> simp [hu]
  case holds.agent => by_cases hu : u = uid <;> simp [hu]
  all_goals
    by_cases ho : o = uid
    · simp [ho, hnone]
    · simp [ho]

/-! ## Changes that facts follow -/

variable {e : Entity} {id owner target uid : String} {facts : FactDatabase}

/-- An entity holds a trait of the library, and its fact is there. -/
theorem Mirrors.hold {s : Sheet} {t : Trait} (h : w.Mirrors []) (ht : w.traits.get? id = some t)
    (hs : w.sheet? e = some s) (hf : w.facts.insert (e.traitFact id) = .ok facts) (text : String)
    (duration : Int) :
    Mirrors []
      ({ w with facts }.setSheet { s with traits := s.traits.hold t text duration } e) := by
  obtain ⟨hid, hword⟩ := h.library id t ht
  have he : w.Shows (.present e) := by simp [Shows, hs]
  obtain ⟨facts', hf', hend⟩ := h.insert (x := .holds e id) ⟨h.plain _ he, hword⟩ fun r hr hne => by
    obtain ⟨e', he', rfl⟩ := Report.eq_present_of_isPrefix hr hne
    exact h.shows_host he he'
  obtain rfl := Except.ok.inj (hf.symm.trans hf')
  have hs' : sheet? { w with facts } e = some s := by
    cases e <;> exact hs
  refine hend _ (by cases e <;> rfl) (by cases e <;> rfl) ?_ fun r => ?_
  · exact (ofEntities_linked w _ rfl rfl h.linked).of_frame (frame_setSheet _ _ _)
  · have hsame : Shows { w with facts } r ↔ w.Shows r := shows_congr rfl rfl r
    simp [shows_hold hs', hid, hsame]

/-- An entity holds a trait no longer, and its fact is to be retracted. -/
theorem Mirrors.takeTrait {s : Sheet} (h : w.Mirrors []) (hs : w.sheet? e = some s)
    (hheld : s.traits.contains id = true) :
    (w.setSheet { s with traits := s.traits.erase id } e).Mirrors [.holds e id] := by
  have hx : w.Shows (.holds e id) := by simp [Shows, hs, hheld]
  refine h.forget (h.plain _ hx) (h.linked.of_frame (frame_setSheet _ _ _))
    (by cases e <;> rfl) (by cases e <;> rfl) fun r => ?_
  rw [shows_erase hs, Report.holds_isPrefix_iff]

/-- A relationship has no type any longer, and the fact of its type is to be retracted. -/
theorem Mirrors.clearKind {rel : Relationship} (h : w.Mirrors pending)
    (hrel : w.relationship? owner target = some rel) (hk : rel.kind = some id) :
    (w.modifyRelationship owner target fun r => { r with kind := none }).Mirrors
      (.kind owner target id :: pending) := by
  have hx : w.Shows (.kind owner target id) := by simp [Shows, hrel, hk]
  refine h.forget (h.plain _ hx) (h.linked.of_frame (Act.frame_modifyKind w owner target none))
    rfl rfl fun r => ?_
  rw [shows_modifyKind hrel, Report.kind_isPrefix_iff]
  cases r with
  | present e => simp
  | holds e trait => simp
  | kind o t x =>
      by_cases hot : o = owner ∧ t = target
      · obtain ⟨rfl, rfl⟩ := hot
        simp [Shows, hrel, hk, eq_comm]
      · simp_all

/-- A relationship is of another type, of which the fact can be added. -/
theorem Mirrors.setKind {rel : Relationship} (h : w.Mirrors []) (hword : IsWord id)
    (hrel : w.relationship? owner target = some rel) :
    ∃ facts, w.facts.insert (Relationship.kindFact owner target id) = .ok facts ∧
      Mirrors [] { w.modifyRelationship owner target fun r => { r with kind := some id } with
        facts } := by
  have he : w.Shows (.present (.relationship owner target)) := by simp [Shows, sheet?, hrel]
  obtain ⟨howner, htarget⟩ := h.plain _ he
  obtain ⟨facts, hf, hend⟩ := h.insert (x := .kind owner target id) ⟨howner, htarget, hword⟩
    fun r hr hne => by
      obtain ⟨e', he', rfl⟩ := Report.eq_present_of_isPrefix hr hne
      exact h.shows_host he he'
  refine ⟨facts, hf, hend _ rfl rfl ?_ fun r => ?_⟩
  · exact ofEntities_linked _ _ rfl rfl
      (h.linked.of_frame (Act.frame_modifyKind w owner target (some id)))
  · have hkind := shows_modifyKind hrel (some id) r
    refine (Iff.trans (shows_congr rfl rfl r) hkind).trans ?_
    rw [Report.rivals_kind]
    cases r with
    | present e => simp
    | holds e trait => simp
    | kind o t x =>
        by_cases hot : o = owner ∧ t = target
        · obtain ⟨rfl, rfl⟩ := hot
          by_cases hx : x = id <;> simp [hx, eq_comm]
        · have hne : ¬ (o = owner ∧ t = target ∧ x = id) := fun h => hot ⟨h.1, h.2.1⟩
          simp only [if_neg hot, Report.kind.injEq, hne, false_or]
          refine (and_iff_left ?_).symm
          rintro ⟨_, ⟨ho, ht, -⟩, -⟩
          exact hot ⟨ho, ht⟩

/-- A new agent is there, with its fact. -/
theorem Mirrors.setAgent (h : w.Mirrors []) (huid : IsWord uid) (hn : w.agent? uid = none)
    (hf : w.facts.insert uid = .ok facts) (agentType : String) (stats : List StatSchema) :
    Mirrors [] ({ w with facts }.setAgent uid (.create uid agentType stats)) := by
  obtain ⟨facts', hf', hend⟩ := h.insert (x := .present (.agent uid)) huid fun r hr hne => by
    obtain ⟨e, he, rfl⟩ := Report.eq_present_of_isPrefix hr hne
    simp_all [Report.entity, Entity.hosts]
  obtain rfl := Except.ok.inj (hf.symm.trans hf')
  refine hend _ rfl rfl ?_ fun r => ?_
  · exact (ofEntities_linked w { w with facts } rfl rfl h.linked).setAgent hn agentType _
  · have hsame : Shows { w with facts } r ↔ w.Shows r := shows_congr rfl rfl r
    have hn' : agent? { w with facts } uid = none := hn
    simp [shows_setAgent hn', hsame]

/-- A new relationship is there, with its fact. -/
theorem Mirrors.link {a b : Agent} (h : w.Mirrors []) (ha : w.agent? owner = some a)
    (hb : w.agent? target = some b) (hn : w.relationship? owner target = none)
    (hf : w.facts.insert (Entity.relationship owner target).fact = .ok facts)
    (stats : List StatSchema) :
    Mirrors [] ({ w with facts }.link owner target (.create owner target stats)) := by
  have howner : w.Shows (.present (.agent owner)) := by simp [Shows, sheet?, ha]
  have htarget : w.Shows (.present (.agent target)) := by simp [Shows, sheet?, hb]
  obtain ⟨facts', hf', hend⟩ := h.insert (x := .present (.relationship owner target))
    ⟨h.plain _ howner, h.plain _ htarget⟩ fun r hr hne => by
      obtain ⟨e, he, rfl⟩ := Report.eq_present_of_isPrefix hr hne
      rcases List.mem_pair.mp he with rfl | rfl
      · exact howner
      · exact absurd rfl hne
  obtain rfl := Except.ok.inj (hf.symm.trans hf')
  refine hend _ rfl rfl ?_ fun r => ?_
  · exact (ofEntities_linked w { w with facts } rfl rfl h.linked).link ha hb stats
  · have hsame : Shows { w with facts } r ↔ w.Shows r := shows_congr rfl rfl r
    have hn' : relationship? { w with facts } owner target = none := hn
    simp [shows_link hn', hsame]

/-- A relationship is there no longer, and its fact is to be retracted. -/
theorem Mirrors.unlink {rel : Relationship} (h : w.Mirrors [])
    (hrel : w.relationship? owner target = some rel) :
    (w.unlink owner target).Mirrors [.present (.relationship owner target)] := by
  have hx : w.Shows (.present (.relationship owner target)) := by simp [Shows, sheet?, hrel]
  refine h.forget (h.plain _ hx) (h.linked.unlink owner target) ?_ ?_ (shows_unlink w owner target)
  · simp only [World.unlink, eraseRelationship]
    split <;> rfl
  · simp only [World.unlink, eraseRelationship]
    split <;> rfl

/-- An agent without relationships may go with its fact, and all that begins with it. -/
theorem Mirrors.eraseAgent {found : Bool} (h : w.Mirrors []) (huid : IsWord uid)
    (hnone : ∀ other, w.relationship? uid other = none ∧ w.relationship? other uid = none)
    (hf : w.facts.delete uid = .ok (facts, found)) :
    Mirrors [] { w with facts, agents := w.agents.erase uid } := by
  have hgone : Mirrors [.present (.agent uid)] { w with agents := w.agents.erase uid } :=
    h.forget huid (h.linked.eraseAgent hnone) rfl rfl
      (shows_eraseAgent fun other => (hnone other).1)
  refine hgone.done fun T hT => ?_
  obtain ⟨facts', found', hf', htells⟩ := hT.delete (r := .present (.agent uid)) huid (.inr rfl)
  obtain ⟨rfl, rfl⟩ := Prod.mk.inj (Except.ok.inj (hf.symm.trans hf'))
  exact htells

end World

/-! ## Acts -/

namespace Act

open World (Mirrors Shows)

variable {pending : List Report} {E : World → Prop}

theorem retract_mirrors (x : Report) :
    Ensures (Mirrors (x :: pending)) (retract x.fact) (fun _ => Mirrors pending) E := by
  intro w hw
  have hx := hw.pending_plain x (by simp)
  refine leads_retract.mpr ⟨fun facts found hf => hw.done fun T hT => ?_, fun e he => ?_⟩
  · obtain ⟨facts', found', hf', htells⟩ := hT.retract hx
    obtain ⟨rfl, rfl⟩ := Prod.mk.inj (Except.ok.inj (hf.symm.trans hf'))
    exact htells
  · obtain ⟨T, hT, -⟩ := hw.tells
    obtain ⟨facts', found', hf', -⟩ := hT.retract hx
    exact absurd (he.symm.trans hf') (by simp)

theorem reevaluateAround_mirrors (e : Entity) : (reevaluateAround e).Keeps (Mirrors pending) :=
  (reevaluateAround_fixes e).keeps fun _ _ h hw => hw.of_face h

theorem addTrait_mirrors (e : Entity) (id : String) (duration : Int) (description : Option String) :
    (addTrait e id duration description).Keeps (Mirrors []) :=
  addTrait_rule (fun _ _ h hw => hw.of_face (World.face_eq_of_outline_eq h)) (fun _ hw => hw)
    (fun _ hw => hw) (fun _ _ _ _ text hw ht _ hs _ hf => hw.hold ht hs hf text duration)
    (reevaluateAround_mirrors e)

theorem clearKind_mirrors (e : Entity) (id : String) :
    Ensures (fun w => Mirrors pending w ∧ w.Shows (.present e)) (clearKind e id)
      (fun _ => Mirrors pending) E := by
  refine clearKind_rule (fun w hw hn => ?_) (fun _ hw _ => hw.1) ?_
  · exact absurd hw.2 (by simp [Shows, hn])
  · rintro owner target rel - w ⟨hw, -⟩ hrel hk
    exact retract_mirrors (.kind owner target id) _ (hw.clearKind hrel hk)

theorem removeTrait_mirrors (e : Entity) (id : String) :
    (removeTrait e id).Keeps (Mirrors []) := by
  have hclear : Ensures (fun w => Mirrors [.holds e id] w ∧ w.Shows (.present e)) (clearKind e id)
      (fun _ => Mirrors [.holds e id]) (Mirrors []) :=
    clearKind_mirrors e id
  refine removeTrait_rule (fun w w' h hw => ?_) (fun _ hw => hw) (fun _ hw => hw)
    (fun w s hw hs hheld => ⟨hw.takeTrait hs hheld, ?_⟩) hclear (retract_mirrors (.holds e id))
    (reevaluateAround_mirrors e)
  · have hface := World.face_eq_of_outline_eq h
    exact ⟨hw.1.of_face hface, (World.shows_of_face hface _).mpr hw.2⟩
  · exact (World.shows_erase hs id _).mpr ⟨by simp [Shows, hs], by simp⟩

theorem setRelationshipKind_mirrors (owner target id : String) :
    (setRelationshipKind owner target id).Keeps (Mirrors []) := by
  refine setRelationshipKind_rule (fun _ hw => hw) (fun previous => removeTrait_mirrors _ previous)
    ?_ (addTrait_mirrors _ _ _ _)
  rintro ⟨w₀, t, hw₀, ht⟩ w rel hw hrel
  obtain ⟨facts, hf, hend⟩ := hw.setKind (hw₀.library id t ht).2 hrel
  refine leads_insertFact.mpr ⟨fun facts' hf' => ?_, fun e he => ?_⟩
  · obtain rfl := Except.ok.inj (hf.symm.trans hf')
    exact hend
  · exact absurd (hf.symm.trans he) (by simp)

theorem addAgent_mirrors {uid : String} (huid : IsWord uid) (agentType : String) :
    (addAgent agentType uid).Keeps (Mirrors []) :=
  addAgent_rule (fun _ hw => hw) (fun _ _ _ hw _ hn hf => hw.setAgent huid hn hf agentType _)
    fun _ => addTrait_mirrors _ _ _ _

theorem addRelationship_mirrors (owner target : String) :
    (addRelationship owner target).Keeps (Mirrors []) :=
  addRelationship_rule (fun _ hw => hw)
    (fun _ _ _ stats _ hw ha hb hn hf => hw.link ha hb hn hf stats)
    (fun _ => addTrait_mirrors _ _ _ _) (reevaluateAround_mirrors (.relationship owner target))

theorem removeRelationship_mirrors (owner target : String) :
    (removeRelationship owner target).Keeps (Mirrors []) :=
  removeRelationship_rule (fun _ hw _ => hw) fun _ _ hw hrel =>
    retract_mirrors (.present (.relationship owner target)) _ (hw.unlink hrel)

theorem steady_mirrors : Steady (Mirrors []) (Mirrors []) where
  weaken _ hw := hw
  of_outline _ _ h hw := hw.of_face (World.face_eq_of_outline_eq h)
  reevaluate owner target := reevaluateAround_mirrors (.relationship owner target)
  addTrait := addTrait_mirrors
  removeTrait := removeTrait_mirrors

theorem isWord_of_agent {uid : String} (h : ∃ w a, Mirrors [] w ∧ w.agent? uid = some a) :
    IsWord uid := by
  obtain ⟨w, a, hw, ha⟩ := h
  exact hw.plain (.present (.agent uid)) (by simp [Shows, World.sheet?, ha])

theorem removeAgent_mirrors (uid : String) : (removeAgent uid).Keeps (Mirrors []) := by
  refine removeAgent_rule (Q := Mirrors []) (fun _ hw => hw.linked) (fun _ hw => hw)
    (fun _ _ _ => removeRelationship_mirrors _ _) (fun hthere w hw hnone => ?_)
    (ensures_reevaluateAll steady_mirrors)
  exact leads_deleteFact.mpr
    ⟨fun facts found hf => hw.eraseAgent (isWord_of_agent hthere) hnone hf, fun _ _ => hw⟩

theorem reset_mirrors : reset.Keeps (Mirrors []) := by
  refine keeps_modify fun w hw => ?_
  obtain ⟨T, hT, -⟩ := hw.tells
  exact World.mirrors_of_no_entities rfl rfl hw.library
    (FactDatabase.tells_of_view_empty (hT.sound.step .clear) (FactDatabase.view_clear w.facts))

end Act

/-! ## Commands -/

/-- The names that a command brings into the world are words, and it does not edit facts by hand.
All other names are looked up only. -/
def Command.Plain : Command → Prop
  | addTrait t => IsWord t.id
  | addAgent _ uid => IsWord uid
  | insertFact _ | deleteFact _ | clearFacts => False
  | _ => True

/-- What is known of every trait in the library is known of them all still, if it is of a new one. -/
theorem World.library_addTrait {P : String → Trait → Prop} {w : World}
    (h : ∀ id t, w.traits.get? id = some t → P id t) {t : Trait} (ht : P t.id t) :
    ∀ id t', (w.addTrait t).traits.get? id = some t' → P id t' := by
  intro id t' hget
  rw [addTrait, Dict.get?_insert] at hget
  split at hget
  · rename_i hid
    obtain rfl := Option.some.inj hget
    exact hid ▸ ht
  · exact h id t' hget

open World (Mirrors) in
theorem Command.act_mirrors {c : Command} (hc : c.Plain) : c.act.Keeps (Mirrors []) := by
  cases c with
  | addTrait t =>
      exact Act.keeps_modify fun w hw =>
        hw.of_entities rfl rfl rfl (World.library_addTrait hw.library ⟨rfl, hc⟩)
  | addRule | addEvent | addAgentSchema | addRelationshipSchema =>
      exact Act.keeps_modify fun w hw => hw.of_entities rfl rfl rfl hw.library
  | addAgent agentType uid => exact Act.addAgent_mirrors hc agentType
  | removeAgent uid => exact Act.Ensures.discard (Act.removeAgent_mirrors uid)
  | addRelationship owner target => exact Act.addRelationship_mirrors owner target
  | removeRelationship owner target =>
      exact Act.Ensures.discard (Act.removeRelationship_mirrors owner target)
  | setRelationshipKind owner target id =>
      exact Act.Ensures.discard (Act.setRelationshipKind_mirrors owner target id)
  | reset => exact Act.reset_mirrors
  | insertFact s => cases hc
  | deleteFact s => cases hc
  | clearFacts => cases hc
  | _ => exact Act.steady_mirrors.act rfl

namespace World

/-- The worlds that allowed commands lead to, beginning with the empty one. Which commands are
allowed may depend on the world. -/
inductive ReachableBy (allowed : World → Command → Prop) : World → Prop where
  | empty : ReachableBy allowed ∅
  | step {w : World} (c : Command) :
      ReachableBy allowed w → allowed w c → ReachableBy allowed (w.after c)

/-- Whether commands in order are all allowed. -/
def AllowedRun (allowed : World → Command → Prop) : World → List Command → Prop
  | _, [] => True
  | w, c :: commands => allowed w c ∧ AllowedRun allowed (w.after c) commands

theorem ReachableBy.run {allowed : World → Command → Prop} {w : World} (h : w.ReachableBy allowed)
    {commands : List Command} (hc : AllowedRun allowed w commands) :
    (commands.foldl World.after w).ReachableBy allowed := by
  induction commands generalizing w with
  | nil => exact h
  | cons c commands ih => exact ih (h.step c hc.1) hc.2

theorem ReachableBy.reachable {allowed : World → Command → Prop} {w : World}
    (h : w.ReachableBy allowed) : w.Reachable := by
  induction h with
  | empty => exact .empty
  | step c _ _ ih => exact ih.step c

theorem ReachableBy.mirrors {w : World} (h : w.ReachableBy fun _ c => c.Plain) : w.Mirrors [] := by
  induction h with
  | empty =>
      refine mirrors_of_no_entities rfl rfl (fun id t ht => by cases ht) ?_
      exact FactDatabase.tells_of_view_empty FactDatabase.sound_empty FactDatabase.view_empty
  | step c _ hc ih => exact (Command.act_mirrors hc).holds ih

theorem Mirrors.assert_eq {w : World} (h : w.Mirrors []) {r : Report} (hr : r.Plain) {shown : Bool}
    (hshown : w.Shows r ↔ shown = true) : w.facts.assert r.fact = .ok shown := by
  obtain ⟨T, hT, hiff⟩ := h.tells
  rw [hT.assert_eq hr, Except.ok.injEq, Bool.eq_iff_iff, hT.isSome_iff, ← hshown]
  exact hiff r (by simp)

/-- The facts say who is there, what is held and of which type relationships are, as long as names
are words and nobody edits the facts by hand. -/
theorem ReachableBy.mirror {w : World} (h : w.ReachableBy fun _ c => c.Plain) {o t x : String}
    (ho : IsWord o) (ht : IsWord t) (hx : IsWord x) :
    w.facts.assert o = .ok (w.agent? o).isSome ∧
    w.facts.assert (o ++ ".traits." ++ x) =
      .ok ((w.agent? o).any (·.sheet.traits.contains x)) ∧
    w.facts.assert (o ++ ".relationships." ++ t) = .ok (w.relationship? o t).isSome ∧
    w.facts.assert (o ++ ".relationships." ++ t ++ ".traits." ++ x) =
      .ok ((w.relationship? o t).any (·.sheet.traits.contains x)) ∧
    w.facts.assert (o ++ ".relationships." ++ t ++ ".type!" ++ x) =
      .ok ((w.relationship? o t).any (·.kind = some x)) := by
  have hm := h.mirrors
  refine ⟨?_, ?_, ?_, ?_, ?_⟩
  · exact hm.assert_eq (r := .present (.agent o)) ho (by simp [Shows, sheet?])
  · exact hm.assert_eq (r := .holds (.agent o) x) ⟨ho, hx⟩
      (by simp [Shows, sheet?, Option.any_map])
  · exact hm.assert_eq (r := .present (.relationship o t)) ⟨ho, ht⟩ (by simp [Shows, sheet?])
  · exact hm.assert_eq (r := .holds (.relationship o t) x) ⟨⟨ho, ht⟩, hx⟩
      (by simp [Shows, sheet?, Option.any_map])
  · exact hm.assert_eq (r := .kind o t x) ⟨ho, ht, hx⟩ Iff.rfl

/-- An agent stays with what it holds when it is refused a trait that there is not, and with it
stays its fact. The fact of a type that is replaced goes. -/
theorem mirror_of_friends :
    ∃ w : World, (w.ReachableBy fun _ c => c.Plain) ∧
      IsWord "ann" ∧ IsWord "bob" ∧ IsWord "friend" ∧
      w.facts.assert ("ann") = .ok true ∧
      w.facts.assert ("ann" ++ ".traits." ++ "friend") = .ok false ∧
      w.facts.assert ("ann" ++ ".relationships." ++ "bob") = .ok true ∧
      w.facts.assert ("ann" ++ ".relationships." ++ "bob" ++ ".traits." ++ "friend") = .ok true ∧
      w.facts.assert ("ann" ++ ".relationships." ++ "bob" ++ ".type!" ++ "friend") = .ok true := by
  have hw : World.ReachableBy (fun _ c => c.Plain) ([
      Command.addTrait ⟨"shy", .agent, "Shy", "", [], ∅⟩,
      .addTrait ⟨"friend", .relationship, "Friend", "", [], ∅⟩,
      .addTrait ⟨"rival", .relationship, "Rival", "", [], ∅⟩,
      .addAgentSchema ⟨"person", [], ["shy", "lost"]⟩,
      .addRelationshipSchema ⟨"person", "person", [], []⟩,
      .addAgent "person" "ann", .addAgent "person" "bob", .addRelationship "ann" "bob",
      .setRelationshipKind "ann" "bob" "rival",
      .setRelationshipKind "ann" "bob" "friend"].foldl World.after ∅) :=
    ReachableBy.empty.run
      ⟨rfl, rfl, rfl, trivial, trivial, rfl, rfl, trivial, trivial, trivial, trivial⟩
  have hann : IsWord "ann" := rfl
  have hbob : IsWord "bob" := rfl
  have hfriend : IsWord "friend" := rfl
  obtain ⟨hagent, htrait, hrel, hheld, hkind⟩ := hw.mirror hann hbob hfriend
  refine ⟨_, hw, hann, hbob, hfriend, ?_, ?_, ?_, ?_, ?_⟩
  · exact hagent.trans (congrArg Except.ok (by decide +kernel))
  · exact htrait.trans (congrArg Except.ok (by decide +kernel))
  · exact hrel.trans (congrArg Except.ok (by decide +kernel))
  · exact hheld.trans (congrArg Except.ok (by decide +kernel))
  · exact hkind.trans (congrArg Except.ok (by decide +kernel))

end World

end Society
