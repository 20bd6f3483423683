import Society.Proofs.World.Mirror

/-!
# Facts that can be read again

Names need not be words, and facts may be edited by hand; still the fact of everything that is there
was a fact once, so its sentence parses. Taking it back therefore never fails.
-/

namespace Society

namespace Sentence

/-- A sentence that can be a fact: it parses, and has no variables. -/
def IsFact (s : String) : Prop :=
  ∃ path, parse s = .ok path ∧ anyVariable path = false

theorem isFact_of_parseFact {action : FactAction} {s : String} {path : List Segment}
    (h : parseFact action s = .ok path) : IsFact s :=
  ⟨path, parseFact_eq_ok.mp h⟩

@[simp] theorem anyVariable_append (p q : List Segment) :
    anyVariable (p ++ q) = (anyVariable p || anyVariable q) :=
  List.any_append

@[simp] theorem anyVariable_closedBy (c : Cardinality) (path : List Segment) :
    anyVariable (closedBy c path) = anyVariable path := by
  induction path with
  | nil => rfl
  | cons s path ih =>
      cases path with
      | nil => rfl
      | cons t path =>
          rw [closedBy_cons _ _ (by simp), anyVariable, List.any_cons]
          exact congrArg _ ih

/-- What stands behind a sentence and a delimiter is a sentence of its own. -/
theorem parse_of_append {d : Char} {c : Cardinality} (hd : Delimits d c) {a b : String}
    {p path : List Segment} (ha : parse a = .ok p)
    (h : parse (a ++ String.singleton d ++ b) = .ok path) :
    ∃ q, parse b = .ok q ∧ path = closedBy c p ++ q := by
  rw [parse_eq_ok] at ha h
  simp only [String.toList_append, String.toList_singleton, List.append_assoc,
    List.singleton_append, segmentsAfter?_append hd ha, Option.map_eq_some_iff] at h
  obtain ⟨q, hq, rfl⟩ := h
  exact ⟨q, parse_eq_ok.mpr hq, rfl⟩

end Sentence

open Sentence (IsFact)

/-- What can be told of a trait that is held can be told of it as a type. -/
theorem Relationship.isFact_kindFact {owner target id : String}
    (he : IsFact (Entity.relationship owner target).fact)
    (hid : IsFact ((Entity.relationship owner target).traitFact id)) :
    IsFact (Relationship.kindFact owner target id) := by
  obtain ⟨p, hp, hpv⟩ := he
  obtain ⟨path, hpath, hv⟩ := hid
  have htraits : Sentence.parse "traits" = .ok [Sentence.word "traits"] := rfl
  have htype : Sentence.parse "type" = .ok [Sentence.word "type"] := rfl
  have hfact : (Entity.relationship owner target).traitFact id =
      (Entity.relationship owner target).fact ++ "." ++ ("traits" ++ "." ++ id) := by
    simp only [Entity.traitFact, String.append_assoc]
    rfl
  rw [hfact] at hpath
  obtain ⟨rest, hrest, rfl⟩ := Sentence.parse_of_append .point hp hpath
  obtain ⟨q, hq, rfl⟩ := Sentence.parse_of_append .point htraits hrest
  have hkind : Relationship.kindFact owner target id =
      (Entity.relationship owner target).fact ++ "." ++ "type" ++ "!" ++ id := by
    simp only [Relationship.kindFact, String.append_assoc]
    rfl
  rw [hkind]
  refine ⟨_, Sentence.parse_append_bang (Sentence.parse_append_point hp htype) hq, ?_⟩
  have hqv : Sentence.anyVariable q = false := by
    simp only [Sentence.anyVariable_append, Bool.or_eq_false_iff] at hv
    exact hv.2.2
  simp only [Sentence.anyVariable_append, Sentence.anyVariable_closedBy, hpv, hqv]
  rfl

/-! ## Taking facts back -/

/-- A path that is there can be cut off. -/
theorem FactNode.prune_of_holds {path : List Segment} {n : FactNode} (h : n.holds path = true) :
    ∃ r, n.prune path = .ok r := by
  induction path generalizing n with
  | nil => exact ⟨_, rfl⟩
  | cons s path ih =>
      cases path with
      | nil => exact ⟨_, rfl⟩
      | cons t path =>
          rw [holds] at h
          cases hc : n.child? s.toSymbol with
          | none => simp [hc] at h
          | some child =>
              simp only [hc, List.isEmpty_cons, Bool.false_or, Bool.and_eq_true] at h
              obtain ⟨⟨pruned, found⟩, hr⟩ := ih h.2
              exact ⟨(n.setChild s.toSymbol pruned, found), by simp [prune, hc, hr, Except.map]⟩

namespace FactDatabase

theorem isFact_of_insert {db db' : FactDatabase} {s : String} (h : db.insert s = .ok db') :
    IsFact s := by
  cases hp : Sentence.parseFact .insert s with
  | error e => simp [insert, hp, bind, Except.bind] at h
  | ok path => exact Sentence.isFact_of_parseFact hp

theorem isFact_of_assert {db : FactDatabase} {s : String} {b : Bool} (h : db.assert s = .ok b) :
    IsFact s := by
  cases hp : Sentence.parseFact .assert s with
  | error e => simp [assert, hp, Except.map] at h
  | ok path => exact Sentence.isFact_of_parseFact hp

theorem retract_of_isFact {s : String} (h : IsFact s) (db : FactDatabase) :
    ∃ r, db.retract s = .ok r := by
  obtain ⟨path, hp⟩ := h
  have hparse : ∀ action, Sentence.parseFact action s = .ok path :=
    fun _ => Sentence.parseFact_eq_ok.mpr hp
  cases hholds : db.root.holds path with
  | false => exact ⟨_, by simp [retract, assert, hparse, hholds, Except.map, bind, Except.bind]; rfl⟩
  | true =>
      obtain ⟨⟨root, found⟩, hr⟩ := FactNode.prune_of_holds hholds
      exact ⟨(⟨root⟩, found), by
        simp [retract, assert, delete, hparse, hholds, hr, Except.map, bind, Except.bind]; rfl⟩

/-- The facts without a sentence, which need not be one of them. -/
def without (db : FactDatabase) (s : String) : FactDatabase :=
  match db.retract s with
  | .ok (db', _) => db'
  | .error _ => db

end FactDatabase

/-- The sentence of the report can be a fact. A relationship may have a type that cannot be told, since
the type is recorded before its fact is. -/
def Report.Readable : Report → Prop
  | present e => IsFact e.fact
  | holds e trait => IsFact (e.traitFact trait)
  | kind .. => True

namespace World

/-- What is there can be told as facts, in a world that is in order. -/
structure Readable (w : World) : Prop where
  linked : w.Linked
  library : ∀ id t, w.traits.get? id = some t → t.id = id
  reports : ∀ r, w.Shows r → r.Readable

variable {w w' : World}

/-- New reports that can be told do no harm. -/
theorem Readable.of_shows (h : w.Readable) (hlinked : w'.Linked) (htraits : w'.traits = w.traits)
    (hshows : ∀ r, w'.Shows r → w.Shows r ∨ r.Readable) : w'.Readable where
  linked := hlinked
  library := htraits ▸ h.library
  reports r hr := (hshows r hr).elim (h.reports r) id

theorem Readable.of_face (h : w.Readable) (hface : w'.face = w.face) : w'.Readable :=
  h.of_shows (h.linked.of_frame (frame_eq_of_face_eq hface)) (congrArg (·.traits) hface)
    fun r hr => .inl ((shows_of_face hface r).mp hr)

theorem Readable.of_entities (h : w.Readable) (ha : w'.agents = w.agents)
    (hr : w'.relationships = w.relationships)
    (hlibrary : ∀ id t, w'.traits.get? id = some t → t.id = id) : w'.Readable where
  linked := ofEntities_linked w w' ha hr h.linked
  library := hlibrary
  reports r hs := h.reports r ((shows_congr ha hr r).mp hs)

theorem Readable.setFacts (h : w.Readable) (facts : FactDatabase) :
    Readable { w with facts } :=
  h.of_entities rfl rfl h.library

theorem readable_of_no_entities (ha : w.agents = ∅) (hr : w.relationships = ∅)
    (hlibrary : ∀ id t, w.traits.get? id = some t → t.id = id) : w.Readable where
  linked := linked_of_no_entities ha hr
  library := hlibrary
  reports := by
    rintro ((_ | _) | ⟨_ | _, _⟩ | _) hs <;> simp [Shows, sheet?, agent?, relationship?, ha, hr] at hs

/-- The type of a relationship that holds its type can be told. -/
theorem Readable.isFact_kindFact (h : w.Readable) {owner target id : String}
    (hs : w.Shows (.holds (.relationship owner target) id)) :
    IsFact (Relationship.kindFact owner target id) := by
  refine Relationship.isFact_kindFact (h.reports (.present _) ?_) (h.reports _ hs)
  exact Option.isSome_of_any hs

theorem Readable.modifyKind (h : w.Readable) {owner target : String} {r : Relationship}
    (hr : w.relationship? owner target = some r) (kind : Option String) :
    (w.modifyRelationship owner target fun r => { r with kind }).Readable := by
  refine h.of_shows (h.linked.of_frame (Act.frame_modifyKind w owner target kind)) rfl fun x hx => ?_
  cases x with
  | kind o t id => exact .inr trivial
  | _ => exact .inl ((shows_modifyKind hr kind _).mp hx)

theorem Readable.unlink (h : w.Readable) (owner target : String) :
    (w.unlink owner target).Readable := by
  refine h.of_shows (h.linked.unlink owner target) ?_ fun r hr =>
    .inl ((shows_unlink w owner target r).mp hr).1
  simp only [World.unlink, eraseRelationship]
  split <;> rfl

end World

/-! ## Acts -/

namespace Act

open World (Readable)

/-- What can be a fact is taken back without fail. -/
theorem leads_retract_of_isFact {s : String} (hs : Sentence.IsFact s) {w : World}
    {Q : Bool → World → Prop} {E : World → Prop}
    (hQ : ∀ found, Q found { w with facts := w.facts.without s }) : (retract s).Leads Q E w := by
  obtain ⟨⟨facts, found⟩, hr⟩ := FactDatabase.retract_of_isFact hs w.facts
  have hwithout : w.facts.without s = facts := by simp only [FactDatabase.without, hr]
  refine leads_retract.mpr ⟨fun facts' found' hf => ?_, fun e he => ?_⟩
  · obtain ⟨rfl, rfl⟩ := Prod.mk.inj (Except.ok.inj (hr.symm.trans hf))
    exact hwithout ▸ hQ found
  · cases hr.symm.trans he

theorem retract_readable (s : String) : (retract s).Keeps Readable :=
  fun _ hw => leads_retract.mpr ⟨fun facts _ _ => hw.setFacts facts, fun _ _ => hw⟩

theorem reevaluateAround_readable (e : Entity) : (reevaluateAround e).Keeps Readable :=
  (reevaluateAround_fixes e).keeps fun _ _ h hw => hw.of_face h

theorem addTrait_readable (e : Entity) (id : String) (duration : Int) (description : Option String) :
    (addTrait e id duration description).Keeps Readable := by
  refine addTrait_rule (fun _ _ h hw => hw.of_face (World.face_eq_of_outline_eq h)) (fun _ hw => hw)
    (fun _ hw => hw) (fun w t s facts text hw ht _ hs _ hf => ?_) (reevaluateAround_readable e)
  have hs' : World.sheet? { w with facts } e = some s := by
    cases e <;> exact hs
  have hw' := hw.setFacts facts
  refine hw'.of_shows (hw'.linked.of_frame (World.frame_setSheet _ _ _)) (by cases e <;> rfl)
    fun r hr => ?_
  rcases (World.shows_hold hs' t text duration r).mp hr with rfl | hr
  · exact .inr (hw.library id t ht ▸ FactDatabase.isFact_of_insert hf)
  · exact .inl hr

theorem clearKind_readable (e : Entity) (id : String) : (clearKind e id).Keeps Readable := by
  refine clearKind_rule (fun _ hw _ => hw) (fun _ hw _ => hw) ?_
  rintro owner target r - w hw hr -
  exact retract_readable _ _ (hw.modifyKind hr none)

theorem removeTrait_readable (e : Entity) (id : String) : (removeTrait e id).Keeps Readable := by
  refine removeTrait_rule (fun _ _ h hw => hw.of_face (World.face_eq_of_outline_eq h))
    (fun _ hw => hw) (fun _ hw => hw) (fun w s hw hs _ => ?_) (clearKind_readable e id)
    (retract_readable _) (reevaluateAround_readable e)
  exact hw.of_shows (hw.linked.of_frame (World.frame_setSheet _ _ _)) (by cases e <;> rfl)
    fun r hr => .inl ((World.shows_erase hs id r).mp hr).1

theorem setRelationshipKind_readable (owner target id : String) :
    (setRelationshipKind owner target id).Keeps Readable := by
  refine setRelationshipKind_rule (R := Readable) (fun _ hw => hw)
    (fun previous => removeTrait_readable _ previous) (fun _ w r hw hr => ?_)
    (addTrait_readable _ _ _ _)
  have hw' := hw.modifyKind hr (some id)
  exact leads_insertFact.mpr ⟨fun facts _ => hw'.setFacts facts, fun _ _ => hw'⟩

theorem addAgent_readable (agentType uid : String) : (addAgent agentType uid).Keeps Readable := by
  refine addAgent_rule (fun _ hw => hw) (fun w schema facts hw _ hn hf => ?_)
    fun _ => addTrait_readable _ _ _ _
  have hw' := hw.setFacts facts
  have hn' : World.agent? { w with facts } uid = none := hn
  refine hw'.of_shows (hw'.linked.setAgent hn' agentType schema.stats) rfl fun r hr => ?_
  rcases (World.shows_setAgent hn' agentType schema.stats r).mp hr with rfl | hr
  · exact .inr (FactDatabase.isFact_of_insert hf)
  · exact .inl hr

theorem addRelationship_readable (owner target : String) :
    (addRelationship owner target).Keeps Readable := by
  refine addRelationship_rule (fun _ hw => hw) (fun w a b stats facts hw ha hb hn hf => ?_)
    (fun _ => addTrait_readable _ _ _ _) (reevaluateAround_readable (.relationship owner target))
  have hw' := hw.setFacts facts
  have hn' : World.relationship? { w with facts } owner target = none := hn
  refine hw'.of_shows (hw'.linked.link ha hb stats) rfl fun r hr => ?_
  rcases (World.shows_link hn' stats r).mp hr with rfl | hr
  · exact .inr (FactDatabase.isFact_of_insert hf)
  · exact .inl hr

theorem removeRelationship_readable (owner target : String) :
    (removeRelationship owner target).Keeps Readable :=
  removeRelationship_rule (fun _ hw _ => hw) fun _ _ hw _ =>
    retract_readable _ _ (hw.unlink owner target)

/-- Removing a relationship never fails. -/
theorem removeRelationship_succeeds (owner target : String) :
    Ensures Readable (removeRelationship owner target) (fun _ _ => True) fun _ => False := by
  refine removeRelationship_rule (fun _ _ _ => trivial) fun w r hw hr => ?_
  exact leads_retract_of_isFact (hw.reports (.present (.relationship owner target))
    (by simp [World.Shows, World.sheet?, hr])) fun _ => trivial

theorem steady_readable : Steady Readable Readable where
  weaken _ hw := hw
  of_outline _ _ h hw := hw.of_face (World.face_eq_of_outline_eq h)
  reevaluate owner target := reevaluateAround_readable (.relationship owner target)
  addTrait := addTrait_readable
  removeTrait := removeTrait_readable

theorem removeAgent_readable (uid : String) : (removeAgent uid).Keeps Readable := by
  refine removeAgent_rule (Q := Readable) (fun _ hw => hw.linked) (fun _ hw => hw)
    (fun _ _ _ => removeRelationship_readable _ _) (fun _ w hw hnone => leads_deleteFact.mpr
      ⟨fun facts _ _ => ?_, fun _ _ => hw⟩) (ensures_reevaluateAll steady_readable)
  have hw' := hw.setFacts facts
  exact hw'.of_shows (hw'.linked.eraseAgent hnone) rfl fun r hr =>
    .inl ((World.shows_eraseAgent (fun other => (hnone other).1) r).mp hr).1

end Act

open World (Readable) in
theorem Command.act_readable (c : Command) : c.act.Keeps Readable := by
  cases c with
  | addTrait t =>
      exact Act.keeps_modify fun w hw =>
        hw.of_entities rfl rfl (World.library_addTrait hw.library rfl)
  | addRule | addEvent | addAgentSchema | addRelationshipSchema =>
      exact Act.keeps_modify fun w hw => hw.of_entities rfl rfl hw.library
  | addAgent agentType uid => exact Act.addAgent_readable agentType uid
  | removeAgent uid => exact Act.Ensures.discard (Act.removeAgent_readable uid)
  | addRelationship owner target => exact Act.addRelationship_readable owner target
  | removeRelationship owner target =>
      exact Act.Ensures.discard (Act.removeRelationship_readable owner target)
  | setRelationshipKind owner target id =>
      exact Act.Ensures.discard (Act.setRelationshipKind_readable owner target id)
  | reset => exact Act.keeps_modify fun w hw => World.readable_of_no_entities rfl rfl hw.library
  | insertFact s =>
      exact fun _ hw => Act.leads_insertFact.mpr ⟨fun facts _ => hw.setFacts facts, fun _ _ => hw⟩
  | deleteFact s =>
      exact fun _ hw => Act.leads_discard.mpr (Act.leads_deleteFact.mpr
        ⟨fun facts _ _ => hw.setFacts facts, fun _ _ => hw⟩)
  | clearFacts => exact Act.keeps_modify fun w hw => hw.setFacts w.facts.clear
  | _ => exact Act.steady_readable.act rfl

/-- Whatever is done, what is there can be told as facts. -/
theorem World.Reachable.readable {w : World} (h : w.Reachable) : w.Readable := by
  induction h with
  | empty => exact readable_of_no_entities rfl rfl fun id t ht => by cases ht
  | step c _ ih => exact c.act_readable.holds ih

end Society
