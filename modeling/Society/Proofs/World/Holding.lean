import Society.Proofs.World.Departure
import Society.Proofs.World.Whole

/-!
# Facts out of reach

Names are put into sentences as they are, and what is taken back takes along what goes on from it. So
the fact of a trait may go with a fact of somebody else. If no other name reaches it, it is there as
long as the trait is held.
-/

namespace Society

/-! ## What calls leave -/

namespace FactDatabase

variable {db db' : FactDatabase} {s x : String} {path : List Segment} {p : List String}
  {e : FactEntry} {found : Bool}

theorem view_of_insert (h : db.Sound) (hi : db.insert x = .ok db') :
    ∃ path, Sentence.parse x = .ok path ∧ db.view.clash? path = none ∧
      db'.view = db.view.insert path := by
  obtain ⟨path, hp, hv⟩ := isFact_of_insert hi
  refine ⟨path, hp, ?_⟩
  have hview := step_view h (.insert x)
  simp only [step, hi, FactMap.step, FactMap.stepSentence, hp, hv, Bool.false_eq_true, if_false,
    FactMap.stepPath] at hview
  split at hview
  · cases hview
  · rename_i hclash
    exact ⟨hclash, (Prod.mk.inj hview).2.symm⟩

/-- A fact whose nodes may have many children stays one, whatever is inserted. -/
theorem assert_of_insert_other (h : db.Sound) (hi : db.insert x = .ok db')
    (hs : Sentence.parse s = .ok path) (hmany : ∀ t ∈ path.dropLast, t.cardinality = .many)
    (hassert : db.assert s = .ok true) : db'.assert s = .ok true := by
  obtain ⟨_, -, -, hview⟩ := view_of_insert h hi
  obtain ⟨_, hs', hv⟩ := isFact_of_assert hassert
  cases hs.symm.trans hs'
  rw [assert_of_parse hs hv, Except.ok.injEq] at hassert ⊢
  rw [hview]
  exact FactMap.holds_insert rfl hmany hassert

/-- What stands under a key of the root after an insertion stood there before, or it is the first
value of the sentence. -/
theorem first_of_insert (h : db.Sound) (hi : db.insert x = .ok db') {t : Segment}
    (hx : Sentence.parse x = .ok (t :: path)) {key : String} (he : db'.view [key] = some e) :
    db.view [key] = some e ∨ t.toSymbol = key ∧ t.value = e.value := by
  obtain ⟨_, hp, -, hview⟩ := view_of_insert h hi
  cases hx.symm.trans hp
  rw [hview, FactMap.insert_cons] at he
  split at he
  · rename_i hkey
    rw [if_neg (FactMap.not_displaces_nil _ _), if_pos rfl] at he
    rcases Option.or_eq_some_iff.mp he with he | ⟨-, he⟩
    · exact .inl he
    · exact .inr ⟨hkey.symm, congrArg FactEntry.value (Option.some.inj he)⟩
  · exact .inl he

theorem view_of_delete_some (h : db.Sound) (hd : db.delete x = .ok (db', found))
    (he : db'.view p = some e) : db.view p = some e := by
  obtain ⟨path, -, -, hview⟩ := view_of_delete h hd
  rw [hview, FactMap.delete] at he
  split at he
  · cases he
  · exact he

end FactDatabase

open Sentence (begins Extends IsWord word)

theorem Sentence.IsWord.parse_traits {trait : String} (h : IsWord trait) :
    parse ("traits" ++ "." ++ trait) = .ok [word "traits", word trait] := by
  have hword : IsWord "traits" := rfl
  exact parse_append_point hword h

namespace Entity

/-- The name that the facts of an entity begin with. -/
def head : Entity → String
  | .agent uid => uid
  | .relationship owner _ => owner

theorem traitFact_eq (e : Entity) (id : String) :
    e.traitFact id = e.fact ++ "." ++ "traits" ++ "." ++ id := by
  simp only [traitFact, String.append_assoc]
  rfl

theorem extends_relationships (owner target : String) :
    Extends (owner ++ "." ++ "relationships") (relationship owner target).fact := by
  refine .inr ⟨target, ?_⟩
  simp only [fact, String.append_assoc]
  rfl

theorem extends_kindFact (owner target id : String) :
    Extends (owner ++ "." ++ "relationships") (Relationship.kindFact owner target id) := by
  have hkind : Relationship.kindFact owner target id =
      (relationship owner target).fact ++ "." ++ ("type!" ++ id) := by
    simp only [Relationship.kindFact, String.append_assoc]
    rfl
  rw [hkind]
  exact (extends_relationships owner target).append _

theorem extends_fact (e : Entity) : Extends e.head e.fact := by
  cases e with
  | agent uid => exact .inl rfl
  | relationship owner target =>
      exact .trans (.inr ⟨"relationships", rfl⟩) (extends_relationships owner target)

theorem extends_traitFact (e : Entity) (id : String) : Extends e.head (e.traitFact id) := by
  rw [traitFact_eq]
  exact (e.extends_fact.append _).append _

end Entity

/-! ## A trait that may be held -/

/-- A trait that an agent may hold, with names that are read as one value each. -/
structure Holding where
  uid : String
  trait : String
  value : NodeValue
  parse_uid : Sentence.parse uid = .ok [⟨value, .many⟩]
  isWord_trait : IsWord trait

namespace Holding

variable (h : Holding)

def report : Report :=
  .holds (.agent h.uid) h.trait

/-- The fact that says that the agent holds the trait. -/
def fact : String :=
  (Entity.agent h.uid).traitFact h.trait

def path : List Segment :=
  [⟨h.value, .many⟩, word "traits", word h.trait]

/-- The name of an agent that does not reach the fact: another name that is no beginning of it, and
that does not put another value in its first place. -/
def Spares (x : String) : Prop :=
  x = h.uid ∨ begins x h.fact = false ∧ ∀ s path, Sentence.parse x = .ok (s :: path) →
    s.toSymbol = h.value.toSymbol → s.value = h.value

/-- A trait that does not reach the fact: another one that is no beginning of the trait. -/
def SparesTrait (id : String) : Prop :=
  id = h.trait ∨ begins id h.trait = false

variable {h} {x s id : String} {p : List Segment}

theorem fact_eq : h.fact = h.uid ++ "." ++ ("traits" ++ "." ++ h.trait) := by
  rw [fact, Entity.traitFact_eq]
  simp only [Entity.fact, String.append_assoc]

theorem parse_fact : Sentence.parse h.fact = .ok h.path := by
  rw [fact_eq]
  exact Sentence.parse_append_point h.parse_uid h.isWord_trait.parse_traits

/-- Nothing that goes on from a name that is spared puts another value in the first place. -/
theorem Spares.value_eq (hx : h.Spares x) (hp : Sentence.parse x = .ok p) (hs : Extends x s)
    {t : Segment} {path : List Segment} (ht : Sentence.parse s = .ok (t :: path))
    (hkey : t.toSymbol = h.value.toSymbol) : t.value = h.value := by
  have hpre := hs.isPrefix hp ht
  cases p with
  | nil => exact absurd rfl (Sentence.proper_of_parse hp).ne_nil
  | cons t' p =>
      obtain ⟨rfl, -⟩ := List.cons_prefix_cons.mp hpre
      rcases hx with rfl | ⟨-, hfirst⟩
      · cases hp.symm.trans h.parse_uid
        rfl
      · exact hfirst _ _ hp hkey

/-- What is told of relationships does not reach the fact. -/
theorem Spares.relationships (hx : h.Spares x) (hp : Sentence.parse x = .ok p)
    (hs : Extends (x ++ "." ++ "relationships") s) : begins s h.fact = false := by
  have hword : Sentence.parse "relationships" = .ok [word "relationships"] := rfl
  apply hs.begins_eq_false (Sentence.parse_append_point hp hword)
  rcases hx with rfl | ⟨hapart, -⟩
  · rw [fact_eq, Sentence.begins_append_append hp, ← Bool.not_eq_true,
      Sentence.begins_of_parse hword h.isWord_trait.parse_traits, Sentence.keys_cons,
      Sentence.keys_cons, List.cons_prefix_cons]
    rintro ⟨hkey, -⟩
    exact absurd hkey (by decide)
  · exact Extends.begins_eq_false (.inr ⟨_, rfl⟩) hp hapart

/-- Neither do other traits, nor those of other agents. -/
theorem Spares.traits (hx : h.Spares x) (hp : Sentence.parse x = .ok p)
    (hid : x = h.uid → begins id h.trait = false) :
    begins ((Entity.agent x).traitFact id) h.fact = false := by
  rcases hx with rfl | ⟨hapart, -⟩
  · have hword : Sentence.parse "traits" = .ok [word "traits"] := rfl
    have htraits := Sentence.parse_append_point hp hword
    have hown := hid rfl
    rw [← Sentence.begins_append_append htraits] at hown
    rwa [fact, Entity.traitFact_eq, Entity.traitFact_eq]
  · exact ((Entity.agent x).extends_traitFact id).begins_eq_false hp hapart

/-! ## Worlds in which the fact is out of reach -/

variable (h) in
/-- What the world shows does not reach the fact, and if it is the trait itself then the fact is
there. -/
def Allows (facts : FactDatabase) : Report → Prop
  | .present e => h.Spares e.head ∧ ∃ p, Sentence.parse e.head = .ok p
  | .holds e id => e = .agent h.uid →
    h.SparesTrait id ∧ (id = h.trait → facts.assert h.fact = .ok true)
  | .kind .. => True

variable (h) in
/-- The fact is there if the trait is held, and nothing that is there reaches it. -/
structure Safe (w : World) : Prop where
  linked : w.Linked
  sound : w.facts.Sound
  library : ∀ id t, w.traits.get? id = some t → t.id = id ∧ h.SparesTrait id
  first : ∀ e, w.facts.view [h.value.toSymbol] = some e → e.value = h.value
  reports : ∀ r, w.Shows r → h.Allows w.facts r

variable (h) in
/-- A sentence may be taken back: while the trait is held, it does not reach the fact. -/
def Frees (s : String) (w : World) : Prop :=
  w.Shows h.report → begins s h.fact = false

variable {w w' : World} {e : Entity} {facts : FactDatabase} {found : Bool}

theorem Safe.told (hw : h.Safe w) (hr : w.Shows h.report) : w.facts.assert h.fact = .ok true :=
  (hw.reports h.report hr rfl).2 rfl

theorem Safe.head (hw : h.Safe w) (he : w.Shows (.present e)) :
    h.Spares e.head ∧ ∃ p, Sentence.parse e.head = .ok p :=
  hw.reports _ he

/-- Other facts do no harm if the fact stays, and the value in its first place. -/
theorem Safe.setFacts (hw : h.Safe w) (hsound : facts.Sound)
    (hfirst : ∀ e, facts.view [h.value.toSymbol] = some e → e.value = h.value)
    (htold : w.Shows h.report → facts.assert h.fact = .ok true) : h.Safe { w with facts } where
  linked := World.ofEntities_linked w _ rfl rfl hw.linked
  sound := hsound
  library := hw.library
  first := hfirst
  reports r hr := by
    have hr' : w.Shows r := (World.shows_congr rfl rfl r).mp hr
    have hallows := hw.reports r hr'
    cases r with
    | present e => exact hallows
    | kind owner target id => trivial
    | holds e id =>
        rintro rfl
        refine ⟨(hallows rfl).1, ?_⟩
        rintro rfl
        exact htold hr'

/-- Nor does what is shown anew, if it does not reach the fact. -/
theorem Safe.of_shows (hw : h.Safe w) (hlinked : w'.Linked) (htraits : w'.traits = w.traits)
    (hfacts : w'.facts = w.facts) (hshows : ∀ r, w'.Shows r → w.Shows r ∨ h.Allows w.facts r) :
    h.Safe w' where
  linked := hlinked
  sound := hfacts ▸ hw.sound
  library := htraits ▸ hw.library
  first := hfacts ▸ hw.first
  reports r hr := hfacts ▸ (hshows r hr).elim (hw.reports r) id

theorem Safe.of_face (hw : h.Safe w) (hface : w'.face = w.face) : h.Safe w' :=
  hw.of_shows (hw.linked.of_frame (World.frame_eq_of_face_eq hface)) (congrArg (·.traits) hface)
    (congrArg (·.facts) hface) fun r hr => .inl ((World.shows_of_face hface r).mp hr)

/-- Nothing is amiss if the entities and the facts are the same, and the library is in order. -/
theorem Safe.of_entities (hw : h.Safe w) (ha : w'.agents = w.agents)
    (hr : w'.relationships = w.relationships) (hfacts : w'.facts = w.facts)
    (hlibrary : ∀ id t, w'.traits.get? id = some t → t.id = id ∧ h.SparesTrait id) :
    h.Safe w' where
  linked := World.ofEntities_linked w w' ha hr hw.linked
  sound := hfacts ▸ hw.sound
  library := hlibrary
  first := hfacts ▸ hw.first
  reports r hs := hfacts ▸ hw.reports r ((World.shows_congr ha hr r).mp hs)

theorem safe_of_no_entities (ha : w.agents = ∅) (hr : w.relationships = ∅)
    (hlibrary : ∀ id t, w.traits.get? id = some t → t.id = id ∧ h.SparesTrait id)
    (hsound : w.facts.Sound) (hnone : w.facts.view = FactMap.empty) : h.Safe w where
  linked := World.linked_of_no_entities ha hr
  sound := hsound
  library := hlibrary
  first e he := by simp [hnone, FactMap.empty] at he
  reports := by
    rintro ((_ | _) | ⟨_ | _, _⟩ | _) hs <;>
      simp [World.Shows, World.sheet?, World.agent?, World.relationship?, ha, hr] at hs

theorem Safe.insert (hw : h.Safe w) (hx : h.Spares x) (hp : Sentence.parse x = .ok p)
    (hs : Extends x s) (hf : w.facts.insert s = .ok facts) : h.Safe { w with facts } := by
  apply hw.setFacts (FactDatabase.stable_sound.insert hw.sound hf)
  · intro e he
    obtain ⟨path, hpath, -⟩ := FactDatabase.isFact_of_insert hf
    cases path with
    | nil => exact absurd rfl (Sentence.proper_of_parse hpath).ne_nil
    | cons t path =>
        rcases FactDatabase.first_of_insert hw.sound hf hpath he with he | ⟨hkey, hvalue⟩
        · exact hw.first e he
        · exact hvalue ▸ hx.value_eq hp hs hpath hkey
  · intro hr
    refine FactDatabase.assert_of_insert_other hw.sound hf parse_fact ?_ (hw.told hr)
    simp [path, word]

theorem Safe.delete (hw : h.Safe w) (hs : h.Frees s w)
    (hf : w.facts.delete s = .ok (facts, found)) : h.Safe { w with facts } := by
  apply hw.setFacts (FactDatabase.stable_sound.delete hw.sound hf)
  · exact fun e he => hw.first e (FactDatabase.view_of_delete_some hw.sound hf he)
  · intro hr
    rw [FactDatabase.assert_of_delete hw.sound hf, hw.told hr, hs hr]
    rfl

theorem Safe.retract (hw : h.Safe w) (hs : h.Frees s w)
    (hf : w.facts.retract s = .ok (facts, found)) : h.Safe { w with facts } := by
  rcases FactDatabase.retract_eq_ok hf with ⟨-, rfl⟩ | ⟨-, hd⟩
  · exact hw
  · exact hw.delete hs hd

/-- What is told of a relationship that is there may always be taken back. -/
theorem Safe.frees {owner target : String} {r : Relationship} (hw : h.Safe w)
    (hr : w.relationship? owner target = some r)
    (hs : Extends (owner ++ "." ++ "relationships") s) (w' : World) : h.Frees s w' := by
  have he : w.Shows (.present (.relationship owner target)) := by
    simp [World.Shows, World.sheet?, hr]
  obtain ⟨hspares, p, hp⟩ := hw.head he
  exact fun _ => hspares.relationships hp hs

theorem Safe.hold {s : Sheet} {t : Trait} (hw : h.Safe w) (ht : w.traits.get? id = some t)
    (hs : w.sheet? e = some s) (hf : w.facts.insert (e.traitFact id) = .ok facts) (text : String)
    (duration : Int) :
    h.Safe ({ w with facts }.setSheet { s with traits := s.traits.hold t text duration } e) := by
  obtain ⟨hspares, p, hp⟩ := hw.head (e := e) (by simp [World.Shows, hs])
  have hw' := hw.insert hspares hp (e.extends_traitFact id) hf
  have hs' : World.sheet? { w with facts } e = some s := by
    cases e <;> exact hs
  refine hw'.of_shows (hw'.linked.of_frame (World.frame_setSheet _ _ _)) (by cases e <;> rfl)
    (by cases e <;> rfl) fun r hr => ?_
  rcases (World.shows_hold hs' t text duration r).mp hr with rfl | hr
  · right
    rintro rfl
    obtain ⟨hid, hspared⟩ := hw.library id t ht
    rw [hid]
    refine ⟨hspared, ?_⟩
    rintro rfl
    exact FactDatabase.assert_of_insert hf
  · exact .inl hr

/-- What is told of a trait may be taken back once it is held no longer. -/
theorem Safe.erase {s : Sheet} (hw : h.Safe w) (hs : w.sheet? e = some s)
    (hheld : s.traits.contains id = true) :
    h.Safe (w.setSheet { s with traits := s.traits.erase id } e) ∧
      h.Frees (e.traitFact id) (w.setSheet { s with traits := s.traits.erase id } e) := by
  have hshows (r : Report) := World.shows_erase hs id r
  refine ⟨hw.of_shows (hw.linked.of_frame (World.frame_setSheet _ _ _)) (by cases e <;> rfl)
    (by cases e <;> rfl) fun r hr => .inl ((hshows r).mp hr).1, fun hr => ?_⟩
  obtain ⟨hspares, p, hp⟩ := hw.head (e := e) (by simp [World.Shows, hs])
  cases e with
  | relationship owner target =>
      apply hspares.relationships hp
      rw [Entity.traitFact_eq]
      exact ((Entity.extends_relationships owner target).append _).append _
  | agent uid =>
      apply hspares.traits hp
      rintro rfl
      have hheld' : w.Shows (.holds (.agent h.uid) id) := by simp [World.Shows, hs, hheld]
      rcases (hw.reports _ hheld' rfl).1 with rfl | hapart
      · exact absurd rfl ((hshows _).mp hr).2
      · exact hapart

theorem Safe.modifyKind {owner target : String} {r : Relationship} (hw : h.Safe w)
    (hr : w.relationship? owner target = some r) (kind : Option String) :
    h.Safe (w.modifyRelationship owner target fun r => { r with kind }) := by
  refine hw.of_shows (hw.linked.of_frame (Act.frame_modifyKind w owner target kind)) rfl rfl
    fun x hx => ?_
  cases x with
  | kind o t id => exact .inr trivial
  | _ => exact .inl ((World.shows_modifyKind hr kind _).mp hx)

theorem Safe.unlink (hw : h.Safe w) (owner target : String) : h.Safe (w.unlink owner target) := by
  refine hw.of_shows (hw.linked.unlink owner target) ?_ (World.facts_unlink w owner target)
    fun r hr => .inl ((World.shows_unlink w owner target r).mp hr).1
  simp only [World.unlink, World.eraseRelationship]
  split <;> rfl

end Holding

/-! ## Acts -/

namespace Act

open Holding (Safe)

variable {h : Holding}

theorem reevaluateAround_safe (e : Entity) : (reevaluateAround e).Keeps h.Safe :=
  (reevaluateAround_fixes e).keeps fun _ _ hface hw => hw.of_face hface

theorem addTrait_safe (e : Entity) (id : String) (duration : Int) (description : Option String) :
    (addTrait e id duration description).Keeps h.Safe :=
  addTrait_rule (fun _ _ hout hw => hw.of_face (World.face_eq_of_outline_eq hout)) (fun _ hw => hw)
    (fun _ hw => hw) (fun _ _ _ _ text hw ht _ hs _ hf => hw.hold ht hs hf text duration)
    (reevaluateAround_safe e)

theorem retract_safe (s : String) :
    Ensures (fun w => h.Safe w ∧ h.Frees s w) (retract s) (fun _ => h.Safe) h.Safe :=
  fun _ hw => leads_retract.mpr ⟨fun _ _ hf => hw.1.retract hw.2 hf, fun _ _ => hw.1⟩

/-- The type that goes with a trait goes first, and its fact does not reach the other one either. -/
theorem clearKind_safe (e : Entity) (id : String) :
    Ensures (fun w => h.Safe w ∧ h.Frees (e.traitFact id) w) (clearKind e id)
      (fun _ w => h.Safe w ∧ h.Frees (e.traitFact id) w) h.Safe := by
  refine clearKind_rule (fun _ hw _ => hw.1) (fun _ hw _ => hw) ?_
  rintro owner target r rfl w ⟨hw, htrait⟩ hr -
  have hw' := hw.modifyKind hr none
  have hkind := hw.frees hr (Entity.extends_kindFact owner target id)
  refine leads_retract.mpr ⟨fun facts found hf => ⟨hw'.retract (hkind _) hf, fun hshows =>
    htrait ?_⟩, fun _ _ => hw'⟩
  exact (World.shows_modifyKind hr none h.report).mp ((World.shows_congr rfl rfl _).mp hshows)

theorem removeTrait_safe (e : Entity) (id : String) : (removeTrait e id).Keeps h.Safe := by
  refine removeTrait_rule (fun w w' hout hw => ?_) (fun _ hw => hw) (fun _ hw => hw)
    (fun w s hw hs hheld => hw.erase hs hheld) (clearKind_safe e id) (retract_safe _)
    (reevaluateAround_safe e)
  have hface := World.face_eq_of_outline_eq hout
  exact ⟨hw.1.of_face hface, fun hr => hw.2 ((World.shows_of_face hface _).mp hr)⟩

theorem setRelationshipKind_safe (owner target id : String) :
    (setRelationshipKind owner target id).Keeps h.Safe := by
  refine setRelationshipKind_rule (R := h.Safe) (fun _ hw => hw)
    (fun previous => removeTrait_safe _ previous) (fun _ w r hw hr => ?_) (addTrait_safe _ _ _ _)
  have he : w.Shows (.present (.relationship owner target)) := by
    simp [World.Shows, World.sheet?, hr]
  obtain ⟨hspares, p, hp⟩ := hw.head he
  have hw' := hw.modifyKind hr (some id)
  exact leads_insertFact.mpr ⟨fun facts hf =>
    hw'.insert hspares hp (.trans (.inr ⟨"relationships", rfl⟩)
      (Entity.extends_kindFact owner target id)) hf, fun _ _ => hw'⟩

theorem addAgent_safe {uid : String} (huid : h.Spares uid) (agentType : String) :
    (addAgent agentType uid).Keeps h.Safe := by
  refine addAgent_rule (fun _ hw => hw) (fun w schema facts hw _ hn hf => ?_)
    fun _ => addTrait_safe _ _ _ _
  obtain ⟨p, hp, -⟩ := FactDatabase.isFact_of_insert hf
  have hw' := hw.insert huid hp (.inl rfl) hf
  have hn' : World.agent? { w with facts } uid = none := hn
  refine hw'.of_shows (hw'.linked.setAgent hn' agentType schema.stats) rfl rfl fun r hr => ?_
  rcases (World.shows_setAgent hn' agentType schema.stats r).mp hr with rfl | hr
  · exact .inr ⟨huid, p, hp⟩
  · exact .inl hr

theorem addRelationship_safe (owner target : String) :
    (addRelationship owner target).Keeps h.Safe := by
  refine addRelationship_rule (fun _ hw => hw) (fun w a b stats facts hw ha hb hn hf => ?_)
    (fun _ => addTrait_safe _ _ _ _) (reevaluateAround_safe (.relationship owner target))
  have howner : w.Shows (.present (.agent owner)) := by simp [World.Shows, World.sheet?, ha]
  obtain ⟨hspares, p, hp⟩ := hw.head howner
  have hw' := hw.insert hspares hp (Entity.extends_fact (.relationship owner target)) hf
  have hn' : World.relationship? { w with facts } owner target = none := hn
  refine hw'.of_shows (hw'.linked.link ha hb stats) rfl rfl fun r hr => ?_
  rcases (World.shows_link hn' stats r).mp hr with rfl | hr
  · exact .inr ⟨hspares, p, hp⟩
  · exact .inl hr

theorem removeRelationship_safe (owner target : String) :
    (removeRelationship owner target).Keeps h.Safe :=
  removeRelationship_rule (fun _ hw _ => hw) fun _ _ hw hr =>
    (retract_safe _) _ ⟨hw.unlink owner target,
      hw.frees hr (Entity.extends_relationships owner target) _⟩

theorem steady_safe : Steady h.Safe h.Safe where
  weaken _ hw := hw
  of_outline _ _ hout hw := hw.of_face (World.face_eq_of_outline_eq hout)
  reevaluate owner target := reevaluateAround_safe (.relationship owner target)
  addTrait := addTrait_safe
  removeTrait := removeTrait_safe

theorem removeAgent_safe (uid : String) : (removeAgent uid).Keeps h.Safe := by
  refine removeAgent_rule (Q := h.Safe) (fun _ hw => hw.linked) (fun _ hw => hw)
    (fun _ _ _ => removeRelationship_safe _ _) (fun hthere w hw hnone => leads_deleteFact.mpr
      ⟨fun facts _ hf => ?_, fun _ _ => hw⟩) (ensures_reevaluateAll steady_safe)
  obtain ⟨w₀, a, hw₀, ha⟩ := hthere
  obtain ⟨hspares, -⟩ := hw₀.head (e := .agent uid) (by simp [World.Shows, World.sheet?, ha])
  have hshows := World.shows_eraseAgent fun other => (hnone other).1
  have hgone : h.Safe { w with agents := w.agents.erase uid } :=
    hw.of_shows (hw.linked.eraseAgent hnone) rfl rfl fun r hr => .inl ((hshows r).mp hr).1
  refine hgone.delete (fun hr => ?_) hf
  rcases hspares with rfl | ⟨hapart, -⟩
  · exact absurd (by simp [Holding.report]) ((hshows _).mp hr).2
  · exact hapart

theorem reset_safe : reset.Keeps h.Safe :=
  keeps_modify fun w hw => Holding.safe_of_no_entities rfl rfl hw.library
    (FactDatabase.stable_sound.clear hw.sound) (FactDatabase.view_clear w.facts)

end Act

/-! ## Commands -/

namespace Holding

/-- Every trait that a command puts into the library, and every agent that it adds, leaves the fact
alone; and the command does not edit facts by hand. -/
def SparedBy (h : Holding) : Command → Prop
  | .addTrait t => h.SparesTrait t.id
  | .addAgent _ uid => h.Spares uid
  | c => c.isEdit = false

variable {h : Holding}

theorem act_safe {c : Command} (hc : h.SparedBy c) : c.act.Keeps h.Safe := by
  cases c with
  | addTrait t =>
      exact Act.keeps_modify fun w hw =>
        hw.of_entities rfl rfl rfl (World.library_addTrait hw.library ⟨rfl, hc⟩)
  | addRule | addEvent | addAgentSchema | addRelationshipSchema =>
      exact Act.keeps_modify fun w hw => hw.of_entities rfl rfl rfl hw.library
  | addAgent agentType uid => exact Act.addAgent_safe hc agentType
  | removeAgent uid => exact Act.Ensures.discard (Act.removeAgent_safe uid)
  | addRelationship owner target => exact Act.addRelationship_safe owner target
  | removeRelationship owner target =>
      exact Act.Ensures.discard (Act.removeRelationship_safe owner target)
  | setRelationshipKind owner target id =>
      exact Act.Ensures.discard (Act.setRelationshipKind_safe owner target id)
  | reset => exact Act.reset_safe
  | insertFact s => cases hc
  | deleteFact s => cases hc
  | clearFacts => cases hc
  | _ => exact Act.steady_safe.act rfl

/-- As long as no other name reaches its fact, a trait that is held is told. -/
theorem safe_of_reachableBy {w : World} (hw : w.ReachableBy fun _ c => h.SparedBy c) : h.Safe w := by
  induction hw with
  | empty =>
      exact safe_of_no_entities rfl rfl (fun id t ht => by cases ht) FactDatabase.sound_empty
        FactDatabase.view_empty
  | step c _ hc ih => exact (act_safe hc).holds ih

end Holding

end Society
