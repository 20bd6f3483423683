import Society.Proofs.World.Bereft
import Society.Proofs.World.Reach
import Society.Proofs.World.Lasting

/-!
# What an agent takes along

When an agent is removed, the facts of its relationships are taken back and its own fact is deleted,
each with all that goes on from it. Names are put into sentences as they are, so the fact of another
agent may go on from one of these. With names that are words it never does.
-/

namespace Society

open Sentence (begins)

namespace FactDatabase

variable {db db' db'' : FactDatabase} {lost lost' : String → Prop} {f : String}

/-- What is left of facts when some have been taken back, each with all that goes on from it. -/
def Loses (db : FactDatabase) (lost : String → Prop) (db' : FactDatabase) : Prop :=
  ∀ s, db'.assert s = .ok true ↔
    db.assert s = .ok true ∧ ∀ g, lost g → db.assert g = .ok true → begins g s = false

theorem Loses.refl (db : FactDatabase) (h : ∀ g, ¬ lost g) : db.Loses lost db := by
  intro s
  simp [h]

theorem Loses.congr (h : db.Loses lost db') (hiff : ∀ g, lost g ↔ lost' g) :
    db.Loses lost' db' := by
  intro s
  simpa only [hiff] using h s

/-- One more fact is taken back. If it is gone already, so is what goes on from it. -/
theorem Loses.retract (h : db.Loses lost db') (hs : db'.Sound) {found : Bool}
    (hf : db'.retract f = .ok (db'', found)) : db.Loses (fun g => lost g ∨ g = f) db'' := by
  intro s
  rw [asserts_of_retract hs hf, h s, h f]
  constructor
  · rintro ⟨⟨hassert, hothers⟩, hself⟩
    refine ⟨hassert, fun g hg hfact => ?_⟩
    rcases hg with hg | rfl
    · exact hothers g hg hfact
    · by_contra hbegins
      rw [Bool.not_eq_false] at hbegins
      have hkept : ∀ g', lost g' → db.assert g' = .ok true → begins g' g = false := by
        intro g' hg' hfact'
        by_contra hyes
        rw [Bool.not_eq_false] at hyes
        cases (hothers g' hg' hfact').symm.trans (Sentence.begins_trans hyes hbegins)
      cases hbegins.symm.trans (hself ⟨hfact, hkept⟩)
  · rintro ⟨hassert, hall⟩
    exact ⟨⟨hassert, fun g hg => hall g (.inl hg)⟩, fun hfact => hall f (.inr rfl) hfact.1⟩

end FactDatabase

namespace World

variable {uid owner target s : String} {w v : World}

/-- The relationships of an agent are about to go from `w`, and so far `v` has lost the facts of those
that are gone, with what goes on from them. -/
structure Departing (uid : String) (w v : World) : Prop where
  leaving : Leaving uid w v
  sound : v.facts.Sound
  within : ∀ owner target, (v.relationship? owner target).isSome = true →
    (w.relationship? owner target).isSome = true
  loses : w.facts.Loses (fun g => ∃ owner target, (w.relationship? owner target).isSome = true ∧
    v.relationship? owner target = none ∧ g = (Entity.relationship owner target).fact) v.facts

/-- The facts of `v` are those of `w` without the fact of the agent and those of the relationships that
led to it, and without what went on from them. -/
def Departed (uid : String) (w v : World) : Prop :=
  ∀ s, v.facts.assert s = .ok true ↔
    w.facts.assert s = .ok true ∧ begins uid s = false ∧
      ∀ owner, (w.relationship? owner uid).isSome = true →
        w.facts.assert (Entity.relationship owner uid).fact = .ok true →
          begins (Entity.relationship owner uid).fact s = false

theorem Departing.refl (hr : w.Readable) (hs : w.facts.Sound) (uid : String) :
    Departing uid w w where
  leaving := ⟨hr, fun _ => rfl, fun _ _ _ _ => rfl⟩
  sound := hs
  within _ _ h := h
  loses := by
    apply FactDatabase.Loses.refl
    rintro g ⟨owner, target, hthere, hnone, -⟩
    simp [hnone] at hthere

/-- One relationship of the agent goes, with its fact. -/
theorem Departing.unlink (h : Departing uid w v) (hends : owner = uid ∨ target = uid)
    (hthere : (v.relationship? owner target).isSome = true) {facts : FactDatabase} {found : Bool}
    (hf : v.facts.retract (Entity.relationship owner target).fact = .ok (facts, found)) :
    Departing uid w { v.unlink owner target with facts } where
  leaving := (h.leaving.unlink hends).setFacts facts
  sound := FactDatabase.stable_sound.retract h.sound hf
  within o t hot := by
    have hot' : ((v.unlink owner target).relationship? o t).isSome = true := hot
    rw [relationship?_unlink] at hot'
    split at hot'
    · cases hot'
    · exact h.within o t hot'
  loses := by
    have hgone : ∀ o t, relationship? { v.unlink owner target with facts } o t = none ↔
        o = owner ∧ t = target ∨ v.relationship? o t = none := by
      intro o t
      have hunlink := relationship?_unlink v owner target o t
      show (v.unlink owner target).relationship? o t = none ↔ _
      rw [hunlink]
      by_cases hot : o = owner ∧ t = target <;> simp [hot]
    apply (h.loses.retract h.sound hf).congr
    intro g
    constructor
    · rintro (⟨o, t, hot, hnone, rfl⟩ | rfl)
      · exact ⟨o, t, hot, (hgone o t).mpr (.inr hnone), rfl⟩
      · exact ⟨owner, target, h.within owner target hthere, (hgone owner target).mpr
          (.inl ⟨rfl, rfl⟩), rfl⟩
    · rintro ⟨o, t, hot, hnone, rfl⟩
      rcases (hgone o t).mp hnone with ⟨rfl, rfl⟩ | hnone
      · exact .inr rfl
      · exact .inl ⟨o, t, hot, hnone, rfl⟩

/-- In the end the fact of the agent is deleted. What its own relationships told goes on from it. -/
theorem Departing.delete (h : Departing uid w v)
    (hnone : ∀ other, v.relationship? uid other = none ∧ v.relationship? other uid = none)
    {facts : FactDatabase} {found : Bool} (hd : v.facts.delete uid = .ok (facts, found)) :
    Departed uid w { v with facts, agents := v.agents.erase uid } := by
  intro s
  obtain ⟨path, hpath, -⟩ := FactDatabase.view_of_delete h.sound hd
  have hleft : facts.assert s = .ok true ↔ v.facts.assert s = .ok true ∧ begins uid s = false := by
    rw [FactDatabase.assert_of_delete h.sound hd]
    cases v.facts.assert s <;> simp [Except.map]
  show facts.assert s = .ok true ↔ _
  rw [hleft, h.loses s]
  constructor
  · rintro ⟨⟨hassert, hall⟩, huid⟩
    exact ⟨hassert, huid, fun owner hot hfact =>
      hall _ ⟨owner, uid, hot, (hnone owner).2, rfl⟩ hfact⟩
  · rintro ⟨hassert, huid, hall⟩
    refine ⟨⟨hassert, ?_⟩, huid⟩
    rintro _ ⟨owner, target, hot, hgone, rfl⟩ hfact
    by_cases ht : target = uid
    · subst ht
      exact hall owner hot hfact
    · have ho : owner = uid := by
        by_contra ho
        rw [h.leaving.relationships owner target ho ht] at hgone
        simp [hgone] at hot
      subst ho
      have hown : begins owner (Entity.relationship owner target).fact = true := by
        have heq : (Entity.relationship owner target).fact =
            owner ++ "." ++ ("relationships." ++ target) := by
          simp only [Entity.fact, String.append_assoc]
          rfl
        have hfact' := FactDatabase.isFact_of_assert hfact
        rw [heq] at hfact' ⊢
        exact Sentence.begins_append hpath hfact'
      by_contra hbegins
      rw [Bool.not_eq_false] at hbegins
      cases huid.symm.trans (Sentence.begins_trans hown hbegins)

end World

namespace Act

open World (Departing Departed)

variable {uid : String} {w w' : World}

theorem removeRelationship_departing {owner target : String} (hends : owner = uid ∨ target = uid) :
    Ensures (Departing uid w) (removeRelationship owner target) (fun _ => Departing uid w)
      fun _ => True := by
  apply removeRelationship_rule
  · exact fun _ hv _ => hv
  · intro v r hv hr
    apply leads_retract.mpr
    constructor
    · intro facts found hf
      rw [World.facts_unlink] at hf
      exact hv.unlink hends (by simp [hr]) hf
    · exact fun _ _ => trivial

theorem removeAgent_departs (hr : w.Readable) (hs : w.facts.Sound) :
    (removeAgent uid).Leads (fun gone w' => gone = true → Departed uid w w') (fun _ => True) w := by
  have hend : reevaluateAll.Keeps (Departed uid w) := by
    have hfixes : reevaluateAll.Fixes World.face :=
      fixes_get.bind fun _ => Fixes.forM fun _ => reevaluate_fixes _ _
    apply hfixes.keeps
    intro v v' hface hv s
    have hfacts : v'.facts = v.facts := congrArg (·.facts) hface
    rw [hfacts]
    exact hv s
  apply removeAgent_rule (P := Departing uid w) (Q := Departed uid w)
  case hlinked => exact fun _ hv => hv.leaving.readable.linked
  case hskip => exact fun _ _ h => by cases h
  case hremove => exact fun owner target hends => removeRelationship_departing hends
  case hlast =>
    intro _ v hv hnone
    apply leads_deleteFact.mpr
    exact ⟨fun facts found hd => hv.delete hnone hd, fun _ _ => trivial⟩
  case hend => exact (hend.weaken fun _ _ => trivial).mono (fun _ h => h) fun _ _ h _ => h
  case a => exact Departing.refl hr hs uid

theorem isSome_agent?_of_removeAgent (h : (removeAgent uid).runOn w = (.ok true, w')) :
    (w.agent? uid).isSome = true := by
  cases ha : w.agent? uid with
  | some a => rfl
  | none =>
      have hskip : (removeAgent uid).Leads (fun gone _ => gone = false) (fun _ => True) w := by
        rw [removeAgent, leads_bind, leads_get, ha]
        rfl
      cases hskip.ok h

end Act

/-! ## Names that are words -/

namespace Report

theorem begins_fact_iff {x r : Report} (hx : x.Plain) (hr : r.Plain) :
    begins x.fact r.fact = true ↔ x.keys <+: r.keys :=
  Sentence.begins_of_parse (parse_fact hx) (parse_fact hr)

theorem mem_hosts_of_isPrefix {e : Entity} {r : Report} (h : (present e).keys <+: r.keys) :
    e ∈ r.entity.hosts := by
  by_cases hr : present e = r
  · subst hr
    cases e <;> simp [entity, Entity.hosts]
  · obtain ⟨e', he', heq⟩ := eq_present_of_isPrefix h hr
    cases heq
    exact he'

/-- With names that are words, what is told of others does not go on from what is told of an agent. -/
theorem begins_eq_false {uid : String} {e : Entity} {r : Report} (he : e.Plain) (hr : r.Plain)
    (hown : (Entity.agent uid).Near e) (hother : ¬ (Entity.agent uid).Near r.entity) :
    begins e.fact r.fact = false := by
  by_contra hbegins
  rw [Bool.not_eq_false] at hbegins
  have hhost := mem_hosts_of_isPrefix ((begins_fact_iff (x := .present e) he hr).mp hbegins)
  apply hother
  cases hentity : r.entity with
  | agent u =>
      rw [hentity, Entity.hosts, List.mem_singleton] at hhost
      exact hhost ▸ hown
  | relationship owner target =>
      rw [hentity, Entity.hosts, List.mem_pair] at hhost
      rcases hhost with rfl | rfl
      · rcases hown with hself | haround
        · cases hself
          exact .inr (.inl rfl)
        · cases haround
      · exact hown

end Report

/-- Whether a command edits facts by hand. -/
def Command.isEdit : Command → Bool
  | insertFact _ | deleteFact _ | clearFacts => true
  | _ => false

namespace World

variable {w w' : World} {uid : String}

/-- When an agent has been removed, exactly that is no fact any more which goes on from the agent or
from the fact of a relationship that led to it. If all names are words, all that the world shows of
others is a fact still. -/
theorem Reachable.departure (h : w.Reachable)
    (hrun : (Act.removeAgent uid).runOn w = (.ok true, w')) :
    Departed uid w w' ∧
      ((w.ReachableBy fun _ c => c.Plain) → ∀ r, w.Shows r → ¬ (Entity.agent uid).Near r.entity →
        w'.facts.assert r.fact = .ok true) := by
  have hdeparted : Departed uid w w' :=
    (Act.removeAgent_departs h.readable h.reached.tidy.facts).ok hrun rfl
  refine ⟨hdeparted, fun hplain r hr hother => ?_⟩
  have hmirrors := hplain.mirrors
  have hassert : w.facts.assert r.fact = .ok true :=
    hmirrors.assert_eq (hmirrors.plain r hr) (by simp [hr])
  have hthere : w.Shows (.present (.agent uid)) := by
    simpa [Shows, sheet?] using Act.isSome_agent?_of_removeAgent hrun
  refine (hdeparted r.fact).mpr ⟨hassert, ?_, fun owner hshown _ => ?_⟩
  · exact Report.begins_eq_false (e := .agent uid) (hmirrors.plain _ hthere) (hmirrors.plain r hr)
      (.inl rfl) hother
  · have hshows : w.Shows (.present (.relationship owner uid)) := by
      simpa [Shows, sheet?] using hshown
    exact Report.begins_eq_false (hmirrors.plain _ hshows) (hmirrors.plain r hr)
      (.inr (.inr rfl)) hother

/-- Ann has to do with Bob, and is happy. -/
def partingRun : List Command := [
  .addTrait ⟨"happy", .agent, "Happy", "", [], ∅⟩,
  .addAgentSchema ⟨"person", [], ["happy"]⟩, .addRelationshipSchema ⟨"person", "person", [], []⟩,
  .addAgent "person" "ann", .addAgent "person" "bob", .addRelationship "ann" "bob",
  .addRelationship "bob" "ann"]

/-- When Bob is removed, Ann is happy still, and has to do with him no longer. -/
theorem departure_of_bob :
    ∃ w w' : World, w.Reachable ∧ (Act.removeAgent "bob").runOn w = (.ok true, w') ∧
      w'.facts.assert "ann.traits.happy" = .ok true ∧
      w'.facts.assert "ann.relationships.bob" ≠ .ok true := by
  have hplain : World.ReachableBy (fun _ c => c.Plain) (partingRun.foldl World.after ∅) :=
    ReachableBy.empty.run ⟨rfl, trivial, trivial, rfl, rfl, trivial, trivial, trivial⟩
  have hrun : (Act.removeAgent "bob").runOn (partingRun.foldl World.after ∅) =
      (.ok true, ((Act.removeAgent "bob").runOn (partingRun.foldl World.after ∅)).2) :=
    Act.runOn_eq_ok (by decide +kernel)
  obtain ⟨hdeparted, hothers⟩ := hplain.reachable.departure hrun
  refine ⟨_, _, hplain.reachable, hrun, ?_, fun hassert => ?_⟩
  · apply hothers hplain (.holds (.agent "ann") "happy")
    · show ((partingRun.foldl World.after ∅).sheet? (.agent "ann")).any
        (·.traits.contains "happy") = true
      decide +kernel
    · rintro (hsame | haround)
      · exact absurd hsame (by decide)
      · exact haround
  · have hgone := ((hdeparted "ann.relationships.bob").mp hassert).2.2 "ann" (by decide +kernel)
      (by decide +kernel)
    cases hgone

/-- Ann has a shadow. -/
def shadowRun : List Command := [
  .addAgentSchema ⟨"person", [], []⟩, .addAgent "person" "ann", .addAgent "person" "ann.shadow"]

/-- Ann takes along the fact of her shadow, which stays. -/
theorem shadow_is_taken_along :
    ¬ ∀ (w w' : World) (uid other : String),
      (w.ReachableBy fun _ c => c.isEdit = false) → other ≠ uid →
        (w.agent? uid).isSome = true → (w.agent? other).isSome = true →
          w.facts.assert other = .ok true → (Act.removeAgent uid).runOn w = (.ok true, w') →
            w'.facts.assert other = .ok true := by
  intro h
  have hw : World.ReachableBy (fun _ c => c.isEdit = false) (shadowRun.foldl World.after ∅) :=
    ReachableBy.empty.run ⟨rfl, rfl, rfl, trivial⟩
  have hrun : (Act.removeAgent "ann").runOn (shadowRun.foldl World.after ∅) =
      (.ok true, ((Act.removeAgent "ann").runOn (shadowRun.foldl World.after ∅)).2) :=
    Act.runOn_eq_ok (by decide +kernel)
  have hassert := h _ _ "ann" "ann.shadow" hw (by decide) (by decide +kernel) (by decide +kernel)
    (by decide +kernel) hrun
  have hnot : ((Act.removeAgent "ann").runOn (shadowRun.foldl World.after ∅)).2.facts.assert
      "ann.shadow" = .ok false := by decide +kernel
  cases hnot.symm.trans hassert

end World

end Society
