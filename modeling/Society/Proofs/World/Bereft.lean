import Society.Proofs.World.Readable

/-!
# Agents that lose their relationships

Before an agent goes, its relationships go one by one, each with the links of its agents. All others
stay as they were.
-/

namespace Society

/-- The agent without links to another one. Of the agent itself no links are left. -/
def Agent.apartFrom (uid : String) (a : Agent) : Agent :=
  { a with
    outgoing := if a.uid = uid then ∅ else a.outgoing.erase uid
    incoming := if a.uid = uid then ∅ else a.incoming.erase uid }

/-- An agent without links is none the less for losing them. -/
theorem Agent.apartFrom_eq_self {uid : String} {a : Agent}
    (hout : ∀ k, a.uid = uid ∨ k = uid → a.outgoing.contains k = false)
    (hin : ∀ k, a.uid = uid ∨ k = uid → a.incoming.contains k = false) : a.apartFrom uid = a := by
  have hstrip : ∀ links : TextSet, (∀ k, a.uid = uid ∨ k = uid → links.contains k = false) →
      (if a.uid = uid then ∅ else links.erase uid) = links := by
    intro links h
    split
    · rename_i hu
      exact (Dict.eq_empty fun k => h k (.inl hu)).symm
    · exact Dict.erase_of_not_contains (h uid (.inr rfl))
  simp only [apartFrom, hstrip a.outgoing hout, hstrip a.incoming hin]

namespace World

/-- The world `v` is `w` as far as agents and relationships go, without all relationships of an agent. -/
structure Bereft (uid : String) (w v : World) : Prop where
  agents : ∀ other, v.agent? other = (w.agent? other).map (·.apartFrom uid)
  relationships : ∀ owner target, v.relationship? owner target =
    if owner = uid ∨ target = uid then none else w.relationship? owner target

/-- The relationships of an agent are about to go from `w`: the others are in `v` as they were. -/
structure Leaving (uid : String) (w v : World) : Prop where
  readable : v.Readable
  agents : ∀ other, (v.agent? other).map (·.apartFrom uid) = (w.agent? other).map (·.apartFrom uid)
  relationships : ∀ owner target, owner ≠ uid → target ≠ uid →
    v.relationship? owner target = w.relationship? owner target

variable {w : World}

theorem Leaving.unlink {uid owner target : String} {v : World} (h : Leaving uid w v)
    (hends : owner = uid ∨ target = uid) : Leaving uid w (v.unlink owner target) := by
  constructor
  case readable => exact h.readable.unlink owner target
  case agents =>
    intro other
    rw [World.agent?_unlink, Option.map_map, ← h.agents other]
    refine Option.map_congr fun a ha => ?_
    have huid : a.uid = other := h.readable.linked.uid other a ha
    simp only [Function.comp_apply, Agent.apartFrom, huid]
    rcases hends with rfl | rfl <;> by_cases ho : other = owner <;> by_cases ht : other = target <;>
      simp_all [Dict.erase_erase]
  case relationships =>
    intro o t ho ht
    rw [World.relationship?_unlink, if_neg, h.relationships o t ho ht]
    rintro ⟨rfl, rfl⟩
    exact hends.elim ho ht

/-- Nothing links an agent without relationships. -/
theorem Leaving.bereft {uid : String} {v : World} (h : Leaving uid w v)
    (hnone : ∀ other, v.relationship? uid other = none ∧ v.relationship? other uid = none) :
    w.Bereft uid v := by
  constructor
  case agents =>
    intro other
    have hlinked := h.readable.linked
    have hself : (v.agent? other).map (·.apartFrom uid) = v.agent? other := by
      refine (Option.map_congr fun a ha => ?_).trans Option.map_id'
      have huid : a.uid = other := hlinked.uid other a ha
      refine Agent.apartFrom_eq_self (fun k hk => ?_) fun k hk => ?_
      · have hout := hlinked.outgoing other k
        rw [ha, Option.any_some] at hout
        rw [hout, Option.isSome_eq_false_iff, Option.isNone_iff_eq_none]
        rcases hk with hk | rfl
        · rw [← huid, hk]
          exact (hnone k).1
        · exact (hnone other).2
      · have hin := hlinked.incoming k other
        rw [ha, Option.any_some] at hin
        rw [hin, Option.isSome_eq_false_iff, Option.isNone_iff_eq_none]
        rcases hk with hk | rfl
        · rw [← huid, hk]
          exact (hnone k).2
        · exact (hnone other).1
    exact hself.symm.trans (h.agents other)
  case relationships =>
    intro owner target
    split
    · rename_i hends
      rcases hends with rfl | rfl
      · exact (hnone target).1
      · exact (hnone owner).2
    · rename_i hends
      obtain ⟨ho, ht⟩ := not_or.mp hends
      exact h.relationships owner target ho ht

theorem Leaving.setFacts {uid : String} {v : World} (h : Leaving uid w v) (facts : FactDatabase) :
    Leaving uid w { v with facts } :=
  ⟨h.readable.setFacts facts, h.agents, h.relationships⟩

end World

open World (Leaving) in
theorem Act.removeRelationship_leaving {w : World} {uid owner target : String} {E : World → Prop}
    (hends : owner = uid ∨ target = uid) :
    Act.Ensures (Leaving uid w) (Act.removeRelationship owner target) (fun _ => Leaving uid w) E := by
  refine Act.removeRelationship_rule (fun _ hv _ => hv) fun v r hv hr => ?_
  exact Act.leads_retract_of_isFact (hv.readable.reports (.present (.relationship owner target))
    (by simp [World.Shows, World.sheet?, hr])) fun _ => (hv.unlink hends).setFacts _

end Society
