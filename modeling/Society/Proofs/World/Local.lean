import Society.Proofs.Fact.Report
import Society.Proofs.Query.Closed
import Society.Proofs.World.Evaluation

/-!
# Local rules

A rule is local for a relationship if nothing but reports about it and its two agents decides
whether it is met. Such are all rules whose preconditions assert and deny reports of this kind.
-/

namespace Society

/-- One of two agents, or the relationship from the first one to the second. -/
def Entity.IsOf (owner target : String) (e : Entity) : Prop :=
  e = .agent owner ∨ e = .agent target ∨ e = .relationship owner target

/-- A report about two agents and the relationship from the first one to the second, but not about
the type of the relationship. -/
def Report.IsOf (owner target : String) : Report → Prop
  | present e => e.IsOf owner target
  | holds e _ => e.IsOf owner target
  | kind .. => False

/-- Whether the rule is met for a relationship depends on nothing but reports about it and its
agents. -/
def SocialRule.Local (owner target : String) (rule : SocialRule) : Prop :=
  ∀ (db db' : FactDatabase) (T T' : Report → Prop), db.Tells T → db'.Tells T' →
    (∀ r : Report, r.IsOf owner target → (T r ↔ T' r)) →
      db.meets owner target rule.preconditions = db'.meets owner target rule.preconditions

/-- With the values of a row a clause asserts a report, or denies it. -/
def Clause.Tests (row : Bindings) (clause : String) (asserts : Bool) (r : Report) : Prop :=
  r.Plain ∧ ∃ s path, Clause.parse clause = .ok (if asserts then .assert s else .not s) ∧
    Sentence.parse s = .ok path ∧ Sentence.substitute row path = r.path

theorem Report.exists_symbol (r : Report) : ∀ t ∈ r.path, ∃ x, t.value = .symbol x := by
  rcases r with (_ | _) | ⟨_ | _, _⟩ | _ <;> simp [path, Entity.path, Sentence.word]

/-- A row that makes a report of a path leaves nothing to bind. -/
theorem Report.closes {row : Bindings} {path : List Segment} {r : Report} (hr : r.Plain)
    (h : Sentence.substitute row path = r.path) : row.Closes path := by
  intro t ht
  have hmem : { t with value := Sentence.resolve row t.value } ∈ r.path :=
    h ▸ List.mem_map_of_mem ht
  obtain ⟨x, hx⟩ := r.exists_symbol _ hmem
  have hwritten := ((Sentence.proper_of_parse (Report.parse_fact hr)).written _ hmem).1
  simp only at hx hwritten
  rw [hx] at hwritten ⊢
  exact ⟨⟨hwritten, rfl⟩, rfl⟩

namespace FactDatabase

variable {db : FactDatabase} {T : Report → Prop} {owner target : String}

/-- All nodes of a tree of reports are symbols. -/
theorem Tells.floatFree (h : db.Tells T) : db.root.FloatFree := by
  intro p m hm
  by_cases hp : p = []
  · subst hp
    rw [← Option.some.inj hm, h.sound.value_root]
    rfl
  · have hv : db.view p = some m.entry := by
      rw [view, FactMap.belowRoot_of_ne_nil _ hp, FactNode.view, hm]
      rfl
    have hvalue : m.value = .symbol (p.getLast?.getD "") :=
      congrArg FactEntry.value (h.entry_eq p _ hv)
    rw [hvalue]
    rfl

theorem Tells.settles (h : db.Tells T) {row : Bindings} {clause : String} {asserts : Bool}
    {r : Report} (ht : Clause.Tests row clause asserts r) {holds : Bool}
    (hholds : holds = true ↔ (T r ↔ asserts = true)) :
    ∃ c, Clause.parse clause = .ok c ∧ c.Settles db row holds := by
  obtain ⟨hr, s, path, hc, hp, hsub⟩ := ht
  have hclosed := Report.closes hr hsub
  have hroot : db.root.holds (Sentence.substitute row path) = (db.view r.keys).isSome := by
    rw [hsub, ← holds_view r.path_ne_nil, h.holds_eq]
  obtain rfl : holds = ((db.view r.keys).isSome == asserts) := by
    rw [Bool.eq_iff_iff, hholds, ← h.isSome_iff, beq_iff_eq]
    exact Bool.eq_iff_iff.symm
  refine ⟨_, hc, ?_⟩
  rw [← hroot]
  cases asserts with
  | true => simpa using Clause.settles_assert h.sound h.floatFree hp hclosed
  | false => simpa using Clause.settles_not hp hclosed db

/-- Preconditions that assert and deny reports are met if each of them is right about its report. -/
theorem Tells.meets_iff (h : db.Tells T) {Q : Report → Prop} {preconditions : List String}
    (hc : ∀ clause ∈ preconditions, ∃ asserts r,
      Clause.Tests (RawBindings.ofPair owner target).toBindings clause asserts r ∧ Q r) :
    db.meets owner target preconditions = true ↔ ∀ clause ∈ preconditions, ∃ asserts r,
      Clause.Tests (RawBindings.ofPair owner target).toBindings clause asserts r ∧ Q r ∧
        (T r ↔ asserts = true) := by
  classical
  let P (clause : String) : Bool := decide (∃ asserts r,
    Clause.Tests (RawBindings.ofPair owner target).toBindings clause asserts r ∧ Q r ∧
      (T r ↔ asserts = true))
  have hsettles : ∀ clause ∈ preconditions, ∃ c, Clause.parse clause = .ok c ∧
      c.Settles db (RawBindings.ofPair owner target).toBindings (P clause) := by
    intro clause hmem
    by_cases hP : ∃ asserts r,
        Clause.Tests (RawBindings.ofPair owner target).toBindings clause asserts r ∧ Q r ∧
          (T r ↔ asserts = true)
    · obtain ⟨asserts, r, htest, -, hiff⟩ := id hP
      exact h.settles htest (iff_of_true (decide_eq_true hP) hiff)
    · obtain ⟨asserts, r, htest, hq⟩ := hc clause hmem
      have hnot : ¬ (T r ↔ asserts = true) := fun hiff => hP ⟨asserts, r, htest, hq, hiff⟩
      exact h.settles htest (iff_of_false (fun hp => hP (of_decide_eq_true hp)) hnot)
  have hfills : (RawBindings.ofPair owner target).toBindings.Fills
      [(RawBindings.ofPair owner target).toBindings] :=
    ⟨by simp, by simp⟩
  obtain ⟨last, hlast, hall⟩ := evaluateAll_of_settles hsettles hfills
  have hmeets : db.meets owner target preconditions = last.success := by
    simp only [meets, query, List.map_cons, List.map_nil, hlast, Except.map]
    cases hs : last.success <;> simp [QueryState.toResult, hs, QueryResult.failed]
  rw [hmeets, hall, List.all_eq_true]
  simp only [P, decide_eq_true_eq]

end FactDatabase

/-- A rule is local if its preconditions assert and deny reports about the relationship and its
agents. -/
theorem SocialRule.local_of_tests {rule : SocialRule} {owner target : String}
    (h : ∀ clause ∈ rule.preconditions, ∃ asserts r,
      Clause.Tests (RawBindings.ofPair owner target).toBindings clause asserts r ∧
        r.IsOf owner target) : rule.Local owner target := by
  intro db db' T T' hT hT' hsame
  rw [Bool.eq_iff_iff, hT.meets_iff h, hT'.meets_iff h]
  refine forall₂_congr fun clause _ => exists₂_congr fun asserts r => ?_
  refine and_congr_right fun _ => and_congr_right fun hr => ?_
  rw [hsame r hr]

end Society
