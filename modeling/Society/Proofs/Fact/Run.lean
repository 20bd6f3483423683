import Society.Proofs.Fact.Sound

/-!
# Runs on a database of facts

The calls that a database answers, one after the other, and the databases that they lead to. All of
these have a sound tree.
-/

namespace Society

/-- What can be asked of a database of facts. -/
inductive FactCall where
  | insert (s : String)
  | assert (s : String)
  | delete (s : String)
  | clear
deriving DecidableEq, Repr

/-- The answer to a call that is not refused. -/
inductive FactAnswer where
  | done
  | truth (value : Bool)
deriving DecidableEq, Repr

namespace FactDatabase

/-- The answer to a call, and the database after it. -/
def step (db : FactDatabase) : FactCall → Except FactError FactAnswer × FactDatabase
  | .insert s =>
    match db.insert s with
    | .ok db' => (.ok .done, db')
    | .error e => (.error e, db)
  | .assert s => ((db.assert s).map .truth, db)
  | .delete s =>
    match db.delete s with
    | .ok (db', found) => (.ok (.truth found), db')
    | .error e => (.error e, db)
  | .clear => (.ok .done, db.clear)

/-- The answers to calls in order, and the database after the last one. -/
def run (db : FactDatabase) : List FactCall → List (Except FactError FactAnswer) × FactDatabase
  | [] => ([], db)
  | c :: calls => ((db.step c).1 :: ((db.step c).2.run calls).1, ((db.step c).2.run calls).2)

/-- The databases that calls lead to, beginning with the empty one. -/
inductive Reachable : FactDatabase → Prop where
  | empty : Reachable ∅
  | step {db : FactDatabase} (c : FactCall) : Reachable db → Reachable (db.step c).2

/-- A database whose tree is sound below a root that may have many children. -/
structure Sound (db : FactDatabase) : Prop where
  value_root : db.root.value = .symbol "root"
  cardinality_root : db.root.cardinality = .many
  sound_root : db.root.Sound

end FactDatabase

namespace Sentence

theorem parseFact_eq {action : FactAction} {s : String} :
    parseFact action s =
      match parse s with
      | .error e => .error e
      | .ok path => if anyVariable path then .error (.variableInFact s action) else .ok path := by
  unfold parseFact
  cases parse s with
  | error e => rfl
  | ok path => cases h : anyVariable path <;> simp only [Bind.bind, Except.bind, h] <;> rfl

theorem parseFact_eq_ok {action : FactAction} {s : String} {path : List Segment} :
    parseFact action s = .ok path ↔ parse s = .ok path ∧ anyVariable path = false := by
  rw [parseFact_eq]
  cases parse s with
  | error e => simp
  | ok p =>
      simp only [Except.ok.injEq]
      constructor
      · intro h
        split at h
        · cases h
        · rename_i hv
          obtain rfl := Except.ok.inj h
          exact ⟨rfl, by simpa using hv⟩
      · rintro ⟨rfl, hv⟩
        simp [hv]

theorem stored_of_parseFact {action : FactAction} {s : String} {path : List Segment}
    (h : parseFact action s = .ok path) : ∀ t ∈ path, t.value.Stored ∧ t.cardinality ≠ .none := by
  obtain ⟨hp, hv⟩ := parseFact_eq_ok.mp h
  intro t ht
  obtain ⟨hw, hc⟩ := (proper_of_parse hp).written t ht
  refine ⟨⟨hw, ?_⟩, hc⟩
  simp only [anyVariable, List.any_eq_false] at hv
  simpa using hv t ht

end Sentence

namespace FactDatabase

theorem insert_eq (db : FactDatabase) (s : String) :
    db.insert s =
      match Sentence.parseFact .insert s with
      | .error e => .error e
      | .ok path =>
        match db.root.mismatch? path with
        | some symbol => .error (.cardinalityMismatch symbol s)
        | none => .ok ⟨db.root.grow path⟩ := by
  unfold insert
  cases Sentence.parseFact .insert s with
  | error e => rfl
  | ok path => cases h : db.root.mismatch? path <;> simp only [bind, Except.bind, h] <;> rfl

theorem assert_eq (db : FactDatabase) (s : String) :
    db.assert s =
      match Sentence.parseFact .assert s with
      | .error e => .error e
      | .ok path => .ok (db.root.holds path) := by
  unfold assert
  cases Sentence.parseFact .assert s <;> rfl

theorem delete_eq (db : FactDatabase) (s : String) :
    db.delete s =
      match Sentence.parseFact .delete s with
      | .error e => .error e
      | .ok path => (db.root.prune path).map fun (root, found) => (⟨root⟩, found) := by
  unfold delete
  cases Sentence.parseFact .delete s with
  | error e => rfl
  | ok path => cases h : db.root.prune path <;> simp only [bind, Except.bind, h] <;> rfl

/-! ## Every reachable tree is sound -/

theorem sound_empty : Sound ∅ :=
  ⟨rfl, rfl, FactNode.sound_leaf _ _⟩

theorem Sound.step {db : FactDatabase} (h : db.Sound) (c : FactCall) : (db.step c).2.Sound := by
  obtain ⟨hv, hc, hs⟩ := id h
  have hne : db.root.cardinality ≠ .none := by simp [hc]
  cases c with
  | insert s =>
      simp only [FactDatabase.step]
      split
      · rename_i db' hi
        rw [insert_eq] at hi
        split at hi
        · cases hi
        · rename_i path hp
          split at hi
          · cases hi
          · obtain rfl := Except.ok.inj hi
            exact ⟨by simpa using hv, by simpa using hc, hs.grow hne (Sentence.stored_of_parseFact hp)⟩
      · exact h
  | assert s => exact h
  | delete s =>
      simp only [FactDatabase.step]
      split
      · rename_i db' found hd
        rw [delete_eq] at hd
        split at hd
        · cases hd
        · rename_i path hp
          cases hr : db.root.prune path with
          | error e => rw [hr] at hd; cases hd
          | ok r =>
              rw [hr] at hd
              cases hd
              obtain ⟨hv', hc'⟩ := FactNode.prune_root hr
              exact ⟨hv'.trans hv, hc'.trans hc, hs.prune hne hr⟩
      · exact h
  | clear => exact ⟨hv, hc, FactNode.Sound.clearChildren⟩

theorem Reachable.sound {db : FactDatabase} (h : db.Reachable) : db.Sound := by
  induction h with
  | empty => exact sound_empty
  | step c _ ih => exact ih.step c

end FactDatabase

end Society
