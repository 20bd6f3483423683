import Society.Proofs.Query.Assertion

/-!
# Where a negated sentence is the complement of an asserted one

A negated sentence with variables stops at the trails of its path, and an asserted one goes on to
write what they bind into the sentence. The two are complements unless there are trails and none of
them makes the sentence a fact; then both fail.
-/

namespace Society

/-- The path has variables and trails, but with what a trail binds the sentence is never a fact. -/
structure FactDatabase.Astray (db : FactDatabase) (s : String) (path : List Segment) : Prop where
  has_variable : Sentence.anyVariable path = true
  trails : db.root.children.trails path ≠ []
  refused : ∀ trail ∈ db.root.children.trails path,
    (do db.assert (← Sentence.bind s (Bindings.along ∅ path trail))) = .ok false

variable {db : FactDatabase} {s : String} {path : List Segment}

namespace FactDatabase

theorem assert_bind_of_mem (h : db.Sound) (hp : Sentence.parse s = .ok path)
    (hv : Sentence.anyVariable path = true) {θ : Bindings} (hθ : θ ∈ db.unifyPath path) :
    (do db.assert (← Sentence.bind s θ)) = .ok (db.confirms path θ) :=
  db.assert_bind hp fun _ ht => stored_resolve h (Sentence.proper_of_parse hp) hv hθ ht

theorem astray_iff (h : db.Sound) (hp : Sentence.parse s = .ok path)
    (hv : Sentence.anyVariable path = true) :
    db.Astray s path ↔
      db.unifyPath path ≠ [] ∧ ∀ θ ∈ db.unifyPath path, db.confirms path θ = false := by
  have hfound := unifyPath_eq db hv
  constructor
  · rintro ⟨-, ht, hr⟩
    refine ⟨by simpa [hfound] using ht, fun θ hθ => ?_⟩
    have hassert := assert_bind_of_mem h hp hv hθ
    rw [hfound] at hθ
    obtain ⟨trail, htrail, rfl⟩ := List.mem_map.mp hθ
    exact Except.ok.inj (hassert.symm.trans (hr trail htrail))
  · rintro ⟨hne, hr⟩
    refine ⟨hv, by simpa [hfound] using hne, fun trail htrail => ?_⟩
    have hθ : Bindings.along ∅ path trail ∈ db.unifyPath path := by
      rw [hfound]
      exact List.mem_map_of_mem htrail
    rw [assert_bind_of_mem h hp hv hθ, hr _ hθ]

end FactDatabase

namespace Clause

theorem evaluateNot_eq (h : db.Sound) (hp : Sentence.parse s = .ok path)
    (hv : Sentence.anyVariable path = true) :
    evaluateNot db ⟨true, []⟩ s =
      .ok (if (db.unifyPath path).isEmpty then ⟨true, []⟩ else .failed) := by
  have hvars : Sentence.hasVariables s = .ok true := by
    simp [Sentence.hasVariables, hp, Except.map, hv]
  simp only [evaluateNot, hvars, db.unifyAll_eq h hp hv, bind, Except.bind, ↓reduceIte,
    List.isEmpty_nil, FactDatabase.candidates]
  rfl

theorem evaluateAssert_nil_eq (h : db.Sound) (hp : Sentence.parse s = .ok path)
    (hv : Sentence.anyVariable path = true) :
    evaluateAssert db ⟨true, []⟩ s = .ok (.ofRows ((db.unifyPath path).filter (db.confirms path))) :=
  evaluateAssert_eq h hp hv fun _ hr _ ht =>
    FactDatabase.stored_resolve h (Sentence.proper_of_parse hp) hv hr ht

theorem evaluate_ground (hp : Sentence.parse s = .ok path)
    (hv : Sentence.anyVariable path = false) (db : FactDatabase) (state : QueryState) :
    evaluate db state (.assert s) = .ok (if db.root.holds path then state else .failed) ∧
      evaluate db state (.not s) = .ok (if db.root.holds path then .failed else state) := by
  have hvars : Sentence.hasVariables s = .ok false := by
    simp [Sentence.hasVariables, hp, Except.map, hv]
  have hfact : db.assert s = .ok (db.root.holds path) := by
    rw [FactDatabase.assert_eq, Sentence.parseFact_eq_ok.mpr ⟨hp, hv⟩]
  simp only [evaluate, evaluateAssert, evaluateNot, hvars, hfact, bind, Except.bind]
  exact ⟨rfl, rfl⟩

/-- A negated sentence is the complement of the asserted one, from the state that knows nothing,
exactly where the database does not lead its path astray; there both fail. In a tree without floats
that is where the path has trails but no row answers it. -/
theorem evaluate_not (hdb : db.Reachable) (hp : Sentence.parse s = .ok path) :
    ∃ asserted negated,
      evaluate db ⟨true, []⟩ (.assert s) = .ok asserted ∧
      evaluate db ⟨true, []⟩ (.not s) = .ok negated ∧
      (¬ db.Astray s path → (negated.success = true ↔ asserted.success = false)) ∧
      (db.Astray s path → negated.success = false ∧ asserted.success = false) ∧
      (db.root.FloatFree → (∀ t ∈ path, t.value.isFloat = false) →
        (db.Astray s path ↔ Sentence.anyVariable path = true ∧
          db.root.children.trails path ≠ [] ∧ ¬ ∃ θ, db.Answers path θ)) := by
  have h := hdb.sound
  cases hv : Sentence.anyVariable path with
  | false =>
      obtain ⟨ha, hn⟩ := evaluate_ground hp hv db ⟨true, []⟩
      have hnot : ¬ db.Astray s path := fun hastray => by simp [hastray.has_variable] at hv
      refine ⟨_, _, ha, hn, fun _ => ?_, fun hastray => absurd hastray hnot, fun _ _ => ?_⟩
      · cases db.root.holds path <;> simp [QueryState.failed]
      · simp [hnot]
  | true =>
      have hastray := FactDatabase.astray_iff h hp hv
      have hasserted : (QueryState.ofRows ((db.unifyPath path).filter (db.confirms path))).success =
          false ↔ ∀ θ ∈ db.unifyPath path, db.confirms path θ = false := by
        simp
      have hnegated : (if (db.unifyPath path).isEmpty then (⟨true, []⟩ : QueryState)
          else .failed).success = true ↔ db.unifyPath path = [] := by
        cases db.unifyPath path <;> simp [QueryState.failed]
      refine ⟨_, _, evaluateAssert_nil_eq h hp hv, evaluateNot_eq h hp hv, ?_, ?_, ?_⟩
      · intro hnot
        rw [hastray, Classical.not_and_iff_not_or_not, Classical.not_not] at hnot
        rw [hnegated, hasserted]
        constructor
        · rintro hnil
          simp [hnil]
        · intro hnone
          exact hnot.resolve_right fun hsome => hsome hnone
      · intro hstray
        obtain ⟨hne, hnone⟩ := hastray.mp hstray
        exact ⟨by rw [← Bool.not_eq_true, hnegated]; exact hne, hasserted.mpr hnone⟩
      · intro hfl hs
        have hanswers {θ : Bindings} :=
          FactDatabase.answers_iff (θ := θ) h hfl (Sentence.proper_of_parse hp) hv hs
        simp only [hastray, hanswers, true_and, not_exists, not_and, Bool.not_eq_true]
        rw [FactDatabase.unifyPath_eq db hv]
        simp

/-- Of a fact whose two ends differ, and a sentence that asks for equal ones: its path goes astray. -/
theorem evaluate_not_repeated_variable :
    ∃ db path, db.Reachable ∧ Sentence.parse "?x.rel.?x" = .ok path ∧ db.Astray "?x.rel.?x" path ∧
      ∃ asserted negated,
        evaluate db ⟨true, []⟩ (.assert "?x.rel.?x") = .ok asserted ∧
        evaluate db ⟨true, []⟩ (.not "?x.rel.?x") = .ok negated ∧
        negated.success = false ∧ asserted.success = false := by
  have hdb : FactDatabase.Reachable ((∅ : FactDatabase).step (.insert "a.rel.b")).2 :=
    .step _ .empty
  have hastray : ((∅ : FactDatabase).step (.insert "a.rel.b")).2.Astray "?x.rel.?x"
      [⟨.var "?x", .many⟩, ⟨.symbol "rel", .many⟩, ⟨.var "?x", .many⟩] := by
    refine (FactDatabase.astray_iff hdb.sound rfl rfl).mpr ⟨by decide, by decide⟩
  obtain ⟨asserted, negated, ha, hn, -, hfail, -⟩ := evaluate_not hdb (s := "?x.rel.?x") rfl
  exact ⟨_, _, hdb, rfl, hastray, asserted, negated, ha, hn, hfail hastray⟩

/-- Of the one fact `a.rel.b` no end is the other, but `not ?x.rel.?x` fails. -/
theorem not_is_no_complement :
    ¬ ∀ (db : FactDatabase) (s : String) (path : List Segment), db.Reachable →
      Sentence.parse s = .ok path →
      ∃ asserted negated,
        evaluate db ⟨true, []⟩ (.assert s) = .ok asserted ∧
        evaluate db ⟨true, []⟩ (.not s) = .ok negated ∧
        (negated.success = true ↔ asserted.success = false) := by
  intro h
  obtain ⟨asserted, negated, ha, hn, hiff⟩ :=
    h ((∅ : FactDatabase).step (.insert "a.rel.b")).2 "?x.rel.?x" _ (.step _ .empty) rfl
  cases ha
  cases hn
  exact absurd (hiff.mpr rfl) (by decide)

end Clause

end Society
