import Society.Proofs.Fact.Run
import Society.Proofs.Query.Soundness
import Society.Proofs.Sentence.Equality

/-!
# Unifying sentence after sentence

The rows of each sentence are joined to those that are left of the sentences before, and where none
are left they are taken as they are. So what comes out is a join of all sentences exactly as long as
something is left after each of them; where nothing is, it starts over with the sentences behind.
-/

namespace Society

/-- The row binds what another row binds, to equal values. -/
def Bindings.Includes (r row : Bindings) : Prop :=
  ∀ name v, row.get? name = some v → ∃ w, r.get? name = some w ∧ w.equalTo v = true

/-- A row goes on from a row of each sentence, and from one of those that were there before, if there
were any. -/
structure FactDatabase.Joins (db : FactDatabase) (rows : List Bindings) (sentences : List String)
    (r : Bindings) : Prop where
  includes : ∀ s ∈ sentences, ∃ found, db.unify s = .ok found ∧ ∃ θ ∈ found, r.Includes θ
  extends_row : rows = [] ∨ ∃ row ∈ rows, r.Extends row

namespace FactDatabase

variable {db : FactDatabase} {rows : List Bindings} {sentences : List String} {s : String}
  {path : List Segment} {r : Bindings}

/-- Something is left after each sentence. -/
def Lasts (db : FactDatabase) (rows : List Bindings) (sentences : List String) : Prop :=
  ∀ front, front <+: sentences → front ≠ [] → db.unifyAll rows front ≠ .ok []

/-! ## One sentence -/

theorem unify_eq (hp : Sentence.parse s = .ok path) : db.unify s = .ok (db.unifyPath path) := by
  rw [unify, hp, Except.map]

theorem unifyAll_cons (hp : Sentence.parse s = .ok path) (rows : List Bindings)
    (sentences : List String) :
    db.unifyAll rows (s :: sentences) = db.unifyAll (db.candidates path rows) sentences := by
  simp only [unifyAll, List.foldlM_cons, narrow, unify_eq hp, candidates]
  rfl

/-- A matched row is included only with its very values. -/
theorem extends_of_includes (h : db.Sound) (hv : Sentence.anyVariable path = true) {θ : Bindings}
    (hθ : θ ∈ db.unifyPath path) (hr : r.Includes θ) : r.Extends θ := by
  intro name v hget
  obtain ⟨w, hw, hequal⟩ := hr name v hget
  rw [hw, (stored_of_mem_unifyPath h hv hθ hget).1.equalTo_iff.mp hequal]

/-- A candidate includes the match that it was made of. -/
theorem includes_of_mem_candidates (h : db.Sound) (hv : Sentence.anyVariable path = true)
    (hr : r ∈ db.candidates path rows) : ∃ θ ∈ db.unifyPath path, r.Includes θ := by
  obtain ⟨row, -, θ, hθ, hagrees, rfl⟩ := mem_candidates.mp hr
  refine ⟨θ, hθ, fun name v hget => ?_⟩
  rw [Bindings.get?_merge]
  cases hrow : row.get? name with
  | some w => exact ⟨w, rfl, Bindings.agrees_iff.mp hagrees name w v hrow hget⟩
  | none =>
      exact ⟨v, by rw [hget]; rfl, (stored_of_mem_unifyPath h hv hθ hget).1.equalTo_iff.mpr rfl⟩

/-- What includes a match and goes on from a row goes on from a candidate made of the two. -/
theorem exists_candidate (h : db.Sound) (hv : Sentence.anyVariable path = true) {θ : Bindings}
    (hθ : θ ∈ db.unifyPath path) (hr : r.Includes θ)
    (hrow : rows = [] ∨ ∃ row ∈ rows, r.Extends row) :
    ∃ row ∈ db.candidates path rows, r.Extends row := by
  rcases hrow with rfl | ⟨row, hmem, hrow⟩
  · exact ⟨θ, hθ, extends_of_includes h hv hθ hr⟩
  · refine ⟨row.merge θ, mem_candidates.mpr ⟨row, ?_, θ, hθ, ?_, rfl⟩, fun name v hget => ?_⟩
    · rwa [if_neg (by simpa using List.ne_nil_of_mem hmem)]
    · refine Bindings.agrees_iff.mpr fun name v w hv hw => ?_
      obtain ⟨v', hv', hequal⟩ := hr name w hw
      rwa [Option.some.inj ((hrow name v hv).symm.trans hv')]
    · rw [Bindings.get?_merge] at hget
      rcases Option.or_eq_some_iff.mp hget with hget | ⟨-, hget⟩
      · exact hrow name v hget
      · exact extends_of_includes h hv hθ hr name v hget

/-! ## Sentence after sentence -/

theorem lasts_cons (h : db.Sound) (hp : Sentence.parse s = .ok path)
    (hv : Sentence.anyVariable path = true) :
    db.Lasts rows (s :: sentences) ↔
      db.candidates path rows ≠ [] ∧ db.Lasts (db.candidates path rows) sentences := by
  constructor
  · intro hlast
    constructor
    · intro hnil
      refine hlast [s] (List.prefix_cons_iff.mpr (.inr ⟨[], rfl, List.nil_prefix⟩)) (by simp) ?_
      rw [unifyAll_eq h hp hv, hnil]
    · intro front hfront hne
      rw [← unifyAll_cons hp]
      exact hlast (s :: front) (List.cons_prefix_cons.mpr ⟨rfl, hfront⟩) (by simp)
  · rintro ⟨hne, hlast⟩ front hfront hfne
    obtain rfl | ⟨rest, rfl, hrest⟩ := List.prefix_cons_iff.mp hfront
    · exact absurd rfl hfne
    · by_cases hnil : rest = []
      · rw [hnil, unifyAll_eq h hp hv]
        simpa using hne
      · rw [unifyAll_cons hp]
        exact hlast rest hrest hnil

theorem Joins.cons (h : db.Sound) (hp : Sentence.parse s = .ok path)
    (hv : Sentence.anyVariable path = true) (hne : db.candidates path rows ≠ [])
    (hr : db.Joins (db.candidates path rows) sentences r) : db.Joins rows (s :: sentences) r := by
  obtain ⟨row, hrow, hext⟩ := hr.extends_row.resolve_left hne
  refine ⟨List.forall_mem_cons.mpr ⟨⟨_, unify_eq hp, ?_⟩, hr.includes⟩, ?_⟩
  · obtain ⟨θ, hθ, hinc⟩ := includes_of_mem_candidates h hv hrow
    refine ⟨θ, hθ, fun name v hget => ?_⟩
    obtain ⟨w, hw, hequal⟩ := hinc name v hget
    exact ⟨w, hext name w hw, hequal⟩
  · have hadmits : (QueryState.mk true rows).Admits row := Clause.admits_of_mem_candidates hrow
    exact hadmits.extend hext

theorem Joins.tail (h : db.Sound) (hp : Sentence.parse s = .ok path)
    (hv : Sentence.anyVariable path = true) (hr : db.Joins rows (s :: sentences) r) :
    db.candidates path rows ≠ [] ∧ db.Joins (db.candidates path rows) sentences r := by
  obtain ⟨⟨found, hfound, θ, hθ, hinc⟩, hrest⟩ := List.forall_mem_cons.mp hr.includes
  rw [unify_eq hp] at hfound
  obtain rfl := Except.ok.inj hfound
  obtain ⟨row, hrow, hext⟩ := exists_candidate h hv hθ hinc hr.extends_row
  exact ⟨List.ne_nil_of_mem hrow, hrest, .inr ⟨row, hrow, hext⟩⟩

/-- Where something is left after each sentence, every row that comes out is a join of all. -/
theorem Lasts.joins (h : db.Sound) (hs : ∀ s ∈ sentences, Sentence.hasVariables s = .ok true)
    (hlast : db.Lasts rows sentences) {found : List Bindings}
    (hfound : db.unifyAll rows sentences = .ok found) (hr : r ∈ found) :
    db.Joins rows sentences r := by
  induction sentences generalizing rows with
  | nil =>
      obtain rfl := Except.ok.inj hfound
      exact ⟨by simp, .inr ⟨r, List.mem_of_mem_filter hr, .refl r⟩⟩
  | cons s sentences ih =>
      obtain ⟨hs, hrest⟩ := List.forall_mem_cons.mp hs
      obtain ⟨path, hp, hv⟩ := Clause.parse_of_hasVariables hs
      obtain ⟨hne, hlast⟩ := (lasts_cons h hp hv).mp hlast
      rw [unifyAll_cons hp] at hfound
      exact .cons h hp hv hne (ih hrest hlast hfound)

/-- A row that is a join of all is left, in part, after each sentence. -/
theorem lasts_of_joins (h : db.Sound) (hs : ∀ s ∈ sentences, Sentence.hasVariables s = .ok true)
    (hr : db.Joins rows sentences r) : db.Lasts rows sentences := by
  induction sentences generalizing rows with
  | nil => exact fun front hfront hne => absurd (List.prefix_nil.mp hfront) hne
  | cons s sentences ih =>
      obtain ⟨hs, hrest⟩ := List.forall_mem_cons.mp hs
      obtain ⟨path, hp, hv⟩ := Clause.parse_of_hasVariables hs
      obtain ⟨hne, hr⟩ := hr.tail h hp hv
      exact (lasts_cons h hp hv).mpr ⟨hne, ih hrest hr⟩

theorem exists_unifyAll (hs : ∀ s ∈ sentences, Sentence.hasVariables s = .ok true)
    (db : FactDatabase) (rows : List Bindings) : ∃ found, db.unifyAll rows sentences = .ok found := by
  induction sentences generalizing rows with
  | nil => exact ⟨_, rfl⟩
  | cons s sentences ih =>
      obtain ⟨hs, hrest⟩ := List.forall_mem_cons.mp hs
      obtain ⟨path, hp, -⟩ := Clause.parse_of_hasVariables hs
      rw [unifyAll_cons hp]
      exact ih hrest _

/-- Where nothing is left, the sentences behind are unified as if there were no others. -/
theorem unifyAll_append_of_nil (h : db.Sound) {front rest : List String}
    (hs : ∀ s ∈ front, Sentence.hasVariables s = .ok true) (hne : front ≠ [])
    (hnil : db.unifyAll rows front = .ok []) :
    db.unifyAll rows (front ++ rest) = db.unifyAll [] rest := by
  induction front generalizing rows with
  | nil => exact absurd rfl hne
  | cons s front ih =>
      obtain ⟨hs, hrest⟩ := List.forall_mem_cons.mp hs
      obtain ⟨path, hp, hv⟩ := Clause.parse_of_hasVariables hs
      rw [List.cons_append, unifyAll_cons hp]
      by_cases hfront : front = []
      · subst hfront
        rw [unifyAll_eq h hp hv] at hnil
        rw [Except.ok.inj hnil, List.nil_append]
      · rw [unifyAll_cons hp] at hnil
        exact ih hrest hfront hnil

/-- Unifying sentences that have variables always gives an answer. Its rows are joins of all
sentences, and of the rows that were there before, exactly if there are none or something is left
after each of the sentences. Where nothing is left after some of them, the others are unified as if
they were all. -/
theorem unifyAll_joins (hdb : db.Reachable)
    (hs : ∀ s ∈ sentences, Sentence.hasVariables s = .ok true) (rows : List Bindings) :
    ∃ found, db.unifyAll rows sentences = .ok found ∧
      ((∀ r ∈ found, db.Joins rows sentences r) ↔
        found = [] ∨ db.Lasts rows sentences) ∧
      ∀ front rest, sentences = front ++ rest → front ≠ [] → db.unifyAll rows front = .ok [] →
        db.unifyAll rows sentences = db.unifyAll [] rest := by
  have h := hdb.sound
  obtain ⟨found, hfound⟩ := exists_unifyAll hs db rows
  refine ⟨found, hfound, ⟨fun hall => ?_, ?_⟩, ?_⟩
  · rcases List.eq_nil_or_concat found with hnil | ⟨init, r, rfl⟩
    · exact .inl hnil
    · exact .inr (lasts_of_joins h hs (hall r (by simp)))
  · rintro (rfl | hlast) r hr
    · cases hr
    · exact Lasts.joins h hs hlast hfound hr
  · rintro front rest rfl hne hnil
    exact unifyAll_append_of_nil h (fun s hs' => hs s (List.mem_append_left _ hs')) hne hnil

/-- Whom ann likes and whom those like: the rows of both sentences are joined. -/
theorem unifyAll_joins_of_friends :
    ∃ db : FactDatabase, db.Reachable ∧
      (∀ s ∈ ["ann.likes.?x", "?x.likes.?y"], Sentence.hasVariables s = .ok true) ∧
      ∃ found, db.unifyAll [] ["ann.likes.?x", "?x.likes.?y"] = .ok found ∧
        found = [((∅ : Bindings).insert "?x" (.symbol "bob")).insert "?y" (.symbol "cat")] ∧
        ∀ r ∈ found, db.Joins [] ["ann.likes.?x", "?x.likes.?y"] r := by
  have hdb : FactDatabase.Reachable ((((∅ : FactDatabase).step (.insert "ann.likes.bob")).2.step
      (.insert "bob.likes.cat")).2.step (.insert "ann.likes.dan")).2 :=
    .step _ (.step _ (.step _ .empty))
  have hs : ∀ s ∈ ["ann.likes.?x", "?x.likes.?y"], Sentence.hasVariables s = .ok true := by
    simp only [List.forall_mem_cons]
    exact ⟨rfl, rfl, by simp⟩
  obtain ⟨found, hfound, hjoins, -⟩ := unifyAll_joins hdb hs []
  refine ⟨_, hdb, hs, found, hfound, by cases hfound; rfl,
    hjoins.mpr (.inr fun front hfront hne => ?_)⟩
  obtain rfl | ⟨rest, rfl, hrest⟩ := List.prefix_cons_iff.mp hfront
  · exact absurd rfl hne
  · obtain rfl | ⟨last, rfl, hlast⟩ := List.prefix_cons_iff.mp hrest
    · intro hnil; cases hnil
    · obtain rfl := List.prefix_nil.mp hlast
      intro hnil; cases hnil

/-- Nobody likes a cat, and that is forgotten: who likes a dog comes out all the same. -/
theorem unifyAll_forgets_a_sentence :
    ∃ db : FactDatabase, db.Reachable ∧
      (∀ s ∈ ["?x.likes.cat", "?x.likes.dog"], Sentence.hasVariables s = .ok true) ∧
      ∃ r, db.unifyAll [] ["?x.likes.cat", "?x.likes.dog"] = .ok [r] ∧
        db.unify "?x.likes.cat" = .ok [] ∧ ¬ db.Joins [] ["?x.likes.cat", "?x.likes.dog"] r := by
  refine ⟨((∅ : FactDatabase).step (.insert "ann.likes.dog")).2, .step _ .empty, ?_,
    (∅ : Bindings).insert "?x" (.symbol "ann"), rfl, rfl, fun hjoins => ?_⟩
  · simp only [List.forall_mem_cons]
    exact ⟨rfl, rfl, by simp⟩
  · obtain ⟨found, hfound, θ, hθ, -⟩ := hjoins.includes "?x.likes.cat" List.mem_cons_self
    cases hfound
    cases hθ

end FactDatabase

end Society
