import Society.Proofs.Query.Negation
import Society.Proofs.Sentence.Equality
import Society.Query

/-!
# Conjunctions

A clause that asserts a sentence joins the rows that solve the sentence to the rows found so far. The
solutions bind values of facts, and of those two are equal only if they are the same; so it does not
matter in which order solutions are joined, but for the order of the rows.
-/

namespace Society

namespace Bindings

/-- Every value of the row can be written in a sentence. -/
def AllWritten (row : Bindings) : Prop :=
  ∀ name v, row.get? name = some v → v.Written

/-- The rows that a clause goes on from. Where none are found yet, nothing is bound. -/
def start (rows : List Bindings) : List Bindings :=
  if rows.isEmpty then [∅] else rows

variable {row a b : Bindings}

/-! ## Agreeing on written values -/

theorem agrees_iff_eq (hb : b.AllWritten) :
    a.agrees b = true ↔ ∀ name v w, a.get? name = some v → b.get? name = some w → v = w := by
  rw [agrees_iff]
  constructor
  · intro h name v w hv hw
    exact (hb name w hw).equalTo_iff.mp (h name v w hv hw)
  · intro h name v w hv hw
    exact (hb name w hw).equalTo_iff.mpr (h name v w hv hw)

theorem agrees_comm (ha : a.AllWritten) (hb : b.AllWritten) : a.agrees b = b.agrees a := by
  rw [Bool.eq_iff_iff, agrees_iff_eq hb, agrees_iff_eq ha]
  constructor
  · intro h name v w hv hw
    exact (h name w v hw hv).symm
  · intro h name v w hv hw
    exact (h name w v hw hv).symm

theorem agrees_merge (ha : a.AllWritten) (hb : b.AllWritten) (h : row.agrees a = true) :
    (row.merge a).agrees b = (row.agrees b && a.agrees b) := by
  rw [agrees_iff_eq ha] at h
  rw [Bool.eq_iff_iff, Bool.and_eq_true, agrees_iff_eq hb, agrees_iff_eq hb, agrees_iff_eq hb]
  constructor
  · intro hm
    refine ⟨fun name v w hv hw => hm name v w (by rw [get?_merge, hv]; rfl) hw,
      fun name v w hv hw => ?_⟩
    cases hr : row.get? name with
    | none => exact hm name v w (by rw [get?_merge, hr, hv]; rfl) hw
    | some u =>
        rw [← h name u v hr hv]
        exact hm name u w (by rw [get?_merge, hr]; rfl) hw
  · rintro ⟨hrow, hab⟩ name v w hv hw
    rw [get?_merge] at hv
    rcases Option.or_eq_some_iff.mp hv with hv | ⟨-, hv⟩
    · exact hrow name v w hv hw
    · exact hab name v w hv hw

theorem merge_right_comm (hb : b.AllWritten) (h : a.agrees b = true) :
    (row.merge a).merge b = (row.merge b).merge a := by
  rw [agrees_iff_eq hb] at h
  refine Dict.ext_get? fun name => ?_
  simp only [get?_merge]
  cases row.get? name with
  | some v => rfl
  | none =>
      cases hv : a.get? name with
      | none => simp
      | some v =>
          cases hw : b.get? name with
          | none => rfl
          | some w => simp [h name v w hv hw]

/-! ## The order of joins -/

theorem join_eq (old new : List Bindings) :
    join old new = old.flatMap fun o => new.flatMap fun n =>
      if o.agrees n then [o.merge n] else [] := by
  simp only [join]
  congr 1
  funext o
  induction new with
  | nil => rfl
  | cons n new ih =>
      rw [List.flatMap_cons, ← ih, List.filter_cons]
      split <;> simp

@[simp] theorem join_nil (new : List Bindings) : join [] new = [] := rfl

@[simp] theorem join_nil_right (old : List Bindings) : join old [] = [] := by
  simp [join]

theorem join_empty_left (new : List Bindings) : join [∅] new = new := by
  have hagrees : (∅ : Bindings).agrees = fun _ => true :=
    funext fun n => agrees_iff.mpr (by simp)
  have hmerge : (∅ : Bindings).merge = id :=
    funext fun n => Dict.ext_get? fun name => by simp [get?_merge]
  have hall : new.filter (fun _ => true) = new := List.filter_eq_self.mpr fun _ _ => rfl
  simp only [join, List.flatMap_singleton, hagrees, hmerge, hall, List.map_id]

theorem join_empty_right (old : List Bindings) : join old [∅] = old := by
  have hmerge : ∀ o : Bindings, o.merge ∅ = o :=
    fun o => Dict.ext_get? fun name => by simp [get?_merge]
  have hagrees : ∀ o : Bindings, o.agrees ∅ = true :=
    fun o => agrees_iff.mpr (by simp)
  simp [join_eq, hmerge, hagrees]

theorem join_perm {old old' : List Bindings} (h : old.Perm old') (new : List Bindings) :
    (join old new).Perm (join old' new) :=
  h.flatMap_right _

/-- Of three rows that agree pairwise the first merged with the others, else none. -/
def mergeAll (row a b : Bindings) : List Bindings :=
  if row.agrees a && row.agrees b && a.agrees b then [(row.merge a).merge b] else []

theorem mergeAll_comm (ha : a.AllWritten) (hb : b.AllWritten) :
    mergeAll row a b = mergeAll row b a := by
  unfold mergeAll
  rw [agrees_comm hb ha, Bool.and_comm (row.agrees b)]
  split
  · rename_i h
    simp only [Bool.and_eq_true] at h
    rw [merge_right_comm hb h.2]
  · rfl

theorem join_join_eq {A B : List Bindings} (hA : ∀ a ∈ A, a.AllWritten) (hB : ∀ b ∈ B, b.AllWritten)
    (rows : List Bindings) :
    join (join rows A) B =
      rows.flatMap fun row => A.flatMap fun a => B.flatMap fun b => mergeAll row a b := by
  rw [join_eq, join_eq, List.flatMap_assoc]
  refine List.flatMap_congr fun row _ => ?_
  rw [List.flatMap_assoc]
  refine List.flatMap_congr fun a ha => ?_
  cases h : row.agrees a with
  | false => simp [mergeAll, h]
  | true =>
      rw [if_pos rfl, List.flatMap_singleton]
      refine List.flatMap_congr fun b hb => ?_
      rw [agrees_merge (hA a ha) (hB b hb) h, mergeAll, h, Bool.true_and]

theorem flatMap_flatMap_perm {α β γ : Type} (A : List α) (B : List β) (f : α → β → List γ) :
    (A.flatMap fun a => B.flatMap fun b => f a b).Perm (B.flatMap fun b => A.flatMap fun a => f a b) := by
  induction A with
  | nil => simp
  | cons a A ih =>
      simp only [List.flatMap_cons]
      exact (ih.append_left _).trans (List.flatMap_append_perm B _ _)

/-- It does not matter which of two lists of written rows is joined first. -/
theorem join_right_comm {A B : List Bindings} (hA : ∀ a ∈ A, a.AllWritten)
    (hB : ∀ b ∈ B, b.AllWritten) (rows : List Bindings) :
    (join (join rows A) B).Perm (join (join rows B) A) := by
  rw [join_join_eq hA hB, join_join_eq hB hA]
  refine List.Perm.flatMap_left _ fun row _ => ?_
  have hcomm : (B.flatMap fun b => A.flatMap fun a => mergeAll row b a) =
      B.flatMap fun b => A.flatMap fun a => mergeAll row a b :=
    List.flatMap_congr fun b hb => List.flatMap_congr fun a ha =>
      mergeAll_comm (hB b hb) (hA a ha)
  rw [hcomm]
  exact flatMap_flatMap_perm A B (mergeAll row)

/-- Nor in which order many lists are. -/
theorem foldl_join_perm {lists lists' : List (List Bindings)} (h : lists.Perm lists')
    (hw : ∀ A ∈ lists, ∀ a ∈ A, a.AllWritten) {rows rows' : List Bindings}
    (hrows : rows.Perm rows') : (lists.foldl join rows).Perm (lists'.foldl join rows') := by
  induction h generalizing rows rows' with
  | nil => exact hrows
  | cons A _ ih =>
      exact ih (fun B hB => hw B (List.mem_cons_of_mem _ hB)) (join_perm hrows A)
  | swap A B lists =>
      have hsame : ∀ {rows rows' : List Bindings}, rows.Perm rows' →
          (lists.foldl join rows).Perm (lists.foldl join rows') := by
        clear hrows hw
        induction lists with
        | nil => exact fun h => h
        | cons C lists ih => exact fun h => ih (join_perm h C)
      refine hsame (.trans ?_ (join_perm (join_perm hrows A) B))
      exact join_right_comm (hw B (by simp)) (hw A (by simp)) rows
  | trans hp _ ih ih' =>
      exact (ih hw hrows).trans (ih' (fun A hA => hw A (hp.mem_iff.mpr hA)) (.refl _))

theorem foldl_join_nil (lists : List (List Bindings)) : lists.foldl join [] = [] := by
  induction lists with
  | nil => rfl
  | cons A lists ih => exact ih

end Bindings

/-! ## Solutions of a path -/

namespace FactDatabase

variable {db : FactDatabase} {path : List Segment}

/-- The rows that make a path a fact: what is matched and confirmed, or nothing to bind for a path
that is a fact as it stands. -/
def solutions (db : FactDatabase) (path : List Segment) : List Bindings :=
  if Sentence.anyVariable path then (db.unifyPath path).filter (db.confirms path)
  else if db.root.holds path then [∅] else []

theorem allWritten_of_mem_unifyPath (h : db.Sound) (hv : Sentence.anyVariable path = true)
    {θ : Bindings} (hθ : θ ∈ db.unifyPath path) : θ.AllWritten :=
  fun _ _ hget => (stored_of_mem_unifyPath h hv hθ hget).1

theorem allWritten_of_mem_solutions (h : db.Sound) {θ : Bindings} (hθ : θ ∈ db.solutions path) :
    θ.AllWritten := by
  unfold solutions at hθ
  split at hθ
  · rename_i hv
    exact allWritten_of_mem_unifyPath h hv (List.mem_filter.mp hθ).1
  · split at hθ
    · obtain rfl := List.mem_singleton.mp hθ
      simp [Bindings.AllWritten]
    · cases hθ

/-- A row that agrees with a match makes the same path as the match alone. -/
theorem substitute_merge (h : db.Sound) (hv : Sentence.anyVariable path = true) {row θ : Bindings}
    (hθ : θ ∈ db.unifyPath path) (ha : row.agrees θ = true) :
    Sentence.substitute (row.merge θ) path = Sentence.substitute θ path := by
  have heq := (Bindings.agrees_iff_eq (allWritten_of_mem_unifyPath h hv hθ)).mp ha
  refine List.map_congr_left fun t ht => ?_
  cases hname : t.value with
  | var name =>
      obtain ⟨w, hw⟩ := Option.isSome_iff_exists.mp
        (((get?_of_mem_unifyPath h hv hθ).1 name).mpr ⟨t, ht, hname⟩)
      have hmerge : (row.merge θ).get? name = some w := by
        rw [Bindings.get?_merge, hw]
        cases hrow : row.get? name with
        | none => rfl
        | some v => exact congrArg some (heq name v w hrow hw)
      rw [Sentence.resolve_of_get? hmerge, Sentence.resolve_of_get? hw]
  | _ => rfl

theorem candidates_eq_join (rows : List Bindings) :
    db.candidates path rows = Bindings.join (Bindings.start rows) (db.unifyPath path) := by
  unfold candidates Bindings.start
  split
  · rw [Bindings.join_empty_left]
  · rfl

theorem filter_candidates (h : db.Sound) (hv : Sentence.anyVariable path = true)
    (rows : List Bindings) :
    (db.candidates path rows).filter (db.confirms path) =
      Bindings.join (Bindings.start rows) (db.solutions path) := by
  rw [candidates_eq_join, solutions, if_pos hv]
  simp only [Bindings.join, List.filter_flatMap, List.filter_map, List.filter_filter]
  refine List.flatMap_congr fun row _ => congrArg (List.map row.merge) ?_
  refine List.filter_congr fun θ hθ => ?_
  cases ha : row.agrees θ with
  | false => simp
  | true => simp [confirms, substitute_merge h hv hθ ha]

theorem stored_of_mem_candidates (h : db.Sound) (hproper : Sentence.Proper path)
    (hv : Sentence.anyVariable path = true) {rows : List Bindings} {r : Bindings}
    (hr : r ∈ db.candidates path rows) {t : Segment} (ht : t ∈ path) :
    (Sentence.resolve r t.value).Stored := by
  obtain ⟨row, -, θ, hθ, ha, rfl⟩ := mem_candidates.mp hr
  have hsub := List.map_inj_left.mp (substitute_merge h hv hθ ha) t ht
  rw [Segment.mk.injEq] at hsub
  rw [hsub.1]
  exact stored_resolve h hproper hv hθ ht

end FactDatabase

/-! ## Queries of assertions -/

/-- An asserted sentence with variables joins its solutions. -/
theorem Clause.evaluate_assert_join {db : FactDatabase} (h : db.Sound) {s : String}
    {path : List Segment} (hp : Sentence.parse s = .ok path)
    (hv : Sentence.anyVariable path = true) (rows : List Bindings) :
    evaluate db ⟨true, rows⟩ (.assert s) =
      .ok (.ofRows (Bindings.join (Bindings.start rows) (db.solutions path))) := by
  have hproper := Sentence.proper_of_parse hp
  rw [← db.filter_candidates h hv]
  exact evaluateAssert_eq h hp hv fun r hr t ht => db.stored_of_mem_candidates h hproper hv hr ht

namespace FactDatabase

variable {db : FactDatabase}

/-- What asserting the paths one after another leaves: the rows joined to the solutions of each. If
there are no rows and no variables, there are none in the end. -/
def conjunction (db : FactDatabase) (rows : List Bindings) (paths : List (List Segment)) :
    QueryState :=
  let found := (paths.map db.solutions).foldl Bindings.join (Bindings.start rows)
  if found.isEmpty then .failed
  else if rows.isEmpty && !paths.any Sentence.anyVariable then ⟨true, []⟩
  else ⟨true, found⟩

theorem evaluateAll_conjunction (h : db.Sound) {clauses : List String}
    {paths : List (List Segment)}
    (hparse : List.Forall₂ (fun text path => ∃ s, Clause.parse text = .ok (.assert s) ∧
      Sentence.parse s = .ok path) clauses paths) (rows : List Bindings) :
    db.evaluateAll ⟨true, rows⟩ clauses = .ok (db.conjunction rows paths) := by
  induction hparse generalizing rows with
  | nil =>
      cases rows with
      | nil => rfl
      | cons row rows => rfl
  | @cons text path clauses paths htext _ ih =>
      obtain ⟨s, hc, hp⟩ := htext
      simp only [evaluateAll, hc, bind, Except.bind]
      cases hv : Sentence.anyVariable path with
      | false =>
          rw [(Clause.evaluate_ground hp hv db _).1]
          cases hholds : db.root.holds path with
          | false =>
              have hnone : db.solutions path = [] := by simp [solutions, hv, hholds]
              simp only [conjunction, List.map_cons, List.foldl_cons, hnone,
                Bindings.join_nil_right, Bindings.foldl_join_nil]
              rfl
          | true =>
              have hone : db.solutions path = [∅] := by simp [solutions, hv, hholds]
              refine (ih rows).trans ?_
              simp only [conjunction, List.map_cons, List.foldl_cons, hone,
                Bindings.join_empty_right, List.any_cons, hv, Bool.false_or]
      | true =>
          rw [Clause.evaluate_assert_join h hp hv]
          simp only [conjunction, List.map_cons, List.foldl_cons, List.any_cons, hv, Bool.true_or,
            Bool.not_true, Bool.and_false, Bool.false_eq_true, ↓reduceIte,
            QueryState.success_ofRows]
          generalize hfound : Bindings.join (Bindings.start rows) (db.solutions path) = found
          cases found with
          | nil => simp [QueryState.ofRows, Bindings.foldl_join_nil]; rfl
          | cons row found =>
              refine (ih (row :: found)).trans ?_
              simp [conjunction, Bindings.start]

/-- The paths of a conjunction may be taken in any order. -/
theorem conjunction_perm (h : db.Sound) {paths paths' : List (List Segment)}
    (hperm : paths.Perm paths') (rows : List Bindings) :
    (db.conjunction rows paths).success = (db.conjunction rows paths').success ∧
      (db.conjunction rows paths).rows.Perm (db.conjunction rows paths').rows := by
  have hfound := Bindings.foldl_join_perm (hperm.map db.solutions)
    (fun A hA θ hθ => by
      obtain ⟨path, -, rfl⟩ := List.mem_map.mp hA
      exact allWritten_of_mem_solutions h hθ)
    (.refl (Bindings.start rows))
  have hempty := hfound.isEmpty_eq
  have hvars := hperm.any_eq (f := Sentence.anyVariable)
  unfold conjunction
  simp only [hempty, hvars]
  split
  · exact ⟨rfl, .refl _⟩
  · split
    · exact ⟨rfl, .refl _⟩
    · exact ⟨rfl, hfound⟩

/-- The clauses of a query that only asserts may be given in any order: the answer has the same rows
each time, as often as each. -/
theorem query_perm (hdb : db.Reachable) {clauses clauses' : List String}
    (hperm : clauses.Perm clauses')
    (hasserts : ∀ text ∈ clauses, ∃ s path, Clause.parse text = .ok (.assert s) ∧
      Sentence.parse s = .ok path)
    (rows : List RawBindings) :
    ∃ result result', db.query clauses rows = .ok result ∧ db.query clauses' rows = .ok result' ∧
      result.success = result'.success ∧ result.rows.Perm result'.rows := by
  choose! path hpath using fun text ht => exists_comm.mp (hasserts text ht)
  have hrun : ∀ texts : List String, (∀ text ∈ texts, text ∈ clauses) →
      db.query texts rows =
        .ok (db.conjunction (rows.map RawBindings.toBindings) (texts.map path)).toResult := by
    intro texts ht
    have hparse : List.Forall₂ (fun text path => ∃ s, Clause.parse text = .ok (.assert s) ∧
        Sentence.parse s = .ok path) texts (texts.map path) :=
      List.forall₂_map_right_iff.mpr
        (List.forall₂_same.mpr fun text hmem => hpath text (ht text hmem))
    rw [query, evaluateAll_conjunction hdb.sound hparse]
    rfl
  obtain ⟨hsuccess, hrows⟩ := conjunction_perm hdb.sound (hperm.map path)
    (rows.map RawBindings.toBindings)
  refine ⟨_, _, hrun clauses fun _ ht => ht, hrun clauses' fun _ ht => hperm.mem_iff.mpr ht, ?_⟩
  simp only [QueryState.toResult, hsuccess]
  split
  · exact ⟨rfl, hrows.map _⟩
  · exact ⟨rfl, .refl _⟩

/-- Of two clauses that share a variable: the same rows, but in another order. -/
theorem query_perm_of_friends :
    ∃ (db : FactDatabase) (first second : RawBindings), db.Reachable ∧
      db.query ["?x.likes.?y", "?z.knows.?x"] [] = .ok ⟨true, [first, second]⟩ ∧
      db.query ["?z.knows.?x", "?x.likes.?y"] [] = .ok ⟨true, [second, first]⟩ ∧
      [first, second].Perm [second, first] := by
  have hdb : FactDatabase.Reachable ([FactCall.insert "ann.likes.bob", .insert "cat.likes.bob",
      .insert "dan.knows.cat", .insert "eve.knows.ann"].foldl (fun db c => (db.step c).2) ∅) :=
    .step _ (.step _ (.step _ (.step _ .empty)))
  have hasserts : ∀ text ∈ ["?x.likes.?y", "?z.knows.?x"], ∃ s path,
      Clause.parse text = .ok (.assert s) ∧ Sentence.parse s = .ok path := by
    intro text ht
    simp only [List.mem_cons, List.not_mem_nil, or_false] at ht
    rcases ht with rfl | rfl
    · exact ⟨_, _, rfl, rfl⟩
    · exact ⟨_, _, rfl, rfl⟩
  have hquery : FactDatabase.query ([FactCall.insert "ann.likes.bob", .insert "cat.likes.bob",
      .insert "dan.knows.cat", .insert "eve.knows.ann"].foldl (fun db c => (db.step c).2) ∅)
      ["?x.likes.?y", "?z.knows.?x"] [] =
        .ok ⟨true, [.ofList [("?x", .text "ann"), ("?y", .text "bob"), ("?z", .text "eve")],
          .ofList [("?x", .text "cat"), ("?y", .text "bob"), ("?z", .text "dan")]]⟩ := by
    rfl
  have hquery' : FactDatabase.query ([FactCall.insert "ann.likes.bob", .insert "cat.likes.bob",
      .insert "dan.knows.cat", .insert "eve.knows.ann"].foldl (fun db c => (db.step c).2) ∅)
      ["?z.knows.?x", "?x.likes.?y"] [] =
        .ok ⟨true, [.ofList [("?x", .text "cat"), ("?y", .text "bob"), ("?z", .text "dan")],
          .ofList [("?x", .text "ann"), ("?y", .text "bob"), ("?z", .text "eve")]]⟩ := by
    rfl
  obtain ⟨result, result', h, h', -, hrows⟩ := query_perm hdb (.swap _ _ []) hasserts []
  rw [hquery] at h
  rw [hquery'] at h'
  obtain rfl := Except.ok.inj h
  obtain rfl := Except.ok.inj h'
  exact ⟨_, _, _, hdb, hquery, hquery', hrows⟩

end FactDatabase

end Society
