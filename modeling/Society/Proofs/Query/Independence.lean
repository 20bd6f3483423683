import Society.Proofs.Query.Assertion
import Society.Proofs.Query.Soundness

/-!
# Rows are evaluated on their own

What a clause makes of a row does not depend on the rows beside it. So a query that begins with some
rows and some more leaves what it leaves of the first and then what it leaves of the others. It stops
early only where both stop.
-/

namespace Society

namespace QueryState

/-- The state succeeds exactly if it has rows, as all do that a clause makes of some rows. -/
def Settled (state : QueryState) : Prop :=
  state = ofRows state.rows

theorem settled_ofRows (rows : List Bindings) : (ofRows rows).Settled := by
  rw [Settled, rows_ofRows]

theorem settled_failed : failed.Settled := rfl

theorem settled_of_ne_nil {rows : List Bindings} (h : rows ≠ []) : (mk true rows).Settled := by
  cases rows with
  | nil => exact absurd rfl h
  | cons row rows => rfl

/-- The state with the rows of two states. -/
def append (first second : QueryState) : QueryState :=
  ofRows (first.rows ++ second.rows)

theorem append_failed {state : QueryState} (h : state.Settled) : state.append failed = state := by
  rw [append, failed, List.append_nil, ← h]

theorem failed_append {state : QueryState} (h : state.Settled) : failed.append state = state := by
  rw [append, failed, List.nil_append, ← h]

theorem append_of_ne_nil {rows : List Bindings} (h : rows ≠ []) (rows' : List Bindings) :
    append ⟨true, rows⟩ ⟨true, rows'⟩ = ⟨true, rows ++ rows'⟩ :=
  (settled_of_ne_nil (by simp [h])).symm

theorem append_ofRows (rows rows' : List Bindings) :
    append (ofRows rows) (ofRows rows') = ofRows (rows ++ rows') := by
  rw [append, rows_ofRows, rows_ofRows]

theorem eq_failed_of_settled {state : QueryState} (h : state.Settled)
    (hs : state.success = false) : state = failed := by
  rw [h, success_ofRows] at hs
  have hnil : state.rows = [] := by simpa using hs
  rw [h, hnil]
  rfl

theorem rows_ne_nil_of_settled {state : QueryState} (h : state.Settled)
    (hs : state.success = true) : state.rows ≠ [] ∧ state = ⟨true, state.rows⟩ := by
  rw [h] at hs
  obtain ⟨hne, heq⟩ := eq_of_success_ofRows hs
  exact ⟨hne, h.trans heq⟩

end QueryState

/-! ## One clause -/

namespace Clause

variable {db : FactDatabase} {s : String}

theorem keepIf_append {test : Bindings → Except FactError Bool} {rows rows' kept kept' : List Bindings}
    (h : keepIf test rows = .ok kept) (h' : keepIf test rows' = .ok kept') :
    keepIf test (rows ++ rows') = .ok (kept ++ kept') := by
  induction rows generalizing kept with
  | nil =>
      cases h
      exact h'
  | cons row rows ih =>
      obtain ⟨keep, hkeep, h⟩ := bind_eq_ok h
      obtain ⟨rest, hrest, h⟩ := bind_eq_ok h
      obtain rfl := Except.ok.inj h
      simp only [List.cons_append, keepIf, hkeep, ih hrest, bind, Except.bind]
      cases keep <;> rfl

theorem unifyAll_append {rows rows' found found' : List Bindings} (hne : rows ≠ [])
    (hne' : rows' ≠ []) (h : db.unifyAll rows [s] = .ok found)
    (h' : db.unifyAll rows' [s] = .ok found') :
    db.unifyAll (rows ++ rows') [s] = .ok (found ++ found') := by
  cases hu : db.unify s with
  | error e => simp [FactDatabase.unifyAll, FactDatabase.narrow, hu, Except.map, bind, Except.bind] at h
  | ok matched =>
      have hall : ∀ {rows : List Bindings}, rows ≠ [] → db.unifyAll rows [s] =
          .ok ((Bindings.join rows matched).filter fun row => !row.isEmpty) := by
        intro rows hne
        simp [FactDatabase.unifyAll, FactDatabase.narrow, hu, hne, Except.map]
      rw [hall hne] at h
      rw [hall hne'] at h'
      obtain rfl := Except.ok.inj h
      obtain rfl := Except.ok.inj h'
      rw [hall (by simp [hne]), Bindings.join, List.flatMap_append, List.filter_append]
      rfl

/-- A test that keeps all rows or none is made of each row on its own. -/
theorem append_ite (b : Bool) {rows : List Bindings} (hne : rows ≠ []) (rows' : List Bindings) :
    (if b then (⟨true, rows ++ rows'⟩ : QueryState) else .failed) =
      QueryState.append (if b then ⟨true, rows⟩ else .failed) (if b then ⟨true, rows'⟩ else .failed) := by
  cases b with
  | false => rfl
  | true => exact (QueryState.append_of_ne_nil hne rows').symm

theorem settled_ite (b : Bool) {rows : List Bindings} (hne : rows ≠ []) :
    (if b then (⟨true, rows⟩ : QueryState) else .failed).Settled := by
  cases b with
  | false => exact QueryState.settled_failed
  | true => exact QueryState.settled_of_ne_nil hne

section

variable {rows rows' : List Bindings} {next next' : QueryState}

theorem evaluateAssert_append (hne : rows ≠ []) (hne' : rows' ≠ [])
    (h : evaluateAssert db ⟨true, rows⟩ s = .ok next)
    (h' : evaluateAssert db ⟨true, rows'⟩ s = .ok next') :
    evaluateAssert db ⟨true, rows ++ rows'⟩ s = .ok (next.append next') ∧ next.Settled := by
  obtain ⟨vars, hvars, h⟩ := bind_eq_ok h
  obtain ⟨_, hvars', h'⟩ := bind_eq_ok h'
  obtain rfl := Except.ok.inj (hvars.symm.trans hvars')
  cases vars with
  | false =>
      obtain ⟨there, hassert, h⟩ := bind_eq_ok h
      obtain ⟨_, hassert', h'⟩ := bind_eq_ok h'
      obtain rfl := Except.ok.inj (hassert.symm.trans hassert')
      obtain rfl := Except.ok.inj h
      obtain rfl := Except.ok.inj h'
      simp only [evaluateAssert, hvars, hassert, bind, Except.bind]
      exact ⟨congrArg Except.ok (append_ite there hne rows'), settled_ite there hne⟩
  | true =>
      obtain ⟨found, hfound, h⟩ := bind_eq_ok h
      obtain ⟨kept, hkept, h⟩ := bind_eq_ok h
      obtain ⟨found', hfound', h'⟩ := bind_eq_ok h'
      obtain ⟨kept', hkept', h'⟩ := bind_eq_ok h'
      obtain rfl := Except.ok.inj h
      obtain rfl := Except.ok.inj h'
      have hkeep := keepIf_append hkept hkept'
      simp only [bind, Except.bind] at hkeep
      simp only [evaluateAssert, hvars, unifyAll_append hne hne' hfound hfound', hkeep, bind,
        Except.bind, ↓reduceIte, QueryState.append_ofRows]
      exact ⟨rfl, QueryState.settled_ofRows kept⟩

theorem evaluateNot_append (hne : rows ≠ []) (hne' : rows' ≠ [])
    (h : evaluateNot db ⟨true, rows⟩ s = .ok next)
    (h' : evaluateNot db ⟨true, rows'⟩ s = .ok next') :
    evaluateNot db ⟨true, rows ++ rows'⟩ s = .ok (next.append next') ∧ next.Settled := by
  obtain ⟨vars, hvars, h⟩ := bind_eq_ok h
  obtain ⟨_, hvars', h'⟩ := bind_eq_ok h'
  obtain rfl := Except.ok.inj (hvars.symm.trans hvars')
  cases vars with
  | false =>
      obtain ⟨there, hassert, h⟩ := bind_eq_ok h
      obtain ⟨_, hassert', h'⟩ := bind_eq_ok h'
      obtain rfl := Except.ok.inj (hassert.symm.trans hassert')
      obtain rfl := Except.ok.inj h
      obtain rfl := Except.ok.inj h'
      simp only [evaluateNot, hvars, hassert, bind, Except.bind]
      have happend := append_ite (!there) hne rows'
      have hsettled := settled_ite (!there) hne
      cases there with
      | false => exact ⟨congrArg Except.ok happend, hsettled⟩
      | true => exact ⟨congrArg Except.ok happend, hsettled⟩
  | true =>
      have hsome : rows.isEmpty = false := by simpa using hne
      have hsome' : rows'.isEmpty = false := by simpa using hne'
      have hboth : (rows ++ rows').isEmpty = false := by simp [hne]
      simp only [hsome, hsome', ↓reduceIte, Bool.false_eq_true] at h h'
      obtain ⟨kept, hkept, h⟩ := bind_eq_ok h
      obtain ⟨kept', hkept', h'⟩ := bind_eq_ok h'
      obtain rfl := Except.ok.inj h
      obtain rfl := Except.ok.inj h'
      have hkeep := keepIf_append hkept hkept'
      simp only [bind, Except.bind] at hkeep
      simp only [evaluateNot, hvars, hboth, hkeep, bind, Except.bind, ↓reduceIte,
        Bool.false_eq_true, QueryState.append_ofRows]
      exact ⟨rfl, QueryState.settled_ofRows kept⟩

theorem evaluateCompare_append {c : Comparator} {left right : String}
    (h : evaluateCompare ⟨true, rows⟩ c left right = .ok next)
    (h' : evaluateCompare ⟨true, rows'⟩ c left right = .ok next') :
    evaluateCompare ⟨true, rows ++ rows'⟩ c left right = .ok (next.append next') ∧
      next.Settled := by
  obtain ⟨l, hl, h⟩ := bind_eq_ok h
  obtain ⟨_, hl', h'⟩ := bind_eq_ok h'
  obtain rfl := Except.ok.inj (hl.symm.trans hl')
  obtain ⟨r, hr, h⟩ := bind_eq_ok h
  obtain ⟨_, hr', h'⟩ := bind_eq_ok h'
  obtain rfl := Except.ok.inj (hr.symm.trans hr')
  obtain ⟨kept, hkept, h⟩ := bind_eq_ok h
  obtain ⟨kept', hkept', h'⟩ := bind_eq_ok h'
  obtain rfl := Except.ok.inj h
  obtain rfl := Except.ok.inj h'
  simp only [evaluateCompare, hl, hr, keepIf_append hkept hkept', bind, Except.bind,
    QueryState.append_ofRows]
  exact ⟨rfl, QueryState.settled_ofRows kept⟩

/-- What a clause makes of some rows and some more is what it makes of the first and then what it
makes of the others. -/
theorem evaluate_append {c : Clause} (hne : rows ≠ []) (hne' : rows' ≠ [])
    (h : c.evaluate db ⟨true, rows⟩ = .ok next) (h' : c.evaluate db ⟨true, rows'⟩ = .ok next') :
    c.evaluate db ⟨true, rows ++ rows'⟩ = .ok (next.append next') ∧ next.Settled := by
  cases c with
  | assert s => exact evaluateAssert_append hne hne' h h'
  | not s => exact evaluateNot_append hne hne' h h'
  | compare c left right => exact evaluateCompare_append h h'

theorem evaluate_settled {c : Clause} (hne : rows ≠ [])
    (h : c.evaluate db ⟨true, rows⟩ = .ok next) : next.Settled :=
  (evaluate_append hne hne h h).2

end

end Clause

/-! ## Queries -/

namespace FactDatabase

variable {db : FactDatabase} {clauses : List String}

theorem evaluateAll_settled {rows : List Bindings} {last : QueryState} (hne : rows ≠ [])
    (h : db.evaluateAll ⟨true, rows⟩ clauses = .ok last) : last.Settled := by
  induction clauses generalizing rows with
  | nil =>
      cases h
      exact QueryState.settled_of_ne_nil hne
  | cons text clauses ih =>
      obtain ⟨c, -, h⟩ := bind_eq_ok h
      obtain ⟨next, hnext, h⟩ := bind_eq_ok h
      have hsettled := Clause.evaluate_settled hne hnext
      cases hs : next.success with
      | false =>
          rw [hs] at h
          cases h
          exact hsettled
      | true =>
          obtain ⟨hsome, heq⟩ := QueryState.rows_ne_nil_of_settled hsettled hs
          rw [hs, heq] at h
          exact ih hsome h

/-- While one part of the rows is left, the clauses go on with that part alone. -/
theorem evaluateAll_append {rows rows' : List Bindings} {last last' : QueryState} (hne : rows ≠ [])
    (hne' : rows' ≠ []) (h : db.evaluateAll ⟨true, rows⟩ clauses = .ok last)
    (h' : db.evaluateAll ⟨true, rows'⟩ clauses = .ok last') :
    db.evaluateAll ⟨true, rows ++ rows'⟩ clauses = .ok (last.append last') := by
  induction clauses generalizing rows rows' with
  | nil =>
      cases h
      cases h'
      rw [QueryState.append_of_ne_nil hne]
      rfl
  | cons text clauses ih =>
      have hsettled := evaluateAll_settled hne h
      have hsettled' := evaluateAll_settled hne' h'
      obtain ⟨c, hc, h⟩ := bind_eq_ok h
      obtain ⟨_, hc', h'⟩ := bind_eq_ok h'
      obtain rfl := Except.ok.inj (hc.symm.trans hc')
      obtain ⟨next, hnext, h⟩ := bind_eq_ok h
      obtain ⟨next', hnext', h'⟩ := bind_eq_ok h'
      have hboth := (Clause.evaluate_append hne hne' hnext hnext').1
      have hstep := Clause.evaluate_settled hne hnext
      have hstep' := Clause.evaluate_settled hne' hnext'
      simp only [evaluateAll, hc, hboth, bind, Except.bind]
      cases hs : next.success with
      | false =>
          rw [hs] at h
          obtain rfl := Except.ok.inj h
          obtain rfl := QueryState.eq_failed_of_settled hstep hs
          rw [QueryState.failed_append hstep', QueryState.failed_append hsettled']
          exact h'
      | true =>
          obtain ⟨hsome, heq⟩ := QueryState.rows_ne_nil_of_settled hstep hs
          cases hs' : next'.success with
          | false =>
              rw [hs'] at h'
              obtain rfl := Except.ok.inj h'
              obtain rfl := QueryState.eq_failed_of_settled hstep' hs'
              rw [QueryState.append_failed hstep, QueryState.append_failed hsettled]
              exact h
          | true =>
              obtain ⟨hsome', heq'⟩ := QueryState.rows_ne_nil_of_settled hstep' hs'
              rw [hs, heq] at h
              rw [hs', heq'] at h'
              rw [heq, heq', QueryState.append_of_ne_nil hsome]
              exact ih hsome hsome' h h'

theorem toResult_append {first second : QueryState} (h : first.Settled) (h' : second.Settled) :
    (first.append second).toResult =
      ⟨first.toResult.success || second.toResult.success,
        first.toResult.rows ++ second.toResult.rows⟩ := by
  rw [h, h', QueryState.append_ofRows]
  cases first.rows <;> cases second.rows <;>
    simp [QueryState.toResult, QueryState.ofRows, QueryState.failed, QueryResult.failed]

/-- Where a query answers for two lists of rows, it answers for the one behind the other, with the
two answers one behind the other. -/
theorem query_append {rows rows' : List RawBindings} (hne : rows ≠ []) (hne' : rows' ≠ [])
    {result result' : QueryResult} (h : db.query clauses rows = .ok result)
    (h' : db.query clauses rows' = .ok result') :
    db.query clauses (rows ++ rows') =
      .ok ⟨result.success || result'.success, result.rows ++ result'.rows⟩ := by
  have hstart : rows.map RawBindings.toBindings ≠ [] := by simpa using hne
  have hstart' : rows'.map RawBindings.toBindings ≠ [] := by simpa using hne'
  obtain ⟨last, hlast, rfl⟩ := query_eq_ok h
  obtain ⟨last', hlast', rfl⟩ := query_eq_ok h'
  rw [query, List.map_append, evaluateAll_append hstart hstart' hlast hlast', Except.map,
    toResult_append (evaluateAll_settled hstart hlast) (evaluateAll_settled hstart' hlast')]

/-- Of a row that is given up at the second clause and one that passes all three. -/
theorem query_append_of_friends :
    ∃ (db : FactDatabase) (answer : RawBindings),
      db.query ["?x.likes.?y", "not ?y.likes.?x", "neq ?x ?y"] [.ofList [("?x", .text "ann")]] =
        .ok ⟨false, []⟩ ∧
      db.query ["?x.likes.?y", "not ?y.likes.?x", "neq ?x ?y"] [.ofList [("?x", .text "cat")]] =
        .ok ⟨true, [answer]⟩ ∧
      db.query ["?x.likes.?y", "not ?y.likes.?x", "neq ?x ?y"]
        [.ofList [("?x", .text "ann")], .ofList [("?x", .text "cat")]] = .ok ⟨true, [answer]⟩ := by
  have hleft : FactDatabase.query ([FactCall.insert "ann.likes.bob", .insert "bob.likes.ann",
      .insert "cat.likes.bob"].foldl (fun db c => (db.step c).2) ∅)
      ["?x.likes.?y", "not ?y.likes.?x", "neq ?x ?y"] [.ofList [("?x", .text "ann")]] =
        .ok ⟨false, []⟩ := by
    rfl
  have hright : FactDatabase.query ([FactCall.insert "ann.likes.bob", .insert "bob.likes.ann",
      .insert "cat.likes.bob"].foldl (fun db c => (db.step c).2) ∅)
      ["?x.likes.?y", "not ?y.likes.?x", "neq ?x ?y"] [.ofList [("?x", .text "cat")]] =
        .ok ⟨true, [.ofList [("?x", .text "cat"), ("?y", .text "bob")]]⟩ := by
    rfl
  exact ⟨_, _, hleft, hright, query_append (by simp) (by simp) hleft hright⟩

end FactDatabase

end Society
