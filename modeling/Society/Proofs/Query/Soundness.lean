import Society.Proofs.Query.Candidate
import Society.Query

/-!
# What a query that succeeds has found

Evaluating a clause either leaves a state as it is or leaves rows that go on from it, and a sentence
that has been asserted holds for every row that goes on from there. So the rows of an answer extend
those of the caller, and every sentence that the query asserts holds for all of them.
-/

namespace Society

/-- The row binds what another row binds, to the same values. -/
def Bindings.Extends (r row : Bindings) : Prop :=
  ∀ name v, row.get? name = some v → r.get? name = some v

/-- The row binds the variables of a sentence, and with their values the sentence is a fact. -/
def FactDatabase.Supports (db : FactDatabase) (s : String) (r : Bindings) : Prop :=
  ∃ path, Sentence.parse s = .ok path ∧
    (∀ t ∈ path, ∀ name, t.value = .var name → (r.get? name).isSome) ∧
      (if Sentence.anyVariable path then do db.assert (← Sentence.bind s r) else db.assert s) =
        .ok true

/-- A row goes on from a state if it extends one of the state's rows. From a state without rows
every row does. -/
def QueryState.Admits (state : QueryState) (r : Bindings) : Prop :=
  state.rows = [] ∨ ∃ row ∈ state.rows, r.Extends row

/-! ## Rows that extend rows -/

namespace Bindings

theorem Extends.refl (r : Bindings) : r.Extends r := fun _ _ h => h

theorem Extends.trans {r row row' : Bindings} (h : r.Extends row) (h' : row.Extends row') :
    r.Extends row' :=
  fun name v hv => h name v (h' name v hv)

theorem extends_merge (old new : Bindings) : (old.merge new).Extends old := by
  intro name v hv
  rw [get?_merge, hv]
  rfl

theorem Extends.resolve_eq {r row : Bindings} (h : r.Extends row) {v : NodeValue}
    (hv : ∀ name, v = .var name → (row.get? name).isSome) :
    Sentence.resolve r v = Sentence.resolve row v := by
  cases v with
  | var name =>
      obtain ⟨w, hw⟩ := Option.isSome_iff_exists.mp (hv name rfl)
      rw [Sentence.resolve_of_get? hw, Sentence.resolve_of_get? (h name w hw)]
  | _ => rfl

end Bindings

/-- What holds for a row holds for every row that extends it: there is nothing left to bind. -/
theorem FactDatabase.Supports.extend {db : FactDatabase} {s : String} {row r : Bindings}
    (h : db.Supports s row) (hr : r.Extends row) : db.Supports s r := by
  obtain ⟨path, hp, hbound, hassert⟩ := h
  refine ⟨path, hp, fun t ht name hname => ?_, ?_⟩
  · obtain ⟨v, hv⟩ := Option.isSome_iff_exists.mp (hbound t ht name hname)
    simp [hr name v hv]
  · have hsub : Sentence.substitute r path = Sentence.substitute row path :=
      List.map_congr_left fun t ht => by rw [hr.resolve_eq (hbound t ht)]
    rwa [Sentence.bind_eq hp, hsub, ← Sentence.bind_eq hp]

namespace QueryState

variable {state : QueryState} {r row : Bindings}

theorem admits_of_mem (h : r ∈ state.rows) : state.Admits r :=
  .inr ⟨r, h, .refl r⟩

theorem Admits.extend (h : state.Admits row) (hr : r.Extends row) : state.Admits r := by
  rcases h with h | ⟨old, hold, hext⟩
  · exact .inl h
  · exact .inr ⟨old, hold, hr.trans hext⟩

theorem eq_of_success_ofRows {rows : List Bindings} (h : (ofRows rows).success = true) :
    rows ≠ [] ∧ ofRows rows = ⟨true, rows⟩ := by
  cases rows with
  | nil => cases h
  | cons row rows => exact ⟨by simp, rfl⟩

theorem success_toResult (state : QueryState) : state.toResult.success = state.success := by
  cases h : state.success <;> simp [toResult, h, QueryResult.failed]

/-- The state after a step: the state before, or rows that go on from it. -/
def Narrows (state next : QueryState) : Prop :=
  next = state ∨ (next.rows ≠ [] ∧ ∀ r ∈ next.rows, state.Admits r)

theorem Narrows.admits {next : QueryState} (h : state.Narrows next) (hr : next.Admits r) :
    state.Admits r := by
  rcases h with rfl | ⟨hne, hall⟩
  · exact hr
  · obtain ⟨row, hrow, hext⟩ := hr.resolve_left hne
    exact (hall row hrow).extend hext

theorem Narrows.rows_ne_nil {next : QueryState} (h : state.Narrows next) (hne : state.rows ≠ []) :
    next.rows ≠ [] := by
  rcases h with rfl | ⟨hne', -⟩
  · exact hne
  · exact hne'

end QueryState

/-! ## One clause -/

theorem bind_eq_ok {ε α β : Type} {x : Except ε α} {f : α → Except ε β} {b : β}
    (h : x >>= f = .ok b) : ∃ a, x = .ok a ∧ f a = .ok b := by
  cases x with
  | error e => cases h
  | ok a => exact ⟨a, rfl, h⟩

namespace Clause

variable {db : FactDatabase} {state next : QueryState} {s : String}

theorem parse_of_hasVariables {vars : Bool} (h : Sentence.hasVariables s = .ok vars) :
    ∃ path, Sentence.parse s = .ok path ∧ Sentence.anyVariable path = vars := by
  unfold Sentence.hasVariables at h
  cases hp : Sentence.parse s with
  | error e => rw [hp] at h; cases h
  | ok path => rw [hp] at h; exact ⟨path, rfl, Except.ok.inj h⟩

theorem mem_of_keepIf {test : Bindings → Except FactError Bool} {rows kept : List Bindings}
    (h : keepIf test rows = .ok kept) : ∀ r ∈ kept, r ∈ rows ∧ test r = .ok true := by
  induction rows generalizing kept with
  | nil => cases h; simp
  | cons row rows ih =>
      obtain ⟨keep, hkeep, h⟩ := bind_eq_ok h
      obtain ⟨rest, hrest, h⟩ := bind_eq_ok h
      obtain rfl := Except.ok.inj h
      intro r hr
      have hmem : r ∈ rest → r ∈ row :: rows ∧ test r = .ok true := fun hr =>
        ⟨List.mem_cons_of_mem _ (ih hrest r hr).1, (ih hrest r hr).2⟩
      cases keep with
      | false => exact hmem hr
      | true =>
          rcases List.mem_cons.mp hr with rfl | hr
          · exact ⟨List.mem_cons_self, hkeep⟩
          · exact hmem hr

/-- Keeping some of the rows narrows a state, if any are left. -/
theorem narrows_of_keepIf {test : Bindings → Except FactError Bool} {rows kept : List Bindings}
    (hk : keepIf test rows = .ok kept) (hs : (QueryState.ofRows kept).success = true)
    (hrows : ∀ r ∈ rows, state.Admits r) : state.Narrows (.ofRows kept) := by
  obtain ⟨hne, heq⟩ := QueryState.eq_of_success_ofRows hs
  rw [heq]
  exact .inr ⟨hne, fun r hr => hrows r (mem_of_keepIf hk r hr).1⟩

theorem admits_of_mem_candidates {path : List Segment} {r : Bindings}
    (hr : r ∈ db.candidates path state.rows) : state.Admits r := by
  obtain ⟨i, hi, θ, -, -, rfl⟩ := FactDatabase.mem_candidates.mp hr
  split at hi
  · rename_i hnil
    exact .inl (List.isEmpty_iff.mp hnil)
  · exact .inr ⟨i, hi, Bindings.extends_merge i θ⟩

theorem evaluateAssert_narrows (hdb : db.Sound) (h : evaluateAssert db state s = .ok next)
    (hs : next.success = true) :
    state.Narrows next ∧ ∀ r, next.Admits r → db.Supports s r := by
  obtain ⟨vars, hvars, h⟩ := bind_eq_ok h
  obtain ⟨path, hp, hv⟩ := parse_of_hasVariables hvars
  cases vars with
  | false =>
      obtain ⟨there, hassert, h⟩ := bind_eq_ok h
      cases there with
      | false => cases h; cases hs
      | true =>
          obtain rfl := Except.ok.inj h
          refine ⟨.inl rfl, fun r _ => ⟨path, hp, fun t ht name hname => ?_, by simp [hv, hassert]⟩⟩
          simp only [Sentence.anyVariable, List.any_eq_false] at hv
          exact absurd rfl (hname ▸ hv t ht)
  | true =>
      obtain ⟨rows, hrows, h⟩ := bind_eq_ok h
      obtain ⟨kept, hk, h⟩ := bind_eq_ok h
      obtain rfl := Except.ok.inj h
      rw [db.unifyAll_eq hdb hp hv] at hrows
      obtain rfl := Except.ok.inj hrows
      refine ⟨narrows_of_keepIf hk hs fun r hr => admits_of_mem_candidates hr, fun r hr => ?_⟩
      obtain ⟨hne, heq⟩ := QueryState.eq_of_success_ofRows hs
      rw [heq] at hr
      obtain ⟨row, hrow, hext⟩ := hr.resolve_left hne
      obtain ⟨hmem, hassert⟩ := mem_of_keepIf hk row hrow
      refine FactDatabase.Supports.extend ⟨path, hp, fun t ht name hname => ?_, ?_⟩ hext
      · exact FactDatabase.isSome_of_mem_candidates hdb hv hmem ht hname
      · rwa [if_pos hv]

theorem evaluateNot_narrows (h : evaluateNot db state s = .ok next) (hs : next.success = true) :
    state.Narrows next := by
  obtain ⟨vars, -, h⟩ := bind_eq_ok h
  cases vars with
  | false =>
      obtain ⟨there, -, h⟩ := bind_eq_ok h
      cases there with
      | false => exact .inl (Except.ok.inj h).symm
      | true => cases h; cases hs
  | true =>
      rw [if_pos rfl] at h
      split at h
      · obtain ⟨rows, -, h⟩ := bind_eq_ok h
        cases hrows : rows.isEmpty with
        | false => rw [hrows] at h; cases h; cases hs
        | true => rw [hrows] at h; exact .inl (Except.ok.inj h).symm
      · obtain ⟨kept, hk, h⟩ := bind_eq_ok h
        obtain rfl := Except.ok.inj h
        exact narrows_of_keepIf hk hs fun r hr => QueryState.admits_of_mem hr

theorem evaluateCompare_narrows {c : Comparator} {left right : String}
    (h : evaluateCompare state c left right = .ok next) (hs : next.success = true) :
    state.Narrows next := by
  obtain ⟨_, -, h⟩ := bind_eq_ok h
  obtain ⟨_, -, h⟩ := bind_eq_ok h
  obtain ⟨kept, hk, h⟩ := bind_eq_ok h
  obtain rfl := Except.ok.inj h
  exact narrows_of_keepIf hk hs fun r hr => QueryState.admits_of_mem hr

/-- A clause that succeeds narrows the state; the sentence that it asserts holds for every row that
goes on from there. -/
theorem evaluate_narrows (hdb : db.Sound) {c : Clause} (h : c.evaluate db state = .ok next)
    (hs : next.success = true) :
    state.Narrows next ∧ ∀ s, c = .assert s → ∀ r, next.Admits r → db.Supports s r := by
  cases c with
  | assert s =>
      obtain ⟨hnarrow, hsupport⟩ := evaluateAssert_narrows hdb h hs
      refine ⟨hnarrow, fun s' hs' => ?_⟩
      obtain rfl := Clause.assert.inj hs'
      exact hsupport
  | not s => exact ⟨evaluateNot_narrows h hs, by simp⟩
  | compare c left right => exact ⟨evaluateCompare_narrows h hs, by simp⟩

end Clause

/-! ## Queries -/

namespace FactDatabase

variable {db : FactDatabase}

theorem evaluateAll_narrows (hdb : db.Sound) {clauses : List String} {state last : QueryState}
    (h : db.evaluateAll state clauses = .ok last) (hs : last.success = true) :
    (state.rows ≠ [] → last.rows ≠ []) ∧
      (∀ r, last.Admits r → state.Admits r) ∧
      ∀ text ∈ clauses, ∀ s, Clause.parse text = .ok (.assert s) →
        ∀ r, last.Admits r → db.Supports s r := by
  induction clauses generalizing state with
  | nil => cases h; simp
  | cons text clauses ih =>
      obtain ⟨clause, hparse, h⟩ := bind_eq_ok h
      obtain ⟨next, hnext, h⟩ := bind_eq_ok h
      split at h
      · rename_i hsucc
        obtain ⟨hnarrow, hsupport⟩ := Clause.evaluate_narrows hdb hnext hsucc
        obtain ⟨hne, hadmits, hrest⟩ := ih h
        refine ⟨fun hrows => hne (hnarrow.rows_ne_nil hrows),
          fun r hr => hnarrow.admits (hadmits r hr), fun text' ht s hs' r hr => ?_⟩
        rcases List.mem_cons.mp ht with rfl | ht
        · rw [hparse] at hs'
          exact hsupport s (Except.ok.inj hs') r (hadmits r hr)
        · exact hrest text' ht s hs' r hr
      · rename_i hfail
        obtain rfl := Except.ok.inj h
        exact absurd hs hfail

theorem query_eq_ok {clauses : List String} {rows : List RawBindings} {result : QueryResult}
    (h : db.query clauses rows = .ok result) :
    ∃ last, db.evaluateAll ⟨true, rows.map RawBindings.toBindings⟩ clauses = .ok last ∧
      last.toResult = result := by
  unfold query at h
  cases hall : db.evaluateAll ⟨true, rows.map RawBindings.toBindings⟩ clauses with
  | error e => rw [hall] at h; cases h
  | ok last => rw [hall] at h; exact ⟨last, rfl, Except.ok.inj h⟩

/-- The rows of a query that succeeds: each extends a row of the caller, if there are any, and for
each every sentence that the query asserts holds. -/
theorem query_sound (hdb : db.Reachable) {clauses : List String} {rows : List RawBindings}
    {result : QueryResult} (h : db.query clauses rows = .ok result) (hs : result.success = true) :
    ∃ state, db.evaluateAll ⟨true, rows.map RawBindings.toBindings⟩ clauses = .ok state ∧
      result = state.toResult ∧
      (rows ≠ [] → state.rows ≠ [] ∧ ∀ r ∈ state.rows, ∃ raw ∈ rows,
        ∀ name v, raw.get? name = some v → r.get? name = some (.ofRaw v)) ∧
      ∀ r ∈ state.rows, ∀ text ∈ clauses, ∀ s, Clause.parse text = .ok (.assert s) →
        db.Supports s r := by
  obtain ⟨state, hall, rfl⟩ := query_eq_ok h
  rw [QueryState.success_toResult] at hs
  obtain ⟨hne, hadmits, hsupport⟩ := evaluateAll_narrows hdb.sound hall hs
  refine ⟨state, hall, rfl, fun hrows => ?_, fun r hr text ht s hparse =>
    hsupport text ht s hparse r (QueryState.admits_of_mem hr)⟩
  have hstart : rows.map RawBindings.toBindings ≠ [] := by simpa using hrows
  refine ⟨hne hstart, fun r hr => ?_⟩
  obtain ⟨row, hrow, hext⟩ := (hadmits r (QueryState.admits_of_mem hr)).resolve_left hstart
  obtain ⟨raw, hraw, rfl⟩ := List.mem_map.mp hrow
  refine ⟨raw, hraw, fun name v hv => hext name _ ?_⟩
  simp [RawBindings.toBindings, Dict.get?_map, hv]

/-- Of two rows of a caller, and of clauses of every kind: one row is left. -/
theorem query_sound_of_friends :
    ∃ (db : FactDatabase) (state : QueryState), db.Reachable ∧
      db.query ["?x.likes.?y", "not ?y.likes.?x", "neq ?x ?y"]
        [.ofList [("?x", .text "ann")], .ofList [("?x", .text "cat")]] = .ok state.toResult ∧
      state.toResult.success = true ∧
      state.rows = [Dict.ofList [("?x", .symbol "cat"), ("?y", .symbol "bob")]] ∧
      ∀ r ∈ state.rows, db.Supports "?x.likes.?y" r := by
  have hdb : FactDatabase.Reachable ([FactCall.insert "ann.likes.bob", .insert "bob.likes.ann",
      .insert "cat.likes.bob"].foldl (fun db c => (db.step c).2) ∅) :=
    .step _ (.step _ (.step _ .empty))
  have hquery : FactDatabase.query ([FactCall.insert "ann.likes.bob", .insert "bob.likes.ann",
      .insert "cat.likes.bob"].foldl (fun db c => (db.step c).2) ∅)
      ["?x.likes.?y", "not ?y.likes.?x", "neq ?x ?y"]
      [.ofList [("?x", .text "ann")], .ofList [("?x", .text "cat")]] =
        .ok ⟨true, [Dict.ofList [("?x", .text "cat"), ("?y", .text "bob")]]⟩ := by
    rfl
  obtain ⟨state, hall, hresult, -, hsupport⟩ := query_sound hdb hquery rfl
  have hrows : state.rows = [Dict.ofList [("?x", .symbol "cat"), ("?y", .symbol "bob")]] := by
    cases hall; rfl
  refine ⟨_, state, hdb, hresult ▸ hquery, hresult ▸ rfl, hrows, fun r hr => ?_⟩
  exact hsupport r hr "?x.likes.?y" (by simp) "?x.likes.?y" rfl

end FactDatabase

end Society
