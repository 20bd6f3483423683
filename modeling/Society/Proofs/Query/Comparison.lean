import Society.Proofs.Query.Independence
import Society.Proofs.Sentence.Equality

/-!
# Comparisons and the rows of an answer

A comparison is made with what a row binds when its turn comes. Later clauses bind more, but change
nothing that is bound. So the comparison holds for the rows of the answer as well, but for one case:
a variable that is not bound yet differs from every value, and `neq` lets it pass; the value that it
takes later may be the one that it was compared with.
-/

namespace Society

/-! ## Values that rows bind -/

/-- A value that is no variable and is equal to itself. -/
def NodeValue.Definite (v : NodeValue) : Prop :=
  v.isVariable = false ∧ v.equalTo v = true

/-- A row that binds definite values only. -/
def Bindings.Definite (row : Bindings) : Prop :=
  ∀ name v, row.get? name = some v → v.Definite

namespace NodeValue

theorem Stored.definite {v : NodeValue} (h : v.Stored) : v.Definite :=
  ⟨h.2, h.1.equalTo_iff.mpr rfl⟩

theorem definite_ofFloat {x : Float} (hx : x.isFinite = true) : (ofFloat x).Definite := by
  unfold ofFloat
  split
  · split
    · exact ⟨rfl, by simp [equalTo]⟩
    · exact ⟨rfl, Decimal.beq_self hx⟩
  · exact ⟨rfl, Decimal.beq_self hx⟩

theorem definite_of_number? {cs : List Char} {v : NodeValue} (h : number? cs = some v) :
    v.Definite := by
  unfold number? at h
  split at h
  · cases h
    exact ⟨rfl, by simp [equalTo]⟩
  · obtain ⟨x, hx, rfl⟩ := Option.map_eq_some_iff.mp h
    exact definite_ofFloat (Option.filter_eq_some_iff.mp hx).2

/-- What a caller binds is never a variable, whatever its text, and a NaN becomes a symbol. -/
theorem definite_ofRaw (r : RawValue) : (ofRaw r).Definite := by
  cases r with
  | int i => exact ⟨rfl, by simp [ofRaw, equalTo]⟩
  | float x =>
      simp only [ofRaw]
      split
      · rename_i hx; exact definite_ofFloat hx
      · exact ⟨rfl, by simp [equalTo]⟩
  | text s =>
      simp only [ofRaw]
      cases hn : number? (Text.trim s.toList) with
      | none => exact ⟨rfl, by simp [equalTo]⟩
      | some v => exact definite_of_number? hn

end NodeValue

namespace Bindings

variable {row new : Bindings}

theorem definite_toBindings (raw : RawBindings) : (RawBindings.toBindings raw).Definite := by
  intro name v hv
  rw [RawBindings.toBindings, Dict.get?_map] at hv
  obtain ⟨r, -, rfl⟩ := Option.map_eq_some_iff.mp hv
  exact NodeValue.definite_ofRaw r

theorem Definite.merge (h : row.Definite) (hnew : new.Definite) : (row.merge new).Definite := by
  intro name v hv
  rw [get?_merge] at hv
  rcases Option.or_eq_some_iff.mp hv with hv | ⟨-, hv⟩
  · exact h name v hv
  · exact hnew name v hv

end Bindings

/-! ## Clauses keep rows definite -/

namespace Clause

variable {db : FactDatabase} {state next : QueryState}

theorem definite_of_candidates (hdb : db.Sound) {path : List Segment}
    (hv : Sentence.anyVariable path = true) {rows : List Bindings}
    (h : ∀ row ∈ rows, row.Definite) {r : Bindings} (hr : r ∈ db.candidates path rows) :
    r.Definite := by
  obtain ⟨row, hrow, θ, hθ, -, rfl⟩ := FactDatabase.mem_candidates.mp hr
  refine Bindings.Definite.merge ?_ fun name v hget =>
    (FactDatabase.stored_of_mem_unifyPath hdb hv hθ hget).definite
  split at hrow
  · obtain rfl := List.mem_singleton.mp hrow
    intro name v hget
    cases hget
  · exact h row hrow

theorem definite_of_keepIf {test : Bindings → Except FactError Bool} {rows kept : List Bindings}
    (hk : keepIf test rows = .ok kept) (h : ∀ row ∈ rows, row.Definite) :
    ∀ row ∈ (QueryState.ofRows kept).rows, row.Definite := by
  intro row hrow
  rw [QueryState.rows_ofRows] at hrow
  exact h row (mem_of_keepIf hk row hrow).1

theorem evaluate_definite (hdb : db.Sound) {c : Clause} (h : c.evaluate db state = .ok next)
    (hrows : ∀ row ∈ state.rows, row.Definite) : ∀ row ∈ next.rows, row.Definite := by
  have hfailed : ∀ row ∈ QueryState.failed.rows, row.Definite := fun row hrow => by cases hrow
  cases c with
  | assert s =>
      obtain ⟨vars, hvars, h⟩ := bind_eq_ok h
      obtain ⟨path, hp, hv⟩ := parse_of_hasVariables hvars
      cases vars with
      | false =>
          obtain ⟨there, -, h⟩ := bind_eq_ok h
          cases there <;> cases h <;> assumption
      | true =>
          obtain ⟨rows, hunify, h⟩ := bind_eq_ok h
          obtain ⟨kept, hk, h⟩ := bind_eq_ok h
          cases h
          rw [db.unifyAll_eq hdb hp hv] at hunify
          obtain rfl := Except.ok.inj hunify
          exact definite_of_keepIf hk fun row hrow => definite_of_candidates hdb hv hrows hrow
  | not s =>
      obtain ⟨vars, -, h⟩ := bind_eq_ok h
      cases vars with
      | false =>
          obtain ⟨there, -, h⟩ := bind_eq_ok h
          cases there <;> cases h <;> assumption
      | true =>
          rw [if_pos rfl] at h
          split at h
          · obtain ⟨rows, -, h⟩ := bind_eq_ok h
            cases hempty : rows.isEmpty <;> rw [hempty] at h <;> cases h <;> assumption
          · obtain ⟨kept, hk, h⟩ := bind_eq_ok h
            cases h
            exact definite_of_keepIf hk hrows
  | compare c left right =>
      obtain ⟨_, -, h⟩ := bind_eq_ok h
      obtain ⟨_, -, h⟩ := bind_eq_ok h
      obtain ⟨kept, hk, h⟩ := bind_eq_ok h
      cases h
      exact definite_of_keepIf hk hrows

end Clause

namespace FactDatabase

variable {db : FactDatabase}

theorem evaluateAll_definite (hdb : db.Sound) {clauses : List String} {state last : QueryState}
    (h : db.evaluateAll state clauses = .ok last) (hrows : ∀ row ∈ state.rows, row.Definite) :
    ∀ row ∈ last.rows, row.Definite := by
  induction clauses generalizing state with
  | nil => cases h; exact hrows
  | cons text clauses ih =>
      obtain ⟨clause, -, h⟩ := bind_eq_ok h
      obtain ⟨next, hnext, h⟩ := bind_eq_ok h
      have hdefinite := Clause.evaluate_definite hdb hnext hrows
      split at h
      · exact ih h hdefinite
      · cases h; exact hdefinite

/-- The clauses at the front of a list that succeeds succeed, and the others go on from there. -/
theorem evaluateAll_split {before after : List String} {state last : QueryState}
    (h : db.evaluateAll state (before ++ after) = .ok last) (hs : last.success = true) :
    ∃ mid, db.evaluateAll state before = .ok mid ∧ db.evaluateAll mid after = .ok last := by
  induction before generalizing state with
  | nil => exact ⟨state, rfl, h⟩
  | cons text before ih =>
      obtain ⟨clause, hclause, h⟩ := bind_eq_ok h
      obtain ⟨next, hnext, h⟩ := bind_eq_ok h
      split at h
      · rename_i hsucc
        obtain ⟨mid, hmid, hlast⟩ := ih h
        refine ⟨mid, ?_, hlast⟩
        simp only [evaluateAll, hclause, hnext, bind, Except.bind, hsucc, ↓reduceIte, hmid]
      · rename_i hfail
        cases h
        exact absurd hs hfail

end FactDatabase

/-! ## Comparing with what is bound later -/

/-- A variable that the one row leaves open and the other binds. -/
def NodeValue.BoundLate (row r : Bindings) (v : NodeValue) : Prop :=
  ∃ name, v = .var name ∧ row.get? name = none ∧ (r.get? name).isSome

namespace Bindings

variable {r row : Bindings} {v : NodeValue}

theorem Extends.resolve_eq_of_not_late (h : r.Extends row) (hv : ¬ v.BoundLate row r) :
    Sentence.resolve r v = Sentence.resolve row v := by
  cases v with
  | var name =>
      cases hrow : row.get? name with
      | some w => rw [Sentence.resolve_of_get? hrow, Sentence.resolve_of_get? (h name w hrow)]
      | none =>
          have hr : r.get? name = none :=
            Option.not_isSome_iff_eq_none.mp fun hsome => hv ⟨name, rfl, hrow, hsome⟩
          simp [Sentence.resolve, hrow, hr]
  | _ => rfl

/-- Only an open variable resolves to a variable, and to itself. -/
theorem Definite.eq_of_resolve_var (h : row.Definite) {name : String}
    (hv : Sentence.resolve row v = .var name) : v = .var name := by
  cases v with
  | var name' =>
      cases hrow : row.get? name' with
      | some w =>
          rw [Sentence.resolve_of_get? hrow] at hv
          obtain rfl := hv
          exact absurd (h name' _ hrow).1 (by simp [NodeValue.isVariable, NodeValue.kind])
      | none => simpa [Sentence.resolve, hrow] using hv
  | _ => exact hv

end Bindings

namespace Comparator

variable {c : Comparator} {a b : NodeValue}

/-- With a variable on one side only `neq` accepts, unless the same variable is on both. -/
theorem eq_of_compare_variable (h : c.compare a b = .ok true) (hc : c ≠ .neq)
    (hvar : a.isVariable = true ∨ b.isVariable = true) : c = .eq ∧ a = b := by
  cases c with
  | eq =>
      refine ⟨rfl, ?_⟩
      have heq : a.equalTo b = true := Except.ok.inj h
      rcases hvar with hvar | hvar <;> cases a <;> cases b <;>
        simp_all [NodeValue.isVariable, NodeValue.kind, NodeValue.equalTo]
  | neq => exact absurd rfl hc
  | _ =>
      have hnone : a.order? b = none := by
        rcases hvar with hvar | hvar <;> cases a <;> cases b <;>
          first | rfl | simp [NodeValue.isVariable, NodeValue.kind] at hvar
      simp [compare, hnone] at h

/-- A comparison that holds for a row holds for a row that binds more, unless it is `neq` and one of
its operands is bound only there. -/
theorem compare_extend {row r : Bindings} (hrow : row.Definite) (hr : r.Definite)
    (hext : r.Extends row) {left right : NodeValue}
    (h : c.compare (Sentence.resolve row left) (Sentence.resolve row right) = .ok true) :
    c.compare (Sentence.resolve r left) (Sentence.resolve r right) = .ok true ∨
      (c = .neq ∧ (left.BoundLate row r ∨ right.BoundLate row r)) := by
  by_cases hlate : left.BoundLate row r ∨ right.BoundLate row r
  · by_cases hc : c = .neq
    · exact .inr ⟨hc, hlate⟩
    · -- the open variable stands on both sides, and it gets one value
      have hsame : c = .eq ∧ left = right := by
        rcases hlate with ⟨name, rfl, hopen, -⟩ | ⟨name, rfl, hopen, -⟩
        · have hres : Sentence.resolve row (.var name) = .var name := by
            simp [Sentence.resolve, hopen]
          rw [hres] at h
          obtain ⟨hc, heq⟩ := eq_of_compare_variable h hc (.inl rfl)
          exact ⟨hc, (hrow.eq_of_resolve_var heq.symm).symm⟩
        · have hres : Sentence.resolve row (.var name) = .var name := by
            simp [Sentence.resolve, hopen]
          rw [hres] at h
          obtain ⟨hc, heq⟩ := eq_of_compare_variable h hc (.inr rfl)
          exact ⟨hc, hrow.eq_of_resolve_var heq⟩
      obtain ⟨rfl, rfl⟩ := hsame
      have hbound : ∃ name, left = .var name ∧ (r.get? name).isSome := by
        rcases hlate with ⟨name, he, -, hsome⟩ | ⟨name, he, -, hsome⟩ <;> exact ⟨name, he, hsome⟩
      obtain ⟨name, rfl, hsome⟩ := hbound
      obtain ⟨v, hv⟩ := Option.isSome_iff_exists.mp hsome
      left
      rw [Sentence.resolve_of_get? hv]
      exact congrArg Except.ok (hr name v hv).2
  · obtain ⟨hleft, hright⟩ := not_or.mp hlate
    left
    rw [hext.resolve_eq_of_not_late hleft, hext.resolve_eq_of_not_late hright]
    exact h

end Comparator

/-! ## Comparisons of a query -/

namespace FactDatabase

variable {db : FactDatabase}

/-- A comparison that succeeds has two operands of one part each, and each row that goes on from it
extends one that it accepted. -/
theorem evaluateCompare_eq_ok {state next : QueryState} {c : Comparator} {l r : String}
    (h : Clause.evaluateCompare state c l r = .ok next) (hs : next.success = true) :
    ∃ left right, Clause.operand l = .ok left ∧ Clause.operand r = .ok right ∧ next.rows ≠ [] ∧
      ∀ row ∈ next.rows, row ∈ state.rows ∧
        c.compare (Sentence.resolve row left) (Sentence.resolve row right) = .ok true := by
  obtain ⟨left, hleft, h⟩ := bind_eq_ok h
  obtain ⟨right, hright, h⟩ := bind_eq_ok h
  obtain ⟨kept, hk, h⟩ := bind_eq_ok h
  cases h
  obtain ⟨hne, heq⟩ := QueryState.eq_of_success_ofRows hs
  rw [heq]
  exact ⟨left, right, hleft, hright, hne, fun row hrow => Clause.mem_of_keepIf hk row hrow⟩

/-- In a query that succeeds every comparison held for what the rows of the answer bound when its
turn came, and it holds for all that they bind, unless it is a `neq` with an operand that was open
then and is bound now. -/
theorem query_compare (hdb : db.Reachable) {before after : List String} {text : String}
    {rows : List RawBindings} {result : QueryResult}
    (h : db.query (before ++ text :: after) rows = .ok result) (hs : result.success = true)
    {c : Comparator} {l r : String} (hparse : Clause.parse text = .ok (.compare c l r)) :
    ∃ state last left right,
      db.evaluateAll ⟨true, rows.map RawBindings.toBindings⟩ before = .ok state ∧
      db.evaluateAll ⟨true, rows.map RawBindings.toBindings⟩ (before ++ text :: after) = .ok last ∧
      result = last.toResult ∧
      Clause.operand l = .ok left ∧ Clause.operand r = .ok right ∧
      ∀ final ∈ last.rows, ∃ row ∈ state.rows, final.Extends row ∧
        c.compare (Sentence.resolve row left) (Sentence.resolve row right) = .ok true ∧
        (c.compare (Sentence.resolve final left) (Sentence.resolve final right) = .ok true ∨
          (c = .neq ∧ (left.BoundLate row final ∨ right.BoundLate row final))) := by
  obtain ⟨last, hlast, rfl⟩ := query_eq_ok h
  have hsucc : last.success = true := last.success_toResult ▸ hs
  have hdefinite : ∀ row ∈ rows.map RawBindings.toBindings, row.Definite := by
    intro row hrow
    obtain ⟨raw, -, rfl⟩ := List.mem_map.mp hrow
    exact Bindings.definite_toBindings raw
  obtain ⟨state, hstate, hrest⟩ := evaluateAll_split hlast hsucc
  obtain ⟨clause, hclause, hrest⟩ := bind_eq_ok hrest
  obtain rfl := Except.ok.inj (hclause.symm.trans hparse)
  obtain ⟨next, hnext, hrest⟩ := bind_eq_ok hrest
  split at hrest
  · rename_i hs'
    obtain ⟨left, right, hleft, hright, hne, hcmp⟩ := evaluateCompare_eq_ok hnext hs'
    refine ⟨state, last, left, right, hstate, hlast, rfl, hleft, hright, fun final hfinal => ?_⟩
    obtain ⟨-, hadmits, -⟩ := evaluateAll_narrows hdb.sound hrest hsucc
    obtain ⟨row, hrow, hext⟩ := (hadmits final (QueryState.admits_of_mem hfinal)).resolve_left hne
    obtain ⟨hmem, htrue⟩ := hcmp row hrow
    have hdrow := evaluateAll_definite hdb.sound hstate hdefinite row hmem
    have hdfinal := evaluateAll_definite hdb.sound hlast hdefinite final hfinal
    exact ⟨row, hmem, hext, htrue, Comparator.compare_extend hdrow hdfinal hext htrue⟩
  · rename_i hfail
    cases hrest
    exact absurd hsucc hfail

/-- An order between two bound numbers, of which one row passes. -/
theorem query_compare_of_heights :
    ∃ db : FactDatabase, db.Reachable ∧
      db.query ["?x.height.?h", "gte ?h 170", "?x.friend"] [] =
        .ok ⟨true, [.ofList [("?h", .int 180), ("?x", .text "bob")]]⟩ ∧
      ∃ last left right,
        db.evaluateAll ⟨true, []⟩ ["?x.height.?h", "gte ?h 170", "?x.friend"] = .ok last ∧
        Clause.operand "?h" = .ok left ∧ Clause.operand "170" = .ok right ∧
        ∀ final ∈ last.rows,
          Comparator.gte.compare (Sentence.resolve final left) (Sentence.resolve final right) =
            .ok true := by
  have hdb : FactDatabase.Reachable ([FactCall.insert "ann.height.160", .insert "bob.height.180",
      .insert "ann.friend", .insert "bob.friend"].foldl (fun db c => (db.step c).2) ∅) :=
    .step _ (.step _ (.step _ (.step _ .empty)))
  have hquery : FactDatabase.query ([FactCall.insert "ann.height.160", .insert "bob.height.180",
      .insert "ann.friend", .insert "bob.friend"].foldl (fun db c => (db.step c).2) ∅)
      (["?x.height.?h"] ++ "gte ?h 170" :: ["?x.friend"]) [] =
        .ok ⟨true, [.ofList [("?h", .int 180), ("?x", .text "bob")]]⟩ := by
    rfl
  have hparse : Clause.parse "gte ?h 170" = .ok (.compare .gte "?h" "170") := by rfl
  obtain ⟨_, last, left, right, -, hlast, -, hleft, hright, hall⟩ :=
    query_compare hdb hquery rfl hparse
  refine ⟨_, hdb, hquery, last, left, right, hlast, hleft, hright, fun final hfinal => ?_⟩
  obtain ⟨row, -, -, -, hnow⟩ := hall final hfinal
  exact hnow.resolve_right fun hneq => by cases hneq.1

/-- A name that is not known yet differs from `a`, and is then found to be `a`. -/
theorem neq_of_open_variable_fails_later :
    ∃ (db : FactDatabase) (last : QueryState) (final : Bindings), db.Reachable ∧
      db.query ["neq ?x ?y", "?y.likes.bob"] [.ofList [("?x", .text "a")]] = .ok last.toResult ∧
      last.toResult.success = true ∧
      db.evaluateAll ⟨true, [RawBindings.toBindings (.ofList [("?x", .text "a")])]⟩
        ["neq ?x ?y", "?y.likes.bob"] = .ok last ∧
      final ∈ last.rows ∧
      Clause.parse "neq ?x ?y" = .ok (.compare .neq "?x" "?y") ∧
      Clause.operand "?x" = .ok (.var "?x") ∧ Clause.operand "?y" = .ok (.var "?y") ∧
      Comparator.neq.compare (Sentence.resolve final (.var "?x"))
        (Sentence.resolve final (.var "?y")) = .ok false := by
  have hdb : FactDatabase.Reachable (FactDatabase.step ∅ (.insert "a.likes.bob")).2 :=
    .step _ .empty
  exact ⟨_, ⟨true, [.ofList [("?x", .symbol "a"), ("?y", .symbol "a")]]⟩, _, hdb, rfl, rfl, rfl,
    List.mem_singleton.mpr rfl, rfl, rfl, rfl, rfl⟩

end FactDatabase

end Society
