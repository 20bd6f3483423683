import Society.Proofs.Query.Negation
import Society.Query

/-!
# Clauses with nothing left to bind

Where every variable of a clause is bound already, and to the same value in all rows, nothing is
matched any more: an assertion holds if the tree has the path that a row makes of its path, a denial
if the tree does not have it, and the rows stay as they are.
-/

namespace Society

/-- The row has values for the variables of a path, and what it makes of the path can be a fact
without floats. -/
def Bindings.Closes (row : Bindings) (path : List Segment) : Prop :=
  ∀ t ∈ path, (Sentence.resolve row t.value).Stored ∧
    (Sentence.resolve row t.value).isFloat = false

/-- There are rows, and all of them are this one. -/
def Bindings.Fills (row : Bindings) (rows : List Bindings) : Prop :=
  rows ≠ [] ∧ ∀ r ∈ rows, r = row

theorem NodeValue.equalTo_self {v : NodeValue} (h : v.isFloat = false) : v.equalTo v = true := by
  cases v <;> simp_all [equalTo, isFloat]

variable {db : FactDatabase} {row : Bindings} {rows : List Bindings} {s : String}
  {path : List Segment}

namespace Bindings

theorem Closes.get? (h : row.Closes path) {t : Segment} (ht : t ∈ path) {name : String}
    (hname : t.value = .var name) :
    ∃ v, row.get? name = some v ∧ v.Stored ∧ v.isFloat = false := by
  obtain ⟨hst, hf⟩ := h t ht
  rw [hname] at hst hf
  cases hv : row.get? name with
  | none =>
      rw [Sentence.resolve, hv] at hst
      exact absurd hst.2 (by simp [NodeValue.isVariable, NodeValue.kind])
  | some v =>
      rw [Sentence.resolve_of_get? hv] at hst hf
      exact ⟨v, rfl, hst, hf⟩

theorem Closes.isFloat_eq (h : row.Closes path) : ∀ t ∈ path, t.value.isFloat = false := by
  intro t ht
  have hf := (h t ht).2
  cases hvalue : t.value with
  | var name => rfl
  | _ => rwa [hvalue] at hf

theorem Closes.confirms_eq (h : row.Closes path) (hproper : Sentence.Proper path)
    (db : FactDatabase) :
    db.confirms path row = db.root.holds (Sentence.substitute row path) := by
  rw [FactDatabase.confirms, Sentence.reread_eq]
  · exact Sentence.proper_substitute hproper fun t ht => (h t ht).1.1
  · intro u hu
    obtain ⟨t, ht, rfl⟩ := List.mem_map.mp hu
    exact (h t ht).2

/-- A match adds nothing to a row that closes the path. -/
theorem Closes.merge_eq (h : row.Closes path) (hdb : db.Sound)
    (hv : Sentence.anyVariable path = true) {θ : Bindings} (hθ : θ ∈ db.unifyPath path) :
    row.merge θ = row := by
  refine Dict.ext_get? fun name => ?_
  rw [get?_merge]
  cases hr : row.get? name with
  | some v => rfl
  | none =>
      refine Option.not_isSome_iff_eq_none.mp fun hsome => ?_
      obtain ⟨t, ht, hname⟩ := ((FactDatabase.get?_of_mem_unifyPath hdb hv hθ).1 name).mp hsome
      obtain ⟨v, hget, -⟩ := h.get? ht hname
      simp [hr] at hget

end Bindings

namespace FactDatabase

theorem eq_of_mem_candidates (h : row.Closes path) (hdb : db.Sound)
    (hv : Sentence.anyVariable path = true) (hrows : row.Fills rows) {r : Bindings}
    (hr : r ∈ db.candidates path rows) : r = row := by
  obtain ⟨i, hi, θ, hθ, -, rfl⟩ := mem_candidates.mp hr
  rw [if_neg (by simpa using hrows.1)] at hi
  rw [hrows.2 i hi, h.merge_eq hdb hv hθ]

/-- Where the tree has the path that a row makes of a path, the row is found. -/
theorem mem_candidates_of_holds (h : row.Closes path) (hdb : db.Sound) (hfl : db.root.FloatFree)
    (hproper : Sentence.Proper path) (hv : Sentence.anyVariable path = true)
    (hrows : row.Fills rows) (hholds : db.root.holds (Sentence.substitute row path) = true) :
    row ∈ db.candidates path rows := by
  -- the match is the row itself without the variables that the path does not have
  let θ : Bindings := row.filterKeys fun name => path.any fun t => t.value = .var name
  have hget : ∀ t ∈ path, ∀ name, t.value = .var name → θ.get? name = row.get? name := by
    intro t ht name hname
    have hvar : path.any (fun t => decide (t.value = .var name)) = true :=
      List.any_eq_true.mpr ⟨t, ht, by simp [hname]⟩
    simp only [θ, Dict.get?_filterKeys, hvar, if_true]
  have hsub : Sentence.substitute θ path = Sentence.substitute row path := by
    refine List.map_congr_left fun t ht => ?_
    cases hname : t.value with
    | var name => simp only [Sentence.resolve, hget t ht name hname]
    | _ => rfl
  have hans : db.Answers path θ := by
    constructor
    · intro name
      simp only [θ, Dict.get?_filterKeys]
      constructor
      · intro hsome
        split at hsome
        · rename_i hany
          obtain ⟨t, ht, hname⟩ := List.any_eq_true.mp hany
          exact ⟨t, ht, by simpa using hname⟩
        · cases hsome
      · rintro ⟨t, ht, hname⟩
        have hvar : path.any (fun t => decide (t.value = .var name)) = true :=
          List.any_eq_true.mpr ⟨t, ht, by simp [hname]⟩
        obtain ⟨v, hrow, -⟩ := h.get? ht hname
        simp [hvar, hrow]
    · refine (FactNode.holds_substitute_iff hdb.sound_root hfl fun t ht name hname => ?_).mp
        (hsub ▸ hholds)
      rw [hget t ht name hname]
      exact h.get? ht hname
  have hθ := ((answers_iff hdb hfl hproper hv h.isFloat_eq).mp hans).1
  obtain ⟨i, hi⟩ := List.exists_mem_of_ne_nil rows hrows.1
  obtain rfl := hrows.2 i hi
  refine mem_candidates.mpr ⟨i, ?_, θ, hθ, Bindings.agrees_iff.mpr ?_, (h.merge_eq hdb hv hθ).symm⟩
  · rwa [if_neg (by simpa using hrows.1)]
  · intro name v w hv' hw
    obtain ⟨t, ht, hname⟩ := (hans.binds name).mp (by simp [hw])
    obtain ⟨u, hu, -, huf⟩ := h.get? ht hname
    rw [hget t ht name hname, hu] at hw
    obtain rfl := Option.some.inj hw
    obtain rfl := Option.some.inj (hu.symm.trans hv')
    exact NodeValue.equalTo_self huf

end FactDatabase

namespace Clause

/-- What evaluating a clause with nothing left to bind comes to. -/
def Settles (db : FactDatabase) (row : Bindings) (c : Clause) (holds : Bool) : Prop :=
  ∀ rows, row.Fills rows → ∃ next, evaluate db ⟨true, rows⟩ c = .ok next ∧
    next.success = holds ∧ (holds = true → row.Fills next.rows)

theorem substitute_of_ground (hv : Sentence.anyVariable path = false) (row : Bindings) :
    Sentence.substitute row path = path := by
  have hid : ∀ t ∈ path, ({ t with value := Sentence.resolve row t.value } : Segment) = t := by
    intro t ht
    have hvar : t.value.isVariable = false := by
      simpa using List.any_eq_false.mp hv t ht
    rw [Sentence.resolve_of_not_variable hvar]
  rw [Sentence.substitute, List.map_congr_left hid, List.map_id'']
  intro t
  rfl

theorem settles_assert (hdb : db.Sound) (hfl : db.root.FloatFree) (hp : Sentence.parse s = .ok path)
    (h : row.Closes path) :
    (assert s).Settles db row (db.root.holds (Sentence.substitute row path)) := by
  intro rows hrows
  have hproper := Sentence.proper_of_parse hp
  cases hv : Sentence.anyVariable path with
  | false =>
      refine ⟨_, (evaluate_ground hp hv db _).1, ?_⟩
      rw [substitute_of_ground hv]
      cases db.root.holds path <;> simp [QueryState.failed, hrows]
  | true =>
      have heq : ∀ r ∈ db.candidates path rows, r = row :=
        fun r hr => FactDatabase.eq_of_mem_candidates h hdb hv hrows hr
      have hstored : ∀ r ∈ db.candidates path rows, ∀ t ∈ path,
          (Sentence.resolve r t.value).Stored := by
        intro r hr t ht
        rw [heq r hr]
        exact (h t ht).1
      refine ⟨_, evaluateAssert_eq hdb hp hv hstored, ?_⟩
      have hkept : ∀ r ∈ (db.candidates path rows).filter (db.confirms path), r = row :=
        fun r hr => heq r (List.mem_filter.mp hr).1
      cases hholds : db.root.holds (Sentence.substitute row path) with
      | true =>
          have hmem : row ∈ (db.candidates path rows).filter (db.confirms path) :=
            List.mem_filter.mpr
              ⟨FactDatabase.mem_candidates_of_holds h hdb hfl hproper hv hrows hholds,
                (h.confirms_eq hproper db).trans hholds⟩
          have hne := List.ne_nil_of_mem hmem
          exact ⟨by simpa using hne, fun _ => ⟨by simpa using hne, by simpa using hkept⟩⟩
      | false =>
          have hnil : (db.candidates path rows).filter (db.confirms path) = [] := by
            refine List.eq_nil_iff_forall_not_mem.mpr fun r hr => ?_
            have hconf := (List.mem_filter.mp hr).2
            rw [hkept r hr, h.confirms_eq hproper, hholds] at hconf
            cases hconf
          simp [hnil]

theorem settles_not (hp : Sentence.parse s = .ok path) (h : row.Closes path) (db : FactDatabase) :
    (Clause.not s).Settles db row (!db.root.holds (Sentence.substitute row path)) := by
  intro rows hrows
  have hproper := Sentence.proper_of_parse hp
  cases hv : Sentence.anyVariable path with
  | false =>
      refine ⟨_, (evaluate_ground hp hv db _).2, ?_⟩
      rw [substitute_of_ground hv]
      cases db.root.holds path <;> simp [QueryState.failed, hrows]
  | true =>
      have hvars : Sentence.hasVariables s = .ok true := by
        simp [Sentence.hasVariables, hp, Except.map, hv]
      have hbound : Sentence.hasVariables (Sentence.print (Sentence.substitute row path)) =
          .ok false := by
        have hstored : ∀ u ∈ Sentence.substitute row path, u.value.Stored := by
          intro u hu
          obtain ⟨t, ht, rfl⟩ := List.mem_map.mp hu
          exact (h t ht).1
        rw [Sentence.hasVariables, Sentence.parse_print
          (Sentence.proper_substitute hproper fun t ht => (h t ht).1.1)]
        exact congrArg Except.ok (Sentence.anyVariable_reread hstored)
      have hassert := db.assert_bind hp fun t ht => (h t ht).1
      rw [Sentence.bind_eq hp, h.confirms_eq hproper] at hassert
      have htest : ∀ r ∈ rows, (do return !(← holdsFor db s r) : Except FactError Bool) =
          .ok (!db.root.holds (Sentence.substitute row path)) := by
        intro r hr
        rw [hrows.2 r hr]
        simp only [bind, Except.bind] at hassert
        simp only [holdsFor, Sentence.bind_eq hp, bind, Except.bind, hbound, hassert,
          Bool.false_eq_true, ↓reduceIte]
        rfl
      have hkeep := keepIf_eq htest
      have hne : rows.isEmpty = false := by simpa using hrows.1
      refine ⟨.ofRows (rows.filter fun _ => !db.root.holds (Sentence.substitute row path)), ?_, ?_⟩
      · simp only [bind, Except.bind] at hkeep
        simp only [evaluate, evaluateNot, hvars, hne, hkeep, bind, Except.bind, Bool.false_eq_true,
          ↓reduceIte]
        rfl
      · cases db.root.holds (Sentence.substitute row path) with
        | true => simp
        | false =>
            have hall : (rows.filter fun _ => true) = rows := List.filter_eq_self.mpr fun _ _ => rfl
            simp only [Bool.not_false, hall]
            exact ⟨by simp [hne], fun _ => by simpa using hrows⟩

end Clause

namespace FactDatabase

/-- Of clauses with nothing left to bind a query is the conjunction. -/
theorem evaluateAll_of_settles {P : String → Bool} {clauses : List String}
    (h : ∀ clause ∈ clauses, ∃ c, Clause.parse clause = .ok c ∧ c.Settles db row (P clause))
    (hrows : row.Fills rows) :
    ∃ last, db.evaluateAll ⟨true, rows⟩ clauses = .ok last ∧ last.success = clauses.all P := by
  induction clauses generalizing rows with
  | nil => exact ⟨_, rfl, rfl⟩
  | cons clause clauses ih =>
      obtain ⟨c, hc, hsettles⟩ := h clause List.mem_cons_self
      obtain ⟨next, heval, hsuccess, hfills⟩ := hsettles rows hrows
      simp only [evaluateAll, hc, heval, bind, Except.bind, hsuccess, List.all_cons]
      cases hP : P clause with
      | false => exact ⟨next, rfl, by simpa [hP] using hsuccess⟩
      | true =>
          have hnext : next = ⟨true, next.rows⟩ := by
            rw [hP] at hsuccess
            rw [← hsuccess]
          obtain ⟨last, hlast, hall⟩ :=
            ih (fun clause' hmem => h clause' (List.mem_cons_of_mem _ hmem)) (hfills hP)
          exact ⟨last, by rw [hnext]; exact hlast, by simpa using hall⟩

end FactDatabase

end Society
