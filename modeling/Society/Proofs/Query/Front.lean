import Society.Proofs.Fact.Report
import Society.Proofs.Query.Closed
import Society.Proofs.Sentence.Equality

/-!
# Looking something up by its first value

A sentence with one variable, in front, is matched by the children of the root below which the rest of
it is there. A row that has a value for the variable goes on from the child of that very value.
-/

namespace Society

open Sentence (keys)

/-! ## Trails from the root -/

section

variable {x : String} {c : Cardinality} {rest : List Segment}

theorem Bindings.along_of_ground {path : List Segment} (hground : Sentence.anyVariable path = false)
    (row : Bindings) (trail : List FactNode) : row.along path trail = row := by
  induction path generalizing row trail with
  | nil => rfl
  | cons s path ih =>
      simp only [Sentence.anyVariable, List.any_cons, Bool.or_eq_false_iff] at hground
      cases trail with
      | nil => rfl
      | cons n trail =>
          rw [along, ih hground.2, extend]
          split
          · rename_i name hname
            simp [hname, NodeValue.isVariable, NodeValue.kind] at hground
          · rfl

/-- A path without variables has a trail where its keys lead somewhere. -/
theorem FactNode.exists_trail_iff {n : FactNode} (h : n.Sound) {path : List Segment}
    (hground : Sentence.anyVariable path = false) :
    (∃ trail, trail ∈ n.children.trails path) ↔ (n.at? (keys path)).isSome = true := by
  induction path generalizing n with
  | nil => simp [Forest.trails, keys]
  | cons s path ih =>
      simp only [Sentence.anyVariable, List.any_cons, Bool.or_eq_false_iff] at hground
      obtain ⟨hs, hground⟩ := hground
      rw [Sentence.keys_cons, at?_cons]
      constructor
      · rintro ⟨_, htrail⟩
        obtain ⟨key, child, t, hc, hacc, ht, rfl⟩ :=
          (Forest.mem_trails_cons h.2.ascending).mp htrail
        obtain rfl : key = s.toSymbol := by simpa [Segment.accepts, hs] using hacc
        have hc' : n.child? s.toSymbol = some child := hc
        rw [hc', Option.bind_some]
        exact (ih (h.child? hc').sound hground).mp ⟨t, ht⟩
      · intro hsome
        obtain ⟨m, hm⟩ := Option.isSome_iff_exists.mp hsome
        obtain ⟨child, hc, hm⟩ := Option.bind_eq_some_iff.mp hm
        obtain ⟨t, ht⟩ := (ih (h.child? hc).sound hground).mpr (by simp [hm])
        exact ⟨child :: t, (Forest.mem_trails_cons h.2.ascending).mpr
          ⟨_, child, t, hc, by simp [Segment.accepts], ht, rfl⟩⟩

theorem FactDatabase.stored_of_view {db : FactDatabase} (h : db.Sound) {p : List String}
    (hp : p ≠ []) {e : FactEntry} (he : db.view p = some e) : e.value.Stored := by
  rw [view, FactMap.belowRoot_of_ne_nil _ hp] at he
  obtain ⟨n, hn, rfl⟩ := Option.map_eq_some_iff.mp he
  obtain ⟨key, hat⟩ := h.sound_root.at? hp hn
  exact hat.stored

/-- Where only the first place of a path is a variable, each child of the root below which the rest of
the path is there gives a row. -/
theorem FactDatabase.mem_unifyPath_first {db : FactDatabase} (h : db.Sound)
    (hground : Sentence.anyVariable rest = false) {θ : Bindings} :
    θ ∈ db.unifyPath (⟨.var x, c⟩ :: rest) ↔
      ∃ e, db.view [e.value.toSymbol] = some e ∧
        (db.view (e.value.toSymbol :: keys rest)).isSome = true ∧
        θ = (∅ : Bindings).insert x e.value := by
  have hview {key : String} {child : FactNode} (hc : db.root.child? key = some child)
      (p : List String) : db.view (key :: p) = child.view p := by
    rw [view, FactMap.belowRoot_of_ne_nil _ (by simp), FactNode.view_cons, hc]
    rfl
  have hrow (child : FactNode) (trail : List FactNode) :
      (∅ : Bindings).along (⟨.var x, c⟩ :: rest) (child :: trail) =
        (∅ : Bindings).insert x child.value :=
    Bindings.along_of_ground hground _ trail
  rw [unifyPath_eq db rfl]
  simp only [List.mem_map, Forest.mem_trails_cons h.sound_root.2.ascending]
  constructor
  · rintro ⟨_, ⟨key, child, t, hc, -, ht, rfl⟩, rfl⟩
    have hc' : db.root.child? key = some child := hc
    have hchild := h.sound_root.child? hc'
    obtain rfl := hchild.key_eq
    refine ⟨child.entry, hview hc' [], ?_, hrow child t⟩
    have hrest := (FactNode.exists_trail_iff hchild.sound hground).mp ⟨t, ht⟩
    have hsame := hview hc' (keys rest)
    rw [FactNode.view] at hsame
    show (db.view (child.toSymbol :: keys rest)).isSome = true
    rw [hsame, Option.isSome_map, hrest]
  · rintro ⟨e, he, hrest, rfl⟩
    have hsome := he
    rw [view, FactMap.belowRoot_of_ne_nil _ (by simp), FactNode.view_cons] at hsome
    obtain ⟨child, hc, -⟩ := Option.bind_eq_some_iff.mp hsome
    obtain rfl : child.entry = e := Option.some.inj ((hview hc []).symm.trans he)
    rw [hview hc, FactNode.view, Option.isSome_map] at hrest
    obtain ⟨t, ht⟩ := (FactNode.exists_trail_iff (h.sound_root.child? hc).sound hground).mpr hrest
    exact ⟨child :: t, ⟨_, child, t, hc, rfl, ht, rfl⟩, hrow child t⟩

/-- The candidates that a row makes of such a path: the row with the match that has its value, if
there is one. -/
theorem FactDatabase.mem_candidates_first {db : FactDatabase} (h : db.Sound)
    (hground : Sentence.anyVariable rest = false) {row : Bindings} {v : NodeValue}
    (hrow : row.get? x = some v) {r : Bindings} :
    r ∈ db.candidates (⟨.var x, c⟩ :: rest) [row] ↔
      (∃ e, db.view [v.toSymbol] = some e ∧ e.value = v) ∧
        (db.view (v.toSymbol :: keys rest)).isSome = true ∧
        r = row.merge ((∅ : Bindings).insert x v) := by
  -- only the very value of a node is equal to it
  have hagrees {e : FactEntry} (he : (∅ : Bindings).insert x e.value ∈
        db.unifyPath (⟨.var x, c⟩ :: rest)) :
      row.agrees ((∅ : Bindings).insert x e.value) = true ↔ e.value = v := by
    have hget : ((∅ : Bindings).insert x e.value).get? x = some e.value := by
      simp [Dict.get?_insert]
    have hstored := FactDatabase.stored_of_mem_unifyPath h rfl he hget
    rw [Bindings.agrees_iff, eq_comm, ← NodeValue.Written.equalTo_iff hstored.1]
    constructor
    · exact fun ha => ha x v e.value hrow hget
    · intro hequal name v' w' hv' hw'
      rw [Dict.get?_insert] at hw'
      split at hw'
      · rename_i hname
        subst hname
        obtain rfl := Option.some.inj (hrow.symm.trans hv')
        obtain rfl := Option.some.inj hw'
        exact hequal
      · cases hw'
  simp only [mem_candidates, List.isEmpty_cons, Bool.false_eq_true, if_false, List.mem_singleton,
    exists_eq_left]
  constructor
  · rintro ⟨θ, hθ, ha, rfl⟩
    obtain ⟨e, he, hrest, rfl⟩ := (mem_unifyPath_first h hground).mp hθ
    obtain rfl := (hagrees hθ).mp ha
    exact ⟨⟨e, he, rfl⟩, hrest, rfl⟩
  · rintro ⟨⟨e, he, rfl⟩, hrest, rfl⟩
    have hθ : (∅ : Bindings).insert x e.value ∈ db.unifyPath (⟨.var x, c⟩ :: rest) :=
      (mem_unifyPath_first h hground).mpr ⟨e, he, hrest, rfl⟩
    exact ⟨_, hθ, (hagrees hθ).mpr rfl, rfl⟩

end

/-! ## Asking with the first value -/

namespace Clause

/-- A row goes on from a sentence with one variable, in front, exactly where the value that the row
has for it is kept there, with the rest of the path below, and the sentence that is written with the
value is a fact. -/
theorem evaluate_first {db : FactDatabase} (h : db.Sound) {q x : String} {c : Cardinality}
    {rest : List Segment} (hground : Sentence.anyVariable rest = false)
    (hq : Sentence.parse q = .ok (⟨.var x, c⟩ :: rest)) {row : Bindings} {v : NodeValue}
    (hrow : row.get? x = some v) :
    ∃ state, evaluate db ⟨true, [row]⟩ (.assert q) = .ok state ∧
      (state.success = true ↔
        (∃ e, db.view [v.toSymbol] = some e ∧ e.value = v) ∧
          (db.view (v.toSymbol :: keys rest)).isSome = true ∧
          db.assert (Sentence.print (⟨v, c⟩ :: rest)) = .ok true) := by
  have hx (θ : Bindings) : (row.merge θ).get? x = some v := by simp [Bindings.get?_merge, hrow]
  have hsub (θ : Bindings) :
      Sentence.substitute (row.merge θ) (⟨.var x, c⟩ :: rest) = ⟨v, c⟩ :: rest := by
    have hrest := substitute_of_ground hground (row.merge θ)
    rw [Sentence.substitute] at hrest ⊢
    rw [List.map_cons, hrest, Sentence.resolve_of_get? (hx θ)]
  have hstored : ∀ r ∈ db.candidates (⟨.var x, c⟩ :: rest) [row],
      ∀ t ∈ (⟨.var x, c⟩ :: rest : List Segment), (Sentence.resolve r t.value).Stored := by
    intro r hr t ht
    obtain ⟨⟨e, he, rfl⟩, -, rfl⟩ := (FactDatabase.mem_candidates_first h hground hrow).mp hr
    rcases List.mem_cons.mp ht with rfl | ht
    · rw [Sentence.resolve_of_get? (hx _)]
      exact FactDatabase.stored_of_view h (by simp) he
    · have hvar : t.value.isVariable = false := by simpa using List.any_eq_false.mp hground t ht
      rw [Sentence.resolve_of_not_variable hvar]
      exact ⟨((Sentence.proper_of_parse hq).written t (List.mem_cons_of_mem _ ht)).1, hvar⟩
  have hassert {r : Bindings} (hr : r ∈ db.candidates (⟨.var x, c⟩ :: rest) [row]) :
      db.assert (Sentence.print (⟨v, c⟩ :: rest)) =
        .ok (db.confirms (⟨.var x, c⟩ :: rest) r) := by
    have hbind := db.assert_bind hq (hstored r hr)
    obtain ⟨-, -, rfl⟩ := (FactDatabase.mem_candidates_first h hground hrow).mp hr
    rw [Sentence.bind_eq hq, hsub] at hbind
    exact hbind
  refine ⟨_, evaluateAssert_eq h hq rfl hstored, ?_⟩
  rw [QueryState.success_ofRows, Bool.not_eq_true', List.isEmpty_eq_false_iff_exists_mem]
  simp only [List.mem_filter]
  constructor
  · rintro ⟨r, hr, hconf⟩
    obtain ⟨hkept, hsome, -⟩ := (FactDatabase.mem_candidates_first h hground hrow).mp hr
    exact ⟨hkept, hsome, by rw [hassert hr, hconf]⟩
  · rintro ⟨hkept, hsome, hfact⟩
    have hr := (FactDatabase.mem_candidates_first (c := c) h hground hrow).mpr ⟨hkept, hsome, rfl⟩
    exact ⟨_, hr, Except.ok.inj ((hassert hr).symm.trans hfact)⟩

end Clause

end Society
