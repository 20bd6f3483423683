import Society.Proofs.Fact.Report
import Society.Proofs.Query.Closed

/-!
# Asking for what has been inserted

To ask for the last value of a sentence is to put a variable in its place. What has been inserted is
found in this way unless a float comes between. The symbol of a float has three digits, so that an
older value may be kept in the place of a new one, and a sentence that is written with a value that was
found may be no fact.
-/

namespace Society

open Sentence (keys stops)

/-! ## What is there after an insertion -/

theorem Sentence.lookup_stops_keys (init : List Segment) (last : Segment) :
    (stops (init ++ [last])).lookup (keys (init ++ [last])) = some last := by
  induction init with
  | nil => simp [keys, lookup_stops_cons]
  | cons s init ih =>
      rw [List.cons_append, keys_cons, lookup_stops_cons, if_pos rfl, if_neg (by simp [keys]), ih]

namespace FactNode

theorem mismatch?_leaf (path : List Segment) (v : NodeValue) (c : Cardinality) :
    (leaf v c).mismatch? path = none := by
  cases path with
  | nil => rfl
  | cons s path => simp [mismatch?]

/-- A path that clashes with nothing is there once it has grown. -/
theorem holds_grow {path : List Segment} {n : FactNode} (h : n.mismatch? path = none) :
    (n.grow path).holds path = true := by
  induction path generalizing n with
  | nil => rfl
  | cons s path ih =>
      simp only [mismatch?] at h
      simp only [grow, holds]
      cases hc : n.child? s.toSymbol with
      | some child =>
          simp only [hc] at h
          split at h
          · rename_i heq
            simp [child?_setChild, heq, ih h]
          · cases h
      | none =>
          have hleaf := ih (mismatch?_leaf path s.value s.cardinality)
          have hcard : (leaf s.value s.cardinality).cardinality = s.cardinality := rfl
          simp [child?_setChild, hcard, hleaf]

/-- Only the symbols and the cardinalities of a path count. -/
theorem holds_reread {path : List Segment} (h : ∀ t ∈ path, t.reread.toSymbol = t.toSymbol)
    (n : FactNode) : n.holds (path.map Segment.reread) = n.holds path := by
  induction path generalizing n with
  | nil => rfl
  | cons s path ih =>
      have hrest := ih fun t ht => h t (List.mem_cons_of_mem _ ht)
      simp only [List.map_cons, holds, h s List.mem_cons_self, hrest, List.isEmpty_map]
      rfl

end FactNode

namespace FactDatabase

/-- What an insertion leaves: the path is there, and at its end what was there before, or else the last
value. -/
theorem of_insert {db db' : FactDatabase} {s : String} {init : List Segment} {last : Segment}
    (h : db.Sound) (hp : Sentence.parse s = .ok (init ++ [last])) (hi : db.insert s = .ok db') :
    Sentence.anyVariable (init ++ [last]) = false ∧ db'.Sound ∧
      db'.root.holds (init ++ [last]) = true ∧
      db'.view (keys (init ++ [last])) =
        (db.view (keys (init ++ [last]))).or (some last.entry) := by
  have hinsert := insert_eq db s
  rw [hi, Sentence.parseFact_eq, hp] at hinsert
  cases hv : Sentence.anyVariable (init ++ [last]) with
  | true => simp [hv] at hinsert
  | false =>
      simp only [hv, Bool.false_eq_true, ↓reduceIte] at hinsert
      cases hm : db.root.mismatch? (init ++ [last]) with
      | some symbol => simp [hm] at hinsert
      | none =>
          have hclash : db.view.clash? (init ++ [last]) = none := by
            rw [FactNode.mismatch?_eq, Option.map_eq_none_iff] at hm
            rw [view, FactMap.clash?_belowRoot, hm]
          obtain ⟨_, hi', hsound, hview⟩ := insert_of_parse h hp hv hclash
          obtain rfl := Except.ok.inj (hi.symm.trans hi')
          have hgrown : db'.root.holds (init ++ [last]) = true := by
            simp only [hm] at hinsert
            obtain rfl := Except.ok.inj hinsert
            exact FactNode.holds_grow hm
          have hstays : ¬ db.view.Displaces (init ++ [last]) (keys (init ++ [last])) := fun hd => by
            simpa [Sentence.lookup_stops_keys] using FactMap.lookup_stops_of_displaces hd
          refine ⟨rfl, hsound, hgrown, ?_⟩
          rw [hview, FactMap.insert, if_neg hstays, Sentence.lookup_stops_keys]
          rfl

end FactDatabase

/-! ## Trails to the children of one node -/

section

variable {x : String} {init : List Segment}

theorem FactNode.at?_append_key (n : FactNode) (p : List String) (key : String) :
    n.at? (p ++ [key]) = (n.at? p).bind (·.child? key) := by
  induction p generalizing n with
  | nil => cases h : n.child? key <;> simp [h]
  | cons k p ih =>
      rw [List.cons_append, at?_cons, at?_cons]
      cases n.child? k with
      | none => rfl
      | some child => exact ih child

/-- Where only the last place of a path is a variable, the trails end in the children of one node. -/
theorem FactNode.mem_along_trails {n : FactNode} (h : n.Sound)
    (hground : Sentence.anyVariable init = false) {row θ : Bindings} :
    θ ∈ (n.children.trails (init ++ [⟨.var x, .many⟩])).map
        (row.along (init ++ [⟨.var x, .many⟩])) ↔
      ∃ m child, n.at? (keys init) = some m ∧ m.child? child.toSymbol = some child ∧
        θ = row.insert x child.value := by
  induction init generalizing n with
  | nil =>
      simp only [List.nil_append, List.mem_map, Forest.mem_trails_cons h.2.ascending]
      constructor
      · rintro ⟨_, ⟨key, child, t, hc, -, ht, rfl⟩, rfl⟩
        obtain rfl := (h.child? hc).key_eq
        obtain rfl := List.mem_singleton.mp ht
        exact ⟨n, child, rfl, hc, rfl⟩
      · rintro ⟨m, child, hm, hc, rfl⟩
        obtain rfl := Option.some.inj hm
        exact ⟨[child], ⟨_, child, [], hc, rfl, List.mem_singleton.mpr rfl, rfl⟩, rfl⟩
  | cons s init ih =>
      simp only [Sentence.anyVariable, List.any_cons, Bool.or_eq_false_iff] at hground
      obtain ⟨hs, hground⟩ := hground
      have hrow : ∀ v, row.extend s v = row := by
        intro v
        unfold Bindings.extend
        split
        · rename_i name hname
          simp [hname, NodeValue.isVariable, NodeValue.kind] at hs
        · rfl
      have hiff : ∀ {child : FactNode}, n.child? s.toSymbol = some child →
          (θ ∈ (child.children.trails (init ++ [⟨.var x, .many⟩])).map
              (row.along (init ++ [⟨.var x, .many⟩])) ↔
            ∃ m child', n.at? (keys (s :: init)) = some m ∧
              m.child? child'.toSymbol = some child' ∧ θ = row.insert x child'.value) := by
        intro child hc
        rw [Sentence.keys_cons, at?_cons, hc]
        exact ih (h.child? hc).sound hground
      constructor
      · intro hθ
        obtain ⟨_, htrail, rfl⟩ := List.mem_map.mp hθ
        obtain ⟨key, child, t, hc, hacc, ht, rfl⟩ :=
          (Forest.mem_trails_cons h.2.ascending).mp htrail
        obtain rfl : key = s.toSymbol := by simpa [Segment.accepts, hs] using hacc
        refine (hiff hc).mp (List.mem_map.mpr ⟨t, ht, ?_⟩)
        rw [List.cons_append, Bindings.along, hrow]
      · rintro ⟨m, child', hm, hc', rfl⟩
        have hsome := hm
        rw [Sentence.keys_cons, at?_cons] at hsome
        obtain ⟨child, hc, -⟩ := Option.bind_eq_some_iff.mp hsome
        obtain ⟨t, ht, htheta⟩ := List.mem_map.mp ((hiff hc).mpr ⟨m, child', hm, hc', rfl⟩)
        refine List.mem_map.mpr ⟨child :: t, (Forest.mem_trails_cons h.2.ascending).mpr
          ⟨_, child, t, hc, by simp [Segment.accepts], ht, rfl⟩, ?_⟩
        rw [List.cons_append, Bindings.along, hrow, htheta]

theorem FactDatabase.mem_unifyPath_last {db : FactDatabase} (h : db.Sound)
    (hground : Sentence.anyVariable init = false) {θ : Bindings} :
    θ ∈ db.unifyPath (init ++ [⟨.var x, .many⟩]) ↔
      ∃ e, db.view (keys (init ++ [⟨e.value, .many⟩])) = some e ∧
        θ = (∅ : Bindings).insert x e.value := by
  have hv : Sentence.anyVariable (init ++ [⟨.var x, .many⟩]) = true := by
    simp [Sentence.anyVariable, NodeValue.isVariable, NodeValue.kind]
  have hview : ∀ v, db.view (keys (init ++ [⟨v, .many⟩])) =
      ((db.root.at? (keys init)).bind (·.child? v.toSymbol)).map FactNode.entry := by
    intro v
    rw [view, FactMap.belowRoot_of_ne_nil _ (by simp [keys]), FactNode.view, keys, List.map_append]
    exact congrArg _ (FactNode.at?_append_key db.root (keys init) v.toSymbol)
  rw [unifyPath_eq db hv, FactNode.mem_along_trails h.sound_root hground]
  constructor
  · rintro ⟨m, child, hm, hc, rfl⟩
    refine ⟨child.entry, ?_, rfl⟩
    rw [hview, hm]
    exact congrArg (Option.map FactNode.entry) hc
  · rintro ⟨e, he, rfl⟩
    rw [hview] at he
    obtain ⟨child, hc, rfl⟩ := Option.map_eq_some_iff.mp he
    obtain ⟨m, hm, hc⟩ := Option.bind_eq_some_iff.mp hc
    exact ⟨m, child, hm, hc, rfl⟩

end

/-! ## Asking for the last value -/

namespace Clause

/-- A value is found in the last place of a path exactly where it is kept there and the sentence that
is written with it is a fact. -/
theorem evaluate_last {db : FactDatabase} (h : db.Sound) {q x : String} {init : List Segment}
    (hground : Sentence.anyVariable init = false)
    (hq : Sentence.parse q = .ok (init ++ [⟨.var x, .many⟩])) (v : NodeValue) :
    ∃ state, evaluate db ⟨true, []⟩ (.assert q) = .ok state ∧
      ((state.success = true ∧ ∃ row ∈ state.rows, row.get? x = some v) ↔
        (∃ e, db.view (keys (init ++ [⟨v, .many⟩])) = some e ∧ e.value = v) ∧
          db.assert (Sentence.print (init ++ [⟨v, .many⟩])) = .ok true) := by
  have hv : Sentence.anyVariable (init ++ [⟨.var x, .many⟩]) = true := by
    simp [Sentence.anyVariable, NodeValue.isVariable, NodeValue.kind]
  have hsub : Sentence.substitute ((∅ : Bindings).insert x v) (init ++ [⟨.var x, .many⟩]) =
      init ++ [⟨v, .many⟩] := by
    have hinit := substitute_of_ground hground ((∅ : Bindings).insert x v)
    have hx : ((∅ : Bindings).insert x v).get? x = some v := by simp [Dict.get?_insert]
    simp only [Sentence.substitute, List.map_append, List.map_cons, List.map_nil,
      Sentence.resolve_of_get? hx] at hinit ⊢
    rw [hinit]
  have hassert {θ : Bindings} (hθ : θ ∈ db.unifyPath (init ++ [⟨.var x, .many⟩]))
      (hx : θ = (∅ : Bindings).insert x v) :
      db.assert (Sentence.print (init ++ [⟨v, .many⟩])) =
        .ok (db.confirms (init ++ [⟨.var x, .many⟩]) θ) := by
    have hconf := FactDatabase.assert_bind_of_mem h hq hv hθ
    rw [Sentence.bind_eq hq, hx, hsub] at hconf
    rw [hx]
    exact hconf
  refine ⟨_, evaluateAssert_nil_eq h hq hv, ?_⟩
  simp only [QueryState.success_ofRows, QueryState.rows_ofRows, List.mem_filter]
  constructor
  · rintro ⟨-, row, ⟨hrow, hconf⟩, hget⟩
    obtain ⟨e, he, rfl⟩ := (FactDatabase.mem_unifyPath_last h hground).mp hrow
    obtain rfl : e.value = v := by simpa [Dict.get?_insert] using hget
    exact ⟨⟨e, he, rfl⟩, by rw [hassert hrow rfl, hconf]⟩
  · rintro ⟨⟨e, he, rfl⟩, hfact⟩
    have hrow := (FactDatabase.mem_unifyPath_last (x := x) h hground).mpr ⟨e, he, rfl⟩
    have hconf : db.confirms (init ++ [⟨.var x, .many⟩]) ((∅ : Bindings).insert x e.value) = true :=
      Except.ok.inj ((hassert hrow rfl).symm.trans hfact)
    have hmem := List.mem_filter.mpr ⟨hrow, hconf⟩
    refine ⟨by simpa using List.ne_nil_of_mem hmem, _, ⟨hrow, hconf⟩, by simp [Dict.get?_insert]⟩

end Clause

/-! ## What has been inserted -/

theorem Sentence.Proper.cardinality_last {init : List Segment} {last : Segment}
    (h : Proper (init ++ [last])) : last.cardinality = .many := by
  induction init with
  | nil => exact h.2
  | cons s init ih =>
      cases init with
      | nil => exact ih h.2.2
      | cons t init => exact ih h.2.2

namespace FactDatabase

variable {db db' : FactDatabase}

/-- The last key of a path tells the value that is kept there, unless that is a float. -/
theorem value_eq_of_view (h : db.Sound) {p : List String} {key : String} {e : FactEntry}
    (he : db.view (p ++ [key]) = some e) (hf : e.value.isFloat = false) :
    e.value = .ofToken key.toList := by
  rw [view, FactMap.belowRoot_of_ne_nil _ (by simp), FactNode.view] at he
  obtain ⟨child, hc, rfl⟩ := Option.map_eq_some_iff.mp he
  rw [FactNode.at?_append_key] at hc
  obtain ⟨m, hm, hc⟩ := Option.bind_eq_some_iff.mp hc
  have hsound : m.Sound := by
    by_cases hp : p = []
    · subst hp
      obtain rfl := Option.some.inj hm
      exact h.sound_root
    · obtain ⟨_, hat⟩ := h.sound_root.at? hp hm
      exact hat.sound
  exact (hsound.child? hc).value_eq hf

/-- What has been inserted is found by its last value exactly where no other value stood in its place
before, and the sentence that is written with the symbols of its values is a fact. It is one if each of
these symbols reads as a value with the same symbol. Where there are no floats, nothing can come
between. -/
theorem insert_recall (hdb : db.Reachable) {s q x : String} {init : List Segment} {last : Segment}
    (hs : Sentence.parse s = .ok (init ++ [last])) (hi : db.insert s = .ok db')
    (hq : Sentence.parse q = .ok (init ++ [⟨.var x, .many⟩])) :
    ∃ state, Clause.evaluate db' ⟨true, []⟩ (.assert q) = .ok state ∧
      ((state.success = true ∧ ∃ row ∈ state.rows, row.get? x = some last.value) ↔
        (∀ e, db.view (keys (init ++ [last])) = some e → e.value = last.value) ∧
          db'.assert (Sentence.print (init ++ [last])) = .ok true) ∧
      ((∀ t ∈ init ++ [last], t.reread.toSymbol = t.toSymbol) →
        db'.assert (Sentence.print (init ++ [last])) = .ok true) ∧
      ((∀ t ∈ init ++ [last], t.value.isFloat = false) →
        (∀ e, db.view (keys (init ++ [last])) = some e → e.value.isFloat = false) →
        state.success = true ∧ ∃ row ∈ state.rows, row.get? x = some last.value) := by
  obtain ⟨hv, hsound, hholds, hview⟩ := of_insert hdb.sound hs hi
  have hproper := Sentence.proper_of_parse hs
  have hground : Sentence.anyVariable init = false := by
    simp only [Sentence.anyVariable, List.any_append, Bool.or_eq_false_iff] at hv
    exact hv.1
  have hlast : (⟨last.value, .many⟩ : Segment) = last := by rw [← hproper.cardinality_last]
  obtain ⟨state, hstate, hiff⟩ := Clause.evaluate_last hsound hground hq last.value
  rw [hlast] at hiff
  -- the older value stays, and else the new one is kept
  have hkept : (∃ e, db'.view (keys (init ++ [last])) = some e ∧ e.value = last.value) ↔
      ∀ e, db.view (keys (init ++ [last])) = some e → e.value = last.value := by
    rw [hview]
    cases db.view (keys (init ++ [last])) with
    | none => simp [Segment.entry]
    | some old => simp
  have hfact : (∀ t ∈ init ++ [last], t.reread.toSymbol = t.toSymbol) →
      db'.assert (Sentence.print (init ++ [last])) = .ok true := by
    intro hsame
    have hstored : ∀ t ∈ init ++ [last], t.value.Stored := fun t ht =>
      (@Sentence.stored_of_parseFact .insert _ _
        (Sentence.parseFact_eq_ok.mpr ⟨hs, hv⟩) t ht).1
    rw [assert_eq, Sentence.parseFact_eq_ok.mpr
      ⟨Sentence.parse_print hproper, Sentence.anyVariable_reread hstored⟩]
    exact congrArg Except.ok ((FactNode.holds_reread hsame _).trans hholds)
  rw [hkept] at hiff
  refine ⟨state, hstate, hiff, hfact, fun hnone hold => hiff.mpr ⟨fun e he => ?_, hfact ?_⟩⟩
  · have hkey : keys (init ++ [last]) = keys init ++ [last.toSymbol] := by simp [keys]
    have hlastval := (hproper.written last (by simp)).1.ofToken_toSymbol (hnone last (by simp))
    rw [value_eq_of_view hdb.sound (hkey ▸ he) (hold e he)]
    exact hlastval
  · intro t ht
    have hval := (hproper.written t ht).1.ofToken_toSymbol (hnone t ht)
    rw [Segment.reread, Segment.toSymbol, Segment.ofToken, Segment.toSymbol, hval]

theorem insert_eq_step {s : String} (h : (db.insert s).isOk = true) :
    db.insert s = .ok (db.step (.insert s)).2 := by
  cases hi : db.insert s with
  | error e => simp [hi, Except.isOk, Except.toBool] at h
  | ok db' => simp [step, hi]

/-- Of a height of three digits, which is a float and is found. -/
theorem insert_recall_of_height :
    ∃ (db' : FactDatabase) (state : QueryState) (last : Segment),
      (∅ : FactDatabase).insert "ann.height.[1.75]" = .ok db' ∧
      Clause.evaluate db' ⟨true, []⟩ (.assert "ann.height.?x") = .ok state ∧
      last.value.isFloat = true ∧ state.success = true ∧
      ∃ row ∈ state.rows, row.get? "?x" = some last.value := by
  have hs : Sentence.parse "ann.height.[1.75]" =
      .ok ([.ofToken "ann".toList .many, .ofToken "height".toList .many] ++
        [.ofToken "1.75".toList .many]) := rfl
  have hq : Sentence.parse "ann.height.?x" =
      .ok ([.ofToken "ann".toList .many, .ofToken "height".toList .many] ++
        [⟨.var "?x", .many⟩]) := rfl
  have hi := @insert_eq_step ∅ "ann.height.[1.75]" (by decide +kernel)
  obtain ⟨state, hstate, hiff, hfact, -⟩ := insert_recall .empty hs hi hq
  have hnone : ∀ e, view ∅ (keys ([.ofToken "ann".toList .many, .ofToken "height".toList .many] ++
      [.ofToken "1.75".toList .many])) = some e → e.value = .ofToken "1.75".toList := by
    simp [view_empty, FactMap.empty]
  exact ⟨_, state, .ofToken "1.75".toList .many, hi, hstate, by decide +kernel,
    hiff.mpr ⟨hnone, hfact (by decide +kernel)⟩⟩

/-- Of a height of five digits only three are written, and what they read as is no fact. -/
theorem long_height_is_not_recalled :
    ¬ ∀ (db db' : FactDatabase) (s q x : String) (init : List Segment) (last : Segment),
      db.Reachable → init ≠ [] → Sentence.parse s = .ok (init ++ [last]) → db.insert s = .ok db' →
      Sentence.parse q = .ok (init ++ [⟨.var x, .many⟩]) →
      ∃ state, Clause.evaluate db' ⟨true, []⟩ (.assert q) = .ok state ∧ state.success = true ∧
        ∃ row ∈ state.rows, row.get? x = some last.value := by
  intro h
  have hi := @insert_eq_step ∅ "ann.height.[1234.5]" (by decide +kernel)
  obtain ⟨state, hstate, hsuccess, -⟩ := h ∅ _ "ann.height.[1234.5]" "ann.height.?x" "?x"
    [.ofToken "ann".toList .many, .ofToken "height".toList .many] (.ofToken "1234.5".toList .many)
    .empty (by simp) rfl hi rfl
  have hfails : (Clause.evaluate ((∅ : FactDatabase).step (.insert "ann.height.[1234.5]")).2
      ⟨true, []⟩ (.assert "ann.height.?x")).toOption.any (·.success) = false := by
    decide +kernel
  rw [hstate] at hfails
  exact absurd hsuccess (by simpa [Except.toOption] using hfails)

end FactDatabase

end Society
