import Society.Proofs.Query.Candidate

/-!
# What an asserted sentence finds

A row answers a path if it binds the variables of the path, and the tree has the path that the row
makes of it. In a tree without floats, the rows that an asserted sentence leaves are those that were
there, joined to the rows that answer its path.
-/

namespace Society

/-- No node of the tree is a float. -/
def FactNode.FloatFree (n : FactNode) : Prop :=
  ∀ keys m, n.at? keys = some m → m.value.isFloat = false

/-- The tree has the path that a row makes of a path: each node has the value of the variable that it
stands for, and each but the last the cardinality that is written. -/
def FactNode.Matches (θ : Bindings) : List Segment → FactNode → Prop
  | [], _ => True
  | s :: path, n =>
    ∃ child, n.child? (Sentence.resolve θ s.value).toSymbol = some child ∧
      (∀ name, s.value = .var name → θ.get? name = some child.value) ∧
      (path ≠ [] → child.cardinality = s.cardinality) ∧ Matches θ path child

/-- A row that binds the variables of a path and nothing else, so that the path is in the tree. -/
structure FactDatabase.Answers (db : FactDatabase) (path : List Segment) (θ : Bindings) : Prop where
  binds : ∀ name, (θ.get? name).isSome ↔ ∃ s ∈ path, s.value = .var name
  found : db.root.Matches θ path

namespace NodeValue

theorem eq_of_equalTo {v w : NodeValue} (h : v.equalTo w = true) (hw : w.isFloat = false) :
    v = w := by
  cases v <;> cases w <;> simp_all [equalTo, isFloat]

end NodeValue

theorem Forest.mem_preorder_of_find? {f : Forest} {key : String} {n : FactNode} {depth : Nat}
    (h : f.find? key = some n) {e : Nat × FactNode}
    (he : e ∈ (depth, n) :: n.children.preorder (depth + 1)) : e ∈ f.preorder depth := by
  induction f with
  | nil => simp at h
  | cons k v c children rest _ ih =>
      simp only [Forest.find?] at h
      simp only [Forest.preorder]
      split at h
      · obtain rfl := Option.some.inj h
        exact List.mem_append_left _ he
      · exact List.mem_append_right _ (ih h)

namespace FactNode

theorem FloatFree.child? {n child : FactNode} {key : String} (h : n.FloatFree)
    (hc : n.child? key = some child) : child.FloatFree := by
  intro keys m hm
  exact h (key :: keys) m (by simp [hc, hm])

/-- Going through the nodes of a tree tells whether one is a float. -/
theorem floatFree_of_preorder {n : FactNode} (h : ∀ e ∈ n.preorder, e.2.value.isFloat = false) :
    n.FloatFree := by
  intro keys m hm
  have hbelow : ∀ (depth : Nat) (n : FactNode), n.at? keys = some m →
      ∃ d, (d, m) ∈ (depth, n) :: n.children.preorder (depth + 1) := by
    clear h hm n
    intro depth n hm
    induction keys generalizing n depth with
    | nil => exact ⟨depth, by simp_all⟩
    | cons key keys ih =>
        rw [at?_cons] at hm
        obtain ⟨child, hc, hm⟩ := Option.bind_eq_some_iff.mp hm
        obtain ⟨d, hd⟩ := ih (depth + 1) child hm
        exact ⟨d, List.mem_cons_of_mem _ (Forest.mem_preorder_of_find? hc hd)⟩
  obtain ⟨d, hd⟩ := hbelow 0 n hm
  exact h (d, m) hd

/-- A path that the tree matches has a trail, along which nothing is bound against the row. -/
theorem Matches.exists_trail {path : List Segment} {n : FactNode} {θ : Bindings} (hn : n.Sound)
    (h : n.Matches θ path) :
    ∃ trail ∈ n.children.trails path, ∀ row : Bindings,
      (∀ name v, row.get? name = some v → θ.get? name = some v) →
        ∀ name v, (row.along path trail).get? name = some v → θ.get? name = some v := by
  induction path generalizing n with
  | nil => exact ⟨[], by simp [Forest.trails], fun row hrow => hrow⟩
  | cons s path ih =>
      obtain ⟨child, hc, hvar, -, hrest⟩ := h
      obtain ⟨trail, ht, hbound⟩ := ih (hn.child? hc).sound hrest
      have hacc : s.accepts (Sentence.resolve θ s.value).toSymbol = true := by
        cases hv : s.value.isVariable with
        | true => simp [Segment.accepts, hv]
        | false => simp [Segment.accepts, hv, Sentence.resolve_of_not_variable hv, Segment.toSymbol]
      refine ⟨child :: trail,
        (Forest.mem_trails_cons hn.2.ascending).mpr ⟨_, child, trail, hc, hacc, ht, rfl⟩, ?_⟩
      intro row hrow
      refine hbound (row.extend s child.value) fun name v hv => ?_
      rw [Bindings.get?_extend] at hv
      split at hv
      · rename_i hs
        rw [hvar name hs, hv]
      · exact hrow name v hv

/-- With stored values for its variables the path holds where it matches. -/
theorem holds_substitute_iff {path : List Segment} {n : FactNode} {θ : Bindings} (hn : n.Sound)
    (hfl : n.FloatFree)
    (hθ : ∀ s ∈ path, ∀ name, s.value = .var name →
      ∃ v, θ.get? name = some v ∧ v.Stored ∧ v.isFloat = false) :
    n.holds (Sentence.substitute θ path) = true ↔ n.Matches θ path := by
  induction path generalizing n with
  | nil => simp [Sentence.substitute, holds, Matches]
  | cons s path ih =>
      have hempty : (Sentence.substitute θ path).isEmpty = path.isEmpty := by
        simp [Sentence.substitute]
      simp only [Sentence.substitute, List.map_cons, holds, Segment.toSymbol, Matches]
      cases hc : n.child? (Sentence.resolve θ s.value).toSymbol with
      | none => simp
      | some child =>
          have hchild := hn.child? hc
          have hval : ∀ name, s.value = .var name → θ.get? name = some child.value := by
            intro name hname
            obtain ⟨v, hv, hst, hvf⟩ := hθ s List.mem_cons_self name hname
            have hcf : child.value.isFloat = false := hfl.child? hc [] child rfl
            rw [hv, hchild.value_eq hcf, hname, Sentence.resolve_of_get? hv,
              hst.1.ofToken_toSymbol hvf]
          have hrec := ih hchild.sound (hfl.child? hc) fun t ht => hθ t (List.mem_cons_of_mem _ ht)
          simp only [Sentence.substitute] at hrec hempty
          simp only [Bool.or_eq_true, hempty, Bool.and_eq_true, decide_eq_true_eq, hrec,
            Option.some.injEq, exists_eq_left']
          cases path with
          | nil => simpa [Matches] using hval
          | cons t path => simpa using fun _ _ => hval

end FactNode

namespace FactDatabase

variable {db : FactDatabase} {path : List Segment}

theorem bound_of_mem_unifyPath (h : db.Sound) (hfl : db.root.FloatFree)
    (hv : Sentence.anyVariable path = true) {θ : Bindings} (hθ : θ ∈ db.unifyPath path)
    {s : Segment} (hs : s ∈ path) {name : String} (hname : s.value = .var name) :
    ∃ v, θ.get? name = some v ∧ v.Stored ∧ v.isFloat = false := by
  obtain ⟨v, hget⟩ := Option.isSome_iff_exists.mp
    (((get?_of_mem_unifyPath h hv hθ).1 name).mpr ⟨s, hs, hname⟩)
  obtain ⟨p, n, -, hp, rfl⟩ := (get?_of_mem_unifyPath h hv hθ).2 name v hget
  exact ⟨_, hget, stored_of_mem_unifyPath h hv hθ hget, hfl p n hp⟩

/-- Writing a matched row into a path of no floats and reading it again changes nothing. -/
theorem reread_substitute (h : db.Sound) (hfl : db.root.FloatFree)
    (hproper : Sentence.Proper path) (hv : Sentence.anyVariable path = true)
    (hs : ∀ t ∈ path, t.value.isFloat = false) {θ : Bindings} (hθ : θ ∈ db.unifyPath path) :
    (Sentence.substitute θ path).map Segment.reread = Sentence.substitute θ path := by
  refine Sentence.reread_eq (Sentence.proper_substitute hproper fun t ht =>
    (stored_resolve h hproper hv hθ ht).1) fun u hu => ?_
  obtain ⟨t, ht, rfl⟩ := List.mem_map.mp hu
  show (Sentence.resolve θ t.value).isFloat = false
  cases hname : t.value with
  | var name =>
      obtain ⟨w, hw, -, hwf⟩ := bound_of_mem_unifyPath h hfl hv hθ ht hname
      rwa [Sentence.resolve_of_get? hw]
  | _ =>
      have hf := hs t ht
      rwa [hname] at hf

/-- The rows that answer a path are the matched ones that are confirmed. -/
theorem answers_iff (h : db.Sound) (hfl : db.root.FloatFree) (hproper : Sentence.Proper path)
    (hv : Sentence.anyVariable path = true) (hs : ∀ t ∈ path, t.value.isFloat = false)
    {θ : Bindings} :
    db.Answers path θ ↔ θ ∈ db.unifyPath path ∧ db.confirms path θ = true := by
  have hiff : θ ∈ db.unifyPath path →
      (db.confirms path θ = true ↔ db.root.Matches θ path) := by
    intro hmem
    rw [confirms, reread_substitute h hfl hproper hv hs hmem]
    exact FactNode.holds_substitute_iff h.sound_root hfl fun s hs name hname =>
      bound_of_mem_unifyPath h hfl hv hmem hs hname
  constructor
  · intro hans
    have hmem : θ ∈ db.unifyPath path := by
      obtain ⟨trail, ht, hbound⟩ := hans.found.exists_trail h.sound_root
      rw [unifyPath_eq db hv]
      refine List.mem_map.mpr ⟨trail, ht, Dict.ext_get? fun name => ?_⟩
      have hsome := Bindings.isSome_get?_along (Forest.length_of_mem_trails ht) ∅ name
      cases hget : (Bindings.along ∅ path trail).get? name with
      | some v => exact (hbound ∅ (by simp) name v hget).symm
      | none =>
          have hnot : ¬ (θ.get? name).isSome := by
            rw [hans.binds name]
            intro hvar
            simpa [hget] using hsome.mpr (.inl hvar)
          exact (Option.not_isSome_iff_eq_none.mp hnot).symm
    exact ⟨hmem, (hiff hmem).mpr hans.found⟩
  · rintro ⟨hmem, hconf⟩
    exact ⟨(get?_of_mem_unifyPath h hv hmem).1, (hiff hmem).mp hconf⟩

theorem resolve_merge (h : db.Sound) (hfl : db.root.FloatFree)
    (hv : Sentence.anyVariable path = true) {i θ : Bindings} (hθ : θ ∈ db.unifyPath path)
    (ha : i.agrees θ = true) {t : Segment} (ht : t ∈ path) :
    Sentence.resolve (i.merge θ) t.value = Sentence.resolve θ t.value := by
  cases hname : t.value with
  | var name =>
      obtain ⟨w, hw, -, hwf⟩ := bound_of_mem_unifyPath h hfl hv hθ ht hname
      have hmerge : (i.merge θ).get? name = some w := by
        rw [Bindings.get?_merge, hw]
        cases hi : i.get? name with
        | none => rfl
        | some v =>
            exact congrArg some
              (NodeValue.eq_of_equalTo (Bindings.agrees_iff.mp ha name v w hi hw) hwf)
      rw [Sentence.resolve_of_get? hmerge, Sentence.resolve_of_get? hw]
  | _ => rfl

end FactDatabase

namespace QueryState

@[simp] theorem success_ofRows (rows : List Bindings) : (ofRows rows).success = !rows.isEmpty := by
  cases rows <;> simp [ofRows, failed]

@[simp] theorem rows_ofRows (rows : List Bindings) : (ofRows rows).rows = rows := by
  cases rows <;> simp [ofRows, failed]

end QueryState

namespace Clause

/-- A sentence with variables that is asserted leaves the rows there were, each joined to the rows
that answer the path and agree with it. It fails if none is left. -/
theorem evaluate_assert {db : FactDatabase} (hdb : db.Reachable) (hfl : db.root.FloatFree)
    {s : String} {path : List Segment} (hp : Sentence.parse s = .ok path)
    (hv : Sentence.anyVariable path = true) (hs : ∀ t ∈ path, t.value.isFloat = false)
    (rows : List Bindings) :
    ∃ state, evaluate db ⟨true, rows⟩ (.assert s) = .ok state ∧
      (∀ r, r ∈ state.rows ↔
        ∃ i ∈ (if rows.isEmpty then [∅] else rows), ∃ θ, db.Answers path θ ∧
          (∀ name v w, i.get? name = some v → θ.get? name = some w → v.equalTo w = true) ∧
          ∀ name, r.get? name = (i.get? name).or (θ.get? name)) ∧
      (state.success = true ↔ state.rows ≠ []) := by
  have hsound := hdb.sound
  have hproper := Sentence.proper_of_parse hp
  have hstored : ∀ r ∈ db.candidates path rows, ∀ t ∈ path,
      (Sentence.resolve r t.value).Stored := by
    intro r hr t ht
    obtain ⟨i, -, θ, hθ, ha, rfl⟩ := FactDatabase.mem_candidates.mp hr
    rw [FactDatabase.resolve_merge hsound hfl hv hθ ha ht]
    exact FactDatabase.stored_resolve hsound hproper hv hθ ht
  -- asserting a candidate again tests the match that it was joined from
  have hconf : ∀ i θ, θ ∈ db.unifyPath path → Bindings.agrees i θ = true →
      db.confirms path (i.merge θ) = db.confirms path θ := by
    intro i θ hθ ha
    have hsub : Sentence.substitute (i.merge θ) path = Sentence.substitute θ path :=
      List.map_congr_left fun t ht => by rw [FactDatabase.resolve_merge hsound hfl hv hθ ha ht]
    rw [FactDatabase.confirms, hsub, FactDatabase.confirms]
  have hanswers {θ : Bindings} := FactDatabase.answers_iff (θ := θ) hsound hfl hproper hv hs
  refine ⟨_, evaluateAssert_eq hsound hp hv hstored, fun r => ?_, by simp⟩
  rw [QueryState.rows_ofRows, List.mem_filter, FactDatabase.mem_candidates]
  constructor
  · rintro ⟨⟨i, hi, θ, hθ, ha, rfl⟩, hr⟩
    rw [hconf i θ hθ ha] at hr
    exact ⟨i, hi, θ, hanswers.mpr ⟨hθ, hr⟩, Bindings.agrees_iff.mp ha, Bindings.get?_merge i θ⟩
  · rintro ⟨i, hi, θ, hans, hagree, hget⟩
    obtain ⟨hθ, hr⟩ := hanswers.mp hans
    have ha := Bindings.agrees_iff.mpr hagree
    obtain rfl : r = i.merge θ :=
      Dict.ext_get? fun name => (hget name).trans (Bindings.get?_merge i θ name).symm
    exact ⟨⟨i, hi, θ, hθ, ha, rfl⟩, (hconf i θ hθ ha).trans hr⟩

/-- Of a variable that occurs twice, with two trails that end in the same value, and of a row that
binds it to another one. -/
theorem evaluate_assert_repeated_variable :
    ∃ db path, db.Reachable ∧ db.root.FloatFree ∧ Sentence.parse "?x.rel.?x" = .ok path ∧
      Sentence.anyVariable path = true ∧ (∀ t ∈ path, t.value.isFloat = false) ∧
      ∃ state, evaluate db ⟨true, [∅, (∅ : Bindings).insert "?x" (.symbol "c")]⟩
          (.assert "?x.rel.?x") = .ok state ∧
        state.rows = List.replicate 2 ((∅ : Bindings).insert "?x" (.symbol "b")) ∧
        state.success = true := by
  have hdb : FactDatabase.Reachable
      (((∅ : FactDatabase).step (.insert "b.rel.b")).2.step (.insert "a.rel.b")).2 :=
    .step _ (.step _ .empty)
  have hfl := FactNode.floatFree_of_preorder (n := FactDatabase.root
    (((∅ : FactDatabase).step (.insert "b.rel.b")).2.step (.insert "a.rel.b")).2) (by decide)
  refine ⟨_, _, hdb, hfl, rfl, rfl, by decide, ?_⟩
  obtain ⟨state, hs, -, hsuccess⟩ := evaluate_assert hdb hfl (s := "?x.rel.?x") rfl rfl (by decide)
    [∅, (∅ : Bindings).insert "?x" (.symbol "c")]
  have hrows : state.rows = List.replicate 2 ((∅ : Bindings).insert "?x" (.symbol "b")) := by
    cases hs; rfl
  exact ⟨state, hs, hrows, hsuccess.mpr (by simp [hrows])⟩

end Clause

end Society
