import Society.Proofs.Query.Trail
import Society.Query.Evaluate

/-!
# Candidates of an assertion

An asserted sentence with variables is matched, and each row that is found is written into the
sentence and asserted again. Here both halves are brought into a form without parsing and printing.
-/

namespace Society

namespace Sentence

/-- The path with the values of its bound variables. -/
def substitute (row : Bindings) (path : List Segment) : List Segment :=
  path.map fun s => { s with value := resolve row s.value }

theorem resolve_of_not_variable {v : NodeValue} (h : v.isVariable = false) (row : Bindings) :
    resolve row v = v := by
  cases v with
  | var name => simp [NodeValue.isVariable, NodeValue.kind] at h
  | _ => rfl

theorem resolve_of_get? {row : Bindings} {name : String} {v : NodeValue}
    (h : row.get? name = some v) : resolve row (.var name) = v := by
  simp [resolve, h]

theorem bind_eq {s : String} {path : List Segment} (hp : parse s = .ok path) (row : Bindings) :
    bind s row = .ok (print (substitute row path)) := by
  simp [bind, hp, Except.map, substitute]

theorem proper_substitute {row : Bindings} {path : List Segment} (h : Proper path)
    (hw : ∀ s ∈ path, (resolve row s.value).Written) : Proper (substitute row path) := by
  induction path with
  | nil => exact h.elim
  | cons s path ih =>
      have hs := hw s List.mem_cons_self
      cases path with
      | nil => exact ⟨hs, h.2⟩
      | cons t path =>
          exact ⟨hs, h.2.1, ih h.2.2 fun u hu => hw u (List.mem_cons_of_mem _ hu)⟩

theorem anyVariable_reread {path : List Segment}
    (h : ∀ s ∈ path, s.value.Stored) : anyVariable (path.map Segment.reread) = false := by
  simp only [anyVariable, List.any_map, List.any_eq_false]
  intro s hs
  obtain ⟨hw, hv⟩ := h s hs
  have hq := hw.head?_toSymbol hv
  simpa [Segment.reread, Segment.ofToken, Segment.toSymbol, NodeValue.isVariable_ofToken] using hq

end Sentence

namespace FactDatabase

/-- Whether the path that a row makes of a path is there, as its written symbols read. -/
def confirms (db : FactDatabase) (path : List Segment) (row : Bindings) : Bool :=
  db.root.holds ((Sentence.substitute row path).map Segment.reread)

/-- Writing a row into a sentence and asserting the outcome looks up the path that the written
symbols read as. -/
theorem assert_bind (db : FactDatabase) {s : String} {path : List Segment} {row : Bindings}
    (hp : Sentence.parse s = .ok path)
    (hrow : ∀ t ∈ path, (Sentence.resolve row t.value).Stored) :
    (do db.assert (← Sentence.bind s row)) = .ok (db.confirms path row) := by
  have hproper := Sentence.proper_substitute (Sentence.proper_of_parse hp) fun t ht => (hrow t ht).1
  have hstored : ∀ t ∈ Sentence.substitute row path, t.value.Stored := by
    intro t ht
    obtain ⟨u, hu, rfl⟩ := List.mem_map.mp ht
    exact hrow u hu
  have hfact : Sentence.parseFact .assert (Sentence.print (Sentence.substitute row path)) =
      .ok ((Sentence.substitute row path).map Segment.reread) :=
    Sentence.parseFact_eq_ok.mpr ⟨Sentence.parse_print hproper, Sentence.anyVariable_reread hstored⟩
  simp only [Sentence.bind_eq hp, Bind.bind, Except.bind, assert_eq, hfact, confirms]

/-- The rows that are asserted again: the matches of the path, joined to the rows there are. -/
def candidates (db : FactDatabase) (path : List Segment) (rows : List Bindings) : List Bindings :=
  if rows.isEmpty then db.unifyPath path else Bindings.join rows (db.unifyPath path)

theorem mem_candidates {db : FactDatabase} {path : List Segment} {rows : List Bindings}
    {r : Bindings} :
    r ∈ db.candidates path rows ↔
      ∃ i ∈ (if rows.isEmpty then [∅] else rows), ∃ θ ∈ db.unifyPath path,
        i.agrees θ = true ∧ r = i.merge θ := by
  unfold candidates
  split
  · constructor
    · intro hr
      refine ⟨∅, by simp, r, hr, Bindings.agrees_iff.mpr (by simp), ?_⟩
      exact Dict.ext_get? fun name => by simp [Bindings.get?_merge]
    · rintro ⟨i, hi, θ, hθ, -, rfl⟩
      obtain rfl := List.mem_singleton.mp hi
      have hm : (∅ : Bindings).merge θ = θ :=
        Dict.ext_get? fun name => by simp [Bindings.get?_merge]
      rwa [hm]
  · exact Bindings.mem_join

/-- A matched row binds the variables of the path and nothing else, to values of nodes below the
root. -/
theorem get?_of_mem_unifyPath {db : FactDatabase} (h : db.Sound) {path : List Segment}
    (hv : Sentence.anyVariable path = true) {θ : Bindings} (hθ : θ ∈ db.unifyPath path) :
    (∀ name, (θ.get? name).isSome ↔ ∃ s ∈ path, s.value = .var name) ∧
      ∀ name v, θ.get? name = some v → ∃ p n, p ≠ [] ∧ db.root.at? p = some n ∧ n.value = v := by
  rw [unifyPath_eq db hv] at hθ
  obtain ⟨trail, ht, rfl⟩ := List.mem_map.mp hθ
  constructor
  · intro name
    rw [Bindings.isSome_get?_along (Forest.length_of_mem_trails ht)]
    simp
  · intro name v hget
    rcases Bindings.get?_along hget with hget | ⟨n, hn, rfl⟩
    · simp at hget
    · obtain ⟨p, hne, hp⟩ := FactNode.at?_of_mem_trail h.sound_root ht n hn
      exact ⟨p, n, hne, hp, rfl⟩

theorem stored_of_mem_unifyPath {db : FactDatabase} (h : db.Sound) {path : List Segment}
    (hv : Sentence.anyVariable path = true) {θ : Bindings} (hθ : θ ∈ db.unifyPath path)
    {name : String} {v : NodeValue} (hget : θ.get? name = some v) : v.Stored := by
  obtain ⟨p, n, hne, hp, rfl⟩ := (get?_of_mem_unifyPath h hv hθ).2 name v hget
  obtain ⟨key, hn⟩ := h.sound_root.at? hne hp
  exact hn.stored

theorem stored_resolve {db : FactDatabase} (h : db.Sound) {path : List Segment}
    (hproper : Sentence.Proper path) (hv : Sentence.anyVariable path = true) {θ : Bindings}
    (hθ : θ ∈ db.unifyPath path) {t : Segment} (ht : t ∈ path) :
    (Sentence.resolve θ t.value).Stored := by
  cases hname : t.value with
  | var name =>
      obtain ⟨v, hget⟩ := Option.isSome_iff_exists.mp
        (((get?_of_mem_unifyPath h hv hθ).1 name).mpr ⟨t, ht, hname⟩)
      rw [Sentence.resolve_of_get? hget]
      exact stored_of_mem_unifyPath h hv hθ hget
  | _ =>
      have hw := (hproper.written t ht).1
      rw [hname] at hw
      exact ⟨hw, rfl⟩

theorem isSome_of_mem_candidates {db : FactDatabase} (h : db.Sound) {path : List Segment}
    (hv : Sentence.anyVariable path = true) {rows : List Bindings} {r : Bindings}
    (hr : r ∈ db.candidates path rows) {s : Segment} (hs : s ∈ path) {name : String}
    (hname : s.value = .var name) : (r.get? name).isSome := by
  obtain ⟨i, -, θ, hθ, -, rfl⟩ := mem_candidates.mp hr
  rw [Bindings.get?_merge, Option.isSome_or]
  simp [((get?_of_mem_unifyPath h hv hθ).1 name).mpr ⟨s, hs, hname⟩]

theorem unifyAll_eq {db : FactDatabase} (h : db.Sound) {s : String} {path : List Segment}
    (hp : Sentence.parse s = .ok path) (hv : Sentence.anyVariable path = true)
    (rows : List Bindings) : db.unifyAll rows [s] = .ok (db.candidates path rows) := by
  have hne : (db.candidates path rows).filter (fun row => !row.isEmpty) = db.candidates path rows := by
    rw [List.filter_eq_self]
    intro r hr
    obtain ⟨t, ht, hvar⟩ := List.any_eq_true.mp hv
    cases hname : t.value with
    | var name =>
        simp [Bindings.isEmpty_eq_false (isSome_of_mem_candidates h hv hr ht hname)]
    | _ => simp [hname, NodeValue.isVariable, NodeValue.kind] at hvar
  simp only [unifyAll, List.foldlM_cons, List.foldlM_nil, narrow, unify, hp, Except.map]
  exact congrArg Except.ok hne

end FactDatabase

namespace Clause

theorem keepIf_eq {test : Bindings → Except FactError Bool} {p : Bindings → Bool}
    {rows : List Bindings} (h : ∀ row ∈ rows, test row = .ok (p row)) :
    keepIf test rows = .ok (rows.filter p) := by
  induction rows with
  | nil => rfl
  | cons row rows ih =>
      have hrest := ih fun r hr => h r (List.mem_cons_of_mem _ hr)
      simp only [keepIf, h row List.mem_cons_self, hrest, bind, Except.bind, List.filter_cons]
      rfl

theorem evaluateAssert_eq {db : FactDatabase} (h : db.Sound) {s : String} {path : List Segment}
    (hp : Sentence.parse s = .ok path) (hv : Sentence.anyVariable path = true)
    {rows : List Bindings}
    (hrows : ∀ r ∈ db.candidates path rows, ∀ t ∈ path, (Sentence.resolve r t.value).Stored) :
    evaluateAssert db ⟨true, rows⟩ s =
      .ok (.ofRows ((db.candidates path rows).filter (db.confirms path))) := by
  have hvars : Sentence.hasVariables s = .ok true := by simp [Sentence.hasVariables, hp, Except.map, hv]
  have hkeep := keepIf_eq fun r hr => db.assert_bind hp (hrows r hr)
  simp only [bind, Except.bind] at hkeep
  simp only [evaluateAssert, hvars, db.unifyAll_eq h hp hv, hkeep, bind, Except.bind, ↓reduceIte]
  rfl

end Clause

end Society
