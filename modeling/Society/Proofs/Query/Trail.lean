import Society.Proofs.Fact.Run
import Society.Proofs.Query.Row

/-!
# Trails

A trail of a path is a list of nodes, each a child of the one before, whose keys are the symbols of
the path except where that has variables. Matching a path finds its trails in the order of their
keys, and reads from each the row that gives a variable the value at its last place.
-/

namespace Society

/-- Whether a node under a key can stand for a segment. -/
def Segment.accepts (s : Segment) (key : String) : Bool :=
  s.value.isVariable || key = s.toSymbol

/-- The trails of a path through the trees of a forest. -/
def Forest.trails : List Segment → Forest → List (List FactNode)
  | [], _ => [[]]
  | s :: path, f =>
    (f.toList.filter fun e => s.accepts e.1).flatMap fun e =>
      (trails path e.2.children).map (e.2 :: ·)

namespace Bindings

/-- The row with the value of a node for the segment that it stands for. -/
def extend (row : Bindings) (s : Segment) (value : NodeValue) : Bindings :=
  match s.value with
  | .var name => row.insert name value
  | _ => row

/-- The row with the values along a trail. -/
def along (row : Bindings) : List Segment → List FactNode → Bindings
  | s :: path, n :: trail => (row.extend s n.value).along path trail
  | _, _ => row

theorem get?_extend (row : Bindings) (s : Segment) (v : NodeValue) (name : String) :
    (row.extend s v).get? name = if s.value = .var name then some v else row.get? name := by
  unfold extend
  split
  · rename_i x hx
    rw [Dict.get?_insert, hx]
    by_cases hn : name = x
    · simp [hn]
    · simp [hn, Ne.symm hn]
  · rename_i hx
    rw [if_neg (hx name)]

/-- A variable of the path is bound along a trail, and no other name is bound anew. -/
theorem isSome_get?_along {path : List Segment} {trail : List FactNode}
    (hlen : trail.length = path.length) (row : Bindings) (name : String) :
    ((row.along path trail).get? name).isSome ↔
      (∃ s ∈ path, s.value = .var name) ∨ (row.get? name).isSome := by
  induction path generalizing trail row with
  | nil => simp [along]
  | cons s path ih =>
      cases trail with
      | nil => simp at hlen
      | cons n trail =>
          rw [along, ih (by simpa using hlen), get?_extend]
          by_cases hs : s.value = .var name
          · simp [hs]
          · simp [hs]

/-- What is bound along a trail is the value of a node of it. -/
theorem get?_along {path : List Segment} {trail : List FactNode} {row : Bindings} {name : String}
    {v : NodeValue} (h : (row.along path trail).get? name = some v) :
    row.get? name = some v ∨ ∃ n ∈ trail, n.value = v := by
  induction path generalizing trail row with
  | nil => exact .inl h
  | cons s path ih =>
      cases trail with
      | nil => exact .inl h
      | cons n trail =>
          rcases ih h with h | ⟨m, hm, hv⟩
          · rw [get?_extend] at h
            split at h
            · exact .inr ⟨n, List.mem_cons_self, Option.some.inj h⟩
            · exact .inl h
          · exact .inr ⟨m, List.mem_cons_of_mem _ hm, hv⟩

end Bindings

namespace Forest

theorem length_of_mem_trails {path : List Segment} {f : Forest} {trail : List FactNode}
    (h : trail ∈ f.trails path) : trail.length = path.length := by
  induction path generalizing f trail with
  | nil => simp [trails] at h; simp [h]
  | cons s path ih =>
      simp only [trails, List.mem_flatMap, List.mem_map] at h
      obtain ⟨e, -, t, ht, rfl⟩ := h
      simp [ih ht]

theorem mem_trails_cons {s : Segment} {path : List Segment} {f : Forest} (hf : f.Ascending)
    {trail : List FactNode} :
    trail ∈ f.trails (s :: path) ↔
      ∃ key n t, f.find? key = some n ∧ s.accepts key = true ∧ t ∈ n.children.trails path ∧
        trail = n :: t := by
  simp only [trails, List.mem_flatMap, List.mem_map, List.mem_filter]
  constructor
  · rintro ⟨⟨key, n⟩, ⟨he, ha⟩, t, ht, rfl⟩
    exact ⟨key, n, t, (mem_toList_iff hf).mp he, ha, ht, rfl⟩
  · rintro ⟨key, n, t, hn, ha, ht, rfl⟩
    exact ⟨(key, n), ⟨(mem_toList_iff hf).mpr hn, ha⟩, t, ht, rfl⟩

end Forest

namespace FactNode

/-- Every node of a trail below a node is at the end of a path of keys. -/
theorem at?_of_mem_trail {path : List Segment} {n : FactNode} (h : n.Sound)
    {trail : List FactNode} (ht : trail ∈ n.children.trails path) :
    ∀ m ∈ trail, ∃ p, p ≠ [] ∧ n.at? p = some m := by
  induction path generalizing n trail with
  | nil => simp only [Forest.trails, List.mem_singleton] at ht; subst ht; simp
  | cons s path ih =>
      obtain ⟨key, child, t, hc, -, ht', rfl⟩ := (Forest.mem_trails_cons h.2.ascending).mp ht
      have hc' : n.child? key = some child := hc
      intro m hm
      rcases List.mem_cons.mp hm with rfl | hm
      · exact ⟨[key], by simp, by simp [hc']⟩
      · obtain ⟨p, -, hp⟩ := ih (h.child? hc').sound ht' m hm
        exact ⟨key :: p, by simp, by simp [hc', hp]⟩

end FactNode

/-! ## Matching finds the trails -/

namespace Match

theorem advanceThrough_eq (s : Segment) (row : Bindings) (f : Forest) :
    advanceThrough s row f =
      (f.toList.filter fun e => s.accepts e.1).map fun e => ⟨row.extend s e.2.value, e.2.children⟩ := by
  induction f with
  | nil => rfl
  | cons k v c children rest _ ih =>
      simp only [advanceThrough, ih, Forest.toList, List.filter_cons]
      cases hs : s.value with
      | var name => simp [Segment.accepts, NodeValue.isVariable, NodeValue.kind, Bindings.extend, hs]
      | _ =>
          by_cases hk : k = s.toSymbol
          · simp [Segment.accepts, NodeValue.isVariable, NodeValue.kind, Bindings.extend, hs, hk]
          · simp [Segment.accepts, NodeValue.isVariable, NodeValue.kind, hs, hk]

theorem rows_foldl_advance (path : List Segment) (found : List Match) :
    (path.foldl (fun found s => found.flatMap (advance s)) found).map (·.row) =
      found.flatMap fun m => (m.children.trails path).map (m.row.along path) := by
  induction path generalizing found with
  | nil => simp [Forest.trails, Bindings.along, ← List.map_eq_flatMap]
  | cons s path ih =>
      rw [List.foldl_cons, ih, List.flatMap_assoc]
      congr 1
      funext m
      simp only [advance, advanceThrough_eq, List.flatMap_map, Forest.trails, List.map_flatMap,
        List.map_map]
      rfl

end Match

namespace FactDatabase

theorem unifyPath_eq (db : FactDatabase) {path : List Segment}
    (hv : Sentence.anyVariable path = true) :
    db.unifyPath path = (db.root.children.trails path).map ((∅ : Bindings).along path) := by
  simp only [unifyPath]
  rw [Match.rows_foldl_advance, List.flatMap_singleton, List.filter_eq_self]
  intro row hrow
  obtain ⟨trail, ht, rfl⟩ := List.mem_map.mp hrow
  obtain ⟨s, hs, hvar⟩ := List.any_eq_true.mp hv
  have hname : ∃ name, s.value = .var name := by
    cases h : s.value <;> simp_all [NodeValue.isVariable, NodeValue.kind]
  obtain ⟨name, hname⟩ := hname
  have hbound := (Bindings.isSome_get?_along (Forest.length_of_mem_trails ht) ∅ name).mpr
    (.inl ⟨s, hs, hname⟩)
  simp [Bindings.isEmpty_eq_false hbound]

end FactDatabase

end Society
