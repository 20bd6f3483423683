import Society.Proofs.Fact.Build
import Society.Proofs.Query.Distinct
import Society.Proofs.Query.Front

/-!
# Matching as an enumeration

A path is matched level by level, each level going on from all beginnings found so far. What comes
out is what a walk down the tree lists: the ways down from the root whose nodes can stand for the
segments, in the lexicographic order of their keys, each read as the row that gives a variable the
value at its last place.
-/

namespace Society

/-! ## Ways down a tree -/

namespace FactNode

variable {n : FactNode} {path : List Segment} {trail : List FactNode}

/-- The nodes of a list lead down from a node: each is the child of the one before that stands under
its symbol. -/
def Descends : FactNode → List FactNode → Prop
  | _, [] => True
  | n, m :: trail => n.child? m.toSymbol = some m ∧ m.Descends trail

/-- The trails of a path are the ways down whose nodes have the symbols of the path except where it
has variables. -/
theorem mem_trails_iff (h : n.Everywhere Orderly) :
    trail ∈ n.children.trails path ↔ n.Descends trail ∧
      List.Forall₂ (fun s m => s.value.isVariable = false → m.toSymbol = s.toSymbol)
        path trail := by
  induction path generalizing n trail with
  | nil =>
      rw [Forest.trails, List.mem_singleton, List.forall₂_nil_left_iff]
      constructor
      · rintro rfl
        exact ⟨trivial, rfl⟩
      · exact fun ht => ht.2
  | cons s path ih =>
      rw [Forest.mem_trails_cons h.here.ascending]
      constructor
      · rintro ⟨key, m, t, hm, hacc, ht, rfl⟩
        have hm' : n.child? key = some m := hm
        obtain ⟨hdown, hfit⟩ := (ih (h.of_child? hm')).mp ht
        obtain rfl := h.here.symbol_eq hm'
        refine ⟨⟨hm', hdown⟩, .cons (fun hs => ?_) hfit⟩
        simpa [Segment.accepts, hs] using hacc
      · rintro ⟨hdown, hfit⟩
        cases hfit with
        | cons hs hfit =>
            obtain ⟨hm, hdown⟩ := hdown
            refine ⟨_, _, _, hm, ?_, (ih (h.of_child? hm)).mpr ⟨hdown, hfit⟩, rfl⟩
            cases hvar : s.value.isVariable with
            | true => simp [Segment.accepts, hvar]
            | false => simp [Segment.accepts, hvar, hs hvar]

/-- The trails of a path are listed in the lexicographic order of their keys. -/
theorem pairwise_trails (h : n.Everywhere Orderly) :
    (n.children.trails path).Pairwise fun t u => t.map toSymbol < u.map toSymbol := by
  induction path generalizing n with
  | nil => exact List.pairwise_singleton _ _
  | cons s path ih =>
      have hchild {e : String × FactNode}
          (he : e ∈ n.children.toList.filter fun e => s.accepts e.1) : n.child? e.1 = some e.2 :=
        (Forest.mem_toList_iff h.here.ascending).mp (List.mem_filter.mp he).1
      have hkeys : n.children.toList.Pairwise fun e e' => e.1 < e'.1 :=
        List.pairwise_map.mp h.here.ascending
      rw [Forest.trails, List.pairwise_flatMap]
      constructor
      · -- the trails through one child differ further down
        intro e he
        refine List.pairwise_map.mpr ((ih (h.of_child? (hchild he))).imp fun hlt => ?_)
        exact List.cons_lt_cons_iff.mpr (.inr ⟨rfl, hlt⟩)
      · refine (hkeys.filter _).imp_of_mem fun {e e'} he he' hlt t ht u hu => ?_
        obtain ⟨t, -, rfl⟩ := List.mem_map.mp ht
        obtain ⟨u, -, rfl⟩ := List.mem_map.mp hu
        rw [h.here.symbol_eq (hchild he), h.here.symbol_eq (hchild he')] at hlt
        exact List.cons_lt_cons_iff.mpr (.inl hlt)

end FactNode

/-! ## The row of a way down -/

namespace Bindings

variable {row : Bindings} {path : List Segment} {trail : List FactNode}

/-- The row binds the variables of the path and nothing else, each to the value of the node at its
last place. -/
def ReadsLast (row : Bindings) (path : List Segment) (trail : List FactNode) : Prop :=
  ∀ name, row.get? name =
    ((path.zip trail).reverse.find? fun e => e.1.value = .var name).map fun e => e.2.value

theorem get?_along_eq (row : Bindings) (path : List Segment) (trail : List FactNode)
    (name : String) :
    (row.along path trail).get? name =
      (((path.zip trail).reverse.find? fun e => e.1.value = .var name).map fun e => e.2.value).or
        (row.get? name) := by
  induction path generalizing row trail with
  | nil => rfl
  | cons s path ih =>
      cases trail with
      | nil => rfl
      | cons m trail =>
          rw [along, ih, get?_extend, List.zip_cons_cons, List.reverse_cons, List.find?_append,
            Option.map_or, Option.or_assoc]
          congr 1
          by_cases hs : s.value = .var name
          · simp [hs]
          · simp [hs]

theorem readsLast_along (path : List Segment) (trail : List FactNode) :
    ((∅ : Bindings).along path trail).ReadsLast path trail := by
  intro name
  rw [get?_along_eq, Dict.get?_empty, Option.or_none]

end Bindings

/-! ## All rows of a sentence -/

namespace FactDatabase

theorem unifyPath_of_ground (db : FactDatabase) {path : List Segment}
    (hground : Sentence.anyVariable path = false) : db.unifyPath path = [] := by
  simp only [unifyPath]
  rw [Match.rows_foldl_advance, List.flatMap_singleton, List.filter_eq_nil_iff]
  intro row hrow
  obtain ⟨trail, -, rfl⟩ := List.mem_map.mp hrow
  rw [Bindings.along_of_ground hground]
  exact Bool.false_ne_true

/-- Unifying a sentence with the tree of a database lists the ways down from the root that have the
symbols of the sentence except where that has variables, each once and in the lexicographic order of
their keys, and reads a row from each. Where the sentence has no variable there is no row. -/
theorem unify_enumerates {db : FactDatabase} (hdb : db.Reachable ∨ db.root.Built) {s : String}
    {path : List Segment} (hp : Sentence.parse s = .ok path) :
    ∃ trails rows,
      (∀ trail, trail ∈ trails ↔ db.root.Descends trail ∧
        List.Forall₂ (fun s n => s.value.isVariable = false → n.toSymbol = s.toSymbol) path trail) ∧
      (trails.Pairwise fun t u => t.map FactNode.toSymbol < u.map FactNode.toSymbol) ∧
      List.Forall₂ (fun trail row => Bindings.ReadsLast row path trail) trails rows ∧
      db.unify s = .ok (if Sentence.anyVariable path then rows else []) := by
  have h : db.root.Everywhere FactNode.Orderly := by
    rcases hdb with hdb | hroot
    · exact fun _ _ hm => hdb.sound.sound_root.orderly_at? hm
    · exact hroot.orderly
  refine ⟨db.root.children.trails path,
    (db.root.children.trails path).map ((∅ : Bindings).along path),
    fun trail => FactNode.mem_trails_iff h, FactNode.pairwise_trails h, ?_, ?_⟩
  · exact List.forall₂_map_right_iff.mpr
      (List.forall₂_same.mpr fun trail _ => Bindings.readsLast_along path trail)
  · rw [unify, hp, Except.map]
    cases hv : Sentence.anyVariable path with
    | true => rw [unifyPath_eq db hv, if_pos rfl]
    | false => rw [unifyPath_of_ground db hv, if_neg Bool.false_ne_true]

/-- Of three facts, `?x.likes.?x` has a row for each, with the value at the end. -/
theorem unify_enumerates_repeated_variable :
    ∃ (db : FactDatabase) (path : List Segment), db.Reachable ∧
      Sentence.parse "?x.likes.?x" = .ok path ∧ ∃ trails rows, trails.length = 3 ∧
        (∀ trail, trail ∈ trails ↔ db.root.Descends trail ∧ List.Forall₂
          (fun s n => s.value.isVariable = false → n.toSymbol = s.toSymbol) path trail) ∧
        (trails.Pairwise fun t u => t.map FactNode.toSymbol < u.map FactNode.toSymbol) ∧
        List.Forall₂ (fun trail row => Bindings.ReadsLast row path trail) trails rows ∧
        db.unify "?x.likes.?x" = .ok rows ∧
        rows = ["bob", "cat", "ann"].map fun name =>
          (∅ : Bindings).insert "?x" (.symbol name) := by
  have hdb : FactDatabase.Reachable ((((∅ : FactDatabase).step (.insert "bob.likes.ann")).2.step
      (.insert "ann.likes.cat")).2.step (.insert "ann.likes.bob")).2 :=
    .step _ (.step _ (.step _ .empty))
  have hp : Sentence.parse "?x.likes.?x" =
      .ok [⟨.var "?x", .many⟩, ⟨.symbol "likes", .many⟩, ⟨.var "?x", .many⟩] := rfl
  obtain ⟨trails, rows, hmem, hlt, hread, hunify⟩ := unify_enumerates (.inl hdb) hp
  have hrows : rows = ["bob", "cat", "ann"].map fun name =>
      (∅ : Bindings).insert "?x" (.symbol name) := by
    cases hunify; rfl
  exact ⟨_, _, hdb, hp, trails, rows, by rw [hread.length_eq, hrows]; rfl, hmem, hlt, hread, hunify,
    hrows⟩

end FactDatabase

end Society
