import Society.Proofs.Fact.Map

/-!
# A database is a map of facts

What a database answers, and what it is afterwards, is what the map of its facts says: the walks
along the tree that check, grow and prune a path do to the map what its own operations do.
-/

namespace Society

open Sentence (keys stops)

/-! ## The map of a tree -/

namespace FactNode

def entry (n : FactNode) : FactEntry :=
  ⟨n.value, n.cardinality⟩

/-- What the paths of keys below a node lead to; the empty path leads to the node itself. -/
def view (n : FactNode) : FactMap := fun p =>
  (n.at? p).map entry

@[simp] theorem view_nil (n : FactNode) : n.view [] = some n.entry := rfl

theorem view_cons (n : FactNode) (key : String) (p : List String) :
    n.view (key :: p) = (n.child? key).bind fun child => child.view p := by
  simp only [view, at?_cons]
  cases n.child? key <;> rfl

theorem behind_view {n child : FactNode} {key : String} (h : n.child? key = some child) :
    n.view.behind key = child.view := by
  funext p
  simp [FactMap.behind, view_cons, h]

theorem behind_view_none {n : FactNode} {key : String} (h : n.child? key = none) :
    n.view.behind key = FactMap.empty := by
  funext p
  simp [FactMap.behind, view_cons, h, FactMap.empty]

theorem mismatch?_eq (path : List Segment) (n : FactNode) :
    n.mismatch? path = (n.view.clash? path).map Segment.toSymbol := by
  induction path generalizing n with
  | nil => rfl
  | cons s path ih =>
      simp only [mismatch?, FactMap.clash?_cons, view_cons]
      cases hc : n.child? s.toSymbol with
      | none =>
          rw [behind_view_none hc, FactMap.clash?_empty]
          rfl
      | some child =>
          rw [behind_view hc]
          by_cases he : child.cardinality = s.cardinality
          · simp [entry, he, ih child]
          · simp [entry, he]

theorem holds_eq {path : List Segment} (hp : path ≠ []) (n : FactNode) :
    n.holds path = n.view.holds path := by
  induction path generalizing n with
  | nil => exact absurd rfl hp
  | cons s path ih =>
      simp only [holds]
      cases hpath : path with
      | nil =>
          simp only [FactMap.holds, keys, List.map_cons, List.map_nil, view_cons, stops]
          cases n.child? s.toSymbol <;> simp
      | cons t rest =>
          have hne : path ≠ [] := by simp [hpath]
          rw [← hpath, FactMap.holds_cons _ _ hne, view_cons]
          cases hc : n.child? s.toSymbol with
          | none => simp
          | some child =>
              rw [behind_view hc]
              simp [entry, hne, ih hne child]

theorem view_leaf (v : NodeValue) (c : Cardinality) (p : List String) :
    (leaf v c).view p = if p = [] then some ⟨v, c⟩ else none := by
  cases p with
  | nil => rfl
  | cons key p => simp [view_cons]

theorem clash?_view_leaf (path : List Segment) (v : NodeValue) (c : Cardinality) :
    (leaf v c).view.clash? path = none := by
  have h := mismatch?_eq path (leaf v c)
  cases path with
  | nil => rfl
  | cons s path => simpa [mismatch?] using h.symm

/-- A new node leads to itself and to the beginnings of the path that grows below it. -/
theorem view_leaf_insert (path : List Segment) (v : NodeValue) (c : Cardinality) (p : List String) :
    (leaf v c).view.insert path p =
      if p = [] then some ⟨v, c⟩ else ((stops path).lookup p).map Segment.entry := by
  by_cases hd : (leaf v c).view.Displaces path p
  · have hp : p ≠ [] := by
      rintro rfl
      exact FactMap.not_displaces_nil _ _ hd
    simp [FactMap.insert, hd, hp, FactMap.lookup_stops_of_displaces hd]
  · by_cases hp : p = []
    · subst hp
      simp [FactMap.insert, FactMap.not_displaces_nil, entry, leaf]
    · simp [FactMap.insert, hd, hp, view_leaf]

/-- Growing a path that does not clash adds its beginnings, and drops what branches off. -/
theorem view_grow {path : List Segment} {n : FactNode} (h : n.Sound)
    (hc : n.view.clash? path = none) : (n.grow path).view = n.view.insert path := by
  induction path generalizing n with
  | nil =>
      funext p
      simp [FactMap.insert, FactMap.not_displaces_of_nil, grow, stops]
  | cons s path ih =>
      rw [FactMap.clash?_cons] at hc
      split at hc
      · cases hc
      · funext p
        cases p with
        | nil => simp [FactMap.insert, FactMap.not_displaces_nil, entry]
        | cons key p =>
            rw [FactMap.insert_cons]
            cases hchild : n.child? s.toSymbol with
            | some child =>
                -- the path goes on along the tree: a node with one child has no other to lose
                rw [behind_view hchild] at hc
                have hgrow := congrFun (ih (h.child? hchild).sound hc) p
                simp only [grow, hchild, view_cons, child?_setChild]
                by_cases hk : key = s.toSymbol
                · subst hk
                  rw [behind_view hchild]
                  simp only [↓reduceIte, Option.bind_some, hgrow, hchild, FactMap.insert]
                  by_cases hp : p = [] <;> simp [hp]
                · simp only [hk, ↓reduceIte]
                  split
                  · rename_i hone
                    have hone' : n.cardinality = .one := by simpa [entry] using hone
                    cases hother : n.child? key with
                    | none => rfl
                    | some other => exact absurd (h.eq_of_one hone' hother hchild) hk
                  · rfl
            | none =>
                -- the path leaves the tree here: a node with one child loses the others
                have hgrow := congrFun (ih (sound_leaf s.value s.cardinality)
                  (clash?_view_leaf path s.value s.cardinality)) p
                simp only [grow, hchild, view_cons, child?_setChild]
                by_cases hk : key = s.toSymbol
                · subst hk
                  simp only [↓reduceIte, Option.bind_some, hgrow, hchild, behind_view_none hchild,
                    FactMap.not_displaces_empty, view_leaf_insert, Option.bind_none, Option.none_or]
                  rfl
                · simp only [hk, ↓reduceIte]
                  by_cases hone : n.cardinality = .one <;> simp [hone, entry]

theorem view_removeChild {n : FactNode} (h : n.Sound) (s : Segment) :
    (n.removeChild s.toSymbol).view = n.view.delete [s] := by
  funext p
  cases p with
  | nil => simp [FactMap.delete_cons_nil, entry, removeChild]
  | cons key p =>
      rw [view_cons, child?_removeChild h.2.ascending, FactMap.delete_cons]
      by_cases hk : key = s.toSymbol
      · simp [hk, FactMap.delete, keys]
      · simp [hk, view_cons]

/-- Pruning below a child prunes below the node. -/
theorem view_setChild_pruned {n child pruned : FactNode} {s : Segment} {path : List Segment}
    (hc : n.child? s.toSymbol = some child) (hp : pruned.view = child.view.delete path) :
    (n.setChild s.toSymbol pruned).view = n.view.delete (s :: path) := by
  funext p
  cases p with
  | nil => simp [FactMap.delete_cons_nil, entry]
  | cons key p =>
      rw [view_cons, child?_setChild, FactMap.delete_cons]
      by_cases hk : key = s.toSymbol
      · subst hk
        simp [hp, behind_view hc]
      · simp [hk, view_cons]

/-- Pruning a path answers whether it was there, and drops all that begins with it. -/
theorem view_prune {path : List Segment} (hp : path ≠ []) {n : FactNode} (h : n.Sound) :
    (n.prune path).map (fun r => (r.1.view, r.2)) =
      match n.view.missing? path with
      | some s => .error (.missingChild s.toSymbol)
      | none => .ok (n.view.delete path, (n.view (keys path)).isSome) := by
  induction path generalizing n with
  | nil => exact absurd rfl hp
  | cons s path ih =>
      cases hpath : path with
      | nil =>
          have hfound : n.hasChild s.toSymbol = (n.view (keys [s])).isSome := by
            rw [keys, List.map_cons, List.map_nil, view_cons, hasChild]
            cases n.child? s.toSymbol <;> rfl
          simp only [prune, Except.map, view_removeChild h, hfound]
          rfl
      | cons t rest =>
          have hne : path ≠ [] := by simp [hpath]
          rw [← hpath, FactMap.missing?_cons _ _ hne, view_cons]
          cases hc : n.child? s.toSymbol with
          | none => simp [hpath, prune, hc, Except.map]
          | some child =>
              have hih := ih hne (h.child? hc).sound
              have hprune : n.prune (s :: path) =
                  (child.prune path).map fun r => (n.setChild s.toSymbol r.1, r.2) := by
                rw [hpath]
                simp [prune, hc]
              rw [hprune, Sentence.keys_cons, view_cons, hc, behind_view hc]
              simp only [Option.bind_some, view_nil, Option.isNone_some, Bool.false_eq_true,
                ↓reduceIte]
              cases hr : child.prune path with
              | error e =>
                  rw [hr] at hih
                  cases hm : child.view.missing? path with
                  | none => rw [hm] at hih; cases hih
                  | some u => rw [hm] at hih; cases hih; rfl
              | ok r =>
                  rw [hr] at hih
                  cases hm : child.view.missing? path with
                  | some u => rw [hm] at hih; cases hih
                  | none =>
                      rw [hm] at hih
                      obtain ⟨hview, hfound⟩ := Prod.mk.inj (Except.ok.inj hih)
                      simp only [Except.map, view_setChild_pruned hc hview, hfound]

end FactNode

namespace FactDatabase

/-- The facts of a database as a map from the nonempty paths of keys below its root. -/
def view (db : FactDatabase) : FactMap :=
  db.root.view.belowRoot

theorem view_empty : view ∅ = FactMap.empty := by
  funext p
  cases p <;> rfl

theorem view_clear (db : FactDatabase) : db.clear.view = FactMap.empty := by
  funext p
  cases p with
  | nil => rfl
  | cons key p =>
      rw [view, FactMap.belowRoot_of_ne_nil _ (by simp), FactNode.view_cons]
      rfl

section Step

variable {db : FactDatabase}

theorem step_insert_view (h : db.Sound) (s : String) :
    db.view.step (.insert s) = ((db.step (.insert s)).1, (db.step (.insert s)).2.view) := by
  have hroot : ∀ e, db.root.view [] = some e → e.cardinality ≠ .one := by
    intro e he
    obtain rfl := Option.some.inj he
    simp [FactNode.entry, h.cardinality_root]
  simp only [FactMap.step, FactMap.stepSentence, step, insert_eq, Sentence.parseFact_eq]
  cases hp : Sentence.parse s with
  | error e => rfl
  | ok path =>
      by_cases hv : Sentence.anyVariable path
      · simp [hv]
      · simp only [hv, Bool.false_eq_true, ↓reduceIte, FactMap.stepPath, view,
          FactMap.clash?_belowRoot, FactNode.mismatch?_eq]
        cases hc : db.root.view.clash? path with
        | some t => rfl
        | none => simp [FactMap.insert_belowRoot hroot, FactNode.view_grow h.sound_root hc]

theorem step_assert_view (s : String) :
    db.view.step (.assert s) = ((db.step (.assert s)).1, (db.step (.assert s)).2.view) := by
  simp only [FactMap.step, FactMap.stepSentence, step, assert_eq, Sentence.parseFact_eq]
  cases hp : Sentence.parse s with
  | error e => rfl
  | ok path =>
      have hne := (Sentence.proper_of_parse hp).ne_nil
      by_cases hv : Sentence.anyVariable path
      · simp [hv, Except.map]
      · simp [hv, Except.map, FactMap.stepPath, view, FactMap.holds_belowRoot _ hne,
          FactNode.holds_eq hne]

theorem step_delete_view (h : db.Sound) (s : String) :
    db.view.step (.delete s) = ((db.step (.delete s)).1, (db.step (.delete s)).2.view) := by
  simp only [FactMap.step, FactMap.stepSentence, step, delete_eq, Sentence.parseFact_eq]
  cases hp : Sentence.parse s with
  | error e => rfl
  | ok path =>
      have hne := (Sentence.proper_of_parse hp).ne_nil
      have hprune := FactNode.view_prune hne h.sound_root
      by_cases hv : Sentence.anyVariable path
      · simp [hv]
      · simp only [hv, Bool.false_eq_true, ↓reduceIte, FactMap.stepPath, view,
          FactMap.missing?_belowRoot, FactMap.belowRoot_of_ne_nil _ (FactMap.keys_ne_nil hne),
          FactMap.delete_belowRoot]
        cases hr : db.root.prune path with
        | error e =>
            rw [hr] at hprune
            cases hm : db.root.view.missing? path with
            | some t => rw [hm] at hprune; cases hprune; rfl
            | none => rw [hm] at hprune; cases hprune
        | ok r =>
            rw [hr] at hprune
            cases hm : db.root.view.missing? path with
            | some t => rw [hm] at hprune; cases hprune
            | none =>
                rw [hm] at hprune
                obtain ⟨hview, hfound⟩ := Prod.mk.inj (Except.ok.inj hprune)
                simp only [Except.map, ← hview, ← hfound]

/-- One call: the database answers and changes as the map of its facts does. -/
theorem step_view (h : db.Sound) (c : FactCall) :
    db.view.step c = ((db.step c).1, (db.step c).2.view) := by
  cases c with
  | insert s => exact step_insert_view h s
  | assert s => exact step_assert_view s
  | delete s => exact step_delete_view h s
  | clear => simp only [FactMap.step, step, view_clear]

end Step

theorem run_view_from {db : FactDatabase} (h : db.Sound) (calls : List FactCall) :
    db.view.run calls = ((db.run calls).1, (db.run calls).2.view) := by
  induction calls generalizing db with
  | nil => rfl
  | cons c calls ih => simp only [FactMap.run, run, step_view h c, ih (h.step c)]

/-- A run of calls on an empty database gives the answers, and leads to the facts, that the run on
the map of no facts gives and leads to. -/
theorem run_view (calls : List FactCall) :
    FactMap.empty.run calls =
      (((∅ : FactDatabase).run calls).1, ((∅ : FactDatabase).run calls).2.view) := by
  rw [← view_empty]
  exact run_view_from sound_empty calls

end FactDatabase

end Society
