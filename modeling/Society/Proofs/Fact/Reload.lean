import Society.Proofs.Fact.Listing

/-!
# Loading a listing again

The listed facts are inserted into an empty database, in their order. Each of them leaves the tree
where the one before it did or above, so no cardinality is in its way and nothing is replaced. What
stands at the end is the tree that was listed, where nothing but the cardinality of a node without
children is lost.
-/

namespace Society

/-! ## Trees with open leaves -/

namespace Forest

/-- The forest with every node without children made one that may have many. -/
def opened : Forest → Forest
  | nil => nil
  | cons k v c children rest =>
    cons k v (if children.isEmpty then .many else c) children.opened rest.opened

/-- The trees of a forest and those of another one behind them. -/
def append : Forest → Forest → Forest
  | nil, g => g
  | cons k v c children rest, g => cons k v c children (rest.append g)

@[simp] theorem isEmpty_opened (f : Forest) : f.opened.isEmpty = f.isEmpty := by
  cases f <;> rfl

@[simp] theorem keys_append (f g : Forest) : (f.append g).keys = f.keys ++ g.keys := by
  induction f with
  | nil => rfl
  | cons k v c children rest _ ih => simp [append, ih]

theorem append_assoc (f g h : Forest) : (f.append g).append h = f.append (g.append h) := by
  induction f with
  | nil => rfl
  | cons k v c children rest _ ih => simp [append, ih]

theorem sentences_opened (f : Forest) (path delimiter : String) :
    f.opened.sentences path delimiter = f.sentences path delimiter := by
  induction f generalizing path delimiter with
  | nil => rfl
  | cons k v c children rest ihc ihr =>
      simp only [opened, sentences, isEmpty_opened, ihr]
      cases hc : children.isEmpty with
      | true => rfl
      | false => simp [ihc]

theorem find?_opened {f : Forest} {key : String} {n : FactNode} (h : f.find? key = some n) :
    ∃ n', f.opened.find? key = some n' ∧ n'.children = n.children.opened := by
  induction f with
  | nil => cases h
  | cons k v c children rest _ ih =>
      simp only [find?] at h
      simp only [opened, find?]
      split at h
      · rename_i hk
        cases h
        exact ⟨_, if_pos hk, rfl⟩
      · rename_i hk
        obtain ⟨n', hn', hch⟩ := ih h
        exact ⟨n', by rw [if_neg hk]; exact hn', hch⟩

/-- A key behind all others is put at the end. -/
theorem insert_eq_append {f : Forest} {key : String} (h : ∀ k ∈ f.keys, k < key) (n : FactNode) :
    f.insert key n = f.append (cons key n.value n.cardinality n.children nil) := by
  induction f with
  | nil => rfl
  | cons k v c children rest _ ih =>
      have hk : k < key := h k (by simp)
      have hlt : ¬ key < k := fun hl => String.lt_irrefl k (String.lt_trans hk hl)
      have hne : key ≠ k := fun he => String.lt_irrefl k (he ▸ hk)
      simp only [insert, if_neg hlt, if_neg hne, append]
      rw [ih fun k' hk' => h k' (List.mem_cons_of_mem _ hk')]

theorem find?_eq_none {f : Forest} {key : String} (h : ∀ k ∈ f.keys, k < key) :
    f.find? key = none := by
  cases hf : f.find? key with
  | none => rfl
  | some n => exact absurd (h key (mem_keys_of_find? hf)) (String.lt_irrefl key)

end Forest

namespace FactNode

/-- The tree with every node below the root made one that may have many children, if it has none. -/
def opened (n : FactNode) : FactNode :=
  { n with children := n.children.opened }

/-! ## Planting paths -/

/-- Paths that grow below a node one after the other, with no cardinality in the way of any. -/
inductive Plants : List (List Segment) → FactNode → FactNode → Prop where
  | nil (n : FactNode) : Plants [] n n
  | cons {path : List Segment} {paths : List (List Segment)} {n n' : FactNode} :
    n.mismatch? path = none → Plants paths (n.grow path) n' → Plants (path :: paths) n n'

theorem Plants.append {paths paths' : List (List Segment)} {n n' n'' : FactNode}
    (h : Plants paths n n') (h' : Plants paths' n' n'') : Plants (paths ++ paths') n n'' := by
  induction h with
  | nil n => exact h'
  | cons hm _ ih => exact .cons hm (ih h')

theorem mismatch?_of_child {n child : FactNode} {s : Segment} {path : List Segment}
    (hc : n.child? s.toSymbol = some child) (hcard : child.cardinality = s.cardinality) :
    n.mismatch? (s :: path) = child.mismatch? path := by
  simp only [mismatch?, hc, hcard, ↓reduceIte]

/-- What grows below a child grows below the node, behind the segment of the child. -/
theorem Plants.behind {paths : List (List Segment)} {child child' : FactNode} {s : Segment}
    (h : Plants paths child child') (hcard : child.cardinality = s.cardinality) (n : FactNode) :
    Plants (paths.map (s :: ·)) (n.setChild s.toSymbol child) (n.setChild s.toSymbol child') := by
  induction h with
  | nil child => exact .nil _
  | @cons path paths child child' hm _ ih =>
      have hc : (n.setChild s.toSymbol child).child? s.toSymbol = some child := by
        rw [child?_setChild, if_pos rfl]
      refine .cons ((mismatch?_of_child hc hcard).trans hm) ?_
      rw [grow_of_child hc, setChild_setChild]
      exact ih (by rwa [cardinality_grow])

/-- The first path behind a new segment puts a child there, and the others grow below it. -/
theorem Plants.behind_new {paths : List (List Segment)} {child' n : FactNode} {s : Segment}
    (h : Plants paths (leaf s.value s.cardinality) child') (hne : paths ≠ [])
    (hc : n.child? s.toSymbol = none) (hone : n.cardinality = .one → n.children = .nil) :
    Plants (paths.map (s :: ·)) n (n.setChild s.toSymbol child') := by
  cases h with
  | nil => exact absurd rfl hne
  | @cons path paths _ _ hm hrest =>
      have hclear : (if n.cardinality = .one then n.clearChildren else n) = n := by
        split
        · rename_i hcard
          have hnil : n.children = .nil := hone hcard
          cases n
          simp_all [clearChildren]
        · rfl
      refine .cons (by simp only [mismatch?, hc]) ?_
      have hgrow : n.grow (s :: path) =
          n.setChild s.toSymbol ((leaf s.value s.cardinality).grow path) := by
        simp only [grow, hc, hclear]
      have hbelow := hrest.behind (cardinality_grow path (leaf s.value s.cardinality)) n
      rwa [← hgrow] at hbelow

/-- Planting the paths to the leaves of a forest puts the forest behind the children that are
there. -/
theorem plants_leafPaths {f : Forest} (h : f.Sound) {g : Forest} {v : NodeValue} {c : Cardinality}
    (hlt : ∀ k ∈ g.keys, ∀ k' ∈ f.keys, k < k') (hc : c ≠ .none)
    (hadmits : c.Admits (g.append f)) :
    Plants f.leafPaths ⟨v, c, g⟩ ⟨v, c, g.append f.opened⟩ := by
  induction f generalizing g v c with
  | nil =>
      have hnil : g.append Forest.nil.opened = g := by
        clear hlt hadmits
        induction g with
        | nil => rfl
        | cons k v c children rest _ ih => rw [Forest.append, ih]
      rw [hnil]
      exact .nil _
  | cons k v' c' children rest ihc ihr =>
      obtain ⟨⟨hk, -, hc', ha', hrest⟩, hchildren, hr⟩ := id h
      have hbehind : ∀ k' ∈ g.keys, k' < k := fun k' hk' => hlt k' hk' k (by simp)
      have hnone : (⟨v, c, g⟩ : FactNode).child? v'.toSymbol = none :=
        Forest.find?_eq_none (hk ▸ hbehind)
      have hone : c = .one → g = .nil := by
        rintro rfl
        cases g with
        | nil => rfl
        | cons k₀ _ _ _ _ =>
            have heq : k₀ = k := hadmits k₀ (by simp) k (by simp)
            exact absurd (hbehind k₀ (by simp)) (heq ▸ String.lt_irrefl _)
      -- the first tree stands behind `g`, and the others follow it there
      have hfirst : ∀ child : FactNode, (⟨v, c, g⟩ : FactNode).setChild v'.toSymbol child =
          ⟨v, c, g.append (.cons k child.value child.cardinality child.children .nil)⟩ := by
        intro child
        rw [setChild, ← hk, Forest.insert_eq_append hbehind]
      have hothers : ∀ child : FactNode, Plants rest.leafPaths
          ((⟨v, c, g⟩ : FactNode).setChild v'.toSymbol child)
          ⟨v, c, g.append (.cons k child.value child.cardinality child.children rest.opened)⟩ := by
        intro child
        rw [hfirst child]
        have hgrown := ihr hr
          (g := g.append (.cons k child.value child.cardinality child.children .nil))
          (v := v) (c := c) ?_ hc ?_
        · rwa [Forest.append_assoc] at hgrown
        · intro k₁ hk₁ k₂ hk₂
          rw [Forest.keys_append] at hk₁
          rcases List.mem_append.mp hk₁ with hk₁ | hk₁
          · exact hlt k₁ hk₁ k₂ (List.mem_cons_of_mem _ hk₂)
          · obtain rfl := List.mem_singleton.mp hk₁
            exact hrest k₂ hk₂
        · cases c with
          | none => exact absurd rfl hc
          | one =>
              intro k₁ hk₁ k₂ hk₂
              exact hadmits k₁ (by simpa using hk₁) k₂ (by simpa using hk₂)
          | many => trivial
      simp only [Forest.leafPaths]
      cases hempty : children.isEmpty with
      | true =>
          have hnil : children = .nil := by cases children <;> trivial
          subst hnil
          have hplant : Plants [[]] (leaf v' .many) (leaf v' .many) := .cons rfl (.nil _)
          exact (hplant.behind_new (s := ⟨v', .many⟩) (by simp) hnone hone).append (hothers _)
      | false =>
          have hplant : Plants children.leafPaths (leaf v' c') ⟨v', c', children.opened⟩ :=
            ihc hchildren (g := .nil) (by simp) hc' ha'
          have hbelow := hplant.behind_new (s := ⟨v', c'⟩) (Forest.leafPaths_ne_nil hempty) hnone hone
          simpa [Forest.opened, hempty] using hbelow.append (hothers ⟨v', c', children.opened⟩)

/-- Where a path does not go on behind an empty symbol, nothing comes to stand below an empty
key. -/
theorem children_grow_empty {n : FactNode} {path : List Segment}
    (hpath : ∀ s rest, path = s :: rest → rest ≠ [] → s.toSymbol ≠ "")
    (h : ∀ m, n.child? "" = some m → m.children = .nil) :
    ∀ m, (n.grow path).child? "" = some m → m.children = .nil := by
  cases path with
  | nil => exact h
  | cons s path =>
      have hstop : s.toSymbol = "" → path = [] := fun hs =>
        Classical.byContradiction fun hne => hpath s path rfl hne hs
      intro m hm
      simp only [grow] at hm
      split at hm
      · rename_i child hc
        rw [child?_setChild] at hm
        split at hm
        · rename_i hs
          cases hm
          rw [hstop hs.symm]
          exact h child (hs ▸ hc)
        · exact h m hm
      · rw [child?_setChild] at hm
        split at hm
        · rename_i hs
          cases hm
          rw [hstop hs.symm]
          rfl
        · split at hm
          · cases hm
          · exact h m hm

end FactNode

/-! ## Inserting the listed sentences -/

namespace FactDatabase

open Sentence (Exact print)

variable {db : FactDatabase} {paths : List (List Segment)}

theorem insert_print {path : List Segment} (h : Exact path)
    (hm : db.root.mismatch? path = none) : db.insert (print path) = .ok ⟨db.root.grow path⟩ := by
  rw [insert_eq, h.parseFact_print .insert]
  simp only [hm]

theorem foldlM_insert_of_plants {n n' : FactNode} (h : n.Plants paths n')
    (hexact : ∀ path ∈ paths, Exact path) :
    (paths.map print).foldlM insert ⟨n⟩ = .ok ⟨n'⟩ := by
  induction h with
  | nil n => rfl
  | @cons path paths n n' hm _ ih =>
      have hinsert : insert ⟨n⟩ (print path) = .ok ⟨n.grow path⟩ :=
        insert_print (hexact path List.mem_cons_self) hm
      rw [List.map_cons, List.foldlM_cons, hinsert]
      exact ih fun path' hp => hexact path' (List.mem_cons_of_mem _ hp)

/-- Inserting listed sentences puts nothing below an empty key. -/
theorem children_foldlM_insert {f : Forest} (h : f.Sound) {db' : FactDatabase}
    (hlisted : ∀ path ∈ paths, path ∈ f.listedPaths) (hexact : ∀ path ∈ paths, Exact path)
    (hdb : ∀ m, db.root.child? "" = some m → m.children = .nil)
    (hfold : (paths.map print).foldlM insert db = .ok db') :
    ∀ m, db'.root.child? "" = some m → m.children = .nil := by
  induction paths generalizing db with
  | nil => cases hfold; exact hdb
  | cons path paths ih =>
      rw [List.map_cons, List.foldlM_cons] at hfold
      cases hi : db.insert (print path) with
      | error e => rw [hi] at hfold; cases hfold
      | ok next =>
          rw [hi] at hfold
          refine ih (fun p hp => hlisted p (List.mem_cons_of_mem _ hp))
            (fun p hp => hexact p (List.mem_cons_of_mem _ hp)) ?_ hfold
          rw [insert_eq, (hexact path List.mem_cons_self).parseFact_print .insert] at hi
          simp only at hi
          split at hi
          · cases hi
          · cases hi
            refine FactNode.children_grow_empty (fun s rest he hne => ?_) hdb
            exact Forest.head_ne_of_mem_listedPaths h (he ▸ hlisted path List.mem_cons_self) hne

/-- What a dump of the facts has to be: as many different facts as are counted, which load again to
the same tree, but for the cardinality of the nodes without children. -/
structure Faithful (db : FactDatabase) : Prop where
  distinct : db.sentences.Nodup
  length_eq : db.sentences.length = db.size
  asserted : ∀ s ∈ db.sentences, db.assert s = .ok true
  reloads : ∃ db', db.sentences.foldlM insert ∅ = .ok db' ∧ db'.sentences = db.sentences ∧
    db'.root = db.root.opened

theorem faithful_of_leafPaths (hdb : db.Sound) (hexact : ∀ p ∈ db.root.children.leafPaths, Exact p)
    (hlisted : db.root.children.listedPaths = db.root.children.leafPaths) : db.Faithful := by
  obtain ⟨hv, hc, hsound⟩ := id hdb
  have hsentences : db.sentences = db.root.children.leafPaths.map print := by
    rw [sentences, Forest.sentences_top hsound.2, hlisted]
  have hroot : db.root = ⟨.symbol "root", .many, db.root.children⟩ := by rw [← hv, ← hc]
  refine ⟨?_, ?_, fun s hs => ?_, ⟨db.root.opened⟩, ?_, ?_, rfl⟩
  · rw [hsentences]
    exact (Forest.nodup_leafPaths hsound.2).map_on fun p hp p' hp' he =>
      (hexact p hp).print_inj (hexact p' hp') he
  · rw [hsentences, List.length_map, Forest.length_leafPaths]
    rfl
  · rw [hsentences] at hs
    obtain ⟨path, hp, rfl⟩ := List.mem_map.mp hs
    rw [assert_eq, (hexact path hp).parseFact_print .assert, hroot]
    exact congrArg Except.ok (Forest.holds_of_mem_leafPaths hsound.2 hp _ _)
  · rw [hsentences]
    have hplants := FactNode.plants_leafPaths (g := .nil) (v := .symbol "root") hsound.2
      (by simp) (by decide) (show Cardinality.many.Admits _ from trivial)
    have hfold := foldlM_insert_of_plants hplants hexact
    rw [hroot]
    exact hfold
  · rw [sentences, sentences]
    exact Forest.sentences_opened _ _ _

/-- In a database without floats the listing is a faithful dump unless a node with an empty key at
the top has children: what stands below it is listed as if it stood at the top. -/
theorem faithful_iff (hdb : db.Reachable)
    (hfl : ∀ e ∈ db.root.preorder, e.2.value.isFloat = false) :
    db.Faithful ↔ ∀ n, db.root.child? "" = some n → n.children = .nil := by
  have hsound := hdb.sound.sound_root.2
  have hbelow : ∀ e ∈ db.root.children.preorder 1, e.2.value.isFloat = false := fun e he =>
    hfl e (List.mem_cons_of_mem _ he)
  constructor
  · intro h n hn
    obtain ⟨db', hfold, -, hroot⟩ := h.reloads
    rw [sentences, Forest.sentences_top hsound] at hfold
    have hexact : ∀ path ∈ db.root.children.listedPaths, Sentence.Exact path :=
      fun _ hp => Forest.exact_of_mem_listedPaths hsound hbelow hp
    have hnone := children_foldlM_insert hsound (fun p hp => hp) hexact (by intro m hm; cases hm)
      hfold
    obtain ⟨n', hn', hchildren⟩ := Forest.find?_opened hn
    have hnil : n.children.opened = .nil := hchildren ▸ hnone n' (by rw [hroot]; exact hn')
    cases hch : n.children with
    | nil => rfl
    | cons => rw [hch] at hnil; cases hnil
  · intro hempty
    have hexact : ∀ path ∈ db.root.children.leafPaths, Sentence.Exact path :=
      fun _ hp => Forest.exact_of_mem_leafPaths hsound hbelow hp
    exact faithful_of_leafPaths hdb.sound hexact (Forest.listedPaths_eq hsound hempty)

/-- With points in a symbol, an empty symbol inside and at the end of a path, and a node that lost
its only child. -/
theorem faithful_of_deletion :
    let db := (run ∅ [.insert "ann.[a.b]", .insert "ann..x", .insert "bob.", .insert "bob.hp!1",
      .insert "", .delete "bob.hp!1"]).2
    db.sentences = ["", "ann..x", "ann.[a.b]", "bob.", "bob.hp"] ∧ db.Faithful := by
  have hdb : Reachable (run ∅ [.insert "ann.[a.b]", .insert "ann..x", .insert "bob.",
      .insert "bob.hp!1", .insert "", .delete "bob.hp!1"]).2 :=
    .step _ (.step _ (.step _ (.step _ (.step _ (.step _ .empty)))))
  refine ⟨by decide +kernel, (faithful_iff hdb (by decide +kernel)).mpr ?_⟩
  intro n hn
  have hleaf : (run ∅ [.insert "ann.[a.b]", .insert "ann..x", .insert "bob.", .insert "bob.hp!1",
      .insert "", .delete "bob.hp!1"]).2.root.child? "" = some (.leaf (.symbol "") .many) := by
    decide +kernel
  cases hleaf.symm.trans hn
  rfl

/-- A fact behind an empty symbol is listed as the fact without it, and both as one sentence. -/
theorem empty_symbol_is_not_listed :
    let db := (run ∅ [.insert ".a", .insert "a"]).2
    db.Reachable ∧ (∀ e ∈ db.root.preorder, e.2.value.isFloat = false) ∧
      db.sentences = ["a", "a"] ∧ ¬ db.sentences.Nodup ∧ ¬ db.Faithful := by
  have hdb : Reachable (run ∅ [.insert ".a", .insert "a"]).2 := .step _ (.step _ .empty)
  have hlist : (run ∅ [.insert ".a", .insert "a"]).2.sentences = ["a", "a"] := by decide +kernel
  have hnodup : ¬ (run ∅ [.insert ".a", .insert "a"]).2.sentences.Nodup := by
    rw [hlist]
    decide
  exact ⟨hdb, by decide +kernel, hlist, hnodup, fun h => hnodup h.distinct⟩

end FactDatabase

end Society
