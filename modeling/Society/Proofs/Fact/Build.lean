import Society.Proofs.Fact.Run
import Society.Proofs.Sentence.Equality

/-!
# Trees that calls build

A tree begins as a node without children; calls then add, remove and clear children of any of its
nodes. Whatever the calls are, and whichever of them are refused, each child stands under its own
symbol and no node has more children than its cardinality lets it have. In the tree of a database
the values are, besides, such as a sentence writes.
-/

namespace Society

/-! ## All nodes of a tree -/

namespace FactNode

variable {P Q : FactNode → Prop} {n m child : FactNode} {k : String}

/-- Whether something holds of a node and of every node below it. -/
def Everywhere (P : FactNode → Prop) (n : FactNode) : Prop :=
  ∀ path m, n.at? path = some m → P m

theorem everywhere_iff :
    n.Everywhere P ↔ P n ∧ ∀ k child, n.child? k = some child → child.Everywhere P := by
  constructor
  · intro h
    exact ⟨h [] n rfl, fun k child hc path m hm => h (k :: path) m (by rw [at?_cons, hc]; exact hm)⟩
  · rintro ⟨hn, hchild⟩ path m hm
    cases path with
    | nil => cases hm; exact hn
    | cons k path =>
        obtain ⟨child, hc, hm⟩ := Option.bind_eq_some_iff.mp hm
        exact hchild k child hc path m hm

theorem Everywhere.here (h : n.Everywhere P) : P n :=
  h [] n rfl

theorem Everywhere.of_child? (h : n.Everywhere P) (hc : n.child? k = some child) : child.Everywhere P :=
  (everywhere_iff.mp h).2 k child hc

theorem Everywhere.imp (hPQ : ∀ m, P m → Q m) (h : n.Everywhere P) : n.Everywhere Q :=
  fun path m hm => hPQ m (h path m hm)

theorem Everywhere.setChild (h : n.Everywhere P) (hc : child.Everywhere P)
    (hn : P (n.setChild k child)) : (n.setChild k child).Everywhere P := by
  refine everywhere_iff.mpr ⟨hn, fun k' child' hc' => ?_⟩
  rw [child?_setChild] at hc'
  split at hc'
  · cases hc'; exact hc
  · exact h.of_child? hc'

end FactNode

/-! ## Children that a cardinality admits -/

namespace Forest

theorem keys_erase_sublist (key : String) (f : Forest) : (f.erase key).keys.Sublist f.keys := by
  induction f with
  | nil => exact .slnil
  | cons k v c children rest _ ih =>
      simp only [erase]
      split
      · exact .cons _ (.refl _)
      · exact ih.cons_cons _

theorem Ascending.erase {f : Forest} (h : f.Ascending) (key : String) : (f.erase key).Ascending :=
  h.sublist (keys_erase_sublist key f)

end Forest

namespace Cardinality

variable {c : Cardinality} {f g : Forest}

theorem admits_nil (c : Cardinality) : c.Admits .nil :=
  (FactNode.sound_leaf (.symbol "") c).1

/-- Among ascending keys, all keys are one only if there is at most one. -/
theorem Admits.length_le_one (hone : Cardinality.one.Admits f) (hf : f.Ascending) :
    f.toList.length ≤ 1 := by
  cases f with
  | nil => exact Nat.zero_le 1
  | cons k v c children rest =>
      cases rest with
      | nil => exact Nat.le_refl 1
      | cons k' v' c' children' rest' =>
          have hlt : k < k' := hf.head_lt (by simp)
          have heq : k = k' := hone k (by simp) k' (by simp)
          exact absurd (heq ▸ hlt) (String.lt_irrefl _)

end Cardinality

/-! ## What calls keep -/

namespace FactNode

variable {n child : FactNode} {k : String}

/-- A node whose children stand under their own symbols, in the order of these, and are no more than
its cardinality lets it have. -/
structure Orderly (n : FactNode) : Prop where
  ascending : n.children.Ascending
  key_eq : ∀ k child, (k, child) ∈ n.children.toList → k = child.toSymbol
  admits : n.cardinality.Admits n.children

theorem Orderly.symbol_eq (h : n.Orderly) (hc : n.child? k = some child) : k = child.toSymbol :=
  h.key_eq k child ((Forest.mem_toList_iff h.ascending).mpr hc)

theorem orderly_leaf (v : NodeValue) (c : Cardinality) : (leaf v c).Orderly :=
  ⟨.nil, fun _ _ h => (List.not_mem_nil h).elim, Cardinality.admits_nil c⟩

theorem Orderly.setChild (h : n.Orderly) (hk : k = child.toSymbol)
    (ha : n.cardinality.Admits (n.setChild k child).children) : (n.setChild k child).Orderly := by
  have hasc : (n.setChild k child).children.Ascending := h.ascending.insert k child
  refine ⟨hasc, fun k' child' hc' => ?_, ha⟩
  have hc' := (Forest.mem_toList_iff hasc).mp hc'
  change (n.setChild k child).child? k' = some child' at hc'
  rw [child?_setChild] at hc'
  split at hc'
  · rename_i hkk
    cases hc'
    exact hkk.trans hk
  · exact h.symbol_eq hc'

/-- A child that takes the place of one with the same symbol changes nothing among the keys. -/
theorem Orderly.replaceChild {child' : FactNode} (h : n.Orderly) (hc : n.child? k = some child)
    (hs : child'.toSymbol = child.toSymbol) : (n.setChild k child').Orderly := by
  refine h.setChild ((h.symbol_eq hc).trans hs.symm) (h.admits.of_subset fun k' hk' => ?_)
  rcases Forest.mem_keys_insert.mp hk' with rfl | hk'
  · exact Forest.mem_keys_of_find? hc
  · exact hk'

theorem Orderly.removeChild (h : n.Orderly) (k : String) : (n.removeChild k).Orderly := by
  have hasc : (n.removeChild k).children.Ascending := h.ascending.erase k
  refine ⟨hasc, fun k' child hc => ?_, h.admits.of_subset fun k' hk' => ?_⟩
  · have hc := (Forest.mem_toList_iff hasc).mp hc
    change (n.removeChild k).child? k' = some child at hc
    rw [child?_removeChild h.ascending] at hc
    split at hc
    · cases hc
    · exact h.symbol_eq hc
  · exact (Forest.keys_erase_sublist k n.children).subset hk'

/-- What the children of a node keep to: they stand under their own symbols, in the order of these,
a node that may have no children has none, and a node that may have one has no two. -/
structure WellKept (n : FactNode) : Prop where
  ascending : n.children.keys.Pairwise (· < ·)
  key_eq : ∀ k child, (k, child) ∈ n.children.toList →
    k = child.toSymbol ∧ child.toSymbol = child.value.toSymbol
  childless : n.cardinality = .none → n.childCount = 0
  one_child : n.cardinality = .one → n.childCount ≤ 1

theorem Orderly.childCount_eq_zero (h : n.Orderly) (hnone : n.cardinality = .none) :
    n.childCount = 0 := by
  have ha := h.admits
  rw [hnone] at ha
  simpa [Cardinality.Admits, Forest.keys, childCount] using ha

theorem Orderly.childCount_le_one (h : n.Orderly) (hone : n.cardinality = .one) :
    n.childCount ≤ 1 := by
  have ha := h.admits
  rw [hone] at ha
  exact ha.length_le_one h.ascending

theorem Orderly.wellKept (h : n.Orderly) : n.WellKept :=
  ⟨h.ascending, fun k child hc => ⟨h.key_eq k child hc, rfl⟩, h.childCount_eq_zero,
    h.childCount_le_one⟩

/-- Adding a child either keeps the node as it is or puts the child under its symbol, where the
cardinality of the node admits it. -/
theorem addChild_eq_ok {n' : FactNode} (h : n.addChild child = .ok n') :
    n' = n ∨ (n' = n.setChild child.toSymbol child ∧
      n.cardinality.Admits (n.setChild child.toSymbol child).children) := by
  unfold addChild at h
  split at h
  · cases h; exact .inl rfl
  · cases hcard : n.cardinality with
    | none => simp [hcard] at h
    | one =>
        simp only [hcard] at h
        split at h
        · rename_i hempty
          cases h
          have hnil : n.children = .nil := by
            cases hf : n.children with
            | nil => rfl
            | cons => rw [hf] at hempty; cases hempty
          refine .inr ⟨rfl, ?_⟩
          simp [FactNode.setChild, hnil, Forest.insert, Cardinality.Admits]
        · cases h
    | many =>
        simp only [hcard] at h
        cases h
        exact .inr ⟨rfl, trivial⟩

/-- A node that may have children takes a new child once it is cleared, if it may have one only. -/
theorem addChild_of_room (hne : n.cardinality ≠ .none) (hc : n.child? child.toSymbol = none) :
    (if n.cardinality = .one then n.clearChildren else n).addChild child =
      .ok ((if n.cardinality = .one then n.clearChildren else n).setChild child.toSymbol child) := by
  cases hcard : n.cardinality with
  | none => exact absurd hcard hne
  | one => simp [addChild, hasChild, hcard, clearChildren, Forest.isEmpty, FactNode.child?]
  | many => simp [addChild, hasChild, hcard, hc]

theorem addAlong_of_child {s : Segment} {path : List Segment} (hc : n.child? s.toSymbol = some child) :
    n.addAlong (s :: path) = n.setChild s.toSymbol <$> child.addAlong path := by
  simp [addAlong, hasChild, hc, pure_bind]

/-- Once a child is added, it is gone along the path as if the child had been there. -/
theorem addAlong_of_addChild {n' : FactNode} {s : Segment} {path : List Segment}
    (hc : n.child? s.toSymbol = none) (hthere : n'.hasChild s.toSymbol = true)
    (hadd : (if n.cardinality = .one then n.clearChildren else n).addChild
      (leaf s.value s.cardinality) = .ok n') :
    n.addAlong (s :: path) = n'.addAlong (s :: path) := by
  have hnot : n.hasChild s.toSymbol = false := by simp [hasChild, hc]
  simp only [addAlong, hnot, hthere, hadd, Bool.false_eq_true, if_false, if_true]
  rfl

/-- Where all nodes may have children, those of the tree and those of the path, nothing is refused
along the path, and the tree that comes of it is the one that has grown. -/
theorem addAlong_eq_ok {path : List Segment} (hp : ∀ s ∈ path, s.cardinality ≠ .none)
    (h : n.Everywhere (·.cardinality ≠ .none)) : n.addAlong path = .ok (n.grow path) := by
  induction path generalizing n with
  | nil => rfl
  | cons s path ih =>
      obtain ⟨hs, hp⟩ := List.forall_mem_cons.mp hp
      cases hc : n.child? s.toSymbol with
      | some child =>
          rw [addAlong_of_child hc, ih hp (h.of_child? hc), grow_of_child hc]
          rfl
      | none =>
          have hnew : (leaf s.value s.cardinality).Everywhere (·.cardinality ≠ .none) :=
            everywhere_iff.mpr ⟨hs, fun k child hk => by cases hk⟩
          have hadd := @addChild_of_room n (leaf s.value s.cardinality) h.here hc
          have hthere : ∀ m : FactNode, (m.setChild s.toSymbol (leaf s.value s.cardinality)).child?
              s.toSymbol = some (leaf s.value s.cardinality) := fun m => by simp [child?_setChild]
          rw [addAlong_of_addChild hc (Option.isSome_iff_exists.mpr ⟨_, hthere _⟩) hadd,
            addAlong_of_child (hthere _), ih hp hnew]
          simp [grow, hc, setChild_setChild]

/-- A call that changes the children of a node. -/
inductive Call where
  | addChild (child : FactNode)
  | removeChild (key : String)
  | clearChildren

/-- The node after a call. A call that is refused leaves it as it is. -/
def call (n : FactNode) : Call → FactNode
  | .addChild child =>
    match n.addChild child with
    | .ok n' => n'
    | .error _ => n
  | .removeChild key => n.removeChild key
  | .clearChildren => n.clearChildren

/-- The trees that calls build. A call reaches any node of the tree that it is made on; what it adds
was built by calls before. -/
inductive Built : FactNode → Prop where
  | leaf (v : NodeValue) (c : Cardinality) : Built (.leaf v c)
  | addChild {n child : FactNode} (path : List String) :
    Built n → Built child → Built (n.modifyAt (·.call (.addChild child)) path)
  | removeChild {n : FactNode} (path : List String) (key : String) :
    Built n → Built (n.modifyAt (·.call (.removeChild key)) path)
  | clearChildren {n : FactNode} (path : List String) :
    Built n → Built (n.modifyAt (·.call .clearChildren) path)

@[simp] theorem value_call (n : FactNode) (c : Call) : (n.call c).value = n.value := by
  cases c with
  | addChild child =>
      simp only [call]
      split
      · rename_i n' h
        rcases addChild_eq_ok h with rfl | ⟨rfl, -⟩ <;> rfl
      · rfl
  | removeChild key => rfl
  | clearChildren => rfl

theorem Everywhere.call (h : n.Everywhere Orderly) {c : Call}
    (hc : ∀ child, c = .addChild child → child.Everywhere Orderly) :
    (n.call c).Everywhere Orderly := by
  cases c with
  | addChild child =>
      simp only [FactNode.call]
      split
      · rename_i n' hadd
        rcases addChild_eq_ok hadd with rfl | ⟨rfl, ha⟩
        · exact h
        · exact h.setChild (hc child rfl) (h.here.setChild rfl ha)
      · exact h
  | removeChild key =>
      refine everywhere_iff.mpr ⟨h.here.removeChild key, fun k child hk => ?_⟩
      change (n.removeChild key).child? k = some child at hk
      rw [child?_removeChild h.here.ascending] at hk
      split at hk
      · cases hk
      · exact h.of_child? hk
  | clearChildren =>
      refine everywhere_iff.mpr ⟨orderly_leaf n.value n.cardinality, fun k child hk => ?_⟩
      cases hk

theorem value_modifyAt {f : FactNode → FactNode} (hf : ∀ m, (f m).value = m.value)
    (path : List String) (n : FactNode) : (n.modifyAt f path).value = n.value := by
  cases path with
  | nil => exact hf n
  | cons k path =>
      simp only [modifyAt]
      split <;> rfl

/-- A change at the end of a path keeps the nodes on the path orderly, for it leaves their symbols
as they are. -/
theorem Everywhere.modifyAt {f : FactNode → FactNode} (hf : ∀ m, (f m).value = m.value)
    (hkeep : ∀ m, m.Everywhere Orderly → (f m).Everywhere Orderly) {path : List String}
    (h : n.Everywhere Orderly) : (n.modifyAt f path).Everywhere Orderly := by
  induction path generalizing n with
  | nil => exact hkeep n h
  | cons k path ih =>
      simp only [FactNode.modifyAt]
      split
      · rename_i child hc
        have hs : (child.modifyAt f path).toSymbol = child.toSymbol :=
          congrArg NodeValue.toSymbol (value_modifyAt hf path child)
        exact h.setChild (ih (h.of_child? hc)) (h.here.replaceChild hc hs)
      · exact h

theorem Everywhere.callAt (h : n.Everywhere Orderly) {c : Call} {path : List String}
    (hc : ∀ child, c = .addChild child → child.Everywhere Orderly) :
    (n.modifyAt (·.call c) path).Everywhere Orderly :=
  h.modifyAt (fun m => value_call m c) (fun _ hm => hm.call hc)

theorem Built.orderly (h : n.Built) : n.Everywhere Orderly := by
  induction h with
  | leaf v c => exact everywhere_iff.mpr ⟨orderly_leaf v c, fun k child hk => by cases hk⟩
  | addChild path _ _ ihn ihc =>
      exact ihn.callAt fun child he => by cases he; exact ihc
  | removeChild path key _ ih => exact ih.callAt fun child he => by cases he
  | clearChildren path _ ih => exact ih.callAt fun child he => by cases he

end FactNode

/-! ## Symbols that are read back as symbols -/

/-- A text that a sentence reads as a symbol: it is written without brackets, does not begin as a
variable does, and writes neither an integer of 64 bits nor a finite decimal. -/
structure Text.IsSymbol (cs : List Char) : Prop where
  plain : Plain cs
  head?_ne : cs.head? ≠ some '?'
  no_integer : int64? cs = none
  no_decimal : Decimal.finite? cs = none

theorem NodeValue.number?_eq_none {cs : List Char} (h : number? cs = none) :
    Text.int64? cs = none ∧ Decimal.finite? cs = none := by
  unfold number? at h
  split at h
  · cases h
  · rename_i hi
    exact ⟨hi, Option.map_eq_none_iff.mp h⟩

theorem NodeValue.Written.isSymbol {t : String} (h : (NodeValue.symbol t).Written) :
    Text.IsSymbol t.toList := by
  obtain ⟨cs, hp, he⟩ := h
  rcases ofToken_cases cs with ⟨-, h⟩ | ⟨hq, hn, h⟩ | ⟨-, i, -, -, h⟩ | ⟨-, x, h⟩ <;> rw [h] at he
  · cases he
  · cases he
    obtain ⟨hi, hd⟩ := number?_eq_none hn
    rw [String.toList_ofList]
    exact ⟨hp, hq, hi, hd⟩
  · cases he
  · cases he

/-! ## The tree of a database -/

namespace FactNode

theorem Sound.orderly {n : FactNode} (h : n.Sound) : n.Orderly :=
  ⟨h.2.ascending, fun _ _ hc => (h.child? ((Forest.mem_toList_iff h.2.ascending).mp hc)).key_eq, h.1⟩

theorem Sound.orderly_at? {n m : FactNode} {path : List String} (h : n.Sound)
    (hm : n.at? path = some m) : m.Orderly := by
  cases path with
  | nil => cases hm; exact h.orderly
  | cons k path =>
      obtain ⟨_, hsound⟩ := h.at? (List.cons_ne_nil k path) hm
      exact hsound.sound.orderly

theorem Sound.everywhere_ne_none {n : FactNode} (h : n.Sound) (hne : n.cardinality ≠ .none) :
    n.Everywhere (·.cardinality ≠ .none) := by
  intro path m hm
  cases path with
  | nil => cases hm; exact hne
  | cons k path =>
      obtain ⟨_, hsound⟩ := h.at? (List.cons_ne_nil k path) hm
      exact hsound.cardinality_ne

end FactNode

namespace FactDatabase

/-- Along the path of a fact no node of a reachable database refuses a child. -/
theorem Reachable.addAlong_eq_ok {db : FactDatabase} (h : db.Reachable) {s : String}
    {path : List Segment} (hp : Sentence.parseFact .insert s = .ok path) :
    db.root.addAlong path = .ok (db.root.grow path) := by
  obtain ⟨-, hc, hs⟩ := h.sound
  exact FactNode.addAlong_eq_ok (fun t ht => (Sentence.stored_of_parseFact hp t ht).2)
    (hs.everywhere_ne_none (by rw [hc]; decide))

/-- Inserting into a reachable database is reading the fact, looking for a node with another
cardinality, and then adding the nodes of the path one below the other. -/
theorem Reachable.insert_eq_addAlong {db : FactDatabase} (h : db.Reachable) (s : String) :
    db.insert s = (do
      let path ← Sentence.parseFact .insert s
      match db.root.mismatch? path with
      | some symbol => throw (.cardinalityMismatch symbol s)
      | none => return ⟨← db.root.addAlong path⟩) := by
  unfold insert
  cases hp : Sentence.parseFact .insert s with
  | error e => rfl
  | ok path =>
      show (match db.root.mismatch? path with | some _ => _ | none => _) =
        match db.root.mismatch? path with | some _ => _ | none => _
      rw [h.addAlong_eq_ok hp]
      rfl

end FactDatabase

/-- Every tree that calls build is well kept at every node. The tree of every reachable database is,
too; its root is the symbol `root` and may have many children, no node of it is without a
cardinality or a variable, its floats are finite, and the symbols below the root are read back as
symbols. -/
theorem FactDatabase.Reachable.well_kept {n : FactNode} {db : FactDatabase} (hn : n.Built)
    (hdb : db.Reachable) :
    n.Everywhere FactNode.WellKept ∧ db.root.Everywhere FactNode.WellKept ∧
      db.root.value = .symbol "root" ∧ db.root.cardinality = .many ∧
      ∀ path m, db.root.at? path = some m →
        m.cardinality ≠ .none ∧ m.value.isVariable = false ∧
        (∀ x, m.value = .float x → x.isFinite = true) ∧
        (path ≠ [] → ∀ t, m.value = .symbol t → Text.IsSymbol t.toList) := by
  obtain ⟨hv, hc, hs⟩ := hdb.sound
  refine ⟨hn.orderly.imp fun m hm => hm.wellKept, fun path m hm => (hs.orderly_at? hm).wellKept,
    hv, hc, fun path m hm => ?_⟩
  cases path with
  | nil =>
      cases hm
      rw [hv, hc]
      exact ⟨by decide, rfl, nofun, fun hne => absurd rfl hne⟩
  | cons k path =>
      obtain ⟨_, -, ⟨hw, hvar⟩, hcard, -⟩ := hs.at? (List.cons_ne_nil k path) hm
      refine ⟨hcard, hvar, fun x hx => ?_, fun _ t ht => ?_⟩
      · exact (hx ▸ hw).finite_float.1
      · exact (ht ▸ hw).isSymbol

/-- A second child of a node that may have one is refused, and so is a fact with a variable. -/
theorem FactDatabase.well_kept_of_refusals :
    let hp := FactNode.leaf (.symbol "hp") .one
    let first := hp.modifyAt (·.call (.addChild (.leaf (.int 1) .many))) []
    let second := first.modifyAt (·.call (.addChild (.leaf (.int 2) .many))) []
    let db := (FactDatabase.run ∅ [.insert "ann.hp!1", .insert "ann.hp!?x", .insert "ann.[a.b]"]).2
    second = first ∧ second.Everywhere FactNode.WellKept ∧
      db.sentences = ["ann.[a.b]", "ann.hp!1"] ∧ db.root.Everywhere FactNode.WellKept := by
  have hfirst := (FactNode.Built.leaf (.symbol "hp") .one).addChild [] (.leaf (.int 1) .many)
  have hsecond := hfirst.addChild [] (.leaf (.int 2) .many)
  have hdb := ((FactDatabase.Reachable.empty.step (.insert "ann.hp!1")).step
    (.insert "ann.hp!?x")).step (.insert "ann.[a.b]")
  obtain ⟨hn, hr, -⟩ := FactDatabase.Reachable.well_kept hsecond hdb
  exact ⟨by decide +kernel, hn, by decide +kernel, hr⟩

end Society
