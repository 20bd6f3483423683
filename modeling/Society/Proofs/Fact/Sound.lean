import Society.Proofs.Fact.Tree
import Society.Proofs.Sentence.RoundTrip

/-!
# Sound fact trees

In the tree of a database the key of a node is the symbol of its value, the value is one that a
sentence can write and no variable, the cardinality of a node admits its children, and the keys of
the children ascend. Growing a path and pruning it keep all of this.
-/

namespace Society

/-- A value that a fact can have. -/
def NodeValue.Stored (v : NodeValue) : Prop :=
  v.Written ∧ v.isVariable = false

/-- Whether a node of a cardinality may have these children. -/
def Cardinality.Admits : Cardinality → Forest → Prop
  | .none, f => f.keys = []
  | .one, f => ∀ k ∈ f.keys, ∀ k' ∈ f.keys, k = k'
  | .many, _ => True

theorem Cardinality.Admits.of_subset {c : Cardinality} {f g : Forest} (h : c.Admits f)
    (hsub : ∀ k ∈ g.keys, k ∈ f.keys) : c.Admits g := by
  cases c with
  | none =>
      have hnil : f.keys = [] := h
      refine List.eq_nil_iff_forall_not_mem.mpr fun k hk => ?_
      have hmem := hsub k hk
      rw [hnil] at hmem
      cases hmem
  | one => exact fun k hk k' hk' => h k (hsub k hk) k' (hsub k' hk')
  | many => trivial

namespace Forest

/-- What holds of every tree of a forest and of all nodes below it. -/
def Sound : Forest → Prop
  | nil => True
  | cons k v c children rest =>
    (k = v.toSymbol ∧ v.Stored ∧ c ≠ .none ∧ c.Admits children ∧ ∀ k' ∈ rest.keys, k < k') ∧
      children.Sound ∧ rest.Sound

theorem Sound.ascending {f : Forest} (h : f.Sound) : f.Ascending := by
  induction f with
  | nil => exact .nil
  | cons k v c children rest _ ih => exact List.pairwise_cons.mpr ⟨h.1.2.2.2.2, ih h.2.2⟩

theorem Sound.erase {f : Forest} (h : f.Sound) (key : String) : (f.erase key).Sound := by
  induction f with
  | nil => exact h
  | cons k v c children rest _ ih =>
      simp only [Forest.erase]
      split
      · exact h.2.2
      · obtain ⟨⟨hk, hv, hc, ha, hlt⟩, hch, hr⟩ := h
        exact ⟨⟨hk, hv, hc, ha, fun k' hk' => hlt k' (mem_keys_of_erase hk')⟩, hch, ih hr⟩

end Forest

namespace FactNode

/-- A node whose cardinality admits its children, over a sound forest. -/
def Sound (n : FactNode) : Prop :=
  n.cardinality.Admits n.children ∧ n.children.Sound

/-- A node that may stand under a key of a sound forest. -/
structure SoundAt (key : String) (n : FactNode) : Prop where
  key_eq : key = n.toSymbol
  stored : n.value.Stored
  cardinality_ne : n.cardinality ≠ .none
  sound : n.Sound

end FactNode

namespace Forest

theorem Sound.find? {f : Forest} (h : f.Sound) {k : String} {n : FactNode}
    (hn : f.find? k = some n) : n.SoundAt k := by
  induction f with
  | nil => simp at hn
  | cons k' v c children rest _ ih =>
      obtain ⟨⟨hk, hv, hc, ha, -⟩, hch, hr⟩ := h
      simp only [Forest.find?] at hn
      split at hn
      · rename_i hkk
        obtain rfl := Option.some.inj hn
        exact ⟨hkk ▸ hk, hv, hc, ha, hch⟩
      · exact ih hr hn

theorem Sound.insert {f : Forest} (h : f.Sound) {key : String} {n : FactNode} (hn : n.SoundAt key) :
    (f.insert key n).Sound := by
  have hasc := h.ascending.insert key n
  obtain ⟨hkey, hv, hc, ha, hch⟩ := hn
  induction f with
  | nil => exact ⟨⟨hkey, hv, hc, ha, by simp⟩, hch, trivial⟩
  | cons k' v' c' children' rest' _ ih =>
      obtain ⟨⟨hk, hv', hc', ha', hlt⟩, hch', hr'⟩ := id h
      simp only [Forest.insert] at hasc ⊢
      split at hasc
      · rename_i hl
        rw [if_pos hl]
        exact ⟨⟨hkey, hv, hc, ha, fun k hk => hasc.head_lt hk⟩, hch, h⟩
      · rename_i hl
        rw [if_neg hl]
        split at hasc
        · rename_i he
          rw [if_pos he]
          exact ⟨⟨hkey, hv, hc, ha, fun k hk => hasc.head_lt hk⟩, hch, hr'⟩
        · rename_i he
          rw [if_neg he]
          exact ⟨⟨hk, hv', hc', ha', fun k hk => hasc.head_lt hk⟩, hch', ih hr' hasc.tail⟩

end Forest

namespace FactNode

/-- The key of a node tells its value, unless that is a float. -/
theorem SoundAt.value_eq {k : String} {n : FactNode} (h : n.SoundAt k)
    (hf : n.value.isFloat = false) : n.value = .ofToken k.toList := by
  rw [h.key_eq, toSymbol, h.stored.1.ofToken_toSymbol hf]

theorem sound_leaf (v : NodeValue) (c : Cardinality) : (leaf v c).Sound := by
  refine ⟨?_, trivial⟩
  cases c with
  | none => rfl
  | one => intro k hk; simp [leaf] at hk
  | many => trivial

theorem Sound.child? {n child : FactNode} {k : String} (h : n.Sound) (hc : n.child? k = some child) :
    child.SoundAt k :=
  h.2.find? hc

theorem Sound.at? {n m : FactNode} (h : n.Sound) {p : List String} (hp : p ≠ [])
    (hm : n.at? p = some m) : ∃ key, m.SoundAt key := by
  induction p generalizing n with
  | nil => exact absurd rfl hp
  | cons key p ih =>
      rw [at?_cons] at hm
      obtain ⟨child, hc, hm⟩ := Option.bind_eq_some_iff.mp hm
      by_cases hp' : p = []
      · subst hp'
        obtain rfl := Option.some.inj hm
        exact ⟨key, h.child? hc⟩
      · exact ih (h.child? hc).sound hp' hm

/-- A node with one child goes on to no other key. -/
theorem Sound.eq_of_one {n child child' : FactNode} {k k' : String} (h : n.Sound)
    (hone : n.cardinality = .one) (hc : n.child? k = some child) (hc' : n.child? k' = some child') :
    k = k' := by
  have ha := h.1
  rw [hone] at ha
  exact ha k (Forest.mem_keys_of_find? hc) k' (Forest.mem_keys_of_find? hc')

theorem Sound.setChild {n child : FactNode} {k : String} (h : n.Sound) (hc : child.SoundAt k)
    (hone : n.cardinality = .one → ∀ k' ∈ n.children.keys, k' = k)
    (hne : n.cardinality ≠ .none) : (n.setChild k child).Sound := by
  refine ⟨?_, h.2.insert hc⟩
  rw [cardinality_setChild]
  cases hcard : n.cardinality with
  | none => exact absurd hcard hne
  | one =>
      have hall : ∀ k' ∈ (n.setChild k child).children.keys, k' = k := by
        intro k' hk'
        rcases Forest.mem_keys_insert.mp hk' with rfl | hk'
        · rfl
        · exact hone hcard k' hk'
      intro k₁ h₁ k₂ h₂
      rw [hall k₁ h₁, hall k₂ h₂]
  | many => trivial

theorem Sound.clearChildren {n : FactNode} : n.clearChildren.Sound :=
  sound_leaf n.value n.cardinality

theorem Sound.removeChild {n : FactNode} (h : n.Sound) (k : String) : (n.removeChild k).Sound :=
  ⟨h.1.of_subset fun _ hk' => Forest.mem_keys_of_erase hk', h.2.erase k⟩

/-! ## Growing and pruning -/

@[simp] theorem value_grow (path : List Segment) (n : FactNode) : (n.grow path).value = n.value := by
  cases path with
  | nil => rfl
  | cons s path =>
      simp only [grow]
      split
      · rfl
      · split <;> rfl

@[simp] theorem cardinality_grow (path : List Segment) (n : FactNode) :
    (n.grow path).cardinality = n.cardinality := by
  cases path with
  | nil => rfl
  | cons s path =>
      simp only [grow]
      split
      · rfl
      · split <;> rfl

theorem Sound.grow {path : List Segment} {n : FactNode} (h : n.Sound) (hne : n.cardinality ≠ .none)
    (hp : ∀ s ∈ path, s.value.Stored ∧ s.cardinality ≠ .none) : (n.grow path).Sound := by
  induction path generalizing n with
  | nil => exact h
  | cons s path ih =>
      have hs := hp s List.mem_cons_self
      have hp' := fun t ht => hp t (List.mem_cons_of_mem _ ht)
      simp only [FactNode.grow]
      split
      · rename_i child hc
        have hchild := h.child? hc
        refine h.setChild ⟨?_, ?_, ?_, ih hchild.sound hchild.cardinality_ne hp'⟩ ?_ hne
        · rw [toSymbol, value_grow]; exact hchild.key_eq
        · rw [value_grow]; exact hchild.stored
        · rw [cardinality_grow]; exact hchild.cardinality_ne
        · intro hone k' hk'
          obtain ⟨other, ho⟩ := Forest.exists_find?_of_mem_keys hk'
          exact h.eq_of_one hone ho hc
      · have hleaf : (FactNode.grow path (leaf s.value s.cardinality)).SoundAt s.toSymbol := by
          refine ⟨?_, ?_, ?_, ih (sound_leaf _ _) hs.2 hp'⟩
          · rw [toSymbol, value_grow]; rfl
          · rw [value_grow]; exact hs.1
          · rw [cardinality_grow]; exact hs.2
        split
        · exact Sound.setChild Sound.clearChildren hleaf (fun _ k' hk' => by cases hk') hne
        · rename_i hmany
          exact h.setChild hleaf (fun hone => absurd hone hmany) hne

theorem prune_root {path : List Segment} {n pruned : FactNode} {found : Bool}
    (h : n.prune path = .ok (pruned, found)) :
    pruned.value = n.value ∧ pruned.cardinality = n.cardinality := by
  cases path with
  | nil => cases h; exact ⟨rfl, rfl⟩
  | cons s path =>
      cases path with
      | nil => cases h; exact ⟨rfl, rfl⟩
      | cons s' path =>
          simp only [prune] at h
          split at h
          · rename_i child _
            cases hp : prune (s' :: path) child with
            | error e => rw [hp] at h; cases h
            | ok r => rw [hp] at h; cases h; exact ⟨rfl, rfl⟩
          · cases h

theorem Sound.prune {path : List Segment} {n pruned : FactNode} {found : Bool} (h : n.Sound)
    (hne : n.cardinality ≠ .none) (hp : n.prune path = .ok (pruned, found)) : pruned.Sound := by
  induction path generalizing n pruned found with
  | nil => cases hp; exact h
  | cons s path ih =>
      cases path with
      | nil => cases hp; exact h.removeChild _
      | cons s' path =>
          simp only [FactNode.prune] at hp
          split at hp
          · rename_i child hc
            cases hp' : FactNode.prune (s' :: path) child with
            | error e => rw [hp'] at hp; cases hp
            | ok r =>
                rw [hp'] at hp
                cases hp
                have hchild := h.child? hc
                obtain ⟨hv, hcard⟩ := prune_root hp'
                refine h.setChild ⟨?_, ?_, ?_, ih hchild.sound hchild.cardinality_ne hp'⟩ ?_ hne
                · rw [toSymbol, hv]; exact hchild.key_eq
                · rw [hv]; exact hchild.stored
                · rw [hcard]; exact hchild.cardinality_ne
                · intro hone k' hk'
                  obtain ⟨other, ho⟩ := Forest.exists_find?_of_mem_keys hk'
                  exact h.eq_of_one hone ho hc
          · cases hp

end FactNode

end Society
