import Mathlib.Data.List.Nodup
import Society.Proofs.Fact.Run

/-!
# Listing the facts of a tree

The listing writes the paths to the nodes without children. It takes an empty path for the top of
the tree, so below a node with an empty key at the top it writes the paths as if that node were not
there. All other paths are written so that they are read again.
-/

namespace Society

namespace Sentence

/-- A path whose sentence is a fact that names just this path. -/
structure Exact (path : List Segment) : Prop where
  proper : Proper path
  no_variable : anyVariable path = false
  no_float : ∀ s ∈ path, s.value.isFloat = false

variable {path : List Segment}

theorem exact_singleton {v : NodeValue} (hv : v.Stored) (hf : v.isFloat = false) :
    Exact [⟨v, .many⟩] :=
  ⟨⟨hv.1, rfl⟩, by simp [anyVariable, hv.2], by simpa using hf⟩

theorem Exact.cons {s : Segment} (h : Exact path) (hs : s.value.Stored) (hc : s.cardinality ≠ .none)
    (hf : s.value.isFloat = false) : Exact (s :: path) := by
  refine ⟨proper_cons hs.1 hc h.proper, ?_, fun t ht => ?_⟩
  · have hrest := h.no_variable
    simp only [anyVariable] at hrest
    simp [anyVariable, hs.2, hrest]
  · rcases List.mem_cons.mp ht with rfl | ht
    · exact hf
    · exact h.no_float t ht

theorem Exact.of_cons {s : Segment} (h : Exact (s :: path)) (hne : path ≠ []) : Exact path := by
  obtain ⟨t, path, rfl⟩ := List.exists_cons_of_ne_nil hne
  refine ⟨h.proper.2.2, ?_, fun u hu => h.no_float u (List.mem_cons_of_mem s hu)⟩
  have hall := h.no_variable
  rw [anyVariable, List.any_cons, Bool.or_eq_false_iff] at hall
  exact hall.2

theorem Exact.of_suffix {whole : List Segment} (h : Exact whole) (hs : path <:+ whole)
    (hne : path ≠ []) : Exact path := by
  induction whole with
  | nil => exact absurd (List.suffix_nil.mp hs) hne
  | cons s whole ih =>
      rcases List.suffix_cons_iff.mp hs with rfl | hs
      · exact h
      · refine ih (h.of_cons ?_) hs
        rintro rfl
        exact hne (List.suffix_nil.mp hs)

theorem Exact.parseFact_print (h : Exact path) (action : FactAction) :
    parseFact action (print path) = .ok path := by
  refine parseFact_eq_ok.mpr ⟨?_, h.no_variable⟩
  rw [parse_print h.proper, reread_eq h.proper h.no_float]

theorem Exact.print_inj {path' : List Segment} (h : Exact path) (h' : Exact path')
    (heq : print path = print path') : path = path' := by
  have hp := h.parseFact_print .insert
  rw [heq, h'.parseFact_print .insert] at hp
  exact (Except.ok.inj hp).symm

theorem escape_eq_empty {symbol : String} (h : escape symbol = "") : symbol = "" := by
  unfold escape at h
  split at h
  · have := congrArg String.toList h
    simp at this
  · exact h

theorem print_cons (s : Segment) (h : path ≠ []) :
    print (s :: path) = escape s.toSymbol ++ s.cardinality.delimiter ++ print path := by
  cases path with
  | nil => exact absurd rfl h
  | cons t path => rfl

end Sentence

/-! ## Paths to the leaves -/

namespace Forest

/-- The paths to the nodes without children. The last segment of a sentence lets many children
follow, whatever its node does. -/
def leafPaths : Forest → List (List Segment)
  | nil => []
  | cons _ v c children rest =>
    (if children.isEmpty then [[⟨v, .many⟩]] else children.leafPaths.map (⟨v, c⟩ :: ·)) ++
      rest.leafPaths

/-- The paths that the listing writes: below an empty key at the top, the paths from there. -/
def listedPaths : Forest → List (List Segment)
  | nil => []
  | cons k v c children rest =>
    (if children.isEmpty then [[⟨v, .many⟩]]
      else if k = "" then children.listedPaths
      else children.leafPaths.map (⟨v, c⟩ :: ·)) ++ rest.listedPaths

variable {f : Forest}

theorem ne_nil_of_mem_leafPaths {path : List Segment} (h : path ∈ f.leafPaths) : path ≠ [] := by
  induction f with
  | nil => cases h
  | cons k v c children rest _ ih =>
      rcases List.mem_append.mp h with h | h
      · split at h
        · obtain rfl := List.mem_singleton.mp h
          simp
        · obtain ⟨tail, -, rfl⟩ := List.mem_map.mp h
          simp
      · exact ih h

theorem leafPaths_ne_nil (h : f.isEmpty = false) : f.leafPaths ≠ [] := by
  induction f with
  | nil => cases h
  | cons k v c children rest ih _ =>
      simp only [leafPaths]
      cases hc : children.isEmpty with
      | true => simp
      | false => simp [ih hc]

theorem length_leafPaths (f : Forest) : f.leafPaths.length = f.leafCount := by
  induction f with
  | nil => rfl
  | cons k v c children rest ihc ihr =>
      simp only [leafPaths, leafCount, List.length_append, ihr]
      split <;> simp [ihc]

/-- A path to a leaf begins with the key of one of the trees. -/
theorem head_of_mem_leafPaths (h : f.Sound) {path : List Segment} (hp : path ∈ f.leafPaths) :
    ∃ s rest, path = s :: rest ∧ s.toSymbol ∈ f.keys := by
  induction f with
  | nil => cases hp
  | cons k v c children rest _ ih =>
      have hk : v.toSymbol ∈ (cons k v c children rest).keys := by simp [h.1.1]
      rcases List.mem_append.mp hp with hp | hp
      · split at hp
        · obtain rfl := List.mem_singleton.mp hp
          exact ⟨_, _, rfl, hk⟩
        · obtain ⟨tail, -, rfl⟩ := List.mem_map.mp hp
          exact ⟨_, _, rfl, hk⟩
      · obtain ⟨s, tail, rfl, hs⟩ := ih h.2.2 hp
        exact ⟨s, tail, rfl, List.mem_cons_of_mem _ hs⟩

theorem nodup_leafPaths (h : f.Sound) : f.leafPaths.Nodup := by
  induction f with
  | nil => exact .nil
  | cons k v c children rest ihc ihr =>
      refine List.nodup_append.mpr ⟨?_, ihr h.2.2, ?_⟩
      · split
        · simp
        · exact (ihc h.2.1).map fun p q hpq => (List.cons.inj hpq).2
      · rintro path hp path' hp' rfl
        -- the key of the first tree is not among the others
        have hhead : ∃ tail s, path = s :: tail ∧ s.toSymbol = k := by
          split at hp
          · obtain rfl := List.mem_singleton.mp hp
            exact ⟨_, _, rfl, h.1.1.symm⟩
          · obtain ⟨tail, -, rfl⟩ := List.mem_map.mp hp
            exact ⟨_, _, rfl, h.1.1.symm⟩
        obtain ⟨tail, s, rfl, hs⟩ := hhead
        obtain ⟨s', tail', he, hmem⟩ := head_of_mem_leafPaths h.2.2 hp'
        obtain ⟨rfl, -⟩ := List.cons.inj he
        exact absurd (h.1.2.2.2.2 _ hmem) (hs ▸ String.lt_irrefl _)

/-- The tree has every path to a leaf. -/
theorem holds_of_mem_leafPaths (h : f.Sound) {path : List Segment} (hp : path ∈ f.leafPaths)
    (v : NodeValue) (c : Cardinality) : FactNode.holds path ⟨v, c, f⟩ = true := by
  induction f generalizing path v c with
  | nil => cases hp
  | cons k v' c' children rest ihc ihr =>
      rcases List.mem_append.mp hp with hp | hp
      · have hfind : (cons k v' c' children rest).find? v'.toSymbol = some ⟨v', c', children⟩ := by
          simp [find?, h.1.1]
        split at hp
        · obtain rfl := List.mem_singleton.mp hp
          simp [FactNode.holds, FactNode.child?, Segment.toSymbol, hfind]
        · obtain ⟨tail, ht, rfl⟩ := List.mem_map.mp hp
          simp [FactNode.holds, FactNode.child?, Segment.toSymbol, hfind, ihc h.2.1 ht]
      · obtain ⟨s, tail, rfl, hs⟩ := head_of_mem_leafPaths h.2.2 hp
        have hne : k ≠ s.toSymbol := fun he => String.lt_irrefl k (he ▸ h.1.2.2.2.2 _ hs : k < k)
        have hrest := ihr h.2.2 hp v c
        simp only [FactNode.holds, FactNode.child?] at hrest ⊢
        simpa [find?, hne] using hrest

/-! ## What is written -/

/-- Behind a path that is not empty, the listing writes the paths to the leaves. -/
theorem sentences_behind (h : f.Sound) {path : String} (hp : path ≠ "") (delimiter : String) :
    f.sentences path delimiter = f.leafPaths.map (path ++ delimiter ++ Sentence.print ·) := by
  induction f generalizing path delimiter with
  | nil => rfl
  | cons k v c children rest ihc ihr =>
      have hkey : Sentence.escape k = Sentence.escape v.toSymbol := by rw [h.1.1]
      have hhere : path ++ delimiter ++ Sentence.escape k ≠ "" := by
        intro he
        exact hp (by simpa using congrArg String.toList he : _ ∧ _).1
      simp only [sentences, leafPaths, String.isEmpty_iff, hp, ↓reduceIte, List.map_append,
        ihr h.2.2 hp]
      congr 1
      split
      · simp [Sentence.print, Segment.toSymbol, hkey]
      · rw [ihc h.2.1 hhere, List.map_map]
        refine List.map_congr_left fun tail ht => ?_
        rw [Function.comp, Sentence.print_cons _ (ne_nil_of_mem_leafPaths ht), Segment.toSymbol,
          hkey]
        simp only [String.append_assoc]

theorem sentences_top (h : f.Sound) (delimiter : String) :
    f.sentences "" delimiter = f.listedPaths.map Sentence.print := by
  induction f generalizing delimiter with
  | nil => rfl
  | cons k v c children rest ihc ihr =>
      have hkey : Sentence.escape k = Sentence.escape v.toSymbol := by rw [h.1.1]
      have htop : "".isEmpty = true := rfl
      simp only [sentences, listedPaths, htop, ↓reduceIte, List.map_append, ihr h.2.2]
      congr 1
      split
      · simp [Sentence.print, Segment.toSymbol, hkey]
      · split
        · rename_i hk
          have hempty : Sentence.escape k = "" := by subst hk; rfl
          rw [hempty, ihc h.2.1]
        · rename_i hk
          have hhere : Sentence.escape k ≠ "" := fun he => hk (Sentence.escape_eq_empty he)
          rw [sentences_behind h.2.1 hhere, List.map_map]
          refine List.map_congr_left fun tail ht => ?_
          rw [Function.comp, Sentence.print_cons _ (ne_nil_of_mem_leafPaths ht), Segment.toSymbol,
            hkey]

theorem exact_of_mem_leafPaths (h : f.Sound) {depth : Nat}
    (hfl : ∀ e ∈ f.preorder depth, e.2.value.isFloat = false) {path : List Segment}
    (hp : path ∈ f.leafPaths) : Sentence.Exact path := by
  induction f generalizing depth path with
  | nil => cases hp
  | cons k v c children rest ihc ihr =>
      simp only [preorder, List.cons_append, List.mem_cons, List.mem_append] at hfl
      have hv : v.isFloat = false := hfl (depth, ⟨v, c, children⟩) (.inl rfl)
      rcases List.mem_append.mp hp with hp | hp
      · split at hp
        · obtain rfl := List.mem_singleton.mp hp
          exact Sentence.exact_singleton h.1.2.1 hv
        · obtain ⟨tail, ht, rfl⟩ := List.mem_map.mp hp
          exact (ihc h.2.1 (fun e he => hfl e (.inr (.inl he))) ht).cons h.1.2.1 h.1.2.2.1 hv
      · exact ihr h.2.2 (fun e he => hfl e (.inr (.inr he))) hp

/-- What the listing writes is the end of a path to a leaf, or all of it. -/
theorem exists_suffix_of_mem_listedPaths {path : List Segment} (hp : path ∈ f.listedPaths) :
    path ≠ [] ∧ ∃ whole ∈ f.leafPaths, path <:+ whole := by
  induction f with
  | nil => cases hp
  | cons k v c children rest ihc ihr =>
      simp only [listedPaths, leafPaths] at hp ⊢
      rcases List.mem_append.mp hp with hp | hp
      · by_cases hleaf : children.isEmpty = true
        · simp only [hleaf, if_true] at hp ⊢
          exact ⟨by simp [List.mem_singleton.mp hp], path, List.mem_append_left _ hp, List.suffix_rfl⟩
        · simp only [hleaf, Bool.false_eq_true, if_false] at hp ⊢
          split at hp
          · obtain ⟨hne, whole, hwhole, hs⟩ := ihc hp
            exact ⟨hne, ⟨v, c⟩ :: whole, List.mem_append_left _ (List.mem_map_of_mem hwhole),
              hs.trans (List.suffix_cons _ _)⟩
          · obtain ⟨tail, -, rfl⟩ := List.mem_map.mp hp
            exact ⟨by simp, _, List.mem_append_left _ hp, List.suffix_rfl⟩
      · obtain ⟨hne, whole, hwhole, hs⟩ := ihr hp
        exact ⟨hne, whole, List.mem_append_right _ hwhole, hs⟩

theorem exact_of_mem_listedPaths (h : f.Sound) {depth : Nat}
    (hfl : ∀ e ∈ f.preorder depth, e.2.value.isFloat = false) {path : List Segment}
    (hp : path ∈ f.listedPaths) : Sentence.Exact path := by
  obtain ⟨hne, whole, hwhole, hs⟩ := exists_suffix_of_mem_listedPaths hp
  exact (exact_of_mem_leafPaths h hfl hwhole).of_suffix hs hne

/-- No listed path goes on behind an empty symbol. -/
theorem head_ne_of_mem_listedPaths (h : f.Sound) {s : Segment} {path : List Segment}
    (hp : s :: path ∈ f.listedPaths) (hne : path ≠ []) : s.toSymbol ≠ "" := by
  induction f with
  | nil => cases hp
  | cons k v c children rest ihc ihr =>
      rcases List.mem_append.mp hp with hp | hp
      · split at hp
        · cases List.mem_singleton.mp hp
          exact absurd rfl hne
        · split at hp
          · exact ihc h.2.1 hp
          · rename_i hk
            obtain ⟨tail, -, he⟩ := List.mem_map.mp hp
            cases he
            rwa [Segment.toSymbol, ← h.1.1]
      · exact ihr h.2.2 hp

/-- Where nothing stands below an empty key, the listing writes all paths to the leaves. -/
theorem listedPaths_eq (h : f.Sound) (hempty : ∀ n, f.find? "" = some n → n.children = nil) :
    f.listedPaths = f.leafPaths := by
  induction f with
  | nil => rfl
  | cons k v c children rest _ ih =>
      have hrest : rest.listedPaths = rest.leafPaths := by
        refine ih h.2.2 fun n hn => ?_
        have hlt : k < "" := h.1.2.2.2.2 _ (mem_keys_of_find? hn)
        refine hempty n ?_
        rw [find?, if_neg, hn]
        rintro rfl
        exact String.lt_irrefl _ hlt
      simp only [listedPaths, leafPaths, hrest]
      congr 1
      split
      · rfl
      · rename_i hchildren
        split
        · rename_i hk
          have hnil : children = nil := hempty ⟨v, c, children⟩ (by simp [find?, hk])
          exact absurd (by simp [hnil, isEmpty]) hchildren
        · rfl

end Forest

end Society
