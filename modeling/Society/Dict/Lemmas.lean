import Society.Dict

/-!
# Looking up in dictionaries

What each operation does to the look-ups. A value is found under a key if and only if it is listed
with it, and dictionaries with the same look-ups are equal.
-/

namespace Society.Dict

variable {α β : Type}

/-! ## Look-ups in lists of entries -/

theorem lookup_cons (k : String) (e : String × α) (l : List (String × α)) :
    (e :: l).lookup k = if k = e.1 then some e.2 else l.lookup k := by
  rw [List.lookup_cons]
  by_cases h : k = e.1
  · subst h; simp
  · simp [h, beq_false_of_ne h]

theorem lookup_insertEntry (k k' : String) (v : α) (l : List (String × α)) :
    (insertEntry k v l).lookup k' = if k' = k then some v else l.lookup k' := by
  induction l with
  | nil => simp [insertEntry, lookup_cons]
  | cons hd tl ih => grind [insertEntry, lookup_cons]

theorem lookup_filter (p : String → Bool) (k : String) (l : List (String × α)) :
    (l.filter fun e => p e.1).lookup k = if p k then l.lookup k else none := by
  induction l with
  | nil => simp
  | cons hd tl ih => grind [lookup_cons]

theorem lookup_map (f : α → β) (k : String) (l : List (String × α)) :
    (l.map fun e => (e.1, f e.2)).lookup k = (l.lookup k).map f := by
  induction l with
  | nil => rfl
  | cons hd tl ih => grind [lookup_cons]

theorem lookup_eq_some_iff {k : String} {v : α} {l : List (String × α)}
    (h : l.Pairwise fun a b => a.1 < b.1) : l.lookup k = some v ↔ (k, v) ∈ l := by
  induction l with
  | nil => simp
  | cons hd tl ih =>
    have ⟨hhd, htl⟩ := List.pairwise_cons.1 h
    rw [lookup_cons]
    by_cases hk : k = hd.1
    · subst hk
      simp only [if_true, Option.some.injEq, List.mem_cons]
      refine ⟨fun h => .inl (h ▸ rfl), fun h => ?_⟩
      rcases h with h | h
      · rw [← h]
      · exact absurd (hhd _ h) (String.lt_irrefl _)
    · simp only [hk, if_false, ih htl, List.mem_cons]
      refine ⟨.inr, fun h => ?_⟩
      rcases h with h | h
      · exact absurd (congrArg Prod.fst h) hk
      · exact h

/-- Sorted lists with the same entries are equal. -/
theorem eq_of_mem_iff {l m : List (String × α)} (hl : l.Pairwise fun a b => a.1 < b.1)
    (hm : m.Pairwise fun a b => a.1 < b.1) (h : ∀ e, e ∈ l ↔ e ∈ m) : l = m := by
  induction l generalizing m with
  | nil =>
    cases m with
    | nil => rfl
    | cons e _ => exact absurd ((h e).2 (List.mem_cons_self ..)) List.not_mem_nil
  | cons a l ih =>
    cases m with
    | nil => exact absurd ((h a).1 (List.mem_cons_self ..)) List.not_mem_nil
    | cons b m =>
      have ⟨ha, hl'⟩ := List.pairwise_cons.1 hl
      have ⟨hb, hm'⟩ := List.pairwise_cons.1 hm
      have hab : a = b := by
        rcases List.mem_cons.1 ((h a).1 (List.mem_cons_self ..)) with e | hbm
        · exact e
        · rcases List.mem_cons.1 ((h b).2 (List.mem_cons_self ..)) with e | hal
          · exact e.symm
          · exact absurd (String.lt_trans (ha b hal) (hb a hbm)) (String.lt_irrefl _)
      subst hab
      refine congrArg _ (ih hl' hm' fun e => ⟨fun he => ?_, fun he => ?_⟩)
      · rcases List.mem_cons.1 ((h e).1 (List.mem_cons_of_mem _ he)) with rfl | he'
        · exact absurd (ha _ he) (String.lt_irrefl _)
        · exact he'
      · rcases List.mem_cons.1 ((h e).2 (List.mem_cons_of_mem _ he)) with rfl | he'
        · exact absurd (hb _ he) (String.lt_irrefl _)
        · exact he'

/-! ## Look-ups in dictionaries -/

@[simp] theorem get?_empty (k : String) : (∅ : Dict α).get? k = none := rfl

theorem get?_insert (d : Dict α) (k k' : String) (v : α) :
    (d.insert k v).get? k' = if k' = k then some v else d.get? k' :=
  lookup_insertEntry k k' v d.entries

theorem get?_erase (d : Dict α) (k k' : String) :
    (d.erase k).get? k' = if k' = k then none else d.get? k' := by
  have h := lookup_filter (· != k) k' d.entries
  grind [erase, get?]

theorem get?_filterKeys (d : Dict α) (p : String → Bool) (k : String) :
    (d.filterKeys p).get? k = if p k then d.get? k else none :=
  lookup_filter p k d.entries

theorem get?_map (d : Dict α) (f : α → β) (k : String) : (d.map f).get? k = (d.get? k).map f :=
  lookup_map f k d.entries

theorem get?_modify (d : Dict α) (k k' : String) (f : α → α) :
    (d.modify k f).get? k' = if k' = k then (d.get? k).map f else d.get? k' := by
  unfold modify
  cases h : d.get? k with
  | none => by_cases hk : k' = k <;> simp [hk, h]
  | some v => simp [get?_insert]

theorem get?_foldl_insert_of_not_mem {l : List (String × α)} {k : String} (h : k ∉ l.map (·.1))
    (d : Dict α) : (l.foldl (fun d e => d.insert e.1 e.2) d).get? k = d.get? k := by
  induction l generalizing d with
  | nil => rfl
  | cons e l ih =>
    have hk : k ≠ e.1 := fun hk => h (by simp [hk])
    have hl : k ∉ l.map (·.1) := fun hl => h (List.mem_cons_of_mem _ hl)
    rw [List.foldl_cons, ih hl, get?_insert, if_neg hk]

/-- What is inserted under a key of its own stays there, whatever is inserted around it. -/
theorem get?_foldl_insert_of_mem {l : List (String × α)} {k : String} {v : α}
    (hnodup : (l.map (·.1)).Nodup) (h : (k, v) ∈ l) (d : Dict α) :
    (l.foldl (fun d e => d.insert e.1 e.2) d).get? k = some v := by
  induction l generalizing d with
  | nil => cases h
  | cons e l ih =>
    have ⟨hnot, hl⟩ := List.nodup_cons.mp hnodup
    rcases List.mem_cons.mp h with rfl | h
    · rw [List.foldl_cons, get?_foldl_insert_of_not_mem hnot, get?_insert, if_pos rfl]
    · exact ih hl h _

/-- What is found in a dictionary made of a list is in the list. -/
theorem mem_of_get?_ofList {l : List (String × α)} {k : String} {v : α}
    (h : (ofList l).get? k = some v) : (k, v) ∈ l := by
  have hfold : ∀ d : Dict α, (l.foldl (fun d e => d.insert e.1 e.2) d).get? k = some v →
      d.get? k = some v ∨ (k, v) ∈ l := by
    clear h
    induction l with
    | nil => exact fun d h => .inl h
    | cons e l ih =>
      intro d h
      rcases ih _ h with h | h
      · rw [get?_insert] at h
        split at h
        · next hk => exact .inr (by simp [hk, ← Option.some.inj h])
        · exact .inl h
      · exact .inr (List.mem_cons_of_mem _ h)
  exact (hfold ∅ h).resolve_left (by simp)

/-- What is under a key is what is listed with it. -/
theorem get?_eq_some_iff {d : Dict α} {k : String} {v : α} :
    d.get? k = some v ↔ (k, v) ∈ d.entries :=
  lookup_eq_some_iff d.sorted

/-- A dictionary is known by its look-ups. -/
theorem ext_get? {d e : Dict α} (h : ∀ k, d.get? k = e.get? k) : d = e := by
  cases d with
  | mk l hl =>
    cases e with
    | mk m hm =>
      have : l = m := eq_of_mem_iff hl hm fun (k, v) => by
        rw [← lookup_eq_some_iff hl, ← lookup_eq_some_iff hm]
        exact iff_of_eq (congrArg (· = some v) (h k))
      subst this
      rfl

theorem contains_insert (d : Dict α) (k k' : String) (v : α) :
    (d.insert k v).contains k' = (decide (k' = k) || d.contains k') := by
  rw [contains, get?_insert]
  split <;> simp [contains, *]

theorem contains_erase (d : Dict α) (k k' : String) :
    (d.erase k).contains k' = (!decide (k' = k) && d.contains k') := by
  rw [contains, get?_erase]
  split <;> simp [contains, *]

theorem erase_erase (d : Dict α) (k : String) : (d.erase k).erase k = d.erase k := by
  refine ext_get? fun k' => ?_
  rw [get?_erase, get?_erase]
  split <;> rfl

theorem erase_of_not_contains {d : Dict α} {k : String} (h : d.contains k = false) :
    d.erase k = d := by
  refine ext_get? fun k' => ?_
  rw [get?_erase]
  split
  · rename_i hk
    subst hk
    exact (Option.not_isSome_iff_eq_none.mp (by simpa [contains] using h)).symm
  · rfl

theorem eq_empty {d : Dict α} (h : ∀ k, d.contains k = false) : d = ∅ :=
  ext_get? fun k => Option.not_isSome_iff_eq_none.mp (by simpa [contains] using h k)

theorem mem_keys_iff {d : Dict α} {k : String} : k ∈ d.keys ↔ d.contains k = true := by
  simp [keys, contains, Option.isSome_iff_exists, get?_eq_some_iff]

theorem nodup_keys (d : Dict α) : d.keys.Nodup := by
  refine List.pairwise_map.mpr (d.sorted.imp ?_)
  intro a b hlt heq
  exact String.lt_irrefl _ (heq ▸ hlt)

theorem mem_values_iff {d : Dict α} {v : α} : v ∈ d.values ↔ ∃ k, d.get? k = some v := by
  simp only [values, List.mem_map, get?_eq_some_iff, Prod.exists]
  constructor
  · rintro ⟨k, v, hmem, rfl⟩
    exact ⟨k, hmem⟩
  · rintro ⟨k, hmem⟩
    exact ⟨k, v, hmem, rfl⟩

theorem isEmpty_eq_false_iff {d : Dict α} : d.isEmpty = false ↔ ∃ k, d.contains k = true := by
  simp only [← mem_keys_iff, isEmpty, keys, List.isEmpty_eq_false_iff_exists_mem, List.mem_map]
  constructor
  · rintro ⟨e, he⟩
    exact ⟨e.1, e, he, rfl⟩
  · rintro ⟨_, e, he, rfl⟩
    exact ⟨e, he⟩

/-- A change that a function does not see is not seen in the dictionary. -/
theorem map_modify {d : Dict α} {k : String} {f : α → α} {g : α → β}
    (h : ∀ v, d.get? k = some v → g (f v) = g v) : (d.modify k f).map g = d.map g := by
  refine ext_get? fun k' => ?_
  rw [get?_map, get?_map, get?_modify]
  split
  · rename_i hk
    subst hk
    cases hv : d.get? k' with
    | none => rfl
    | some v => exact congrArg some (h v hv)
  · rfl

theorem modify_modify (d : Dict α) (k : String) (f g : α → α) :
    (d.modify k f).modify k g = d.modify k (g ∘ f) := by
  refine ext_get? fun k' => ?_
  simp only [get?_modify]
  split <;> simp

@[simp] theorem map_id (d : Dict α) : d.map id = d :=
  ext_get? fun k => by simp [get?_map]

/-- A change that changes nothing that is there. -/
theorem modify_eq_self {d : Dict α} {k : String} {f : α → α} (h : ∀ v, d.get? k = some v → f v = v) :
    d.modify k f = d := by
  simpa using map_modify (g := id) h

@[simp] theorem isEmpty_map (d : Dict α) (f : α → β) : (d.map f).isEmpty = d.isEmpty := by
  cases h : d.entries <;> simp [isEmpty, map, h]

theorem map_map {γ : Type} (d : Dict α) (f : α → β) (g : β → γ) : (d.map f).map g = d.map (g ∘ f) :=
  ext_get? fun k => by simp [get?_map]

end Society.Dict

theorem Society.TextSet.contains_insert (s : TextSet) (k k' : String) :
    (s.insert k).contains k' = (decide (k' = k) || s.contains k') :=
  Dict.contains_insert s k k' ()
