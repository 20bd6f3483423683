import Society.Dict.Lemmas
import Society.Query.Unify

/-!
# Rows of bindings

Merging two rows looks names up in the one and then in the other; two rows agree if they give no name
unequal values; joining lists of rows merges the pairs that agree.
-/

namespace Society.Bindings

theorem get?_foldl_merge (l : List (String × NodeValue)) (old : Bindings) (name : String) :
    (l.foldl (fun row (e : String × NodeValue) =>
      if row.contains e.1 then row else row.insert e.1 e.2) old).get? name =
      (old.get? name).or (l.lookup name) := by
  induction l generalizing old with
  | nil => simp
  | cons e l ih =>
      rw [List.foldl_cons, ih, Dict.lookup_cons]
      by_cases hc : old.contains e.1
      · rw [if_pos hc]
        by_cases hn : name = e.1
        · subst hn
          obtain ⟨v, hv⟩ := Option.isSome_iff_exists.mp hc
          simp [hv]
        · simp [hn]
      · rw [if_neg hc, Dict.get?_insert]
        by_cases hn : name = e.1
        · subst hn
          have hv : old.get? e.1 = none := by simpa [Dict.contains] using hc
          simp [hv]
        · simp [hn]

theorem get?_merge (old new : Bindings) (name : String) :
    (old.merge new).get? name = (old.get? name).or (new.get? name) :=
  get?_foldl_merge new.entries old name

theorem agrees_iff {old new : Bindings} :
    old.agrees new = true ↔
      ∀ name v w, old.get? name = some v → new.get? name = some w → v.equalTo w := by
  simp only [agrees, List.all_eq_true]
  constructor
  · intro h name v w hv hw
    have hmem := h (name, w) (Dict.get?_eq_some_iff.mp hw)
    simpa [hv] using hmem
  · intro h e he
    have hw := Dict.get?_eq_some_iff.mpr he
    cases hv : old.get? e.1 with
    | none => rfl
    | some v => exact h e.1 v e.2 hv hw

theorem mem_join {old new : List Bindings} {r : Bindings} :
    r ∈ join old new ↔ ∃ o ∈ old, ∃ n ∈ new, o.agrees n = true ∧ r = o.merge n := by
  simp only [join, List.mem_flatMap, List.mem_map, List.mem_filter]
  constructor
  · rintro ⟨o, ho, n, ⟨hn, ha⟩, rfl⟩
    exact ⟨o, ho, n, hn, ha, rfl⟩
  · rintro ⟨o, ho, n, hn, ha, rfl⟩
    exact ⟨o, ho, n, ⟨hn, ha⟩, rfl⟩

theorem isEmpty_eq_false {row : Bindings} {name : String} (h : (row.get? name).isSome) :
    row.isEmpty = false := by
  obtain ⟨v, hv⟩ := Option.isSome_iff_exists.mp h
  have hmem := Dict.get?_eq_some_iff.mp hv
  simp only [Dict.isEmpty, List.isEmpty_eq_false_iff]
  exact List.ne_nil_of_mem hmem

end Society.Bindings
