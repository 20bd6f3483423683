import Mathlib.Data.List.Perm.Basic
import Society.Dict.Lemmas
import Society.Sheet

/-!
# The modifiers on the stats of a sheet

What the operations on stats do to the modifiers that are attached, name by name. Their order matters
to the value of a stat only, so attaching is described up to a permutation.
-/

namespace Society

namespace Stat

theorem insertByOrder_perm (m : StatModifier) (l : List StatModifier) :
    (insertByOrder m l).Perm (m :: l) := by
  induction l with
  | nil => exact .refl _
  | cons x xs ih =>
      simp only [insertByOrder]
      split
      · exact .refl _
      · exact (ih.cons x).trans (.swap m x xs)

theorem filter_insertByOrder {p : StatModifier → Bool} {m : StatModifier} (h : p m = false)
    (l : List StatModifier) : (insertByOrder m l).filter p = l.filter p := by
  induction l with
  | nil => simp [insertByOrder, h]
  | cons x xs ih =>
      simp only [insertByOrder]
      split
      · simp [h]
      · simp only [List.filter_cons, ih]

theorem modifiers_add (s : Stat) (m : StatModifier) :
    (s.add m).result.modifiers = insertByOrder m s.modifiers := rfl

theorem modifiers_keepOnly (s : Stat) (keep : StatModifier → Bool) :
    (s.keepOnly keep).result.modifiers = s.modifiers.filter keep := by
  unfold keepOnly
  split
  · rename_i h
    exact (List.filter_eq_self.mpr (List.all_eq_true.mp h)).symm
  · rfl

theorem modifiers_tick (s : Stat) :
    s.tick.result.modifiers = (s.modifiers.map StatModifier.tick).filter fun m => !m.timer.expired :=
  modifiers_keepOnly _ _

end Stat

namespace Stats

/-- The modifiers on the stat of a name, if there is one. -/
def modifiersOn (stats : Stats) (name : String) : List StatModifier :=
  (stats.get? name).elim [] (·.modifiers)

theorem modifiersOn_of_get? {stats : Stats} {name : String} {s : Stat}
    (h : stats.get? name = some s) : stats.modifiersOn name = s.modifiers := by
  simp [modifiersOn, h]

theorem modifiersOn_of_not_contains {stats : Stats} {name : String}
    (h : stats.contains name = false) : stats.modifiersOn name = [] := by
  have hn : stats.get? name = none := by simpa [Dict.contains] using h
  simp [modifiersOn, hn]

theorem modifiersOn_ofSchemas (schemas : List StatSchema) (name : String) :
    (ofSchemas schemas).modifiersOn name = [] := by
  cases hs : (ofSchemas schemas).get? name with
  | none => simp [modifiersOn, hs]
  | some s =>
      obtain ⟨schema, -, he⟩ := List.mem_map.mp (Dict.mem_of_get?_ofList hs)
      obtain ⟨-, rfl⟩ := Prod.mk.inj he
      rw [modifiersOn_of_get? hs]
      rfl

/-! ## Changing one stat -/

theorem get?_change (stats : Stats) (name name' : String) (f : Stat → Change Stat) :
    (stats.change name f).result.get? name' =
      if name' = name then (stats.get? name).map fun s => (f s).result else stats.get? name' := by
  unfold change
  cases h : stats.get? name with
  | none => by_cases hn : name' = name <;> simp [hn, h]
  | some s => simp [Dict.get?_insert]

@[simp] theorem contains_change (stats : Stats) (name name' : String) (f : Stat → Change Stat) :
    (stats.change name f).result.contains name' = stats.contains name' := by
  simp only [Dict.contains, get?_change]
  split
  · rename_i h; simp [h]
  · rfl

theorem modifiersOn_change_eq {stats : Stats} {name : String} {f : Stat → Change Stat}
    (h : ∀ s, (f s).result.modifiers = s.modifiers) (name' : String) :
    (stats.change name f).result.modifiersOn name' = stats.modifiersOn name' := by
  simp only [modifiersOn, get?_change]
  split
  · rename_i hn
    subst hn
    cases stats.get? name' with
    | none => rfl
    | some s => exact h s
  · rfl

theorem modifiersOn_add (stats : Stats) (m : StatModifier) (name name' : String) :
    (stats.change name (·.add m)).result.modifiersOn name' =
      if name' = name ∧ stats.contains name = true
      then Stat.insertByOrder m (stats.modifiersOn name') else stats.modifiersOn name' := by
  by_cases hn : name' = name
  · subst hn
    cases hs : stats.get? name' with
    | none => simp [modifiersOn, get?_change, Dict.contains, hs]
    | some s => simp [modifiersOn, get?_change, Dict.contains, hs, Stat.modifiers_add]
  · simp [modifiersOn, get?_change, hn]

/-! ## Changing all stats -/

theorem get?_changeAll (stats : Stats) (f : Stat → Change Stat) (name : String) :
    (stats.changeAll f).result.get? name = (stats.get? name).map fun s => (f s).result :=
  Dict.get?_map _ _ _

theorem contains_changeAll (stats : Stats) (f : Stat → Change Stat) (name : String) :
    (stats.changeAll f).result.contains name = stats.contains name := by
  simp [Dict.contains, get?_changeAll]

theorem modifiersOn_changeAll {f : Stat → Change Stat} {g : List StatModifier → List StatModifier}
    (hg : g [] = []) (hf : ∀ s, (f s).result.modifiers = g s.modifiers) (stats : Stats)
    (name : String) : (stats.changeAll f).result.modifiersOn name = g (stats.modifiersOn name) := by
  simp only [modifiersOn, get?_changeAll]
  cases stats.get? name with
  | none => exact hg.symm
  | some s => exact hf s

theorem modifiersOn_removeFrom (stats : Stats) (source : ModifierSource) (name : String) :
    (stats.removeFrom source).result.modifiersOn name =
      (stats.modifiersOn name).filter fun m => !m.isFrom source :=
  modifiersOn_changeAll rfl (fun s => Stat.modifiers_keepOnly s _) stats name

theorem modifiersOn_tick (stats : Stats) (name : String) :
    stats.tick.result.modifiersOn name =
      ((stats.modifiersOn name).map StatModifier.tick).filter fun m => !m.timer.expired :=
  modifiersOn_changeAll (g := fun l => (l.map StatModifier.tick).filter fun m => !m.timer.expired)
    rfl Stat.modifiers_tick stats name

@[simp] theorem contains_removeFrom (stats : Stats) (source : ModifierSource) (name : String) :
    (stats.removeFrom source).result.contains name = stats.contains name :=
  contains_changeAll _ _ _

@[simp] theorem contains_tick (stats : Stats) (name : String) :
    stats.tick.result.contains name = stats.contains name :=
  contains_changeAll _ _ _

@[simp] theorem contains_removeFromAll (stats : Stats) (sources : List ModifierSource)
    (name : String) : (stats.removeFromAll sources).result.contains name = stats.contains name := by
  induction sources generalizing stats with
  | nil => rfl
  | cons source rest ih => exact (ih _).trans (contains_removeFrom stats source name)

theorem modifiersOn_removeFromAll (stats : Stats) (sources : List ModifierSource) (name : String) :
    (stats.removeFromAll sources).result.modifiersOn name =
      (stats.modifiersOn name).filter fun m => sources.all fun source => !m.isFrom source := by
  induction sources generalizing stats with
  | nil => simp [removeFromAll]
  | cons source rest ih =>
      rw [removeFromAll, ih, modifiersOn_removeFrom, List.filter_filter]
      simp [Bool.and_comm]

/-! ## Attaching -/

@[simp] theorem contains_attach (stats : Stats) (ms : List StatModifier) (name : String) :
    (stats.attach ms).result.contains name = stats.contains name := by
  induction ms generalizing stats with
  | nil => rfl
  | cons m ms ih => exact (ih _).trans (contains_change stats m.stat name _)

theorem modifiersOn_attach_perm {stats : Stats} {name : String} (h : stats.contains name = true)
    (ms : List StatModifier) :
    ((stats.attach ms).result.modifiersOn name).Perm
      (ms.filter (fun m => m.stat = name) ++ stats.modifiersOn name) := by
  induction ms generalizing stats with
  | nil => exact .refl _
  | cons m ms ih =>
      have hfirst : (stats.change m.stat (·.add m)).result.contains name = true := by simp [h]
      refine (ih hfirst).trans ?_
      by_cases hn : m.stat = name
      · subst hn
        rw [modifiersOn_add, if_pos ⟨rfl, h⟩, List.filter_cons_of_pos (by simp), List.cons_append]
        exact ((Stat.insertByOrder_perm m _).append_left _).trans List.perm_middle
      · rw [modifiersOn_add, if_neg fun hname => hn hname.1.symm,
          List.filter_cons_of_neg (by simpa using hn)]

theorem mem_modifiersOn_attach {stats : Stats} {name : String} {ms : List StatModifier}
    {m : StatModifier} (h : m ∈ (stats.attach ms).result.modifiersOn name) :
    (m ∈ ms ∧ m.stat = name) ∨ m ∈ stats.modifiersOn name := by
  cases hc : stats.contains name with
  | true =>
      have hmem := (modifiersOn_attach_perm hc ms).mem_iff.mp h
      simpa using hmem
  | false =>
      rw [modifiersOn_of_not_contains (by simpa using hc)] at h
      cases h

/-! ## What a source has attached -/

/-- The declarations of the modifiers from a source that are on the stat of a name. -/
def specsFrom (stats : Stats) (source : ModifierSource) (name : String) : List ModifierSpec :=
  ((stats.modifiersOn name).filter (·.isFrom source)).map (·.toModifierSpec)

theorem anyFrom_eq_false_iff {stats : Stats} {source : ModifierSource} :
    stats.anyFrom source = false ↔ ∀ name, ∀ m ∈ stats.modifiersOn name, m.isFrom source = false := by
  simp only [anyFrom, Stat.hasFrom, List.any_eq_false, Dict.mem_values_iff, Bool.not_eq_true]
  constructor
  · intro h name m hm
    cases hs : stats.get? name with
    | none => simp [modifiersOn, hs] at hm
    | some s =>
        rw [modifiersOn_of_get? hs] at hm
        exact h s ⟨name, hs⟩ m hm
  · rintro h s ⟨name, hs⟩ m hm
    exact h name m (by rwa [modifiersOn_of_get? hs])

/-- Nothing is left of a source that is removed, and other sources come to no more. -/
theorem anyFrom_removeFrom {stats : Stats} {source source' : ModifierSource}
    (h : source = source' ∨ stats.anyFrom source = false) :
    (stats.removeFrom source').result.anyFrom source = false := by
  refine anyFrom_eq_false_iff.mpr fun name m hm => ?_
  rw [modifiersOn_removeFrom] at hm
  obtain ⟨hm, hnot⟩ := List.mem_filter.mp hm
  rcases h with rfl | h
  · simpa using hnot
  · exact anyFrom_eq_false_iff.mp h name m hm

theorem specsFrom_of_not_contains {stats : Stats} {name : String} (h : stats.contains name = false)
    (source : ModifierSource) : stats.specsFrom source name = [] := by
  simp [specsFrom, modifiersOn_of_not_contains h]

theorem specsFrom_attach_perm {stats : Stats} {name : String} (h : stats.contains name = true)
    (ms : List StatModifier) (source : ModifierSource) :
    ((stats.attach ms).result.specsFrom source name).Perm
      (((ms.filter fun m => m.stat = name).filter (·.isFrom source)).map (·.toModifierSpec) ++
        stats.specsFrom source name) := by
  have hperm := ((modifiersOn_attach_perm h ms).filter (·.isFrom source)).map (·.toModifierSpec)
  rwa [List.filter_append, List.map_append] at hperm

/-- What another source has attached stays. -/
theorem specsFrom_attach_other (stats : Stats) {ms : List StatModifier} {source : ModifierSource}
    (hs : ∀ m ∈ ms, m.isFrom source = false) (name : String) :
    ((stats.attach ms).result.specsFrom source name).Perm (stats.specsFrom source name) := by
  cases hc : stats.contains name with
  | false =>
      rw [specsFrom_of_not_contains hc, specsFrom_of_not_contains (by simpa using hc)]
  | true =>
      have hnone : (ms.filter fun m => m.stat = name).filter (·.isFrom source) = [] :=
        List.filter_eq_nil_iff.mpr fun m hm => by simp [hs m (List.mem_of_mem_filter hm)]
      have hperm := specsFrom_attach_perm hc ms source
      rwa [hnone] at hperm

/-- A source that had nothing on a stat has there what is attached now. -/
theorem specsFrom_attach_own {stats : Stats} {ms : List StatModifier} {source : ModifierSource}
    (hs : ∀ m ∈ ms, m.isFrom source = true) {name : String} (hc : stats.contains name = true)
    (hold : stats.specsFrom source name = []) :
    ((stats.attach ms).result.specsFrom source name).Perm
      ((ms.map (·.toModifierSpec)).filter fun spec => spec.stat = name) := by
  have hall : (ms.filter fun m => m.stat = name).filter (·.isFrom source) =
      ms.filter fun m => m.stat = name :=
    List.filter_eq_self.mpr fun m hm => hs m (List.mem_of_mem_filter hm)
  have hperm := specsFrom_attach_perm hc ms source
  rw [hall, hold, List.append_nil] at hperm
  rw [List.filter_map]
  exact hperm

theorem specsFrom_removeFrom (stats : Stats) (source source' : ModifierSource) (name : String) :
    (stats.removeFrom source).result.specsFrom source' name =
      if source' = source then [] else stats.specsFrom source' name := by
  simp only [specsFrom, modifiersOn_removeFrom, List.filter_filter]
  split
  · rename_i hs
    subst hs
    simp
  · rename_i hs
    congr 1
    refine List.filter_congr fun m _ => ?_
    cases hm : m.isFrom source' with
    | false => rfl
    | true =>
        have hsrc := eq_of_beq hm
        simp [StatModifier.isFrom, hsrc, hs]

theorem specsFrom_removeFromAll (stats : Stats) {sources : List ModifierSource}
    {source : ModifierSource} (h : source ∉ sources) (name : String) :
    (stats.removeFromAll sources).result.specsFrom source name = stats.specsFrom source name := by
  induction sources generalizing stats with
  | nil => rfl
  | cons first rest ih =>
      rw [List.mem_cons, not_or] at h
      rw [removeFromAll, ih _ h.2, specsFrom_removeFrom, if_neg h.1]

/-! ## What is left alone -/

theorem filter_modifiersOn_removeFromAll {p : StatModifier → Bool} {sources : List ModifierSource}
    (h : ∀ m, p m = true → ∀ source ∈ sources, m.isFrom source = false) (stats : Stats)
    (name : String) :
    ((stats.removeFromAll sources).result.modifiersOn name).filter p =
      (stats.modifiersOn name).filter p := by
  rw [modifiersOn_removeFromAll, List.filter_filter]
  refine List.filter_congr fun m _ => ?_
  cases hm : p m with
  | false => rfl
  | true => simpa using h m hm

theorem filter_modifiersOn_add {p : StatModifier → Bool} {m : StatModifier} (h : p m = false)
    (stats : Stats) (name name' : String) :
    ((stats.change name (·.add m)).result.modifiersOn name').filter p =
      (stats.modifiersOn name').filter p := by
  rw [modifiersOn_add]
  split
  · exact Stat.filter_insertByOrder h _
  · rfl

theorem filter_modifiersOn_attach {p : StatModifier → Bool} {ms : List StatModifier}
    (h : ∀ m ∈ ms, p m = false) (stats : Stats) (name : String) :
    ((stats.attach ms).result.modifiersOn name).filter p = (stats.modifiersOn name).filter p := by
  induction ms generalizing stats with
  | nil => rfl
  | cons m ms ih =>
      obtain ⟨hm, hms⟩ := List.forall_mem_cons.mp h
      exact (ih hms _).trans (filter_modifiersOn_add hm stats _ _)

theorem missing?_eq_none_iff {stats : Stats} {specs : List ModifierSpec} :
    stats.missing? specs = none ↔ ∀ spec ∈ specs, stats.contains spec.stat = true := by
  simp [missing?]

end Stats

end Society
