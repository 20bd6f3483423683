import Society.Proofs.Sheet.Renewal

/-!
# Taking back what was attached

A stat is measured if its reading is the one that its modifiers give. Changes leave it measured, and
measured stats that have the same modifiers are the same. So if a source has nothing on the stats,
what is attached for it can be taken off again, and nothing has changed.
-/

namespace Society

namespace Stat

/-- The reading is what the modifiers give. -/
def Measured (s : Stat) : Prop :=
  s.reading = s.measure

/-- What changes of modifiers leave of a stat. -/
def setting (s : Stat) : Stat :=
  { create s.base s.bounds with observers := s.observers }

/-- The stat without the modifiers from a source, and with the reading that it had. -/
def without (s : Stat) (source : ModifierSource) : Stat :=
  { s with modifiers := s.modifiers.filter fun m => !m.isFrom source }

variable {s s' : Stat} {ms : List StatModifier} {source : ModifierSource}

theorem Measured.ext (h : s.Measured) (h' : s'.Measured) (hsetting : s.setting = s'.setting)
    (hmodifiers : s.modifiers = s'.modifiers) : s = s' := by
  cases s
  cases s'
  simp only [setting, create, Stat.mk.injEq] at hsetting
  obtain ⟨rfl, rfl, -, rfl, -⟩ := hsetting
  obtain rfl := hmodifiers
  rw [Measured] at h h'
  dsimp only at h h'
  rw [h, h']
  rfl

theorem measured_create (base : Float) (bounds : Bounds Float) : (create base bounds).Measured :=
  rfl

theorem measured_add (s : Stat) (m : StatModifier) : (s.add m).result.Measured :=
  rfl

theorem measured_increment (s : Stat) (delta : Float) : (s.increment delta).result.Measured :=
  rfl

theorem Measured.keepOnly (h : s.Measured) (keep : StatModifier → Bool) :
    (s.keepOnly keep).result.Measured := by
  unfold Stat.keepOnly
  split
  · exact h
  · rfl

/-- Counting down changes no effect of a modifier. -/
theorem Measured.tick (h : s.Measured) : s.tick.result.Measured := by
  have hticked : Measured { s with modifiers := s.modifiers.map StatModifier.tick } := by
    refine h.trans ?_
    simp [measure, StatModifier.tick, Function.comp_def]
  exact hticked.keepOnly _

theorem Measured.addAll (h : s.Measured) (ms : List StatModifier) : (s.addAll ms).Measured := by
  induction ms generalizing s with
  | nil => exact h
  | cons m ms ih => exact ih (measured_add s m)

theorem setting_keepOnly (s : Stat) (keep : StatModifier → Bool) :
    (s.keepOnly keep).result.setting = s.setting := by
  unfold keepOnly
  split <;> rfl

theorem setting_addAll (s : Stat) (ms : List StatModifier) : (s.addAll ms).setting = s.setting := by
  induction ms generalizing s with
  | nil => rfl
  | cons m ms ih => exact ih (s.add m).result

theorem modifiers_addAll (s : Stat) (ms : List StatModifier) :
    (s.addAll ms).modifiers = insertAll ms s.modifiers := by
  induction ms generalizing s with
  | nil => rfl
  | cons m ms ih => exact ih (s.add m).result

/-- What is added for a source that has nothing on the stat can be taken off again. -/
theorem removeFrom_addAll (h : s.Measured) (hnone : ∀ m ∈ s.modifiers, m.isFrom source = false)
    (hms : ∀ m ∈ ms, m.isFrom source = true) : ((s.addAll ms).removeFrom source).result = s := by
  refine Measured.ext ((h.addAll ms).keepOnly _) h ?_ ?_
  · exact (setting_keepOnly _ _).trans (setting_addAll s ms)
  · rw [removeFrom, modifiers_keepOnly, modifiers_addAll,
      filter_insertAll (fun m hm => by simp [hms m hm])]
    exact List.filter_eq_self.mpr fun m hm => by simp [hnone m hm]

theorem bare_eq (s : Stat) :
    s.bare = { s.setting with modifiers := s.modifiers.filter (!·.isEvaluated) } :=
  rfl

theorem bare_removeFrom_eq (s : Stat) (source : ModifierSource) :
    (s.removeFrom source).result.bare = s.bare.without source := by
  rw [bare_eq, bare_eq, removeFrom, setting_keepOnly, modifiers_keepOnly, without]
  dsimp only
  rw [List.filter_comm]

end Stat

namespace Stats

variable {stats : Stats} {ms : List StatModifier} {source : ModifierSource}

/-- What holds of each stat. -/
def Every (S : Stat → Prop) (stats : Stats) : Prop :=
  ∀ name s, stats.get? name = some s → S s

theorem removeFrom_attach (h : stats.Every Stat.Measured)
    (hnone : ∀ name, ∀ m ∈ stats.modifiersOn name, m.isFrom source = false)
    (hms : ∀ m ∈ ms, m.isFrom source = true) :
    ((stats.attach ms).result.removeFrom source).result = stats := by
  refine Dict.ext_get? fun name => ?_
  rw [removeFrom, get?_changeAll, get?_attach, Option.map_map]
  cases hs : stats.get? name with
  | none => rfl
  | some s =>
      have hbefore := hnone name
      rw [modifiersOn_of_get? hs] at hbefore
      exact congrArg some (Stat.removeFrom_addAll (h name s hs) hbefore fun m hm =>
        hms m (List.mem_of_mem_filter hm))

theorem bare_removeFrom_eq (stats : Stats) (source : ModifierSource) :
    (stats.removeFrom source).result.bare = stats.bare.map (·.without source) := by
  rw [bare, bare, removeFrom, changeAll, Dict.map_map, Dict.map_map]
  congr 1
  exact funext fun s => s.bare_removeFrom_eq source

theorem modifiersOn_bare (stats : Stats) (name : String) :
    stats.bare.modifiersOn name = (stats.modifiersOn name).filter (!·.isEvaluated) := by
  rw [modifiersOn, modifiersOn, bare, Dict.get?_map]
  cases stats.get? name <;> rfl

end Stats

theorem HeldTraits.erase_hold {held : HeldTraits} {t : Trait} (h : held.contains t.id = false)
    (description : String) (duration : Int) :
    Dict.erase (held.hold t description duration) t.id = held := by
  have hnone : held.get? t.id = none := by simpa [Dict.contains] using h
  refine Dict.ext_get? fun id => ?_
  rw [hold, Dict.get?_erase, Dict.get?_insert]
  split
  · rename_i hid
    rw [hid, hnone]
  · rfl

end Society
