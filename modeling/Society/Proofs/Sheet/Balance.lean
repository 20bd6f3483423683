import Society.Entity
import Society.Proofs.Sheet.Modifiers

/-!
# Balanced sheets

The modifiers on a sheet are balanced if each trait that is held has put its own there and nothing
else claims to come from a trait, and if what comes from a rule or a relationship modifier is listed
as active. Each operation on a sheet moves the two sides of the balance; those that belong together
restore it.
-/

namespace Society

/-- Whether modifiers from the source are attached by evaluating a relationship. -/
def ModifierSource.isEvaluated : ModifierSource → Bool
  | .rule _ => true
  | .relationshipModifier _ => true
  | _ => false

/-- The modifiers that were made of declarations for a source, in the same order. -/
structure ModifierSpec.Instances (source : ModifierSource) (specs : List ModifierSpec)
    (ms : List StatModifier) : Prop where
  specs_eq : ms.map (·.toModifierSpec) = specs
  eq_instance : ∀ m ∈ ms, m = m.toModifierSpec.instance m.id (some source)

/-- What a holder of these traits is owed by the trait of an id. -/
def HeldTraits.due (held : HeldTraits) (id : String) : List ModifierSpec :=
  (held.get? id).elim [] (·.definition.modifiers)

/-- The modifiers on the stats are those that are due to traits, each on its stat, and others; those
from an evaluation are active. -/
structure Stats.Accounted (stats : Stats) (due : String → List ModifierSpec)
    (active : List ModifierSource) : Prop where
  has_stat : ∀ id, ∀ spec ∈ due id, stats.contains spec.stat = true
  specs_perm : ∀ id name,
    (stats.specsFrom (.trait id) name).Perm ((due id).filter fun spec => spec.stat = name)
  eq_instance : ∀ name, ∀ m ∈ stats.modifiersOn name, ∀ id, m.source = some (.trait id) →
    m = m.toModifierSpec.instance m.id m.source
  evaluated : ∀ name, ∀ m ∈ stats.modifiersOn name, ∀ source, m.source = some source →
    source.isEvaluated = true → source ∈ active

/-- A sheet whose stats account for the traits that it holds. -/
def Sheet.Balanced (s : Sheet) (active : List ModifierSource) : Prop :=
  s.stats.Accounted s.traits.due active

namespace StatModifier

/-- Whether an evaluation attached the modifier. -/
def isEvaluated (m : StatModifier) : Bool :=
  m.source.any (·.isEvaluated)

theorem isFrom_iff {m : StatModifier} {source : ModifierSource} :
    m.isFrom source = true ↔ m.source = some source := by
  simp [isFrom]

theorem isEvaluated_of_isFrom {m : StatModifier} {source : ModifierSource}
    (h : m.isFrom source = true) : m.isEvaluated = source.isEvaluated := by
  rw [isEvaluated, isFrom_iff.mp h]
  rfl

end StatModifier

namespace HeldTraits

theorem due_of_get? {held : HeldTraits} {id : String} {h : HeldTrait} (hh : held.get? id = some h) :
    held.due id = h.definition.modifiers := by
  simp [due, hh]

theorem due_of_not_contains {held : HeldTraits} {id : String} (h : held.contains id = false) :
    held.due id = [] := by
  have hn : held.get? id = none := by simpa [Dict.contains] using h
  simp [due, hn]

theorem due_hold (held : HeldTraits) (t : Trait) (description : String) (duration : Int) :
    (held.hold t description duration).due = fun id =>
      if id = t.id then t.modifiers else held.due id := by
  funext id
  simp only [due, hold, Dict.get?_insert]
  split <;> rfl

theorem due_erase (held : HeldTraits) (id : String) :
    HeldTraits.due (held.erase id) = fun id' => if id' = id then [] else held.due id' := by
  funext id'
  simp only [due, Dict.get?_erase]
  split <;> rfl

@[simp] theorem due_tick (held : HeldTraits) : held.tick.due = held.due := by
  funext id
  simp only [due, tick, Dict.get?_map]
  cases held.get? id <;> rfl

end HeldTraits

namespace ModifierSpec

theorem Instances.source_eq {source : ModifierSource} {specs : List ModifierSpec}
    {ms : List StatModifier} (h : Instances source specs ms) {m : StatModifier} (hm : m ∈ ms) :
    m.source = some source := by
  rw [h.eq_instance m hm]; rfl

theorem Instances.cons {source : ModifierSource} {specs : List ModifierSpec} {ms : List StatModifier}
    (h : Instances source specs ms) (spec : ModifierSpec) (id : ModifierId) :
    Instances source (spec :: specs) (spec.instance id (some source) :: ms) := by
  refine ⟨congrArg (spec :: ·) h.specs_eq, fun m hm => ?_⟩
  rcases List.mem_cons.mp hm with rfl | hm
  · rfl
  · exact h.eq_instance m hm

end ModifierSpec

namespace Stats.Accounted

variable {stats : Stats} {due : String → List ModifierSpec} {active : List ModifierSource}

theorem ofSchemas (schemas : List StatSchema) :
    (Stats.ofSchemas schemas).Accounted (fun _ => []) active := by
  constructor <;> simp [specsFrom, modifiersOn_ofSchemas]

theorem mono {active' : List ModifierSource} (h : stats.Accounted due active)
    (hsub : ∀ source ∈ active, source ∈ active') : stats.Accounted due active' :=
  ⟨h.has_stat, h.specs_perm, h.eq_instance,
    fun name m hm source hs he => hsub source (h.evaluated name m hm source hs he)⟩

theorem congr {stats' : Stats} (h : stats.Accounted due active)
    (hc : ∀ name, stats'.contains name = stats.contains name)
    (hm : ∀ name, stats'.modifiersOn name = stats.modifiersOn name) :
    stats'.Accounted due active := by
  constructor
  · simpa only [hc] using h.has_stat
  · simpa only [specsFrom, hm] using h.specs_perm
  · simpa only [hm] using h.eq_instance
  · simpa only [hm] using h.evaluated

/-! ## Attaching -/

/-- A modifier that comes from no trait can be added at any time, if its source is active. -/
theorem add_other (h : stats.Accounted due active) {m : StatModifier} {source : ModifierSource}
    (hs : m.source = some source) (ht : ∀ id, source ≠ .trait id)
    (ha : source.isEvaluated = true → source ∈ active) (name : String) :
    (stats.change name (·.add m)).result.Accounted due active := by
  have hmem : ∀ name', ∀ m' ∈ (stats.change name (·.add m)).result.modifiersOn name',
      m' = m ∨ m' ∈ stats.modifiersOn name' := by
    intro name' m' hm'
    rw [modifiersOn_add] at hm'
    split at hm'
    · exact List.mem_cons.mp ((Stat.insertByOrder_perm m _).mem_iff.mp hm')
    · exact .inr hm'
  refine ⟨fun id spec hspec => by simpa using h.has_stat id spec hspec, fun id name' => ?_, ?_, ?_⟩
  · have hother : m.isFrom (.trait id) = false := by simp [StatModifier.isFrom, hs, ht id]
    refine List.Perm.trans (.of_eq ?_) (h.specs_perm id name')
    rw [specsFrom, modifiersOn_add, specsFrom]
    split
    · rw [Stat.filter_insertByOrder hother]
    · rfl
  · intro name' m' hm' id hsrc
    rcases hmem name' m' hm' with rfl | hm'
    · exact absurd (Option.some.inj (hs.symm.trans hsrc)) (ht id)
    · exact h.eq_instance name' m' hm' id hsrc
  · intro name' m' hm' src hsrc he
    rcases hmem name' m' hm' with rfl | hm'
    · obtain rfl := Option.some.inj (hs.symm.trans hsrc)
      exact ha he
    · exact h.evaluated name' m' hm' src hsrc he

theorem attach_other (h : stats.Accounted due active) {ms : List StatModifier}
    (source : ModifierSource) (hs : ∀ m ∈ ms, m.source = some source)
    (ht : ∀ id, source ≠ .trait id) (ha : source.isEvaluated = true → source ∈ active) :
    (stats.attach ms).result.Accounted due active := by
  induction ms generalizing stats with
  | nil => exact h
  | cons m ms ih =>
      obtain ⟨hm, hms⟩ := List.forall_mem_cons.mp hs
      exact ih (h.add_other hm ht ha m.stat) hms

/-- Attaching the modifiers of a trait that nothing was due to. -/
theorem attach_trait (h : stats.Accounted due active) {id : String} (hdue : due id = [])
    {specs : List ModifierSpec} (hmiss : stats.missing? specs = none) {ms : List StatModifier}
    (hms : ModifierSpec.Instances (.trait id) specs ms) :
    (stats.attach ms).result.Accounted (fun id' => if id' = id then specs else due id') active := by
  have hsource : ∀ m ∈ ms, m.source = some (.trait id) := fun m hm => hms.source_eq hm
  refine ⟨?_, fun id' name => ?_, ?_, ?_⟩
  · intro id' spec hspec
    rw [contains_attach]
    split at hspec
    · exact missing?_eq_none_iff.mp hmiss spec hspec
    · exact h.has_stat id' spec hspec
  · by_cases hid : id' = id
    · subst hid
      rw [if_pos rfl]
      cases hc : stats.contains name with
      | true =>
          rw [← hms.specs_eq]
          refine specsFrom_attach_own (fun m hm => StatModifier.isFrom_iff.mpr (hsource m hm)) hc ?_
          simpa [hdue] using h.specs_perm id' name
      | false =>
          have hnil : specs.filter (fun spec => spec.stat = name) = [] := by
            refine List.filter_eq_nil_iff.mpr fun spec hspec hname => ?_
            have hcon := missing?_eq_none_iff.mp hmiss spec hspec
            rw [of_decide_eq_true hname, hc] at hcon
            cases hcon
          rw [specsFrom_of_not_contains (by simpa using hc), hnil]
    · rw [if_neg hid]
      refine (specsFrom_attach_other stats (fun m hm => ?_) name).trans (h.specs_perm id' name)
      simp [StatModifier.isFrom, hsource m hm, Ne.symm hid]
  · intro name m hm id' hsrc
    rcases mem_modifiersOn_attach hm with ⟨hm, -⟩ | hm
    · rw [hsource m hm]; exact hms.eq_instance m hm
    · exact h.eq_instance name m hm id' hsrc
  · intro name m hm src hsrc he
    rcases mem_modifiersOn_attach hm with ⟨hm, -⟩ | hm
    · obtain rfl := Option.some.inj ((hsource m hm).symm.trans hsrc)
      cases he
    · exact h.evaluated name m hm src hsrc he

/-! ## Removing -/

theorem removeFrom_trait (h : stats.Accounted due active) (id : String) :
    (stats.removeFrom (.trait id)).result.Accounted
      (fun id' => if id' = id then [] else due id') active := by
  have hsub : ∀ name, ∀ m ∈ (stats.removeFrom (.trait id)).result.modifiersOn name,
      m ∈ stats.modifiersOn name := by
    intro name m hm
    rw [modifiersOn_removeFrom] at hm
    exact List.mem_of_mem_filter hm
  refine ⟨fun id' spec hspec => ?_, fun id' name => ?_,
    fun name m hm => h.eq_instance name m (hsub name m hm),
    fun name m hm => h.evaluated name m (hsub name m hm)⟩
  · rw [contains_removeFrom]
    split at hspec
    · cases hspec
    · exact h.has_stat id' spec hspec
  · rw [specsFrom_removeFrom]
    by_cases hid : id' = id
    · simp [hid]
    · simpa [hid] using h.specs_perm id' name

theorem removeFromAll (h : stats.Accounted due active)
    (ha : ∀ source ∈ active, source.isEvaluated = true) :
    (stats.removeFromAll active).result.Accounted due [] := by
  have hmem : ∀ name, ∀ m ∈ (stats.removeFromAll active).result.modifiersOn name,
      m ∈ stats.modifiersOn name ∧ ∀ source ∈ active, m.source ≠ some source := by
    intro name m hm
    rw [modifiersOn_removeFromAll, List.mem_filter] at hm
    simpa [StatModifier.isFrom] using hm
  refine ⟨fun id spec hspec => by simpa using h.has_stat id spec hspec, fun id name => ?_,
    fun name m hm => h.eq_instance name m (hmem name m hm).1, ?_⟩
  · rw [specsFrom_removeFromAll stats (fun hid => by cases ha _ hid)]
    exact h.specs_perm id name
  · intro name m hm source hs he
    obtain ⟨hm, hnot⟩ := hmem name m hm
    exact absurd hs (hnot source (h.evaluated name m hm source hs he))

/-- A modifier of a trait has no timer, so a tick leaves it as it is. -/
theorem tick_eq_self (h : stats.Accounted due active) {name : String} {m : StatModifier}
    (hm : m ∈ stats.modifiersOn name) {id : String} (hs : m.source = some (.trait id)) :
    m.tick = m ∧ m.timer.expired = false := by
  have ht : m.timer = none := by rw [h.eq_instance name m hm id hs]; rfl
  constructor
  · cases m
    simp_all [StatModifier.tick, Timer.tick]
  · simp [Timer.expired, ht]

theorem tick (h : stats.Accounted due active) : stats.tick.result.Accounted due active := by
  -- ticking changes no source, and nothing that comes from a trait
  have hmem : ∀ name, ∀ m ∈ stats.tick.result.modifiersOn name,
      ∃ m' ∈ stats.modifiersOn name, m = m'.tick := by
    intro name m hm
    rw [modifiersOn_tick] at hm
    obtain ⟨m', hm', rfl⟩ := List.mem_map.mp (List.mem_of_mem_filter hm)
    exact ⟨m', hm', rfl⟩
  refine ⟨fun id spec hspec => by simpa using h.has_stat id spec hspec, fun id name => ?_, ?_, ?_⟩
  · have hsame : ∀ l : List StatModifier, (∀ m ∈ l, m ∈ stats.modifiersOn name) →
        (((l.map StatModifier.tick).filter fun m => !m.timer.expired).filter
          (·.isFrom (.trait id))) = l.filter (·.isFrom (.trait id)) := by
      intro l hl
      induction l with
      | nil => rfl
      | cons m l ih =>
          have hrest := ih fun m' hm' => hl m' (List.mem_cons_of_mem _ hm')
          have hsrc : m.tick.isFrom (.trait id) = m.isFrom (.trait id) := rfl
          rw [List.filter_filter] at hrest ⊢
          simp only [List.map_cons, List.filter_cons, hsrc]
          cases hf : m.isFrom (.trait id) with
          | false => simpa using hrest
          | true =>
              obtain ⟨heq, hexp⟩ := h.tick_eq_self (hl m List.mem_cons_self)
                (StatModifier.isFrom_iff.mp hf)
              simp [heq, hexp, hrest]
    have heq : stats.tick.result.specsFrom (.trait id) name = stats.specsFrom (.trait id) name := by
      rw [specsFrom, modifiersOn_tick, hsame _ fun _ hm => hm, specsFrom]
    rw [heq]
    exact h.specs_perm id name
  · intro name m hm id hs
    obtain ⟨m', hm', rfl⟩ := hmem name m hm
    rw [(h.tick_eq_self hm' hs).1]
    exact h.eq_instance name m' hm' id hs
  · intro name m hm source hs he
    obtain ⟨m', hm', rfl⟩ := hmem name m hm
    exact h.evaluated name m' hm' source hs he

end Stats.Accounted

end Society
