import Society.Proofs.Sheet.Reversal
import Society.Proofs.World.Ledger

/-!
# What holds of every stat

Stats are created, modifiers are added to them and taken off, their time is counted, and their base
is changed. What all of these keep holds of every stat of every world that commands lead to, however
they end. So every stat is measured.
-/

namespace Society

/-- Of a stat, whatever is done to it. -/
structure Stat.Stable (S : Stat → Prop) : Prop where
  create : ∀ base bounds, S (create base bounds)
  add : ∀ s m, S s → S (s.add m).result
  keepOnly : ∀ s keep, S s → S (s.keepOnly keep).result
  tick : ∀ s, S s → S s.tick.result
  increment : ∀ s delta, S s → S (s.increment delta).result

theorem Stat.stable_measured : Stable Measured where
  create := measured_create
  add s m _ := measured_add s m
  keepOnly _ keep h := h.keepOnly keep
  tick _ h := h.tick
  increment s delta _ := measured_increment s delta

/-! ## Stats of a sheet -/

namespace Stats

variable {S : Stat → Prop} {stats : Stats}

theorem every_ofSchemas (hS : Stat.Stable S) (schemas : List StatSchema) :
    (ofSchemas schemas).Every S := by
  intro name s hs
  obtain ⟨schema, -, he⟩ := List.mem_map.mp (Dict.mem_of_get?_ofList hs)
  obtain ⟨-, rfl⟩ := Prod.mk.inj he
  exact hS.create schema.base schema.bounds

theorem Every.change (h : stats.Every S) {f : Stat → Change Stat} (hf : ∀ s, S s → S (f s).result)
    (name : String) : (stats.change name f).result.Every S := by
  intro name' s hs
  rw [get?_change] at hs
  split at hs
  · obtain ⟨s₀, hs₀, rfl⟩ := Option.map_eq_some_iff.mp hs
    exact hf s₀ (h name s₀ hs₀)
  · exact h name' s hs

theorem Every.changeAll (h : stats.Every S) {f : Stat → Change Stat}
    (hf : ∀ s, S s → S (f s).result) : (stats.changeAll f).result.Every S := by
  intro name s hs
  rw [get?_changeAll] at hs
  obtain ⟨s₀, hs₀, rfl⟩ := Option.map_eq_some_iff.mp hs
  exact hf s₀ (h name s₀ hs₀)

theorem Every.attach (hS : Stat.Stable S) (h : stats.Every S) (ms : List StatModifier) :
    (stats.attach ms).result.Every S := by
  induction ms generalizing stats with
  | nil => exact h
  | cons m ms ih => exact ih (h.change (fun s => hS.add s m) m.stat)

theorem Every.removeFrom (hS : Stat.Stable S) (h : stats.Every S) (source : ModifierSource) :
    (stats.removeFrom source).result.Every S :=
  h.changeAll fun s => hS.keepOnly s _

theorem Every.removeFromAll (hS : Stat.Stable S) (h : stats.Every S)
    (sources : List ModifierSource) : (stats.removeFromAll sources).result.Every S := by
  induction sources generalizing stats with
  | nil => exact h
  | cons source rest ih => exact ih (h.removeFrom hS source)

end Stats

/-! ## Stats of a world -/

namespace World

/-- What holds of every stat of every agent and relationship. -/
def EveryStat (S : Stat → Prop) (w : World) : Prop :=
  ∀ e s, w.sheet? e = some s → s.stats.Every S

variable {S : Stat → Prop} {w w' : World}

/-- Whoever was there with the same sheet does no harm. -/
theorem EveryStat.of_sheets (h : w.EveryStat S)
    (hsheets : ∀ e s, w'.sheet? e = some s → w.sheet? e = some s ∨ s.stats.Every S) :
    w'.EveryStat S := by
  intro e s hs
  rcases hsheets e s hs with hsame | hnew
  · exact h e s hsame
  · exact hnew

theorem ofEntities_everyStat : OfEntities (EveryStat S) := by
  intro w w' ha hr h
  exact h.of_sheets fun e s hs => .inl ((sheet?_congr ha hr e).symm.trans hs)

theorem everyStat_of_no_entities (ha : w.agents = ∅) (hr : w.relationships = ∅) :
    w.EveryStat S := by
  intro e s hs
  cases e <;> simp [sheet?, agent?, relationship?, ha, hr] at hs

theorem EveryStat.setSheet (h : w.EveryStat S) {e : Entity} {s new : Sheet}
    (hs : w.sheet? e = some s) (hnew : s.stats.Every S → new.stats.Every S) :
    (w.setSheet new e).EveryStat S := by
  apply h.of_sheets
  intro e' s' hs'
  rw [sheet?_setSheet_apply hs] at hs'
  split at hs'
  · obtain rfl := Option.some.inj hs'
    exact .inr (hnew (h e s hs))
  · exact .inl hs'

theorem EveryStat.modifyAgent (h : w.EveryStat S) {f : Agent → Agent}
    (hf : ∀ a, (f a).sheet = a.sheet) (uid : String) : (w.modifyAgent uid f).EveryStat S :=
  h.of_sheets fun e _ hs => .inl (sheet?_modifyAgent hf w uid e ▸ hs)

theorem EveryStat.modifyRelationship (h : w.EveryStat S) {f : Relationship → Relationship}
    (hf : ∀ r, (f r).sheet = r.sheet) (owner target : String) :
    (w.modifyRelationship owner target f).EveryStat S :=
  h.of_sheets fun e _ hs => .inl (sheet?_modifyRelationship hf w owner target e ▸ hs)

theorem EveryStat.setAgent (h : w.EveryStat S) (uid : String) {a : Agent}
    (ha : a.sheet.stats.Every S) : (w.setAgent uid a).EveryStat S := by
  apply h.of_sheets
  intro e s hs
  rw [sheet?_setAgent] at hs
  split at hs
  · obtain rfl := Option.some.inj hs
    exact .inr ha
  · exact .inl hs

theorem EveryStat.setRelationship (h : w.EveryStat S) (owner target : String) {r : Relationship}
    (hr : r.sheet.stats.Every S) : (w.setRelationship owner target r).EveryStat S := by
  apply h.of_sheets
  intro e s hs
  rw [sheet?_setRelationship] at hs
  split at hs
  · obtain rfl := Option.some.inj hs
    exact .inr hr
  · exact .inl hs

theorem EveryStat.eraseRelationship (h : w.EveryStat S) (owner target : String) :
    (w.eraseRelationship owner target).EveryStat S := by
  apply h.of_sheets
  intro e s hs
  rw [sheet?_eraseRelationship] at hs
  split at hs
  · cases hs
  · exact .inl hs

theorem EveryStat.eraseAgent (h : w.EveryStat S) (uid : String) :
    EveryStat S { w with agents := w.agents.erase uid } := by
  apply h.of_sheets
  intro e s hs
  rw [sheet?_eraseAgent] at hs
  split at hs
  · cases hs
  · exact .inl hs

end World

/-! ## Acts -/

namespace Act

open World (EveryStat ofEntities_everyStat)

variable {S : Stat → Prop}

theorem changeStats_everyStat {f : Stats → Change Stats}
    (hf : ∀ stats : Stats, stats.Every S → (f stats).result.Every S) (e : Entity) :
    (changeStats e f).Keeps (EveryStat S) := by
  intro w hw
  refine leads_bind.mpr (leads_look.mpr ⟨fun s hs => ?_, fun _ => hw⟩)
  exact ofEntities_everyStat (w.setSheet _ e) _ rfl rfl (hw.setSheet hs (hf s.stats))

theorem changeTraits_everyStat (e : Entity) (f : HeldTraits → HeldTraits) :
    (changeTraits e f).Keeps (EveryStat S) := by
  intro w hw
  refine leads_bind.mpr (leads_look.mpr ⟨fun s hs => ?_, fun _ => hw⟩)
  exact hw.setSheet hs id

theorem modifyRelationship_everyStat {f : Relationship → Relationship}
    (hf : ∀ r, (f r).sheet = r.sheet) (owner target : String) :
    Keeps (EveryStat S) (modify fun w => w.modifyRelationship owner target f) :=
  keeps_modify fun _ hw => hw.modifyRelationship hf owner target

theorem attach_everyStat (hS : Stat.Stable S) (e : Entity) (source : ModifierSource)
    (specs : List ModifierSpec) : (attach e source specs).Keeps (EveryStat S) := by
  refine (requireStats_keeps e specs).bind fun _ => ?_
  refine Keeps.bind ?_ fun ms => changeStats_everyStat (fun _ h => h.attach hS ms) e
  exact (instances_ensures ofEntities_everyStat source specs).mono (fun _ hw => hw)
    fun _ _ hw => hw.1

/-! ## Evaluations -/

theorem forgetActive_everyStat (hS : Stat.Stable S) (owner target : String) :
    (forgetActive owner target).Keeps (EveryStat S) := by
  refine Keeps.bind (keeps_look _ _) fun r => ?_
  refine (modifyRelationship_everyStat (by intro r; rfl) owner target).bind fun _ => ?_
  exact changeStats_everyStat (fun _ h => h.removeFromAll hS r.activeSources) _

theorem applyInfluence_everyStat (hS : Stat.Stable S) (owner target : String) (i : Influence) :
    (applyInfluence owner target i).Keeps (EveryStat S) := by
  refine (preconditionsHold_keeps owner target _).bind fun _ => Ensures.ite (fun _ => ?_) fun _ =>
    keeps_pure _
  exact (attach_everyStat hS _ i.source i.modifiers).bind fun _ =>
    modifyRelationship_everyStat (by intro r; rfl) owner target

theorem reevaluate_everyStat (hS : Stat.Stable S) (owner target : String) :
    (reevaluate owner target).Keeps (EveryStat S) :=
  reevaluate_keeps_of (forgetActive_everyStat hS owner target)
    (applyInfluence_everyStat hS owner target)

theorem reevaluateAround_everyStat (hS : Stat.Stable S) (e : Entity) :
    (reevaluateAround e).Keeps (EveryStat S) :=
  reevaluateAround_keeps_of (reevaluate_everyStat hS) e

/-! ## Traits -/

theorem addTrait_everyStat (hS : Stat.Stable S) (e : Entity) (id : String) (duration : Int)
    (description : Option String) :
    (addTrait e id duration description).Keeps (EveryStat S) := by
  refine (requireTraitFor_keeps _ _).bind fun t => Keeps.bind (keeps_look _ _) fun s => ?_
  refine Ensures.ite (fun _ => keeps_pure _) fun _ => (requireStats_keeps e _).bind fun _ => ?_
  refine (insertFact_keeps ofEntities_everyStat _).bind fun _ => ?_
  refine (changeTraits_everyStat e _).bind fun _ => (attach_everyStat hS e _ _).bind fun _ => ?_
  exact (reevaluateAround_everyStat hS e).bind fun _ => keeps_pure _

theorem removeTrait_everyStat (hS : Stat.Stable S) (e : Entity) (id : String) :
    (removeTrait e id).Keeps (EveryStat S) := by
  refine Keeps.bind (keeps_look _ _) fun s => Ensures.ite (fun _ => keeps_pure _) fun _ => ?_
  refine (changeTraits_everyStat e _).bind fun _ => ?_
  refine (changeStats_everyStat (fun _ h => h.removeFrom hS _) e).bind fun _ => ?_
  have hclear : (clearKind e id).Keeps (EveryStat S) := clearKind_keeps e id
    (fun w owner target _ hw => hw.modifyRelationship (by intro r; rfl) owner target)
    (retract_keeps ofEntities_everyStat)
  refine hclear.bind fun _ => ?_
  refine Keeps.bind (Ensures.discard (retract_keeps ofEntities_everyStat _)) fun _ => ?_
  exact (reevaluateAround_everyStat hS e).bind fun _ => keeps_pure _

/-! ## Time and effects -/

theorem tickSheet_everyStat (hS : Stat.Stable S) (e : Entity) :
    (tickSheet e).Keeps (EveryStat S) := by
  refine (changeTraits_everyStat e _).bind fun _ => Keeps.bind (keeps_look _ _) fun s => ?_
  exact (changeStats_everyStat (fun _ h => h.changeAll hS.tick) e).bind fun _ => keeps_pure _

theorem buff_everyStat (hS : Stat.Stable S) (effect : String) (e : Entity) (stat : String)
    (amount : Float) (duration : Int) :
    (Effect.buff effect e stat amount duration).apply.Keeps (EveryStat S) := by
  refine Keeps.bind (keeps_look _ _) fun s => ?_
  refine Keeps.bind (Ensures.discard (keeps_orElse _ _)) fun _ => ?_
  refine Keeps.bind (freshId_ensures ofEntities_everyStat) fun id => ?_
  exact changeStats_everyStat (fun _ h => h.attach hS _) e

theorem increment_everyStat (hS : Stat.Stable S) (e : Entity) (stat : String) (delta : Float) :
    (Effect.increment e stat delta).apply.Keeps (EveryStat S) := by
  refine Keeps.bind (keeps_look _ _) fun s => Keeps.bind (keeps_orElse _ _) fun _ => ?_
  refine Keeps.bind (changeStats_everyStat (fun _ h => ?_) e) fun _ => keeps_pure _
  exact h.change (fun s => hS.increment s delta) stat

theorem invariant_everyStat (hS : Stat.Stable S) : Invariant (EveryStat S) where
  of_entities := ofEntities_everyStat
  of_no_entities _ := World.everyStat_of_no_entities
  modifyAgent _ uid _ hf hw := hw.modifyAgent hf uid
  modifyKind _ owner target _ hw := hw.modifyRelationship (by intro r; rfl) owner target
  setAgent _ uid _ stats hw := hw.setAgent uid (Stats.every_ofSchemas hS stats)
  setRelationship _ owner target stats hw :=
    hw.setRelationship owner target (Stats.every_ofSchemas hS stats)
  eraseAgent _ uid hw := hw.eraseAgent uid
  eraseRelationship _ owner target hw := hw.eraseRelationship owner target
  reevaluate := reevaluate_everyStat hS
  addTrait := addTrait_everyStat hS
  removeTrait := removeTrait_everyStat hS
  tickSheet := tickSheet_everyStat hS
  buff := buff_everyStat hS
  increment := increment_everyStat hS

end Act

theorem World.Reachable.everyStat {S : Stat → Prop} (hS : Stat.Stable S) {w : World}
    (h : w.Reachable) : w.EveryStat S :=
  (Act.invariant_everyStat hS).of_reachable h

end Society
