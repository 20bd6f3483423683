import Society.Proofs.World.Ledger
import Society.Proofs.World.Reach

/-!
# What lasts for a time

Three things can be given a number of ticks: a trait that an entity holds, a modifier that an effect
attaches to a stat, and a relationship modifier of an agent. Evaluations leave all of them alone, and
a trait that comes or goes does so without the others.
-/

namespace Society

def ModifierSource.isEffect : ModifierSource → Bool
  | .effect _ => true
  | _ => false

namespace StatModifier

/-- Whether an effect attached the modifier. -/
def isBuff (m : StatModifier) : Bool :=
  m.source.any (·.isEffect)

end StatModifier

namespace Stats

/-- The modifiers on the stat of a name that effects attached. -/
def buffsOn (stats : Stats) (name : String) : List StatModifier :=
  (stats.modifiersOn name).filter (·.isBuff)

/-- The modifiers on the stat of a name that no evaluation attached. -/
def ownOn (stats : Stats) (name : String) : List StatModifier :=
  (stats.modifiersOn name).filter (!·.isEvaluated)

end Stats

/-- What is there for a time, or for ever. -/
inductive Timed where
  | trait (h : HeldTrait)
  | buff (m : StatModifier)
  | attached (m : AttachedModifier)

namespace Timed

def timer : Timed → Timer
  | trait h => h.timer
  | buff m => m.timer
  | attached m => m.timer

def withTimer (t : Timer) : Timed → Timed
  | trait h => .trait { h with timer := t }
  | buff m => .buff { m with timer := t }
  | attached m => .attached { m with timer := t }

/-- What is counted down, even if no tick is left. -/
def tick (x : Timed) : Timed :=
  x.withTimer x.timer.tick

/-- What is left of it after a tick. -/
def next (x : Timed) : Option Timed :=
  if x.timer.tick.expired then none else some x.tick

end Timed

/-- Where an entity has what lasts for a time: under the id of a trait, on the stat of a name, or
among the relationship modifiers. -/
inductive Place where
  | trait (id : String)
  | stat (name : String)
  | attached
deriving DecidableEq

/-- What is at a place of an entity with this sheet and these relationship modifiers. -/
def Sheet.timed (s : Sheet) (attached : List AttachedModifier) : Place → List Timed
  | .trait id => (s.traits.get? id).toList.map .trait
  | .stat name => (s.stats.buffsOn name).map .buff
  | .attached => attached.map .attached

namespace World

/-- The relationship modifiers of an agent; a relationship has none. -/
def attached (w : World) : Entity → List AttachedModifier
  | .agent uid => (w.agent? uid).elim [] (·.modifiers)
  | .relationship .. => []

/-- What an entity has of its own: its traits, the modifiers that no evaluation attached, and its
relationship modifiers. -/
def own (w : World) (e : Entity) :
    Option (HeldTraits × (String → List StatModifier)) × List AttachedModifier :=
  ((w.sheet? e).map fun s => (s.traits, s.stats.ownOn), w.attached e)

/-- What is at a place of an entity. -/
def timed (w : World) (e : Entity) (p : Place) : List Timed :=
  (w.sheet? e).elim [] (·.timed (w.attached e) p)

end World

/-! ## Modifiers from effects -/

theorem StatModifier.isFrom_of_isBuff {m : StatModifier} (h : m.isBuff = true)
    {source : ModifierSource} (hs : source.isEffect = false) : m.isFrom source = false := by
  refine Bool.eq_false_iff.mpr fun hfrom => ?_
  rw [isBuff, isFrom_iff.mp hfrom] at h
  cases hs.symm.trans h

/-- What effects attached no evaluation attached. -/
theorem StatModifier.isEvaluated_of_isBuff {m : StatModifier} (h : m.isBuff = true) :
    m.isEvaluated = false := by
  unfold isBuff at h
  unfold isEvaluated
  cases hs : m.source with
  | none => rfl
  | some source =>
      rw [hs] at h
      cases source with
      | effect name => rfl
      | _ => cases h

theorem ModifierSpec.Instances.isBuff_eq_false {source : ModifierSource} {specs : List ModifierSpec}
    {ms : List StatModifier} (h : Instances source specs ms) (hs : source.isEffect = false) :
    ∀ m ∈ ms, m.isBuff = false := by
  intro m hm
  rw [StatModifier.isBuff, h.source_eq hm]
  exact hs

theorem ModifierSpec.Instances.isEvaluated_eq_true {source : ModifierSource}
    {specs : List ModifierSpec} {ms : List StatModifier} (h : Instances source specs ms)
    (hs : source.isEvaluated = true) : ∀ m ∈ ms, m.isEvaluated = true := by
  intro m hm
  rw [StatModifier.isEvaluated, h.source_eq hm]
  exact hs

namespace Stats

theorem buffsOn_eq (stats : Stats) (name : String) :
    stats.buffsOn name = (stats.ownOn name).filter (·.isBuff) := by
  rw [buffsOn, ownOn, List.filter_filter]
  refine List.filter_congr fun m _ => ?_
  cases hm : m.isBuff with
  | false => rfl
  | true => simp [StatModifier.isEvaluated_of_isBuff hm]

theorem ownOn_removeFromAll (stats : Stats) {sources : List ModifierSource}
    (h : ∀ source ∈ sources, source.isEvaluated = true) (name : String) :
    (stats.removeFromAll sources).result.ownOn name = stats.ownOn name := by
  refine filter_modifiersOn_removeFromAll (fun m hm source hs => ?_) stats name
  refine Bool.eq_false_iff.mpr fun hfrom => ?_
  simp [StatModifier.isEvaluated_of_isFrom hfrom, h source hs] at hm

theorem ownOn_attach (stats : Stats) {ms : List StatModifier} (h : ∀ m ∈ ms, m.isEvaluated = true)
    (name : String) : (stats.attach ms).result.ownOn name = stats.ownOn name :=
  filter_modifiersOn_attach (fun m hm => by simp [h m hm]) stats name

theorem buffsOn_removeFrom (stats : Stats) {source : ModifierSource} (h : source.isEffect = false)
    (name : String) : (stats.removeFrom source).result.buffsOn name = stats.buffsOn name := by
  have hother : ∀ m : StatModifier, m.isBuff = true → ∀ source' ∈ [source],
      m.isFrom source' = false :=
    fun _ hm => List.forall_mem_singleton.mpr (StatModifier.isFrom_of_isBuff hm h)
  exact filter_modifiersOn_removeFromAll hother stats name

theorem buffsOn_attach (stats : Stats) {ms : List StatModifier} (h : ∀ m ∈ ms, m.isBuff = false)
    (name : String) : (stats.attach ms).result.buffsOn name = stats.buffsOn name :=
  filter_modifiersOn_attach h stats name

/-- What effects attached stays where more is added. -/
theorem subset_buffsOn_add (stats : Stats) (m : StatModifier) (name name' : String) :
    stats.buffsOn name' ⊆ (stats.change name (·.add m)).result.buffsOn name' := by
  intro m' hm'
  obtain ⟨hm', hbuff⟩ := List.mem_filter.mp hm'
  refine List.mem_filter.mpr ⟨?_, hbuff⟩
  rw [modifiersOn_add]
  split
  · exact (Stat.insertByOrder_perm m _).mem_iff.mpr (List.mem_cons_of_mem m hm')
  · exact hm'

theorem mem_buffsOn_add {stats : Stats} {name : String} (hc : stats.contains name = true)
    {m : StatModifier} (hm : m.isBuff = true) :
    m ∈ (stats.change name (·.add m)).result.buffsOn name := by
  refine List.mem_filter.mpr ⟨?_, hm⟩
  rw [modifiersOn_add, if_pos ⟨rfl, hc⟩]
  exact (Stat.insertByOrder_perm m _).mem_iff.mpr List.mem_cons_self

theorem buffsOn_tick (stats : Stats) (name : String) :
    (stats.tick.result.buffsOn name).map Timed.buff =
      ((stats.buffsOn name).map Timed.buff).filterMap Timed.next := by
  rw [buffsOn, buffsOn, modifiersOn_tick]
  induction stats.modifiersOn name with
  | nil => rfl
  | cons m l ih =>
      have hbuff : m.tick.isBuff = m.isBuff := rfl
      have hnext : (Timed.buff m).next =
          if m.tick.timer.expired then none else some (.buff m.tick) := rfl
      cases hb : m.isBuff <;> cases he : m.tick.timer.expired <;>
        simp [hbuff, hb, he, hnext, ← ih]

end Stats

/-! ## Worlds -/

namespace World

variable {w : World} {e e' : Entity} {p : Place} {s : Sheet}

theorem timed_of_sheet? (hs : w.sheet? e = some s) (p : Place) :
    w.timed e p = s.timed (w.attached e) p := by
  simp [timed, hs]

theorem timed_eq_nil (hs : w.sheet? e = none) (p : Place) : w.timed e p = [] := by
  simp [timed, hs]

theorem sheet?_of_entity? (w : World) (e : Entity) :
    w.sheet? e = (w.entity? e).map (Sum.elim (·.sheet) (·.sheet)) := by
  cases e <;> simp [sheet?, entity?, Function.comp_def]

theorem attached_of_entity? (w : World) (e : Entity) :
    w.attached e = (w.entity? e).elim [] (Sum.elim (·.modifiers) fun _ => []) := by
  cases e with
  | agent uid => cases h : w.agent? uid <;> simp [attached, entity?, h]
  | relationship owner target =>
      cases h : w.relationship? owner target <;> simp [attached, entity?, h]

theorem own_congr {w' : World} (h : w'.entity? e = w.entity? e) : w'.own e = w.own e := by
  simp only [own, sheet?_of_entity?, attached_of_entity?, h]

theorem timed_of_own {w' : World} (h : w'.own e = w.own e) (p : Place) :
    w'.timed e p = w.timed e p := by
  obtain ⟨hsheet, hattached⟩ := Prod.mk.inj h
  rw [timed, timed, hattached]
  cases hs : w.sheet? e with
  | none => simp_all
  | some s =>
      rw [hs] at hsheet
      obtain ⟨s', hs', heq⟩ := Option.map_eq_some_iff.mp hsheet
      obtain ⟨htraits, hown⟩ := Prod.mk.inj heq
      rw [hs']
      cases p with
      | trait id => simp only [Option.elim_some, Sheet.timed, htraits]
      | stat name => simp only [Option.elim_some, Sheet.timed, Stats.buffsOn_eq, hown]
      | attached => rfl

theorem timed_congr {w' : World} (h : w'.entity? e = w.entity? e) (p : Place) :
    w'.timed e p = w.timed e p :=
  timed_of_own (own_congr h) p

theorem attached_setSheet (w : World) (new : Sheet) (e e' : Entity) :
    (w.setSheet new e).attached e' = w.attached e' := by
  cases e with
  | relationship owner target => cases e' <;> rfl
  | agent uid =>
      cases e' with
      | relationship owner target => rfl
      | agent u =>
          simp only [setSheet, attached, agent?_modifyAgent]
          split
          · rename_i hu
            rw [hu]
            cases w.agent? uid <;> rfl
          · rfl

theorem timed_setSheet (hs : w.sheet? e = some s) (new : Sheet) (e' : Entity) (p : Place) :
    (w.setSheet new e).timed e' p =
      if e' = e then new.timed (w.attached e) p else w.timed e' p := by
  rw [timed, sheet?_setSheet_apply hs, attached_setSheet]
  split
  · rename_i he
    rw [he]
    rfl
  · rfl

theorem timed_setStats (hs : w.sheet? e = some s) {stats : Stats}
    (h : ∀ name, stats.buffsOn name = s.stats.buffsOn name) (e' : Entity) (p : Place) :
    (w.setSheet { s with stats } e).timed e' p = w.timed e' p := by
  rw [timed_setSheet hs]
  split
  · rename_i he
    rw [he, timed_of_sheet? hs]
    cases p with
    | stat name => exact congrArg (·.map Timed.buff) (h name)
    | _ => rfl
  · rfl

/-- Traits that come or go are all that changes, each in its place. -/
theorem timed_setTraits (hs : w.sheet? e = some s) {traits : HeldTraits}
    (h : ∀ id, e' = e → p = .trait id → traits.get? id = s.traits.get? id) :
    (w.setSheet { s with traits } e).timed e' p = w.timed e' p := by
  rw [timed_setSheet hs]
  split
  · rename_i he
    rw [he, timed_of_sheet? hs]
    cases p with
    | trait id => simp only [Sheet.timed, h id he rfl]
    | _ => rfl
  · rfl

theorem own_setStats (hs : w.sheet? e = some s) {stats : Stats}
    (h : ∀ name, stats.ownOn name = s.stats.ownOn name) (e' : Entity) :
    (w.setSheet { s with stats } e).own e' = w.own e' := by
  rw [own, sheet?_setSheet_apply hs, attached_setSheet, own]
  split
  · rename_i he
    rw [he, hs]
    simp [funext h]
  · rfl

theorem own_modifyRelationship {f : Relationship → Relationship} (hf : ∀ r, (f r).sheet = r.sheet)
    (w : World) (owner target : String) (e : Entity) :
    (w.modifyRelationship owner target f).own e = w.own e := by
  rw [own, sheet?_modifyRelationship hf]
  cases e <;> rfl

theorem own_modifyAgent {f : Agent → Agent} (hf : ∀ a, (f a).sheet = a.sheet)
    (hm : ∀ a, (f a).modifiers = a.modifiers) (w : World) (uid : String) (e : Entity) :
    (w.modifyAgent uid f).own e = w.own e := by
  rw [own, sheet?_modifyAgent hf, own]
  cases e with
  | relationship owner target => rfl
  | agent u =>
      simp only [attached, agent?_modifyAgent]
      split
      · rename_i hu
        cases hu
        cases w.agent? uid <;> simp [hm]
      · rfl

theorem timed_modifyAgent {f : Agent → Agent} (hf : ∀ a, (f a).sheet = a.sheet) {uid : String}
    (hp : e = .agent uid → p = .attached → ∀ a, (f a).modifiers = a.modifiers) :
    (w.modifyAgent uid f).timed e p = w.timed e p := by
  rw [timed, sheet?_modifyAgent hf, timed]
  cases p with
  | trait id => rfl
  | stat name => rfl
  | attached =>
      cases e with
      | relationship owner target => rfl
      | agent u =>
          simp only [attached, agent?_modifyAgent]
          split
          · rename_i hu
            cases hu
            cases w.agent? uid <;> simp [hp rfl rfl]
          · rfl

theorem timed_attached (w : World) (e : Entity) :
    w.timed e .attached = (w.attached e).map .attached := by
  cases e with
  | agent uid => cases h : w.agent? uid <;> simp [timed, sheet?, attached, Sheet.timed, h]
  | relationship owner target =>
      cases h : w.relationship? owner target <;> simp [timed, sheet?, attached, Sheet.timed, h]

end World

/-! ## Acts -/

namespace Act

variable {α : Type} {e e' : Entity} {p : Place}

/-- What an act leaves of an entity as it is, it leaves with all that is its own. -/
theorem Fixes.own {x : Act α} (h : x.Fixes (·.entity? e)) : x.Fixes (·.own e) :=
  h.of_coarser fun _ _ => World.own_congr

theorem Fixes.timed {x : Act α} (h : x.Fixes (·.own e)) (p : Place) : x.Fixes (·.timed e p) :=
  h.of_coarser fun _ _ he => World.timed_of_own he p

theorem changeStats_fixes_own {f : Stats → Change Stats}
    (hf : ∀ stats name, (f stats).result.ownOn name = stats.ownOn name) (e e' : Entity) :
    (changeStats e f).Fixes (·.own e') := by
  intro v w hw
  refine leads_bind.mpr (leads_look.mpr ⟨fun s hs => ?_, fun _ => hw⟩)
  exact (World.own_setStats hs (hf s.stats) e').trans hw

theorem changeStats_fixes_timed {f : Stats → Change Stats}
    (hf : ∀ stats name, (f stats).result.buffsOn name = stats.buffsOn name) (e e' : Entity)
    (p : Place) : (changeStats e f).Fixes (·.timed e' p) := by
  intro v w hw
  refine leads_bind.mpr (leads_look.mpr ⟨fun s hs => ?_, fun _ => hw⟩)
  exact (World.timed_setStats hs (hf s.stats) e' p).trans hw

/-- Modifiers that are attached change what they are attached to, and nothing else. -/
theorem attach_fixes_of {γ : Type} {look : World → γ} {source : ModifierSource}
    {specs : List ModifierSpec} (hlook : ∀ v, World.OfEntities (look · = v))
    (hattach : ∀ ms, ModifierSpec.Instances source specs ms →
      (changeStats e (·.attach ms)).Fixes look) : (attach e source specs).Fixes look := by
  intro v
  refine Ensures.bind (requireStats_fixes e specs v) fun _ => ?_
  exact (instances_ensures (hlook v) source specs).bind fun ms =>
    ensures_of_pure fun hms => hattach ms hms v

theorem attach_fixes_own {source : ModifierSource} (hs : source.isEvaluated = true) (e e' : Entity)
    (specs : List ModifierSpec) : (attach e source specs).Fixes (·.own e') :=
  attach_fixes_of (fun _ _ _ ha hr hw => (World.own_congr (World.entity?_congr ha hr e')).trans hw)
    fun _ hms => changeStats_fixes_own
      (fun stats name => stats.ownOn_attach (hms.isEvaluated_eq_true hs) name) e e'

theorem attach_fixes_timed {source : ModifierSource} (hs : source.isEffect = false) (e e' : Entity)
    (specs : List ModifierSpec) (p : Place) : (attach e source specs).Fixes (·.timed e' p) :=
  attach_fixes_of
    (fun _ _ _ ha hr hw => (World.timed_congr (World.entity?_congr ha hr e') p).trans hw)
    fun _ hms => changeStats_fixes_timed
      (fun stats name => stats.buffsOn_attach (hms.isBuff_eq_false hs) name) e e' p

/-! ## Evaluations -/

section Evaluations

variable {owner target : String}

theorem modifyRelationship_fixes_own {f : Relationship → Relationship}
    (hf : ∀ r, (f r).sheet = r.sheet) (e : Entity) :
    (modify fun w => w.modifyRelationship owner target f : Act PUnit).Fixes (·.own e) :=
  fixes_modify fun w => World.own_modifyRelationship hf w owner target e

theorem forgetActive_fixes_own (owner target : String) (e : Entity) :
    (forgetActive owner target).Fixes (·.own e) := by
  refine (fixes_look _ _).bind fun r => ?_
  refine (modifyRelationship_fixes_own (by intro r; rfl) e).bind fun _ => ?_
  exact changeStats_fixes_own (fun stats name => stats.ownOn_removeFromAll
    (fun _ hs => Relationship.isEvaluated_of_mem_activeSources hs) name) _ e

theorem applyInfluence_fixes_own (i : Influence) (e : Entity) :
    (applyInfluence owner target i).Fixes (·.own e) := by
  refine (preconditionsHold_fixes owner target _).bind fun _ => Fixes.ite ?_ (fixes_pure _)
  exact (attach_fixes_own i.isEvaluated_source _ e _).bind fun _ =>
    modifyRelationship_fixes_own (by intro r; rfl) e

/-- An evaluation takes off and attaches only what evaluations attach. -/
theorem reevaluate_fixes_own (owner target : String) (e : Entity) :
    (reevaluate owner target).Fixes (·.own e) :=
  fun v => reevaluate_keeps_of (forgetActive_fixes_own owner target e v) fun i =>
    applyInfluence_fixes_own i e v

theorem reevaluateAgent_fixes_own (uid : String) (e : Entity) :
    (reevaluateAgent uid).Fixes (·.own e) :=
  fun v => reevaluateAgent_keeps_of (fun target => reevaluate_fixes_own uid target e v)
    fun owner => reevaluate_fixes_own owner uid e v

theorem reevaluateAround_fixes_own (e' e : Entity) : (reevaluateAround e').Fixes (·.own e) :=
  fun v => reevaluateAround_keeps_of (fun owner target => reevaluate_fixes_own owner target e v) e'

theorem reevaluateAll_fixes_own (e : Entity) : reevaluateAll.Fixes (·.own e) :=
  fun v => reevaluateAll_keeps_of fun owner target => reevaluate_fixes_own owner target e v

end Evaluations

/-! ## Traits -/

theorem clearKind_fixes_own (e' : Entity) (id : String) (e : Entity) :
    (clearKind e' id).Fixes (·.own e) :=
  fun v => clearKind_keeps e' id
    (fun w owner target _ hw =>
      (World.own_modifyRelationship (by intro r; rfl) w owner target e).trans hw)
    fun s => (retract_apart e s).own v

/-- What is done when a trait is off the sheet, and its modifiers with it. -/
theorem settleRemoval_fixes_own (e : Entity) (id : String) (e' : Entity) :
    Fixes (·.own e') (do
      clearKind e id
      discard <| retract (e.traitFact id)
      reevaluateAround e
      return true) :=
  (clearKind_fixes_own e id e').bind fun _ => (retract_apart e' _).own.discard.bind fun _ =>
    (reevaluateAround_fixes_own e e').bind fun _ => fixes_pure _

theorem removeTrait_fixes_own (h : e' ≠ e) (id : String) : (removeTrait e id).Fixes (·.own e') :=
  (fixes_look _ _).bind fun _ => Fixes.ite (fixes_pure _) ((changeTraits_apart h _).own.bind fun _ =>
    (changeStats_apart h _).own.bind fun _ => settleRemoval_fixes_own e id e')

/-- The modifiers of a trait were attached by no effect. -/
theorem removeFrom_fixes_timed (e : Entity) (id : String) (e' : Entity) (p : Place) :
    (changeStats e (·.removeFrom (.trait id))).Fixes (·.timed e' p) :=
  changeStats_fixes_timed (fun stats name => stats.buffsOn_removeFrom rfl name) e e' p

/-- A trait that goes leaves what is elsewhere. -/
theorem removeTrait_fixes_timed {id : String} (h : e' = e → p ≠ .trait id) :
    (removeTrait e id).Fixes (·.timed e' p) := by
  refine (fixes_look _ _).bind fun s => Fixes.ite (fixes_pure _) ?_
  have hchange : (changeTraits e (·.erase id)).Fixes (·.timed e' p) := by
    intro v w hw
    refine leads_bind.mpr (leads_look.mpr ⟨fun s hs => ?_, fun _ => hw⟩)
    refine (World.timed_setTraits hs fun id' he hp => ?_).trans hw
    rw [Dict.get?_erase, if_neg]
    rintro rfl
    exact h he hp
  exact hchange.bind fun _ => (removeFrom_fixes_timed e id e' p).bind fun _ =>
    (settleRemoval_fixes_own e id e').timed p

end Act

end Society
