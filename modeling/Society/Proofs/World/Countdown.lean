import Mathlib.Data.List.Nodup
import Society.Proofs.World.Timed
import Society.Proofs.World.Tidy

/-!
# What a tick counts down

A tick reaches every agent and every relationship once. What is timed there is counted down by one,
and what has no tick left is gone: a modifier at once, a trait when it is taken from its holder, with
its modifiers and the fact that tells of it.
-/

namespace Society

namespace World

variable {w w' : World} {e : Entity} {p : Place} {id s : String}

/-! ## What is to be counted down -/

theorem timed_trait_eq_nil_iff {sheet : Sheet} (hs : w.sheet? e = some sheet) :
    w.timed e (.trait id) = [] ↔ sheet.traits.contains id = false := by
  rw [timed_of_sheet? hs, Sheet.timed, Dict.contains]
  cases sheet.traits.get? id <;> simp

theorem length_timed_trait (w : World) (e : Entity) (id : String) :
    (w.timed e (.trait id)).length ≤ 1 := by
  cases hs : w.sheet? e with
  | none => simp [timed_eq_nil hs]
  | some sheet =>
      rw [timed_of_sheet? hs, Sheet.timed]
      cases sheet.traits.get? id <;> simp

/-- Of a fact that is told no more. -/
structure Untold (s : String) (w : World) : Prop where
  sound : w.facts.Sound
  assert_eq : w.facts.assert s = .ok false

theorem Untold.of_facts (h : w.Untold s) (hf : w'.facts = w.facts) : w'.Untold s :=
  ⟨hf ▸ h.sound, hf ▸ h.assert_eq⟩

/-- Of a trait that has no modifiers on an entity. -/
def Shed (e : Entity) (id : String) (w : World) : Prop :=
  ∀ s, w.sheet? e = some s → s.stats.anyFrom (.trait id) = false

/-- A trait that comes with nothing else any more. -/
structure Released (e : Entity) (id : String) (w : World) : Prop where
  shed : w.Shed e id
  untold : w.Untold (e.traitFact id)

theorem Shed.of_own (h : w.Shed e id) (hown : w'.own e = w.own e) : w'.Shed e id := by
  intro s' hs'
  have hsheet := congrArg Prod.fst hown
  rw [own, hs'] at hsheet
  obtain ⟨s, hs, heq⟩ := Option.map_eq_some_iff.mp hsheet.symm
  have hstats : s'.stats.ownOn = s.stats.ownOn := (congrArg Prod.snd heq).symm
  refine Stats.anyFrom_eq_false_iff.mpr fun name m hm => Bool.eq_false_iff.mpr fun hfrom => ?_
  -- a modifier of a trait is attached by no evaluation
  have hm' : m ∈ s'.stats.ownOn name := by
    refine List.mem_filter.mpr ⟨hm, ?_⟩
    rw [StatModifier.isEvaluated_of_isFrom hfrom]
    rfl
  rw [hstats] at hm'
  have hnone := Stats.anyFrom_eq_false_iff.mp (h s hs) name m (List.mem_of_mem_filter hm')
  cases hfrom.symm.trans hnone

theorem shed_setSheet {sheet new : Sheet} (hs : w.sheet? e = some sheet)
    (hnew : new.stats.anyFrom (.trait id) = false) : (w.setSheet new e).Shed e id := by
  intro s' hs'
  rw [sheet?_setSheet hs] at hs'
  exact Option.some.inj hs' ▸ hnew

/-- What was `L` is counted down by one, and a trait that is gone is released. -/
structure Counted (e : Entity) (p : Place) (L : List Timed) (w : World) : Prop where
  timed_eq : w.timed e p = L.filterMap Timed.next
  released : ∀ id, p = .trait id → (∃ x ∈ L, x.next = none) → w.Released e id

/-- The timers on the sheet have run, and these traits have no tick left. They are still held. -/
structure Aged (e : Entity) (p : Place) (L : List Timed) (expired : List String) (w : World) :
    Prop where
  trait : ∀ id, p = .trait id →
    w.timed e p = L.map Timed.tick ∧ (id ∈ expired ↔ ∃ x ∈ L, x.next = none)
  other : (∀ id, p ≠ .trait id) → w.timed e p = L.filterMap Timed.next

/-- What is waiting to be counted down. -/
structure Awaits (e : Entity) (p : Place) (L : List Timed) (w : World) : Prop where
  linked : w.Linked
  tidy : w.Tidy
  timed_eq : w.timed e p = L

/-- An entity that is not there has nothing to be counted down. -/
theorem Awaits.counted_of_sheet? {L : List Timed} (h : w.Awaits e p L) (hs : w.sheet? e = none)
    (h' : w'.Awaits e p L) : w'.Counted e p L := by
  have hnil : L = [] := h.timed_eq.symm.trans (timed_eq_nil hs p)
  subst hnil
  exact ⟨h'.timed_eq, by simp⟩

theorem counted_of_timed_eq_nil (h : w.timed e p = []) : w.Counted e p [] :=
  ⟨h, by simp⟩

end World

theorem Timed.next_eq_none_iff {x : Timed} : x.next = none ↔ x.timer.tick.expired = true := by
  unfold next
  split <;> simp [*]

theorem Timed.filterMap_next_of_forall {L : List Timed} (h : ¬ ∃ x ∈ L, x.next = none) :
    L.filterMap next = L.map tick := by
  rw [← List.filterMap_eq_map]
  refine List.filterMap_congr fun x hx => ?_
  have hx' : x.timer.tick.expired ≠ true := fun he => h ⟨x, hx, next_eq_none_iff.mpr he⟩
  simp [next, hx']

/-- Where no trait without a tick left is at the place, the count is complete. -/
theorem World.Aged.counted {w : World} {e : Entity} {p : Place} {L : List Timed}
    {expired : List String} (h : w.Aged e p L expired) (hp : ∀ id ∈ expired, p ≠ .trait id) :
    w.Counted e p L := by
  constructor
  case timed_eq =>
    cases p with
    | trait id =>
        obtain ⟨htimed, hiff⟩ := h.trait id rfl
        rw [htimed, Timed.filterMap_next_of_forall fun hx => hp id (hiff.mpr hx) rfl]
    | stat name => exact h.other nofun
    | attached => exact h.other nofun
  case released =>
    rintro id rfl hx
    exact absurd rfl (hp id ((h.trait id rfl).2.mpr hx))

theorem World.Aged.congr {w w' : World} {e : Entity} {p : Place} {L : List Timed}
    {expired : List String} (h : w.Aged e p L expired) (htimed : w'.timed e p = w.timed e p) :
    w'.Aged e p L expired :=
  ⟨fun id hp => htimed ▸ h.trait id hp, fun hp => htimed ▸ h.other hp⟩

theorem World.timed_tickModifiers (w : World) (uid : String) :
    (w.modifyAgent uid Agent.tickModifiers).timed (.agent uid) .attached =
      (w.timed (.agent uid) .attached).filterMap Timed.next := by
  rw [timed_attached, timed_attached, attached, attached, agent?_modifyAgent, if_pos rfl]
  cases w.agent? uid with
  | none => rfl
  | some a =>
      simp only [Option.map_some, Option.elim_some, Agent.tickModifiers]
      induction a.modifiers with
      | nil => rfl
      | cons m l ih =>
          have hnext : (Timed.attached m).next = if m.timer.tick.expired then none
              else some (.attached { m with timer := m.timer.tick }) := rfl
          cases he : m.timer.tick.expired <;> simp [he, hnext, ← ih]

/-- The traits of a holder without a tick left. -/
theorem HeldTraits.Keyed.mem_expired_iff {held : HeldTraits} (h : held.Keyed) {id : String} :
    id ∈ HeldTraits.expired (held.tick) ↔ ∃ x, held.get? id = some x ∧ x.tick.timer.expired = true := by
  simp only [HeldTraits.expired, List.mem_map, List.mem_filter, Dict.mem_values_iff]
  constructor
  · rintro ⟨x, ⟨⟨k, hk⟩, hx⟩, rfl⟩
    rw [HeldTraits.tick, Dict.get?_map] at hk
    obtain ⟨y, hy, rfl⟩ := Option.map_eq_some_iff.mp hk
    exact ⟨y, (h k y hy : y.definition.id = k) ▸ hy, hx⟩
  · rintro ⟨y, hy, hx⟩
    refine ⟨y.tick, ⟨⟨id, ?_⟩, hx⟩, h id y hy⟩
    rw [HeldTraits.tick, Dict.get?_map, hy]
    rfl

namespace Act

open FactDatabase (stable_sound)
open World (Untold Shed Released Counted Aged Awaits Tidy)

variable {e e' : Entity} {p : Place} {L : List Timed} {id s : String} {E : World → Prop}

/-! ## Facts that are told no more -/

theorem Fixes.untold {α : Type} {x : Act α} (h : x.Fixes World.face) : x.Keeps (Untold s) :=
  h.keeps fun _ _ hface hw => hw.of_facts (congrArg (·.facts) hface)

theorem retract_untold (s' : String) : (retract s').Keeps (Untold s) := by
  refine fun _ hw => leads_retract.mpr
    ⟨fun _ _ hf => ⟨stable_sound.retract hw.sound hf, ?_⟩, fun _ _ => hw⟩
  exact FactDatabase.assert_of_retract_other hw.sound hf hw.assert_eq

theorem retract_untells (s : String) :
    Ensures Tidy (retract s) (fun _ => Untold s) fun _ => True :=
  fun _ hw => leads_retract.mpr ⟨fun _ _ hf =>
    ⟨stable_sound.retract hw.facts hf, FactDatabase.assert_of_retract hw.facts hf⟩, fun _ _ => trivial⟩

theorem clearKind_untold (e : Entity) (id : String) : (clearKind e id).Keeps (Untold s) :=
  clearKind_rule (fun _ hw _ => hw) (fun _ hw _ => hw) fun _ _ _ _ _ hw _ _ =>
    retract_untold _ _ (hw.of_facts rfl)

theorem removeTrait_untold (e : Entity) (id : String) : (removeTrait e id).Keeps (Untold s) :=
  removeTrait_rule
    (fun _ _ h hw => hw.of_facts (congrArg (·.facts) (World.face_eq_of_outline_eq h)))
    (fun _ hw => hw) (fun _ hw => hw) (fun _ _ hw _ _ => hw.of_facts (by cases e <;> rfl))
    (clearKind_untold e id) (retract_untold _) (reevaluateAround_fixes e).untold

/-! ## Modifiers of a trait that is taken -/

theorem Fixes.shed {α : Type} {x : Act α} (h : x.Fixes (·.own e)) : x.Keeps (Shed e id) :=
  h.keeps fun _ _ hown hw => hw.of_own hown

theorem keeps_released {α : Type} {x : Act α} (huntold : x.Keeps (Untold (e.traitFact id)))
    (hshed : x.Keeps (Shed e id)) : x.Keeps (Released e id) :=
  keeps_of_holds fun _ hw => ⟨hshed.holds hw.shed, huntold.holds hw.untold⟩

theorem reevaluateAround_released (e' : Entity) : (reevaluateAround e').Keeps (Released e id) :=
  keeps_released (reevaluateAround_fixes e').untold (reevaluateAround_fixes_own e' e).shed

theorem leads_removeFrom_shed {id' : String} {w : World} (h : id = id' ∨ w.Shed e id) :
    (changeStats e (·.removeFrom (.trait id'))).Leads (fun _ => Shed e id) (Shed e id) w := by
  refine leads_bind.mpr (leads_look.mpr ⟨fun s hs => ?_, fun hn s hs => ?_⟩)
  · refine World.Shed.of_own (World.shed_setSheet hs (Stats.anyFrom_removeFrom ?_))
      (World.own_congr (World.entity?_congr rfl rfl e))
    exact h.imp (congrArg _) fun hw => hw s hs
  · cases hn.symm.trans hs

theorem removeTrait_shed (e' : Entity) (id' : String) : (removeTrait e' id').Keeps (Shed e id) := by
  by_cases h : e = e'
  · subst h
    refine Keeps.bind (keeps_look _ _) fun _ => Ensures.ite (fun _ => keeps_pure _) fun _ => ?_
    refine Keeps.bind (fun w hw => ?_) fun _ =>
      Keeps.bind (fun w hw => leads_removeFrom_shed (.inr hw)) fun _ =>
        (settleRemoval_fixes_own e id' e).shed
    refine leads_bind.mpr (leads_look.mpr ⟨fun s hs => ?_, fun _ => hw⟩)
    exact World.shed_setSheet hs (hw s hs)
  · exact (removeTrait_fixes_own h id').shed

theorem removeTrait_released (e' : Entity) (id' : String) :
    (removeTrait e' id').Keeps (Released e id) :=
  keeps_released (removeTrait_untold e' id') (removeTrait_shed e' id')

/-! ## Traits that are taken -/

/-- When a trait is off the sheet and has no modifiers there, it is told no more. -/
theorem settleRemoval_releases (e : Entity) (id : String) :
    Ensures (fun w => w.Shed e id ∧ w.Tidy ∧ w.timed e (.trait id) = []) (do
        clearKind e id
        discard <| retract (e.traitFact id)
        reevaluateAround e
        return true)
      (fun _ w => w.timed e (.trait id) = [] ∧ w.Released e id) fun _ => True := by
  rintro w ⟨hshed, htidy, hgone⟩
  have hfixes := settleRemoval_fixes_own e id e
  have huntold := ((clearKind_tidy e id).weaken fun _ _ => trivial).bind fun _ =>
    (retract_untells (e.traitFact id)).discard.bind fun _ =>
      ((reevaluateAround_fixes e).untold.weaken fun _ _ => trivial).bind fun _ =>
        ensures_pure (Q := fun _ => Untold (e.traitFact id)) (a := true) fun _ h => h
  have hall := Leads.and (hfixes.timed (.trait id) [] w hgone)
    (Leads.and (hfixes.shed w hshed) (huntold w htidy))
  exact Leads.imp hall (fun _ _ h => ⟨h.1, h.2.1, h.2.2⟩) fun _ _ => trivial

/-- A trait that is held is gone when it is taken, and comes with nothing else any more. -/
theorem removeTrait_takes (e : Entity) (id : String) :
    Ensures (fun w => w.Tidy ∧ w.timed e (.trait id) ≠ []) (removeTrait e id)
      (fun _ w => w.timed e (.trait id) = [] ∧ w.Released e id) fun _ => True := by
  rintro w ⟨hw, hheld⟩
  refine leads_bind.mpr (leads_look.mpr ⟨fun s hs => ?_, fun _ => trivial⟩)
  refine leads_ite.mpr ⟨fun hn => ?_, fun _ => ?_⟩
  · exact absurd ((World.timed_trait_eq_nil_iff hs).mpr (by simpa using hn)) hheld
  refine leads_bind.mpr ((leads_changeTraits hs).mpr ?_)
  have hgone : (w.setSheet { s with traits := s.traits.erase id } e).timed e (.trait id) = [] := by
    rw [World.timed_setSheet hs, if_pos rfl, Sheet.timed, Dict.get?_erase, if_pos rfl]
    rfl
  have htidy : (w.setSheet { s with traits := s.traits.erase id } e).Tidy :=
    hw.setSheet hs fun hk => hk.erase id
  have hstats : (changeStats e (·.removeFrom (.trait id))).Keeps Tidy :=
    (changeStats_fixes e _).keeps fun _ _ h hw => hw.of_face (World.face_eq_of_outline_eq h)
  have hstep := Leads.and (leads_removeFrom_shed (.inl rfl))
    (Leads.and (hstats _ htidy) (removeFrom_fixes_timed e id e (.trait id) [] _ hgone))
  exact (Leads.imp hstep (fun _ _ h => h) fun _ _ => trivial).bind fun _ =>
    settleRemoval_releases e id

/-- What is not there does not come when a trait is taken. -/
theorem removeTrait_keeps_nil (e e' : Entity) (id : String) (p : Place) :
    (removeTrait e id).Keeps fun w => w.timed e' p = [] := by
  by_cases h : e' = e ∧ p = .trait id
  · obtain ⟨rfl, rfl⟩ := h
    intro w hw
    refine leads_bind.mpr (leads_look.mpr ⟨fun s hs => leads_ite.mpr ⟨fun _ => hw, fun hn => ?_⟩,
      fun _ => hw⟩)
    exact absurd ((World.timed_trait_eq_nil_iff hs).mp hw) (by simpa using hn)
  · exact removeTrait_fixes_timed (fun he hp => h ⟨he, hp⟩) []

/-- Of all traits that are taken one after the other. -/
theorem takeTraits_takes {ids : List String} (h : id ∈ ids) :
    Ensures (fun w => w.Tidy ∧ w.timed e (.trait id) ≠ [])
      (ids.forM fun id => discard (removeTrait e id))
      (fun _ w => w.timed e (.trait id) = [] ∧ w.Released e id) fun _ => True := by
  induction ids with
  | nil => cases h
  | cons first ids ih =>
      by_cases hid : first = id
      · subst hid
        refine Ensures.bind (Ensures.discard (R := fun _ w => w.timed e (.trait first) = [] ∧
          w.Released e first) (removeTrait_takes e first)) fun _ => ?_
        refine Ensures.weaken (Keeps.forM fun id' => Ensures.discard ?_) fun _ _ => trivial
        exact ((removeTrait_keeps_nil e e id' (.trait first)).and (removeTrait_released e id')).mono
          (fun _ h => h) fun _ _ h => h
      · have hmem : id ∈ ids := (List.mem_cons.mp h).resolve_left (Ne.symm hid)
        refine Ensures.bind (Ensures.discard (R := fun _ w => w.Tidy ∧ w.timed e (.trait id) ≠ [])
          ?_) fun _ => ih hmem
        have hfixes : (removeTrait e first).Fixes (·.timed e (.trait id)) :=
          removeTrait_fixes_timed fun _ hp => hid (Place.trait.inj hp).symm
        refine ((removeTrait_tidy e first).and (hfixes.keeps (P := fun w => w.timed e (.trait id) ≠ [])
          fun _ _ heq hne => heq ▸ hne)).weaken fun _ _ => trivial

/-! ## The timers of one entity -/

theorem tickSheet_apart (h : e' ≠ e) : (tickSheet e).Fixes (·.own e') :=
  (changeTraits_apart h _).own.bind fun _ => (fixes_look _ _).bind fun _ =>
    (changeStats_apart h _).own.bind fun _ => fixes_pure _

/-- The timers on a sheet run, for traits and modifiers alike. -/
theorem leads_tickSheet {w : World} {Q : List String → World → Prop}
    (hQ : ∀ s w', w.sheet? e = some s →
      (∀ p, w'.timed e p = Sheet.timed ⟨s.stats.tick.result, s.traits.tick⟩ (w.attached e) p) →
        Q (HeldTraits.expired s.traits.tick) w') : (tickSheet e).Leads Q (fun _ => True) w := by
  refine leads_bind.mpr (leads_bind.mpr (leads_look.mpr ⟨fun s hs => ?_, fun _ => trivial⟩))
  have hs₁ := World.sheet?_setSheet hs { s with traits := s.traits.tick }
  rw [leads_modify, leads_bind, leads_requireSheet hs₁, leads_bind, changeStats, leads_bind,
    leads_requireSheet hs₁, leads_modify, leads_pure]
  refine hQ s _ hs fun p => ?_
  have htimed := World.timed_setSheet hs₁ ⟨s.stats.tick.result, s.traits.tick⟩ e p
  rw [if_pos rfl, World.attached_setSheet] at htimed
  exact (World.timed_congr (World.entity?_congr rfl rfl e) p).trans htimed

theorem tickSheet_fixes_attached (e : Entity) :
    Ensures (fun w => w.timed e .attached = L) (tickSheet e) (fun _ w => w.timed e .attached = L)
      fun _ => True :=
  fun w hw => leads_tickSheet fun s w' hs hw' => by
    rw [hw', ← hw, World.timed_of_sheet? hs]
    rfl

/-- The timers on a sheet run for all that is there. -/
theorem tickSheet_ages (hp : p ≠ .attached) :
    Ensures (fun w => w.Tidy ∧ w.timed e p = L) (tickSheet e)
      (fun expired w => w.Tidy ∧ Aged e p L expired w) fun _ => True := by
  rintro w ⟨hw, rfl⟩
  have htidy := (tickSheet_fixes e).face.keeps (P := Tidy) fun _ _ h hw => hw.of_face h
  have hages : (tickSheet e).Leads (Aged e p (w.timed e p)) (fun _ => True) w := by
    refine leads_tickSheet fun s w' hs hw' => ?_
    rw [World.timed_of_sheet? hs]
    constructor
    case trait =>
      rintro id rfl
      rw [hw', (hw.keyed e s hs).mem_expired_iff]
      simp only [Sheet.timed, HeldTraits.tick, Dict.get?_map]
      cases s.traits.get? id with
      | none => simp
      | some h => simpa using ⟨rfl, (Timed.next_eq_none_iff (x := .trait h)).symm⟩
    case other =>
      intro hne
      rw [hw']
      cases p with
      | trait id => exact absurd rfl (hne id)
      | stat name => exact s.stats.buffsOn_tick name
      | attached => exact absurd rfl hp
  exact Leads.imp (Leads.and (htidy w hw) hages) (fun _ _ h => h) fun _ _ => trivial

theorem keeps_counted {α : Type} {x : Act α} (htimed : x.Fixes (·.timed e p))
    (hreleased : ∀ id, x.Keeps (Released e id)) : x.Keeps (Counted e p L) :=
  keeps_of_holds fun w hw => ⟨(htimed.eq w).trans hw.timed_eq,
    fun id hp hx => (hreleased id).holds (hw.released id hp hx)⟩

theorem reevaluateAround_counted (e' : Entity) : (reevaluateAround e').Keeps (Counted e p L) :=
  keeps_counted ((reevaluateAround_fixes_own e' e).timed p) fun _ => reevaluateAround_released e'

/-- When the traits without a tick left are taken, the count is complete. -/
theorem takeExpired_counts (e : Entity) (expired : List String) :
    Ensures (fun w => w.Tidy ∧ Aged e p L expired w) (do
        expired.forM fun id => discard (removeTrait e id)
        reevaluateAround e)
      (fun _ => Counted e p L) fun _ => True := by
  rintro w ⟨hw, haged⟩
  have haround : Ensures (Counted e p L) (reevaluateAround e) (fun _ => Counted e p L)
      fun _ => True :=
    (reevaluateAround_counted e).weaken fun _ _ => trivial
  by_cases hp : ∃ id ∈ expired, p = .trait id
  · obtain ⟨id, hid, rfl⟩ := hp
    obtain ⟨htimed, hiff⟩ := haged.trait id rfl
    obtain ⟨x, hx, hnext⟩ := hiff.mp hid
    have hle : L.length ≤ 1 := by simpa [htimed] using World.length_timed_trait w e id
    have hlength : L.length = 1 := Nat.le_antisymm hle (List.length_pos_of_mem hx)
    obtain ⟨y, rfl⟩ := List.length_eq_one_iff.mp hlength
    obtain rfl := List.mem_singleton.mp hx
    have hcounted : Ensures (fun w => w.timed e (.trait id) = [] ∧ w.Released e id)
        (reevaluateAround e) (fun _ => Counted e (.trait id) [x]) fun _ => True := by
      refine haround.mono (fun w hw => ⟨?_, ?_⟩) fun _ _ h => h
      · simp [hw.1, hnext]
      · rintro id' hid' -
        rw [← Place.trait.inj hid']
        exact hw.2
    exact Ensures.bind (takeTraits_takes hid) (fun _ => hcounted) w ⟨hw, by simp [htimed]⟩
  · have hne : ∀ id ∈ expired, p ≠ .trait id := fun id hid he => hp ⟨id, hid, he⟩
    have hloop : Ensures (Counted e p L) (expired.forM fun id => discard (removeTrait e id))
        (fun _ => Counted e p L) fun _ => True :=
      ensures_forM_of_mem fun id hid => Ensures.discard (Ensures.weaken
        (keeps_counted (removeTrait_fixes_timed fun _ => hne id hid) fun _ =>
          removeTrait_released e id)
        fun _ _ => trivial)
    exact (hloop.bind fun _ => haround) w (haged.counted hne)

/-! ## Agents and relationships -/

theorem tickAgent_counts (uid : String) (p : Place) (L : List Timed) :
    Ensures (fun w => w.Tidy ∧ w.timed (.agent uid) p = L) (tickAgent uid)
      (fun _ => Counted (.agent uid) p L) fun _ => True := by
  rintro w ⟨hw, hL⟩
  refine leads_bind.mpr (leads_get.mpr (leads_ite.mpr ⟨fun _ => ?_, fun hn => ?_⟩))
  case refine_2 =>
    have hnone : w.sheet? (.agent uid) = none := by simpa [World.sheet?] using hn
    have hnil := World.timed_eq_nil hnone p
    rw [hnil] at hL
    exact hL ▸ World.counted_of_timed_eq_nil hnil
  by_cases hp : p = .attached
  · subst hp
    refine ((tickSheet_fixes_attached (.agent uid)).bind fun expired => ?_) w hL
    refine Ensures.bind (Q := fun _ => Counted (.agent uid) .attached L)
      (ensures_modify fun w hw => ⟨?_, by simp⟩) fun _ => ?_
    · rw [World.timed_tickModifiers, hw]
    · refine Ensures.weaken (Keeps.bind (Keeps.forM fun id => Ensures.discard ?_) fun _ =>
        reevaluateAround_counted (.agent uid)) fun _ _ => trivial
      exact keeps_counted (removeTrait_fixes_timed (by simp)) fun _ => removeTrait_released _ id
  · refine ((tickSheet_ages hp).bind fun expired => ?_) w ⟨hw, hL⟩
    refine Ensures.bind (ensures_modify fun w hw => ⟨hw.1.of_face ?_, hw.2.congr ?_⟩) fun _ =>
      takeExpired_counts (.agent uid) expired
    · exact World.mask_modifyAgent fun _ _ => rfl
    · exact World.timed_modifyAgent (by intro a; rfl) fun _ h => absurd h hp

theorem tickRelationship_counts (owner target : String) (p : Place) (L : List Timed) :
    Ensures (fun w => w.Tidy ∧ w.timed (.relationship owner target) p = L)
      (tickRelationship owner target) (fun _ => Counted (.relationship owner target) p L)
      fun _ => True := by
  by_cases hp : p = .attached
  · rintro w ⟨-, rfl⟩
    subst hp
    have hnil : ∀ w : World, w.timed (.relationship owner target) .attached = [] := fun w => by
      rw [World.timed_attached]
      rfl
    rw [hnil]
    exact ensures_of_forall (P := fun _ => True)
      (fun _ w => World.counted_of_timed_eq_nil (hnil w)) (fun _ => trivial) w trivial
  · exact (tickSheet_ages hp).bind fun expired => takeExpired_counts (.relationship owner target) expired

theorem tickAgent_apart {uid : String} (h : e ≠ .agent uid) : (tickAgent uid).Fixes (·.own e) := by
  refine fixes_get.bind fun w => Fixes.ite ?_ (fixes_pure _)
  refine (tickSheet_apart h).bind fun expired => ?_
  refine (fixes_modify fun w => World.own_congr (World.entity?_modifyAgent h _)).bind fun _ => ?_
  exact (Fixes.forM fun id => (removeTrait_fixes_own h id).discard).bind fun _ =>
    reevaluateAround_fixes_own (.agent uid) e

theorem tickRelationship_apart {owner target : String} (h : e ≠ .relationship owner target) :
    (tickRelationship owner target).Fixes (·.own e) :=
  (tickSheet_apart h).bind fun _ =>
    (Fixes.forM fun id => (removeTrait_fixes_own h id).discard).bind fun _ =>
      reevaluateAround_fixes_own (.relationship owner target) e

theorem tickAgent_untold (uid : String) : (tickAgent uid).Keeps (Untold s) := by
  refine keeps_get.bind fun w => Ensures.ite (fun _ => ?_) fun _ => keeps_pure _
  refine Keeps.bind (tickSheet_fixes _).face.untold fun expired => ?_
  refine Keeps.bind (changeModifiers_fixes (by intro a; rfl) uid).face.untold fun _ => ?_
  exact Keeps.bind (Keeps.forM fun id => Ensures.discard (removeTrait_untold _ id)) fun _ =>
    (reevaluateAround_fixes (.agent uid)).untold

theorem tickRelationship_untold (owner target : String) :
    (tickRelationship owner target).Keeps (Untold s) :=
  Keeps.bind (tickSheet_fixes _).face.untold fun _ =>
    Keeps.bind (Keeps.forM fun id => Ensures.discard (removeTrait_untold _ id)) fun _ =>
      (reevaluateAround_fixes (.relationship owner target)).untold

end Act

/-! ## All of them, once -/

namespace World

variable {w : World}

/-- The relationships by their names, in order. -/
theorem Linked.entities_eq (h : w.Linked) : w.allRelationships.map Relationship.entity =
    w.relationships.entries.flatMap fun row => row.2.keys.map (Entity.relationship row.1) := by
  rw [allRelationships, Dict.values, List.flatMap_map, List.map_flatMap]
  refine List.flatMap_congr fun row hrow => ?_
  rw [Dict.values, Dict.keys, List.map_map, List.map_map]
  refine List.map_congr_left fun column hcolumn => ?_
  have hr : w.relationship? row.1 column.1 = some column.2 := by
    rw [relationship?, Dict.get?_eq_some_iff.mpr hrow]
    exact Dict.get?_eq_some_iff.mpr hcolumn
  obtain ⟨ho, ht⟩ := h.ends _ _ _ hr
  simp [Relationship.entity, ho, ht]

theorem Linked.nodup_entities (h : w.Linked) :
    (w.allRelationships.map Relationship.entity).Nodup := by
  rw [h.entities_eq, List.nodup_flatMap]
  constructor
  · intro row _
    exact (Dict.nodup_keys row.2).map fun t t' ht => (Entity.relationship.inj ht).2
  · refine w.relationships.sorted.imp fun hlt => List.disjoint_left.mpr fun e he he' => ?_
    obtain ⟨t, -, rfl⟩ := List.mem_map.mp he
    obtain ⟨t', -, heq⟩ := List.mem_map.mp he'
    rw [(Entity.relationship.inj heq).1] at hlt
    exact String.lt_irrefl _ hlt

theorem Linked.mem_entities_iff (h : w.Linked) {owner target : String} :
    .relationship owner target ∈ w.allRelationships.map Relationship.entity ↔
      (w.relationship? owner target).isSome = true := by
  rw [h.entities_eq, List.mem_flatMap]
  constructor
  · rintro ⟨row, hrow, hmem⟩
    obtain ⟨t, ht, heq⟩ := List.mem_map.mp hmem
    obtain ⟨rfl, rfl⟩ := Entity.relationship.inj heq
    rw [relationship?, Dict.get?_eq_some_iff.mpr hrow]
    exact Dict.mem_keys_iff.mp ht
  · intro hr
    obtain ⟨r, hr⟩ := Option.isSome_iff_exists.mp hr
    obtain ⟨targets, ht, hr⟩ := Option.bind_eq_some_iff.mp hr
    refine ⟨(owner, targets), Dict.get?_eq_some_iff.mp ht, List.mem_map_of_mem ?_⟩
    exact Dict.mem_keys_iff.mpr (by simp [Dict.contains, hr])

end World

namespace Act

open World (Counted Awaits)

variable {e : Entity} {p : Place} {L : List Timed}

theorem tickAgent_awaits {uid : String} (h : .agent uid ≠ e) :
    Ensures (Awaits e p L) (tickAgent uid) (fun _ => Awaits e p L) fun _ => True := by
  intro w hw
  refine Leads.imp (Leads.and (ensures_tickAgent steady_linked uid w hw.linked)
    (Leads.and (ensures_tickAgent steady_tidy uid w hw.tidy)
      ((tickAgent_apart (Ne.symm h)).timed p L w hw.timed_eq))) (fun _ _ h => ?_) fun _ _ => trivial
  exact ⟨h.1, h.2.1, h.2.2⟩

theorem tickRelationship_awaits {owner target : String} (h : .relationship owner target ≠ e) :
    Ensures (Awaits e p L) (tickRelationship owner target) (fun _ => Awaits e p L)
      fun _ => True := by
  intro w hw
  refine Leads.imp (Leads.and (ensures_tickRelationship steady_linked owner target w hw.linked)
    (Leads.and (ensures_tickRelationship steady_tidy owner target w hw.tidy)
      ((tickRelationship_apart (Ne.symm h)).timed p L w hw.timed_eq))) (fun _ _ h => ?_) fun _ _ => trivial
  exact ⟨h.1, h.2.1, h.2.2⟩

theorem tickAgent_counted {uid : String} (h : .agent uid ≠ e) :
    Ensures (Counted e p L) (tickAgent uid) (fun _ => Counted e p L) fun _ => True :=
  Ensures.weaken (keeps_counted ((tickAgent_apart (Ne.symm h)).timed p) fun _ =>
    keeps_released (tickAgent_untold uid) (tickAgent_apart (Ne.symm h)).shed) fun _ _ => trivial

theorem tickRelationship_counted {owner target : String} (h : .relationship owner target ≠ e) :
    Ensures (Counted e p L) (tickRelationship owner target) (fun _ => Counted e p L) fun _ => True :=
  Ensures.weaken (keeps_counted ((tickRelationship_apart (Ne.symm h)).timed p) fun _ =>
    keeps_released (tickRelationship_untold owner target)
      (tickRelationship_apart (Ne.symm h)).shed) fun _ _ => trivial

/-- A tick counts down what is at every place. -/
theorem tick_counts (e : Entity) (p : Place) (L : List Timed) :
    Ensures (Awaits e p L) tick (fun _ => Counted e p L) fun _ => True := by
  intro w hw
  refine leads_bind.mpr (leads_get.mpr ?_)
  cases e with
  | agent uid =>
      have hrest : Ensures (Counted (.agent uid) p L)
          (do (← get).allRelationships.forM fun r => tickRelationship r.owner r.target)
          (fun _ => Counted (.agent uid) p L) fun _ => True :=
        Ensures.bind (Q := fun _ => Counted (.agent uid) p L) (ensures_get fun _ h => h) fun _ =>
          ensures_forM_of_mem fun r _ => tickRelationship_counted (by simp)
      by_cases hthere : uid ∈ w.agents.keys
      · have hagents := ensures_forM_once Entity.agent (.agent uid)
          ((Dict.nodup_keys w.agents).map fun _ _ => Entity.agent.inj) (List.mem_map_of_mem hthere)
          (fun u hu => tickAgent_awaits (p := p) (L := L) hu) (fun u hu => tickAgent_counted hu)
          fun u hu => (tickAgent_counts u p L).mono (fun w hw => ⟨hw.tidy, hu ▸ hw.timed_eq⟩)
            fun _ _ h => hu ▸ h
        exact (hagents.bind fun _ => hrest) w hw
      · have hagents : Ensures (Awaits (.agent uid) p L) (w.agents.keys.forM tickAgent)
            (fun _ => Awaits (.agent uid) p L) fun _ => True :=
          ensures_forM_of_mem fun u hu => tickAgent_awaits fun he => hthere (Entity.agent.inj he ▸ hu)
        have hnone : w.sheet? (.agent uid) = none := by
          simpa [World.sheet?, World.agent?, Dict.mem_keys_iff, Dict.contains] using hthere
        exact (hagents.bind fun _ => hrest.mono (fun _ hw' => hw.counted_of_sheet? hnone hw')
          fun _ _ h => h) w hw
  | relationship owner target =>
      have hagents : Ensures (Awaits (.relationship owner target) p L)
          (w.agents.keys.forM tickAgent) (fun _ => Awaits (.relationship owner target) p L)
          fun _ => True :=
        ensures_forM_of_mem fun uid _ => tickAgent_awaits (by simp)
      refine (hagents.bind fun _ w' hw' => leads_bind.mpr (leads_get.mpr ?_)) w hw
      by_cases hthere : (w'.relationship? owner target).isSome = true
      · refine ensures_forM_once Relationship.entity (.relationship owner target)
          hw'.linked.nodup_entities (hw'.linked.mem_entities_iff.mpr hthere)
          (fun r hr => tickRelationship_awaits hr) (fun r hr => tickRelationship_counted hr)
          (fun r hr => ?_) w' hw'
        obtain ⟨rfl, rfl⟩ := Entity.relationship.inj hr
        exact (tickRelationship_counts r.owner r.target p L).mono
          (fun w hw => ⟨hw.tidy, hw.timed_eq⟩) fun _ _ h => h
      · have hothers : Ensures (Awaits (.relationship owner target) p L)
            (w'.allRelationships.forM fun r => tickRelationship r.owner r.target)
            (fun _ => Awaits (.relationship owner target) p L) fun _ => True := by
          refine ensures_forM_of_mem fun r hr => tickRelationship_awaits fun he => hthere ?_
          exact hw'.linked.mem_entities_iff.mp (he ▸ List.mem_map_of_mem hr)
        have hnone : w'.sheet? (.relationship owner target) = none := by
          simpa [World.sheet?] using hthere
        exact Leads.imp (hothers w' hw') (fun _ _ h => hw'.counted_of_sheet? hnone h)
          fun _ _ => trivial

end Act

end Society
