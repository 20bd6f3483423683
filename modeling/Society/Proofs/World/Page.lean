import Society.Proofs.Sheet.Balance
import Society.Proofs.World.Act
import Society.World.Command

/-!
# Pages of a world

A page is what the balance of an entity is about: its sheet, and the sources that are active for it.
Acts work on one entity at a time, so what they do is told by the page of that entity while all others
stay balanced.
-/

namespace Society

namespace World

/-- The sheet of an entity, and the sources that the last evaluation attached there. -/
def page? (w : World) : Entity → Option (Sheet × List ModifierSource)
  | .agent uid => (w.agent? uid).map fun a => (a.sheet, [])
  | .relationship owner target =>
    (w.relationship? owner target).map fun r => (r.sheet, r.activeSources)

def Balanced (w : World) : Prop :=
  ∀ e s active, w.page? e = some (s, active) → s.Balanced active

/-- All entities but one are balanced, and of its page something else is known. -/
def BalancedBut (e : Entity) (Q : Sheet → List ModifierSource → Prop) (w : World) : Prop :=
  (∀ e' s active, e' ≠ e → w.page? e' = some (s, active) → s.Balanced active) ∧
    ∀ s active, w.page? e = some (s, active) → Q s active

/-- What is known of a world from its agents and relationships alone. -/
def OfEntities (P : World → Prop) : Prop :=
  ∀ w w' : World, w'.agents = w.agents → w'.relationships = w.relationships → P w → P w'

variable {w : World}

theorem Reachable.run {w : World} (h : w.Reachable) (commands : List Command) :
    (commands.foldl World.after w).Reachable := by
  induction commands generalizing w with
  | nil => exact h
  | cons c commands ih => exact ih (h.step c)

theorem sheet?_eq (w : World) (e : Entity) : w.sheet? e = (w.page? e).map (·.1) := by
  cases e <;> simp [sheet?, page?, Function.comp_def]

theorem sheet?_congr {w' : World} (ha : w'.agents = w.agents)
    (hr : w'.relationships = w.relationships) (e : Entity) : w'.sheet? e = w.sheet? e := by
  cases e <;> simp [sheet?, agent?, relationship?, ha, hr]

theorem page?_eq_none_of_sheet? {e : Entity} (h : w.sheet? e = none) : w.page? e = none := by
  simpa [sheet?_eq] using h

/-! ## Look-ups of agents and relationships -/

theorem agent?_modifyAgent (w : World) (uid uid' : String) (f : Agent → Agent) :
    (w.modifyAgent uid f).agent? uid' =
      if uid' = uid then (w.agent? uid).map f else w.agent? uid' :=
  Dict.get?_modify _ _ _ _

theorem relationship?_modifyRelationship (w : World) (owner target owner' target' : String)
    (f : Relationship → Relationship) :
    (w.modifyRelationship owner target f).relationship? owner' target' =
      if owner' = owner ∧ target' = target then (w.relationship? owner target).map f
      else w.relationship? owner' target' := by
  simp only [modifyRelationship, relationship?, Dict.get?_modify]
  by_cases ho : owner' = owner
  · subst ho
    cases w.relationships.get? owner' with
    | none => simp
    | some targets => simp [Dict.get?_modify]
  · simp [ho]

theorem relationship?_setRelationship (w : World) (owner target owner' target' : String)
    (r : Relationship) :
    (w.setRelationship owner target r).relationship? owner' target' =
      if owner' = owner ∧ target' = target then some r else w.relationship? owner' target' := by
  simp only [setRelationship, relationship?, Dict.get?_insert]
  by_cases ho : owner' = owner
  · subst ho
    cases w.relationships.get? owner' <;> simp [Dict.get?_insert]
  · simp [ho]

theorem agents_eraseRelationship (w : World) (owner target : String) :
    (w.eraseRelationship owner target).agents = w.agents := by
  unfold eraseRelationship
  split <;> rfl

theorem relationship?_eraseRelationship (w : World) (owner target owner' target' : String) :
    (w.eraseRelationship owner target).relationship? owner' target' =
      if owner' = owner ∧ target' = target then none else w.relationship? owner' target' := by
  unfold eraseRelationship
  split
  · rename_i hnone
    split
    · rename_i heq
      simp [relationship?, heq.1, hnone]
    · rfl
  · rename_i targets ht
    have hleft : (targets.erase target).isEmpty = true →
        ∀ k, (if k = target then none else targets.get? k) = none := by
      intro hempty k
      rw [← Dict.get?_erase, Dict.get?, List.isEmpty_iff.mp hempty]
      rfl
    simp only [relationship?]
    by_cases ho : owner' = owner
    · subst ho
      split
      · rename_i hempty
        have hk := hleft hempty target'
        simpa [Dict.get?_erase, ht] using hk.symm
      · simp [Dict.get?_insert, Dict.get?_erase, ht]
    · split <;> simp [Dict.get?_insert, Dict.get?_erase, ho]

theorem relationship?_of_eraseRelationship {owner target owner' target' : String} {r : Relationship}
    (h : (w.eraseRelationship owner target).relationship? owner' target' = some r) :
    w.relationship? owner' target' = some r := by
  rw [relationship?_eraseRelationship] at h
  split at h
  · cases h
  · exact h

theorem page?_setSheet (w : World) (sheet : Sheet) (e e' : Entity) :
    (w.setSheet sheet e).page? e' =
      if e' = e then (w.page? e).map fun page => (sheet, page.2) else w.page? e' := by
  cases e with
  | agent uid =>
      cases e' with
      | agent uid' =>
          simp only [setSheet, page?, agent?_modifyAgent, Entity.agent.injEq]
          split
          · cases w.agent? uid <;> rfl
          · rfl
      | relationship owner' target' => simp [setSheet, page?, relationship?, modifyAgent]
  | relationship owner target =>
      cases e' with
      | agent uid' => simp [setSheet, page?, agent?, modifyRelationship]
      | relationship owner' target' =>
          simp only [setSheet, page?, relationship?_modifyRelationship, Entity.relationship.injEq]
          split
          · cases w.relationship? owner target <;> rfl
          · rfl

/-! ## Look-ups of sheets -/

theorem sheet?_setSheet_apply {s : Sheet} {e : Entity} (hs : w.sheet? e = some s) (new : Sheet)
    (e' : Entity) : (w.setSheet new e).sheet? e' = if e' = e then some new else w.sheet? e' := by
  rw [sheet?_eq] at hs
  obtain ⟨page, hp, -⟩ := Option.map_eq_some_iff.mp hs
  rw [sheet?_eq, page?_setSheet, hp, sheet?_eq]
  split <;> rfl

theorem sheet?_modifyAgent {f : Agent → Agent} (hf : ∀ a, (f a).sheet = a.sheet) (w : World)
    (uid : String) (e : Entity) : (w.modifyAgent uid f).sheet? e = w.sheet? e := by
  cases e with
  | relationship owner target => rfl
  | agent u =>
      simp only [sheet?, agent?_modifyAgent]
      split
      · rename_i hu
        simp [hu, hf, Function.comp_def]
      · rfl

theorem sheet?_modifyRelationship {f : Relationship → Relationship}
    (hf : ∀ r, (f r).sheet = r.sheet) (w : World) (owner target : String) (e : Entity) :
    (w.modifyRelationship owner target f).sheet? e = w.sheet? e := by
  cases e with
  | agent u => rfl
  | relationship o t =>
      simp only [sheet?, relationship?_modifyRelationship]
      split
      · rename_i hot
        simp [hot, hf, Function.comp_def]
      · rfl

theorem sheet?_setAgent (w : World) (uid : String) (a : Agent) (e : Entity) :
    (w.setAgent uid a).sheet? e = if e = .agent uid then some a.sheet else w.sheet? e := by
  cases e with
  | relationship owner target => rfl
  | agent u =>
      simp only [sheet?, setAgent, agent?, Dict.get?_insert, Entity.agent.injEq]
      split <;> rfl

theorem sheet?_eraseAgent (w : World) (uid : String) (e : Entity) :
    sheet? { w with agents := w.agents.erase uid } e =
      if e = .agent uid then none else w.sheet? e := by
  cases e with
  | relationship owner target => rfl
  | agent u =>
      simp only [sheet?, agent?, Dict.get?_erase, Entity.agent.injEq]
      split <;> rfl

theorem sheet?_setRelationship (w : World) (owner target : String) (r : Relationship)
    (e : Entity) : (w.setRelationship owner target r).sheet? e =
      if e = .relationship owner target then some r.sheet else w.sheet? e := by
  cases e with
  | agent u => rfl
  | relationship o t =>
      simp only [sheet?, relationship?_setRelationship, Entity.relationship.injEq]
      split <;> rfl

theorem sheet?_eraseRelationship (w : World) (owner target : String) (e : Entity) :
    (w.eraseRelationship owner target).sheet? e =
      if e = .relationship owner target then none else w.sheet? e := by
  cases e with
  | agent u => simp [sheet?, agent?, agents_eraseRelationship]
  | relationship o t =>
      simp only [sheet?, relationship?_eraseRelationship, Entity.relationship.injEq]
      split <;> rfl

/-! ## Balance -/

theorem ofEntities_balancedBut (e : Entity) (Q : Sheet → List ModifierSource → Prop) :
    OfEntities (BalancedBut e Q) := by
  intro w w' ha hr h
  have hpage : ∀ e, w'.page? e = w.page? e := by
    intro e
    cases e <;> simp [page?, agent?, relationship?, ha, hr]
  simpa only [BalancedBut, hpage] using h

theorem balancedBut_iff {e : Entity} : w.BalancedBut e Sheet.Balanced ↔ w.Balanced := by
  constructor
  · rintro ⟨hother, he⟩ e' s active hp
    by_cases hee : e' = e
    · subst hee; exact he s active hp
    · exact hother e' s active hee hp
  · exact fun h => ⟨fun e' s active _ hp => h e' s active hp, h e⟩

theorem ofEntities_balanced : OfEntities Balanced := by
  intro w w' ha hr h
  have hbut := ofEntities_balancedBut (.agent "") Sheet.Balanced w w' ha hr (balancedBut_iff.mpr h)
  exact balancedBut_iff.mp hbut

variable {e : Entity} {Q Q' : Sheet → List ModifierSource → Prop}

theorem BalancedBut.mono (h : w.BalancedBut e Q) (hQ : ∀ s active, Q s active → Q' s active) :
    w.BalancedBut e Q' :=
  ⟨h.1, fun s active hp => hQ s active (h.2 s active hp)⟩

theorem BalancedBut.balanced (h : w.BalancedBut e Q) (hQ : ∀ s active, Q s active → s.Balanced active) :
    w.Balanced :=
  balancedBut_iff.mp (h.mono hQ)

/-- Of an entity that is not there anything is true. -/
theorem BalancedBut.of_sheet?_eq_none (h : w.BalancedBut e Q) (hn : w.sheet? e = none) :
    w.BalancedBut e Q' :=
  ⟨h.1, fun s active hp => by rw [page?_eq_none_of_sheet? hn] at hp; cases hp⟩

theorem BalancedBut.setSheet {new : Sheet} (h : w.BalancedBut e Q)
    (hQ : ∀ old active, Q old active → Q' new active) : (w.setSheet new e).BalancedBut e Q' := by
  constructor
  · intro e' s active hne hp
    rw [page?_setSheet, if_neg hne] at hp
    exact h.1 e' s active hne hp
  · intro s active hp
    rw [page?_setSheet, if_pos rfl] at hp
    obtain ⟨⟨old, active'⟩, hp', heq⟩ := Option.map_eq_some_iff.mp hp
    obtain ⟨rfl, rfl⟩ := Prod.mk.inj heq
    exact hQ old active' (h.2 old active' hp')

theorem BalancedBut.modifyRelationship {owner target : String} {f : Relationship → Relationship}
    (h : w.BalancedBut (.relationship owner target) Q)
    (hQ : ∀ r, Q r.sheet r.activeSources → Q' (f r).sheet (f r).activeSources) :
    (w.modifyRelationship owner target f).BalancedBut (.relationship owner target) Q' := by
  constructor
  · intro e' s active hne hp
    refine h.1 e' s active hne ?_
    cases e' with
    | agent uid => exact hp
    | relationship owner' target' =>
        have hot : ¬ (owner' = owner ∧ target' = target) := by simpa using hne
        rwa [page?, relationship?_modifyRelationship, if_neg hot] at hp
  · intro s active hp
    rw [page?, relationship?_modifyRelationship, if_pos ⟨rfl, rfl⟩, Option.map_map] at hp
    obtain ⟨r, hr, heq⟩ := Option.map_eq_some_iff.mp hp
    obtain ⟨rfl, rfl⟩ := Prod.mk.inj heq
    exact hQ r (h.2 _ _ (by simp [page?, hr]))

/-! ## Changes that keep the balance -/

theorem Balanced.modifyAgent {w : World} (h : w.Balanced) {f : Agent → Agent}
    (hf : ∀ a, (f a).sheet = a.sheet) (uid : String) : (w.modifyAgent uid f).Balanced := by
  intro e s active hp
  refine h e s active ?_
  cases e with
  | relationship owner target => exact hp
  | agent uid' =>
      rw [← hp, page?, page?, agent?_modifyAgent]
      split
      · rename_i hu
        rw [hu]
        cases w.agent? uid <;> simp [hf]
      · rfl

theorem Balanced.modifyRelationship {w : World} (h : w.Balanced) {f : Relationship → Relationship}
    (hf : ∀ r, (f r).sheet = r.sheet ∧ (f r).activeSources = r.activeSources)
    (owner target : String) : (w.modifyRelationship owner target f).Balanced :=
  balancedBut_iff.mp ((balancedBut_iff.mpr h).modifyRelationship fun r hr => by
    rw [(hf r).1, (hf r).2]; exact hr)

theorem Balanced.setAgent {w : World} (h : w.Balanced) (uid : String) {a : Agent}
    (ha : a.sheet.Balanced []) : (w.setAgent uid a).Balanced := by
  intro e s active hp
  cases e with
  | relationship owner target => exact h (.relationship owner target) s active hp
  | agent uid' =>
      simp only [page?, World.setAgent, agent?, Dict.get?_insert] at hp
      split at hp
      · obtain ⟨rfl, rfl⟩ := Prod.mk.inj (Option.some.inj hp)
        exact ha
      · exact h (.agent uid') s active hp

theorem Balanced.setRelationship {w : World} (h : w.Balanced) (owner target : String)
    {r : Relationship} (hr : r.sheet.Balanced r.activeSources) :
    (w.setRelationship owner target r).Balanced := by
  intro e s active hp
  cases e with
  | agent uid => exact h (.agent uid) s active hp
  | relationship owner' target' =>
      rw [page?, relationship?_setRelationship] at hp
      split at hp
      · obtain ⟨rfl, rfl⟩ := Prod.mk.inj (Option.some.inj hp)
        exact hr
      · exact h (.relationship owner' target') s active hp

theorem Balanced.eraseRelationship {w : World} (h : w.Balanced) (owner target : String) :
    (w.eraseRelationship owner target).Balanced := by
  intro e s active hp
  cases e with
  | agent uid =>
      refine h (.agent uid) s active (hp ▸ ?_)
      simp [page?, agent?, agents_eraseRelationship]
  | relationship owner' target' =>
      obtain ⟨r, hr, heq⟩ := Option.map_eq_some_iff.mp hp
      refine h (.relationship owner' target') s active ?_
      rw [page?, relationship?_of_eraseRelationship hr]
      exact congrArg some heq

theorem Balanced.eraseAgent {w : World} (h : w.Balanced) (uid : String) :
    Balanced { w with agents := w.agents.erase uid } := by
  intro e s active hp
  cases e with
  | relationship owner target => exact h (.relationship owner target) s active hp
  | agent uid' =>
      obtain ⟨a, ha, heq⟩ := Option.map_eq_some_iff.mp hp
      simp only [agent?, Dict.get?_erase] at ha
      split at ha
      · cases ha
      · exact h (.agent uid') s active (by rw [page?, agent?, ha]; exact congrArg some heq)

theorem balanced_of_no_entities {w : World} (ha : w.agents = ∅) (hr : w.relationships = ∅) :
    w.Balanced := by
  intro e s active hp
  cases e <;> simp [page?, agent?, relationship?, ha, hr] at hp

end World

end Society
