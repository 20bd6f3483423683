import Society.Proofs.World.Invariant

/-!
# The ledger of modifiers

Every act keeps all entities balanced, whether or not it fails.
-/

namespace Society

namespace Relationship

theorem isEvaluated_of_mem_activeSources {r : Relationship} {source : ModifierSource}
    (h : source ∈ r.activeSources) : source.isEvaluated = true := by
  rcases List.mem_append.mp h with h | h
  · obtain ⟨rule, -, rfl⟩ := List.mem_map.mp h; rfl
  · obtain ⟨id, -, rfl⟩ := List.mem_map.mp h; rfl

/-- An influence that is listed is active, and so is what was active before. -/
theorem mem_activeSources_of_listed {r : Relationship} {owner target : String} {source : ModifierSource}
    (i : Influence) (h : source ∈ i.source :: r.activeSources) :
    source ∈ activeSources { r with
      activeRules := r.activeRules ++ (i.asRule? owner target).toList
      activeModifiers := r.activeModifiers ++ i.asModifier?.toList } := by
  simp only [activeSources, List.map_append, List.mem_append, List.mem_cons] at h ⊢
  rcases h with rfl | h | h
  · cases i with
    | rule x => simp [Influence.source, Influence.asRule?, SocialRule.entry]
    | modifier x => simp [Influence.source, Influence.asModifier?]
  · exact .inl (.inl h)
  · exact .inr (.inl h)

end Relationship

namespace Act

open World (Balanced BalancedBut balancedBut_iff ofEntities_balanced ofEntities_balancedBut)

/-- Keeping the balance may be shown on the page of any entity. -/
theorem keeps_iff_page {α : Type} {x : Act α} (e : Entity) :
    x.Keeps Balanced ↔
      Ensures (BalancedBut e Sheet.Balanced) x (fun _ => BalancedBut e Sheet.Balanced) Balanced := by
  constructor
  · exact fun h => h.mono (fun _ hw => balancedBut_iff.mp hw) fun _ _ hw => balancedBut_iff.mpr hw
  · exact fun h => h.mono (fun _ hw => balancedBut_iff.mpr hw) fun _ _ hw => balancedBut_iff.mp hw

/-! ## Evaluating -/

theorem forgetActive_keeps (owner target : String) : (forgetActive owner target).Keeps Balanced := by
  refine (keeps_iff_page (.relationship owner target)).mpr (requireRelationship_page.bind fun r => ?_)
  -- what was active is no longer listed, but still attached
  refine Ensures.bind (modifyRelationship_page
    (R := fun s active => s.Balanced r.activeSources ∧ active = []) ?_) fun _ => changeStats_page ?_
  · rintro r' ⟨ha, hb⟩
    exact ⟨ha ▸ hb, rfl⟩
  · rintro s active ⟨hb, rfl⟩
    exact hb.removeFromAll fun _ hs => Relationship.isEvaluated_of_mem_activeSources hs

/-- Attaching modifiers to a relationship and listing their source. -/
theorem attach_listed_keeps {owner target : String} (source : ModifierSource)
    (hs : source.isEvaluated = true) {f : Relationship → Relationship}
    (hsheet : ∀ r, (f r).sheet = r.sheet)
    (hlist : ∀ r, ∀ s ∈ source :: r.activeSources, s ∈ (f r).activeSources)
    (specs : List ModifierSpec) :
    Keeps Balanced (do
      attach (.relationship owner target) source specs
      modify fun w => w.modifyRelationship owner target f) := by
  refine (keeps_iff_page (.relationship owner target)).mpr ?_
  refine Ensures.bind (attach_page (R := fun s active => s.Balanced (source :: active))
    (fun _ _ h _ => h) ?_) fun _ => modifyRelationship_page ?_
  · intro s active ms hb _ hms
    refine (hb.mono fun _ hmem => List.mem_cons_of_mem source hmem).attach_other source
      (fun m hm => hms.source_eq hm) ?_ fun _ => List.mem_cons_self
    rintro id rfl
    cases hs
  · intro r hb
    rw [hsheet r]
    exact hb.mono (hlist r)

theorem applyInfluence_keeps (owner target : String) (i : Influence) :
    (applyInfluence owner target i).Keeps Balanced := by
  refine (preconditionsHold_keeps owner target _).bind fun _ => Ensures.ite (fun _ => ?_) fun _ =>
    keeps_pure _
  exact attach_listed_keeps i.source i.isEvaluated_source (by intro r; rfl)
    (fun _ _ hs => Relationship.mem_activeSources_of_listed i hs) _

theorem reevaluate_keeps (owner target : String) : (reevaluate owner target).Keeps Balanced :=
  reevaluate_keeps_of (forgetActive_keeps owner target) (applyInfluence_keeps owner target)

theorem reevaluateAround_keeps (e : Entity) : (reevaluateAround e).Keeps Balanced :=
  reevaluateAround_keeps_of reevaluate_keeps e

/-! ## Traits -/

/-- A trait is written on the sheet before its modifiers are attached; in between they are owed. -/
theorem addTrait_keeps (e : Entity) (id : String) (duration : Int) (description : Option String) :
    (addTrait e id duration description).Keeps Balanced := by
  refine (requireTraitFor_keeps _ _).bind fun t => (keeps_iff_page e).mpr ?_
  refine requireSheet_page.bind fun sheet => ?_
  refine Ensures.ite (fun _ => ensures_pure fun w hw => hw.mono fun _ _ h => h.2) fun hadd => ?_
  have hdue : sheet.traits.due t.id = [] := by
    refine HeldTraits.due_of_not_contains ?_
    simp only [HeldTraits.canAdd, Bool.not_eq_true', Bool.not_eq_false, Bool.and_eq_true] at hadd
    exact hadd.1
  refine Ensures.bind (requireStats_page fun _ _ h _ => h.2) fun _ => ?_
  refine Ensures.bind ((insertFact_keeps (ofEntities_balancedBut e _) _).ensures
    fun w hw => hw.balanced fun _ _ h => h.1.2) fun _ => ?_
  refine Ensures.bind (changeTraits_page (R := fun s active => s.stats.missing? t.modifiers = none ∧
    s.stats.Accounted sheet.traits.due active ∧
      s.traits.due = fun id => if id = t.id then t.modifiers else sheet.traits.due id) ?_) fun _ => ?_
  · rintro _ active ⟨⟨rfl, hb⟩, hm⟩
    exact ⟨hm, hb, HeldTraits.due_hold _ _ _ _⟩
  refine Ensures.bind (attach_page (R := Sheet.Balanced) ?_ ?_) fun _ => ?_
  · exact fun _ _ h hm => absurd h.1 hm
  · rintro s active ms ⟨hm, ha, hd⟩ - hms
    have hall := ha.attach_trait hdue hm hms
    rwa [← hd] at hall
  exact ((keeps_iff_page e).mp (reevaluateAround_keeps e)).bind fun _ => ensures_pure fun _ hw => hw

/-- A trait is taken from the sheet before its modifiers are; in between they are too many. -/
theorem removeTrait_keeps (e : Entity) (id : String) : (removeTrait e id).Keeps Balanced := by
  refine (keeps_iff_page e).mpr (requireSheet_page.bind fun sheet => ?_)
  refine Ensures.ite (fun _ => ensures_pure fun w hw => hw.mono fun _ _ h => h.2) fun _ => ?_
  refine Ensures.bind (changeTraits_page (R := fun s active =>
    s.stats.Accounted sheet.traits.due active ∧
      s.traits.due = fun id' => if id' = id then [] else sheet.traits.due id') ?_) fun _ => ?_
  · rintro _ active ⟨rfl, hb⟩
    exact ⟨hb, HeldTraits.due_erase _ _⟩
  refine Ensures.bind (changeStats_page (R := Sheet.Balanced) ?_) fun _ => ?_
  · rintro s active ⟨ha, hd⟩
    have hall := ha.removeFrom_trait id
    rwa [← hd] at hall
  have hclear : (clearKind e id).Keeps Balanced := clearKind_keeps e id
    (fun w owner target _ hw => hw.modifyRelationship (by intro r; exact ⟨rfl, rfl⟩) owner target)
    (retract_keeps ofEntities_balanced)
  refine (keeps_iff_page e).mp (hclear.bind fun _ => ?_)
  exact Keeps.bind (Ensures.discard (retract_keeps ofEntities_balanced _)) fun _ =>
    (reevaluateAround_keeps e).bind fun _ => keeps_pure _

/-! ## Time and effects -/

theorem tickSheet_keeps (e : Entity) : (tickSheet e).Keeps Balanced := by
  refine (keeps_iff_page e).mpr (Ensures.bind (changeTraits_page (R := Sheet.Balanced) ?_) fun _ => ?_)
  · intro s active hb
    simpa [Sheet.Balanced] using hb
  refine requireSheet_page.bind fun s => Ensures.bind (changeStats_page ?_) fun _ =>
    ensures_pure fun _ hw => hw
  exact fun s active h => h.2.tick

theorem increment_keeps (e : Entity) (stat : String) (delta : Float) :
    (Effect.increment e stat delta).apply.Keeps Balanced := by
  refine (keeps_iff_page e).mpr (requireSheet_page.bind fun s => ?_)
  refine Ensures.bind ((keeps_orElse _ _).ensures fun w hw => hw.balanced fun _ _ h => h.2)
    fun _ => ?_
  refine Ensures.bind (changeStats_page (R := Sheet.Balanced) fun s active h => ?_) fun _ =>
    ensures_pure fun _ hw => hw
  exact Stats.Accounted.congr h.2 (Stats.contains_change _ _ · _)
    (Stats.modifiersOn_change_eq fun _ => rfl)

theorem buff_keeps (effect : String) (e : Entity) (stat : String) (amount : Float) (duration : Int) :
    (Effect.buff effect e stat amount duration).apply.Keeps Balanced := by
  refine (keeps_iff_page e).mpr (requireSheet_page.bind fun s => ?_)
  refine Ensures.bind (Ensures.discard (R := fun _ => BalancedBut e fun s' active =>
    s' = s ∧ s'.Balanced active) ((keeps_orElse _ _).ensures ?_)) fun _ => ?_
  · exact fun w hw => hw.balanced fun _ _ h => h.2
  refine Ensures.bind (freshId_ensures (ofEntities_balancedBut e _)) fun id =>
    changeStats_page fun s active h => ?_
  refine Stats.Accounted.attach_other h.2 (.effect effect) ?_ ?_ ?_
  · simp [ModifierSpec.instance]
  · simp
  · intro he; cases he

theorem invariant_balanced : Invariant Balanced where
  of_entities := ofEntities_balanced
  of_no_entities _ := World.balanced_of_no_entities
  modifyAgent _ uid _ hf hw := hw.modifyAgent hf uid
  modifyKind _ owner target _ hw :=
    hw.modifyRelationship (by intro r; exact ⟨rfl, rfl⟩) owner target
  setAgent _ uid _ stats hw := hw.setAgent uid (Stats.Accounted.ofSchemas stats)
  setRelationship _ owner target stats hw :=
    hw.setRelationship owner target (Stats.Accounted.ofSchemas stats)
  eraseAgent _ uid hw := hw.eraseAgent uid
  eraseRelationship _ owner target hw := hw.eraseRelationship owner target
  reevaluate := reevaluate_keeps
  addTrait := addTrait_keeps
  removeTrait := removeTrait_keeps
  tickSheet := tickSheet_keeps
  buff := buff_keeps
  increment := increment_keeps

end Act

namespace World

theorem Reachable.balanced {w : World} (h : w.Reachable) : w.Balanced :=
  Act.invariant_balanced.of_reachable h

/-- What the modifiers in a world are there for: those from a trait are one instance of each
modifier that its holder is owed, on the stat that it names, and there is no other one from a trait;
those from a rule or a relationship modifier are on relationships that list it as active. -/
structure Ledger (w : World) : Prop where
  held : ∀ e s id h, w.sheet? e = some s → s.traits.get? id = some h →
    (∀ spec ∈ h.definition.modifiers, s.stats.contains spec.stat = true) ∧
      ∀ name, (s.stats.specsFrom (.trait id) name).Perm
        (h.definition.modifiers.filter fun spec => spec.stat = name)
  eq_instance : ∀ e s name m id, w.sheet? e = some s → m ∈ s.stats.modifiersOn name →
    m.source = some (.trait id) → m = m.toModifierSpec.instance m.id (some (.trait id))
  not_held : ∀ e s id, w.sheet? e = some s → s.traits.contains id = false →
    ∀ name, ∀ m ∈ s.stats.modifiersOn name, m.source ≠ some (.trait id)
  active_rule : ∀ owner target r, w.relationship? owner target = some r →
    ∀ name, ∀ m ∈ r.sheet.stats.modifiersOn name, ∀ id, m.source = some (.rule id) →
      ∃ rule ∈ r.activeRules, rule.id = id
  active_modifier : ∀ owner target r, w.relationship? owner target = some r →
    ∀ name, ∀ m ∈ r.sheet.stats.modifiersOn name, ∀ id,
      m.source = some (.relationshipModifier id) → id ∈ r.activeModifiers
  agent_source : ∀ uid a, w.agent? uid = some a → ∀ name, ∀ m ∈ a.sheet.stats.modifiersOn name,
    (∀ id, m.source ≠ some (.rule id)) ∧ ∀ id, m.source ≠ some (.relationshipModifier id)

/-- The ledger holds in every world that commands lead to, however they end. -/
theorem Reachable.ledger {w : World} (h : w.Reachable) : w.Ledger := by
  have hsheet : ∀ e s, w.sheet? e = some s → ∃ active, s.Balanced active := by
    intro e s hs
    rw [sheet?_eq] at hs
    obtain ⟨⟨s', active⟩, hp, rfl⟩ := Option.map_eq_some_iff.mp hs
    exact ⟨active, h.balanced e _ active hp⟩
  have hrel : ∀ owner target r, w.relationship? owner target = some r →
      r.sheet.Balanced r.activeSources := by
    intro owner target r hr
    exact h.balanced (.relationship owner target) _ _ (by simp [page?, hr])
  constructor
  case held =>
    intro e s id t hs ht
    obtain ⟨active, hb⟩ := hsheet e s hs
    rw [← HeldTraits.due_of_get? ht]
    exact ⟨hb.has_stat id, hb.specs_perm id⟩
  case eq_instance =>
    intro e s name m id hs hm hsource
    obtain ⟨active, hb⟩ := hsheet e s hs
    rw [← hsource]
    exact hb.eq_instance name m hm id hsource
  case not_held =>
    intro e s id hs hid name m hm hsource
    obtain ⟨active, hb⟩ := hsheet e s hs
    have hnone : s.stats.specsFrom (.trait id) name = [] := by
      simpa [HeldTraits.due_of_not_contains hid] using hb.specs_perm id name
    simp only [Stats.specsFrom, List.map_eq_nil_iff, List.filter_eq_nil_iff] at hnone
    exact hnone m hm (StatModifier.isFrom_iff.mpr hsource)
  case active_rule =>
    intro owner target r hr name m hm id hsource
    have hmem := (hrel owner target r hr).evaluated name m hm _ hsource rfl
    simpa [Relationship.activeSources] using hmem
  case active_modifier =>
    intro owner target r hr name m hm id hsource
    have hmem := (hrel owner target r hr).evaluated name m hm _ hsource rfl
    simpa [Relationship.activeSources] using hmem
  case agent_source =>
    intro uid a ha name m hm
    have hb : a.sheet.Balanced [] := h.balanced (.agent uid) _ _ (by simp [page?, ha])
    constructor
    · intro id hsource
      cases hb.evaluated name m hm _ hsource rfl
    · intro id hsource
      cases hb.evaluated name m hm _ hsource rfl

/-- Of two soldiers, brave by their type, and of a rule for their relationship. -/
theorem ledger_of_comrades :
    ∃ w : World, w.Reachable ∧ w.Ledger ∧
      (w.sheet? (.agent "ann")).map (fun s =>
        (s.stats.specsFrom (.trait "brave") "courage").map (·.kind)) = some [.flat] ∧
      (w.relationship? "ann" "bob").map (fun r =>
        (r.activeRules.map (·.id),
          (r.sheet.stats.specsFrom (.rule "comrades") "trust").map (·.kind))) =
        some (["comrades"], [.percentAdd]) := by
  have hw : World.Reachable ([
      Command.addTrait ⟨"brave", .agent, "Brave", "", [⟨"courage", 5, .flat⟩], ∅⟩,
      .addAgentSchema ⟨"soldier", [⟨"courage", 0, Stat.wideBounds⟩], ["brave"]⟩,
      .addRelationshipSchema ⟨"soldier", "soldier", [⟨"trust", 0, Stat.wideBounds⟩], []⟩,
      .addRule ⟨"comrades", "", [], [⟨"trust", 1, .percentAdd⟩]⟩,
      .addAgent "soldier" "ann", .addAgent "soldier" "bob",
      .addRelationship "ann" "bob"].foldl World.after ∅) :=
    Reachable.empty.run _
  exact ⟨_, hw, hw.ledger, by decide +kernel, by decide +kernel⟩

end World

end Society
