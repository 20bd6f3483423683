import Society.Proofs.World.Tidy

/-!
# Types that are held

The type of a relationship is a trait that it holds, so that the type goes when the trait goes. But a
type is recorded before its trait is added, and stays recorded if the trait is refused then. Nothing
else parts the two.
-/

namespace Society

/-- The type of an entity is a trait that it holds. -/
def HeldTraits.HoldsKind (held : HeldTraits) (kind : Option String) : Prop :=
  ∀ id, kind = some id → held.contains id = true

theorem HeldTraits.stable_holdsKind : Stable fun _ held kind => HoldsKind held kind where
  timeless _ held held' kind hout h id hk := by
    have hheld := h id hk
    have hget := congrArg (·.get? id) hout
    simp only [Dict.get?_map] at hget
    cases hthere : held.get? id with
    | none => simp [Dict.contains, hthere] at hheld
    | some there =>
        rw [hthere] at hget
        obtain ⟨there', hthere', -⟩ := Option.map_eq_some_iff.mp hget
        simp [Dict.contains, hthere']
  empty _ := nofun
  hold _ held kind t text duration h _ _ id hk := by
    have hheld := h id hk
    simp [HeldTraits.hold, Dict.contains_insert, hheld]
  erase _ held kind id h id' hk := by
    obtain ⟨hk, hne⟩ := Option.filter_eq_some_iff.mp hk
    have hheld := h id' hk
    simpa [Dict.contains_erase, hheld] using hne

namespace World

/-- The type of every relationship is a trait that it holds. -/
def Typed (w : World) : Prop :=
  ∀ owner target r id, w.relationship? owner target = some r → r.kind = some id →
    r.sheet.traits.contains id = true

variable {w w' : World} {owner target id : String} {t : Trait} {r : Relationship}

theorem typed_eq : Typed = Upholds (fun _ => True) fun _ held kind => held.HoldsKind kind := by
  funext w
  apply propext
  constructor
  · intro h
    refine ⟨trivial, fun e s hs id hk => ?_⟩
    cases e with
    | agent uid => cases hk
    | relationship owner target =>
        obtain ⟨r, hr, rfl⟩ := Option.map_eq_some_iff.mp hs
        simp only [kind?, hr] at hk
        exact h owner target r id hr hk
  · intro h owner target r id hr hk
    apply h.traits (.relationship owner target) r.sheet
    · simp [sheet?, hr]
    · simpa [kind?, hr] using hk

theorem typed_of_outline (h : w'.outline = w.outline) : w'.Typed ↔ w.Typed := by
  have hT := HeldTraits.stable_holdsKind.timeless
  rw [typed_eq]
  constructor
  · intro hw'
    exact hw'.of_face hT (face_eq_of_outline_eq h.symm)
  · intro hw
    exact hw.of_face hT (face_eq_of_outline_eq h)

/-- A type is recorded, and the facts become these. -/
def retype (w : World) (owner target id : String) (facts : FactDatabase) : World :=
  { w.modifyRelationship owner target fun r => { r with kind := some id } with facts }

theorem sheet?_retype (w : World) (owner target id : String) (facts : FactDatabase) (e : Entity) :
    (w.retype owner target id facts).sheet? e = w.sheet? e :=
  (sheet?_modifyRelationship (by intro r; rfl) w owner target e)

/-- When a type is recorded, it depends on this relationship alone whether all types are held. -/
theorem Typed.retype_iff (h : w.Typed) (hr : w.relationship? owner target = some r) (id : String)
    (facts : FactDatabase) :
    (w.retype owner target id facts).Typed ↔ r.sheet.traits.contains id = true := by
  have hrelationship : ∀ o t, (w.retype owner target id facts).relationship? o t =
      if o = owner ∧ t = target then some { r with kind := some id } else w.relationship? o t := by
    intro o t
    refine (relationship?_modifyRelationship w owner target o t _).trans ?_
    rw [hr]
    rfl
  constructor
  · intro hall
    have hthere := hrelationship owner target
    rw [if_pos ⟨rfl, rfl⟩] at hthere
    exact hall owner target { r with kind := some id } id hthere rfl
  · intro hheld o t r' id' hr' hk
    rw [hrelationship] at hr'
    split at hr'
    · cases hr'
      cases hk
      exact hheld
    · exact h o t r' id' hr' hk

/-- When the relationship then holds it, all types are held. -/
theorem Typed.hold (h : w.Typed) (hr : w.relationship? owner target = some r) (t : Trait)
    (facts : FactDatabase) (text : String) (duration : Int) :
    ((w.retype owner target t.id facts).setSheet
      { r.sheet with traits := r.sheet.traits.hold t text duration }
      (.relationship owner target)).Typed := by
  have hs : (w.retype owner target t.id facts).sheet? (.relationship owner target) = some r.sheet := by
    rw [sheet?_retype]
    simp [sheet?, hr]
  have hkind : (w.retype owner target t.id facts).kind? (.relationship owner target) = some t.id :=
    (kind?_modifyKind hr (some t.id) (.relationship owner target)).trans (if_pos rfl)
  rw [typed_eq] at h ⊢
  have hothers : (w.retype owner target t.id facts).Upholds (fun _ => True) fun e held kind =>
      e ≠ .relationship owner target → held.HoldsKind kind := by
    apply Upholds.setFacts _ trivial
    apply h.modifyKind hr
    · exact fun _ _ _ _ hheld _ => hheld
    · exact fun _ _ hne => absurd rfl hne
  apply hothers.setSheet hs
  · exact fun e held kind he hheld => hheld he
  · intro _ id hk
    cases hkind.symm.trans hk
    simp [HeldTraits.hold, Dict.contains_insert]

/-! ## Types that are recorded -/

/-- Whether a relationship can have a trait as its type. It holds the trait, or nothing that it holds
excludes it, no stat is missing and both facts can be told. -/
def welcomes (w : World) (owner target : String) (t : Trait) : Bool :=
  (w.relationship? owner target).any fun r =>
    r.sheet.traits.contains t.id ||
      !r.sheet.traits.conflicting t && (r.sheet.stats.missing? t.modifiers).isNone &&
        (do
          let facts ← w.facts.insert (Relationship.kindFact owner target t.id)
          facts.insert ((Entity.relationship owner target).traitFact t.id)).isOk

theorem welcomes_iff (hr : w.relationship? owner target = some r) :
    w.welcomes owner target t = true ↔
      r.sheet.traits.contains t.id = true ∨
        r.sheet.traits.conflicting t = false ∧ r.sheet.stats.missing? t.modifiers = none ∧
        ∃ facts facts', w.facts.insert (Relationship.kindFact owner target t.id) = .ok facts ∧
          facts.insert ((Entity.relationship owner target).traitFact t.id) = .ok facts' := by
  have htold : (do
      let facts ← w.facts.insert (Relationship.kindFact owner target t.id)
      facts.insert ((Entity.relationship owner target).traitFact t.id)).isOk = true ↔
        ∃ facts facts', w.facts.insert (Relationship.kindFact owner target t.id) = .ok facts ∧
          facts.insert ((Entity.relationship owner target).traitFact t.id) = .ok facts' := by
    cases w.facts.insert (Relationship.kindFact owner target t.id) with
    | error e => simp [bind, Except.bind, Except.isOk, Except.toBool]
    | ok facts =>
        cases hf : facts.insert ((Entity.relationship owner target).traitFact t.id) <;>
          simp [bind, Except.bind, Except.isOk, Except.toBool, hf]
  rw [← htold]
  simp [welcomes, hr, and_assoc]

end World

namespace Act

open World (Typed)

/-- Takes from a relationship the trait that is its type. -/
def takeKind (owner target : String) : Act Unit := do
  if let some previous := (← requireRelationship owner target).kind then
    discard <| removeTrait (.relationship owner target) previous

/-- Records a type, and then adds its trait. -/
def recordKind (owner target id : String) : Act Bool := do
  discard <| requireRelationship owner target
  modify fun w => w.modifyRelationship owner target fun r => { r with kind := some id }
  insertFact (Relationship.kindFact owner target id)
  addTrait (.relationship owner target) id (-1) none

theorem setRelationshipKind_eq (owner target id : String) :
    setRelationshipKind owner target id = (do
      discard <| requireTraitFor .relationship id
      takeKind owner target
      recordKind owner target id) := by
  simp only [setRelationshipKind, takeKind, bind_assoc]
  congr
  funext _
  congr
  funext r
  cases r.kind <;> rfl

variable {w : World} {owner target id : String} {t : Trait} {r : Relationship}

theorem steady_typed : Steady Typed Typed :=
  World.typed_eq ▸ steady_upholds FactDatabase.stable_true HeldTraits.stable_holdsKind

theorem leads_recordKind (hr : w.relationship? owner target = some r) {Q : Bool → World → Prop}
    {E : World → Prop}
    (htold : ∀ facts, w.facts.insert (Relationship.kindFact owner target id) = .ok facts →
      (addTrait (.relationship owner target) id (-1) none).Leads Q E (w.retype owner target id facts))
    (hfails : ∀ error, w.facts.insert (Relationship.kindFact owner target id) = .error error →
      E (w.retype owner target id w.facts)) : (recordKind owner target id).Leads Q E w := by
  rw [recordKind, leads_bind, leads_discard, requireRelationship, leads_look]
  constructor
  · intro _ _
    rw [leads_bind, leads_modify, leads_bind, leads_insertFact]
    exact ⟨htold, hfails⟩
  · intro hn
    cases hr.symm.trans hn

/-- Adding the trait leaves all types held if and only if nothing keeps it away. -/
theorem addTrait_typed (hw : w.Typed) (hlibrary : w.traits.get? t.id = some t)
    (hkind : t.kind = .relationship) (hr : w.relationship? owner target = some r)
    (facts : FactDatabase) {welcome : Prop}
    (hwelcome : welcome ↔ r.sheet.traits.contains t.id = true ∨
      r.sheet.traits.conflicting t = false ∧ r.sheet.stats.missing? t.modifiers = none ∧
      ∃ facts', facts.insert ((Entity.relationship owner target).traitFact t.id) = .ok facts') :
    (addTrait (.relationship owner target) t.id (-1) none).Leads (fun _ w' => w'.Typed ↔ welcome)
      (fun w' => w'.Typed ↔ welcome) (w.retype owner target t.id facts) := by
  have hs : (w.retype owner target t.id facts).sheet? (.relationship owner target) = some r.sheet := by
    rw [World.sheet?_retype]
    simp [World.sheet?, hr]
  have hunique : ∀ t' s, Offers (w.retype owner target t.id facts) (.relationship owner target) t.id
      t' s → t' = t ∧ s = r.sheet := by
    intro t' s h
    constructor
    · exact Option.some.inj (h.library.symm.trans hlibrary)
    · exact Option.some.inj (h.sheet.symm.trans hs)
  apply leads_addTrait_of_offers
  case hlost => exact fun hnone => absurd ⟨hlibrary, hkind, hs⟩ (hnone t r.sheet)
  case hrefused =>
    intro t' s h hadd
    obtain ⟨rfl, rfl⟩ := hunique t' s h
    rw [hw.retype_iff hr, hwelcome]
    have hconflicting : r.sheet.traits.contains t'.id = false →
        r.sheet.traits.conflicting t' = true := by
      simpa [HeldTraits.canAdd] using hadd
    cases hheld : r.sheet.traits.contains t'.id with
    | true => simp
    | false => simp [hconflicting hheld]
  case hfails =>
    intro t' s h hadd hfail
    obtain ⟨rfl, rfl⟩ := hunique t' s h
    rw [hw.retype_iff hr, hwelcome]
    simp only [HeldTraits.canAdd, Bool.and_eq_true, Bool.not_eq_true'] at hadd
    rcases hfail with hmissing | ⟨error, hf⟩
    · simp [hadd.1, hmissing]
    · have hf' : facts.insert ((Entity.relationship owner target).traitFact t'.id) = .error error := hf
      simp [hadd.1, hf']
  case hholds =>
    intro t' s facts' w' h hadd hmissing hf hw'
    obtain ⟨rfl, rfl⟩ := hunique t' s h
    simp only [HeldTraits.canAdd, Bool.and_eq_true, Bool.not_eq_true'] at hadd
    have hyes : welcome := hwelcome.mpr (.inr ⟨hadd.2, hmissing, facts', hf⟩)
    have hw'' : w'.Typed := (World.typed_of_outline hw').mpr (hw.hold hr t' facts' _ _)
    have hlast : Ensures Typed (reevaluateAround (.relationship owner target)) (fun _ => Typed) Typed :=
      steady_typed.reevaluate owner target
    exact Leads.imp (hlast w' hw'') (fun _ _ h => iff_of_true h hyes) fun _ h => iff_of_true h hyes

/-- Recording a type leaves all types held if and only if the relationship welcomes the trait,
whether or not it fails. -/
theorem recordKind_typed (hw : w.Typed) (hlibrary : w.traits.get? t.id = some t)
    (hkind : t.kind = .relationship) (hr : w.relationship? owner target = some r) :
    (recordKind owner target t.id).Leads (fun _ w' => w'.Typed ↔ w.welcomes owner target t = true)
      (fun w' => w'.Typed ↔ w.welcomes owner target t = true) w := by
  apply leads_recordKind hr
  · intro facts hf
    apply addTrait_typed hw hlibrary hkind hr facts
    rw [World.welcomes_iff hr]
    simp [hf]
  · intro error hf
    rw [hw.retype_iff hr, World.welcomes_iff hr]
    simp [hf]

theorem takeKind_fixes (owner target : String) : (takeKind owner target).Fixes World.frame := by
  apply (fixes_look _ _).bind
  intro r
  cases r.kind with
  | none => exact fixes_pure _
  | some previous => exact (removeTrait_fixes _ previous).discard

theorem takeKind_typed (owner target : String) : (takeKind owner target).Keeps Typed := by
  apply (keeps_look _ _).bind
  intro r
  cases r.kind with
  | none => exact keeps_pure _
  | some previous => exact Ensures.discard (steady_typed.removeTrait _ previous)

/-- Where the type is taken from a relationship, the relationship is there and stays. -/
theorem relationship?_of_takeKind {w' : World} (h : (takeKind owner target).runOn w = (.ok (), w')) :
    ∃ r, w'.relationship? owner target = some r := by
  have hthere : (takeKind owner target).Leads
      (fun _ w' => ∃ r, w'.relationship? owner target = some r) (fun _ => True) w := by
    apply leads_bind.mpr
    apply leads_look.mpr
    refine ⟨fun r hr => ?_, fun _ => trivial⟩
    have hframe : ∀ v : World, v.frame = w.frame → ∃ r, v.relationship? owner target = some r := by
      intro v hv
      have hsome : (v.relationship? owner target).map Relationship.frame = some r.frame := by
        rw [← World.relationship?_frame, hv, World.relationship?_frame, hr]
        rfl
      obtain ⟨r', hr', -⟩ := Option.map_eq_some_iff.mp hsome
      exact ⟨r', hr'⟩
    cases r.kind with
    | none => exact ⟨r, hr⟩
    | some previous =>
        apply leads_discard.mpr
        have hkept := (removeTrait_fixes (.relationship owner target) previous) w.frame w rfl
        exact Leads.imp hkept (fun _ v hv => hframe v hv) fun _ _ => trivial
  exact hthere.ok h

end Act

/-! ## Types that are recorded in vain -/

/-- Whether a command records a type in vain: the relationship, rid of the type that it had, does not
welcome the trait. -/
def Command.isVain (w : World) : Command → Bool
  | setRelationshipKind owner target id =>
    match w.traits.get? id, (Act.takeKind owner target).runOn w with
    | some t, (.ok (), w') => t.kind = .relationship && !w'.welcomes owner target t
    | _, _ => false
  | _ => false

namespace Act

variable {w : World} {owner target id : String}

theorem setRelationshipKind_typed (hw : w.Typed)
    (hlibrary : ∀ id t, w.traits.get? id = some t → t.id = id) :
    (setRelationshipKind owner target id).Leads
      (fun _ w' => w'.Typed ↔ Command.isVain w (.setRelationshipKind owner target id) = false)
      (fun w' => w'.Typed ↔ Command.isVain w (.setRelationshipKind owner target id) = false) w := by
  rw [setRelationshipKind_eq, leads_bind, leads_discard]
  by_cases hthere : ∃ t, w.traits.get? id = some t ∧ t.kind = .relationship
  case neg =>
    have hnot : Command.isVain w (.setRelationshipKind owner target id) = false := by
      simp only [Command.isVain]
      split
      · rename_i t _ ht _
        have hk : t.kind ≠ .relationship := fun hk => hthere ⟨t, ht, hk⟩
        simp [hk]
      · rfl
    apply leads_requireTraitFor
    · exact fun t ht hk => absurd ⟨t, ht, hk⟩ hthere
    · exact iff_of_true hw hnot
  case pos =>
    obtain ⟨t, ht, hk⟩ := hthere
    obtain rfl := hlibrary id t ht
    rw [leads_requireTraitFor_of ht hk, leads_bind, leads_iff_runOn]
    constructor
    · intro _ w' hrun
      have htyped : w'.Typed := by
        have hend := (takeKind_typed owner target).holds hw
        rwa [hrun] at hend
      have hframe : w'.frame = w.frame := by
        have hend := (takeKind_fixes owner target).eq w
        rwa [hrun] at hend
      have ht' : w'.traits.get? t.id = some t := by
        have htraits : w'.traits = w.traits := congrArg (·.traits) hframe
        rw [htraits, ht]
      obtain ⟨r, hr⟩ := relationship?_of_takeKind hrun
      have hvain : Command.isVain w (.setRelationshipKind owner target t.id) =
          !w'.welcomes owner target t := by
        simp [Command.isVain, ht, hrun, hk]
      simpa [hvain] using recordKind_typed htyped ht' hk hr
    · intro error w' hrun
      have htyped : w'.Typed := by
        have hend := (takeKind_typed owner target).holds hw
        rwa [hrun] at hend
      have hnot : Command.isVain w (.setRelationshipKind owner target t.id) = false := by
        simp [Command.isVain, ht, hrun]
      exact iff_of_true htyped hnot

end Act

namespace World

variable {w : World}

/-- A command that records a type in vain leaves a type behind that is not held, and no other command
does. -/
theorem Typed.after_iff (h : w.Typed) (hw : w.Readable) (c : Command) :
    (w.after c).Typed ↔ c.isVain w = false := by
  by_cases hset : ∃ owner target id, c = .setRelationshipKind owner target id
  case pos =>
    obtain ⟨owner, target, id, rfl⟩ := hset
    have hlibrary : ∀ id t, w.traits.get? id = some t → t.id = id := hw.library
    have hend : Act.Leads (Command.setRelationshipKind owner target id).act
        (fun _ w' => w'.Typed ↔ Command.isVain w (.setRelationshipKind owner target id) = false)
        (fun w' => w'.Typed ↔ Command.isVain w (.setRelationshipKind owner target id) = false) w :=
      Act.leads_discard.mpr (Act.setRelationshipKind_typed h hlibrary)
    exact Act.leads_iff_after.mp hend
  case neg =>
    have hkeeps : c.act.Keeps Typed := by
      rw [typed_eq]
      apply c.act_upholds FactDatabase.stable_true HeldTraits.stable_holdsKind
      exact fun owner target id hc => absurd ⟨owner, target, id, hc⟩ hset
    have hnot : c.isVain w = false := by
      cases c with
      | setRelationshipKind owner target id => exact absurd ⟨owner, target, id, rfl⟩ hset
      | _ => rfl
    exact iff_of_true (hkeeps.holds h) hnot

/-- As long as no type is recorded in vain, the type of every relationship is a trait that it holds;
and the first that is recorded in vain is not. -/
theorem ReachableBy.typed (h : w.ReachableBy fun w c => c.isVain w = false) :
    (∀ owner target r id, w.relationship? owner target = some r → r.kind = some id →
      r.sheet.traits.contains id = true) ∧
    ∀ c : Command, (w.after c).Typed ↔ c.isVain w = false := by
  have hreadable : w.Readable := h.reachable.readable
  have htyped : w.Typed := by
    induction h with
    | empty => exact fun _ _ _ _ hr => by cases hr
    | step c hw hc ih =>
        have hbefore := hw.reachable.readable
        exact ((ih hbefore).after_iff hbefore c).mpr hc
  exact ⟨htyped, htyped.after_iff hreadable⟩

/-- Friends and rivals exclude each other, and Ann and Bob have to do with each other. -/
def acquaintanceRun : List Command := [
  .addTrait ⟨"friend", .relationship, "Friend", "", [], .ofList ["rival"]⟩,
  .addTrait ⟨"rival", .relationship, "Rival", "", [], ∅⟩,
  .addAgentSchema ⟨"person", [], []⟩, .addRelationshipSchema ⟨"person", "person", [], []⟩,
  .addAgent "person" "ann", .addAgent "person" "bob", .addRelationship "ann" "bob"]

/-- Ann and Bob were rivals before they became friends. -/
def peaceRun : List Command :=
  acquaintanceRun ++
    [.setRelationshipKind "ann" "bob" "rival", .setRelationshipKind "ann" "bob" "friend"]

/-- A rivalry that is a type makes way for a friendship. -/
theorem typed_of_friends :
    ∃ w r, (World.ReachableBy (fun w c => c.isVain w = false) w) ∧
      w.relationship? "ann" "bob" = some r ∧ r.kind = some "friend" ∧
      r.sheet.traits.contains "friend" = true ∧
      (w.after (.giveTrait (.relationship "ann" "bob") "rival" (-1) none)).Typed := by
  have hw : World.ReachableBy (fun w c => c.isVain w = false) (peaceRun.foldl World.after ∅) :=
    ReachableBy.empty.run
      ⟨rfl, rfl, rfl, rfl, rfl, rfl, rfl, by decide +kernel, by decide +kernel, trivial⟩
  have hkind : ((peaceRun.foldl World.after ∅).relationship? "ann" "bob").map (·.kind) =
      some (some "friend") := by decide +kernel
  obtain ⟨r, hr, hk⟩ := Option.map_eq_some_iff.mp hkind
  obtain ⟨hheld, hafter⟩ := hw.typed
  exact ⟨_, r, hw, hr, hk, hheld _ _ _ _ hr hk, (hafter _).mpr rfl⟩

/-- Ann and Bob are rivals as well, and then they are to be friends. -/
def rivalryRun : List Command :=
  acquaintanceRun ++ [.giveTrait (.relationship "ann" "bob") "rival" (-1) none,
    .setRelationshipKind "ann" "bob" "friend"]

/-- Beside a rivalry that is no type a friendship is recorded in vain. -/
theorem friendship_is_not_held :
    ¬ ∀ w, (World.ReachableBy (fun _ c => c.Plain) w) →
      ∀ owner target r id, w.relationship? owner target = some r → r.kind = some id →
        r.sheet.traits.contains id = true := by
  intro h
  have hw : World.ReachableBy (fun _ c => c.Plain) (rivalryRun.foldl World.after ∅) :=
    ReachableBy.empty.run ⟨rfl, rfl, trivial, trivial, rfl, rfl, trivial, trivial, trivial, trivial⟩
  have hkind : ((rivalryRun.foldl World.after ∅).relationship? "ann" "bob").map
      (fun r => (r.kind, r.sheet.traits.contains "friend")) = some (some "friend", false) := by
    decide +kernel
  obtain ⟨r, hr, heq⟩ := Option.map_eq_some_iff.mp hkind
  obtain ⟨hk, hnot⟩ := Prod.mk.inj heq
  have hheld := h _ hw "ann" "bob" r "friend" hr hk
  cases hnot.symm.trans hheld

end World

end Society
