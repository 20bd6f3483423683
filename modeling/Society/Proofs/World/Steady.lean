import Society.Proofs.World.Step

/-!
# Steady properties

Time and events change the world by evaluations, by traits that are added and removed, and by
numbers. A property that survives these survives every tick and every event.
-/

namespace Society.Act

open World (outline)

/-- What evaluations, traits that come and go and changes of numbers lead from `P` to `P`; where
they fail they end in `E`. -/
structure Steady (P E : World → Prop) : Prop where
  weaken : ∀ w, P w → E w
  of_outline : ∀ w w', w'.outline = w.outline → P w → P w'
  reevaluate : ∀ owner target, Ensures P (reevaluate owner target) (fun _ => P) E
  addTrait : ∀ e id duration description,
    Ensures P (addTrait e id duration description) (fun _ => P) E
  removeTrait : ∀ e id, Ensures P (removeTrait e id) (fun _ => P) E

variable {α : Type} {P E : World → Prop}

namespace Steady

theorem of_fixes (h : Steady P E) {x : Act α} (hx : x.Fixes outline) :
    Ensures P x (fun _ => P) E :=
  Ensures.weaken (hx.keeps h.of_outline) h.weaken

theorem forM (_ : Steady P E) {l : List α} {f : α → Act PUnit}
    (hf : ∀ a, Ensures P (f a) (fun _ => P) E) : Ensures P (l.forM f) (fun _ => P) E :=
  ensures_forM (I := fun _ => P) (fun a _ => hf a) l

end Steady

/-! ## Evaluations -/

theorem ensures_reevaluateAgent (h : Steady P E) (uid : String) :
    Ensures P (reevaluateAgent uid) (fun _ => P) E :=
  (h.of_fixes (fixes_look _ _)).bind fun _ =>
    (h.forM fun _ => h.reevaluate _ _).bind fun _ => h.forM fun _ => h.reevaluate _ _

theorem ensures_reevaluateAll (h : Steady P E) : Ensures P reevaluateAll (fun _ => P) E :=
  (h.of_fixes fixes_get).bind fun _ => h.forM fun _ => h.reevaluate _ _

theorem ensures_addRelationshipModifier (h : Steady P E) (uid : String) (id : Option String)
    (m : RelationshipModifier) :
    Ensures P (addRelationshipModifier uid id m) (fun _ => P) E :=
  addRelationshipModifier_rule (R := fun _ => P) h.weaken
    (fun w _ hw => h.of_outline w _ rfl hw)
    (fun w _ _ hw _ => h.of_outline w _ (World.mask_modifyAgent fun _ _ => rfl) hw)
    fun _ => ensures_reevaluateAgent h uid

theorem ensures_removeRelationshipModifier (h : Steady P E) (uid : String) (id : ModifierId) :
    Ensures P (removeRelationshipModifier uid id) (fun _ => P) E := by
  refine (h.of_fixes (fixes_look _ _)).bind fun a => ?_
  refine Ensures.ite (fun _ => h.of_fixes (fixes_pure _)) fun _ => ?_
  exact (h.of_fixes (changeModifiers_fixes (by intro a; rfl) uid)).bind fun _ =>
    (ensures_reevaluateAgent h uid).bind fun _ => h.of_fixes (fixes_pure _)

/-! ## Time -/

theorem ensures_tickAgent (h : Steady P E) (uid : String) :
    Ensures P (tickAgent uid) (fun _ => P) E := by
  refine (h.of_fixes fixes_get).bind fun w => ?_
  refine Ensures.ite (fun _ => ?_) fun _ => h.of_fixes (fixes_pure _)
  refine (h.of_fixes (tickSheet_fixes _)).bind fun expired => ?_
  refine (h.of_fixes (changeModifiers_fixes (by intro a; rfl) uid)).bind fun _ => ?_
  exact (h.forM fun _ => (h.removeTrait _ _).discard).bind fun _ => ensures_reevaluateAgent h uid

theorem ensures_tickRelationship (h : Steady P E) (owner target : String) :
    Ensures P (tickRelationship owner target) (fun _ => P) E :=
  (h.of_fixes (tickSheet_fixes _)).bind fun _ =>
    (h.forM fun _ => (h.removeTrait _ _).discard).bind fun _ => h.reevaluate owner target

theorem ensures_tick (h : Steady P E) : Ensures P tick (fun _ => P) E :=
  (h.of_fixes fixes_get).bind fun _ => (h.forM (ensures_tickAgent h)).bind fun _ =>
    (h.of_fixes fixes_get).bind fun _ => h.forM fun _ => ensures_tickRelationship h _ _

/-! ## Events -/

theorem ensures_apply (h : Steady P E) (effect : Effect) :
    Ensures P effect.apply (fun _ => P) E := by
  cases effect with
  | addTrait e id duration description => exact (h.addTrait e id duration description).discard
  | removeTrait e id => exact (h.removeTrait e id).discard
  | buff effect e stat amount duration =>
      refine h.of_fixes ((fixes_look _ _).bind fun _ => (fixes_orElse _ _).discard.bind fun _ => ?_)
      exact freshId_fixes.bind fun _ => changeStats_fixes e _
  | increment e stat delta =>
      refine h.of_fixes ((fixes_look _ _).bind fun _ => (fixes_orElse _ _).bind fun _ => ?_)
      exact (changeStats_fixes e _).bind fun _ => fixes_pure _

theorem createEffect_fixes {γ : Type} {look : World → γ} (ctx : EffectContext) (text : String) :
    (createEffect ctx text).Fixes look :=
  fun _ => createEffect_keeps ctx text

/-- Effects are created one by one, which changes nothing. -/
theorem mapM_createEffect_leads (w : World) (ctx : EffectContext) (texts : List String) :
    (texts.mapM (createEffect ctx)).Leads
      (fun effects w' => w' = w ∧ texts.map (Effect.parse w ctx) = effects.map .ok) (· = w) w := by
  have hone : ∀ text, Ensures (· = w) (createEffect ctx text)
      (fun effect w' => w' = w ∧ Effect.parse w ctx text = .ok effect) (· = w) := by
    rintro text w rfl
    refine leads_bind.mpr (leads_get.mpr ?_)
    cases hp : Effect.parse w ctx text with
    | ok effect => exact ⟨rfl, rfl⟩
    | error error => exact rfl
  have hall : Ensures (· = w) (texts.mapM (createEffect ctx))
      (fun effects w' => w' = w ∧ texts.map (Effect.parse w ctx) = effects.map .ok) (· = w) := by
    induction texts with
    | nil => exact ensures_pure fun _ h => ⟨h, rfl⟩
    | cons text texts ih =>
        rw [List.mapM_cons]
        refine (hone text).bind fun effect => ensures_of_pure fun he => ih.bind fun effects => ?_
        exact ensures_pure fun _ h => ⟨h.1, by rw [List.map_cons, List.map_cons, he, h.2]⟩
  exact hall w rfl

theorem ensures_respond (h : Steady P E) (event : String) (ctx : EffectContext)
    (response : EventResponse) : Ensures P (respond event ctx response) (fun _ => P) E := by
  refine (h.of_fixes fixes_get).bind fun w => (h.of_fixes (fixes_ofFacts _)).bind fun answer => ?_
  refine Ensures.ite (fun _ => h.forM fun scope => ?_) fun _ => h.of_fixes (fixes_pure _)
  refine Ensures.adapt ?_ _
  exact (h.of_fixes (Fixes.mapM (createEffect_fixes scope))).bind fun _ => h.forM (ensures_apply h)

theorem ensures_dispatch (h : Steady P E) (event : String) (agents : List String) :
    Ensures P (dispatch event agents) (fun _ => P) E :=
  (h.of_fixes (fixes_look _ _)).bind fun _ => h.forM (ensures_respond h _ _)

end Act

/-- Whether a command changes the libraries, the facts or who is there by itself. -/
def Command.isFoundational : Command → Bool
  | .addTrait _ | .addRule _ | .addEvent _ | .addAgentSchema _ | .addRelationshipSchema _
  | .addAgent .. | .removeAgent _ | .addRelationship .. | .removeRelationship ..
  | .setRelationshipKind .. | .reset | .insertFact _ | .deleteFact _ | .clearFacts => true
  | _ => false

/-- Every other command keeps what is steady. -/
theorem Act.Steady.act {P E : World → Prop} (h : Act.Steady P E) {c : Command}
    (hc : c.isFoundational = false) : Act.Ensures P c.act (fun _ => P) E := by
  cases c with
  | giveTrait e id duration description => exact (h.addTrait _ _ _ _).discard
  | takeTrait e id => exact (h.removeTrait _ _).discard
  | addRelationshipModifier uid id m => exact (Act.ensures_addRelationshipModifier h _ _ _).discard
  | removeRelationshipModifier uid id =>
      exact (Act.ensures_removeRelationshipModifier h _ _).discard
  | reevaluate owner target => exact h.reevaluate _ _
  | reevaluateAgent uid => exact Act.ensures_reevaluateAgent h _
  | reevaluateAll => exact Act.ensures_reevaluateAll h
  | dispatch event agents => exact Act.ensures_dispatch h _ _
  | tick => exact Act.ensures_tick h
  | _ => cases hc

end Society
