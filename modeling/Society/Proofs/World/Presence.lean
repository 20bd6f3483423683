import Society.Proofs.Query.Soundness
import Society.Proofs.World.Lasting

/-!
# Time and events leave everybody there

A tick or an event changes what entities have, but not who is there. So what was there when an effect
was created is there when the effect is applied, whatever has been applied in between, and nothing
that follows from the effect misses an agent or a relationship.
-/

namespace Society

/-- Whether an agent or a relationship is missed. -/
def WorldError.isMissing : WorldError → Bool
  | .agentNotFound _ | .relationshipNotFound .. => true
  | _ => false

namespace World

/-- Who is there is known from the frame. -/
theorem isSome_sheet?_of_frame {w u : World} (h : w.frame = u.frame) (e : Entity) :
    (w.sheet? e).isSome = (u.sheet? e).isSome := by
  cases e with
  | agent uid =>
      have hmap := congrArg (fun w => (w.agent? uid).isSome) h
      simpa [sheet?, agent?_frame] using hmap
  | relationship owner target =>
      have hmap := congrArg (fun w => (w.relationship? owner target).isSome) h
      simpa [sheet?, relationship?_frame] using hmap

end World

namespace Act

variable {α β : Type} {u : World} {e : Entity}

/-! ## Acts that miss nobody -/

/-- From a world with the frame of `u` the act leads to one with that frame, or fails for another
reason than that an agent or a relationship is missing. -/
def Finds (u : World) (x : Act α) : Prop :=
  ∀ w, w.frame = u.frame →
    match x.runOn w with
    | (.ok _, w') => w'.frame = u.frame
    | (.error error, _) => error.isMissing = false

section Rules

variable {x : Act α}

theorem finds_pure (a : α) : (pure a : Act α).Finds u := fun _ hw => hw

theorem finds_throw {error : WorldError} (h : error.isMissing = false) :
    (throw error : Act α).Finds u :=
  fun _ _ => h

theorem finds_get : (get : Act World).Finds u := fun _ hw => hw

theorem finds_modify {f : World → World} (h : ∀ w, (f w).frame = w.frame) :
    (modify f : Act PUnit).Finds u :=
  fun w hw => (h w).trans hw

theorem finds_ofFacts (answer : Except FactError α) : (ofFacts answer).Finds u := by
  cases answer with
  | ok a => exact finds_pure a
  | error e => exact finds_throw rfl

theorem Finds.bind {f : α → Act β} (hx : x.Finds u) (hf : ∀ a, (f a).Finds u) :
    (x >>= f).Finds u := by
  intro w hw
  have hmid := hx w hw
  rw [runOn_bind]
  cases h : x.runOn w with
  | mk r w' =>
      rw [h] at hmid
      cases r with
      | ok a => exact hf a w' hmid
      | error error => exact hmid

theorem Finds.discard (h : x.Finds u) : (discard x).Finds u :=
  h.bind fun _ => finds_pure _

theorem Finds.ite {c : Prop} [Decidable c] {y : Act α} (hx : x.Finds u) (hy : y.Finds u) :
    (if c then x else y).Finds u := by
  split
  · exact hx
  · exact hy

theorem Finds.forM {l : List α} {f : α → Act PUnit} (h : ∀ a ∈ l, (f a).Finds u) :
    (l.forM f).Finds u := by
  induction l with
  | nil => exact finds_pure _
  | cons a l ih =>
      obtain ⟨ha, hl⟩ := List.forall_mem_cons.mp h
      exact ha.bind fun _ => ih hl

theorem Finds.mapM {l : List α} {f : α → Act β} (h : ∀ a, (f a).Finds u) :
    (l.mapM f).Finds u := by
  induction l with
  | nil => exact finds_pure _
  | cons a l ih =>
      rw [List.mapM_cons]
      exact (h a).bind fun _ => ih.bind fun _ => finds_pure _

/-- What is looked up is there, or it is neither an agent nor a relationship. -/
theorem finds_look_bind {find : World → Option α} {error : WorldError} {f : α → Act β}
    (hthere : ∀ w, w.frame = u.frame → find w = none → error.isMissing = false)
    (hf : ∀ w a, w.frame = u.frame → find w = some a → (f a).Finds u) :
    Finds u ((do orElse (find (← get)) error) >>= f) := by
  intro w hw
  have hlook : Act.runOn (do orElse (find (← get)) error) w =
      (orElse (find w) error).runOn w := rfl
  rw [runOn_bind, hlook]
  cases h : find w with
  | some a => exact hf w a hw h w hw
  | none => exact hthere w hw h

theorem finds_look {find : World → Option α} {error : WorldError}
    (hthere : ∀ w, w.frame = u.frame → find w = none → error.isMissing = false) :
    Finds u (do orElse (find (← get)) error) := by
  have h := finds_look_bind hthere fun _ a _ _ => finds_pure a
  rwa [bind_pure] at h

end Rules

theorem requireSheet_finds (he : (u.sheet? e).isSome = true) : (requireSheet e).Finds u :=
  finds_look fun w hw hnone => by
    rw [← World.isSome_sheet?_of_frame hw, hnone] at he
    cases he

theorem changeStats_finds (he : (u.sheet? e).isSome = true) (f : Stats → Change Stats) :
    (changeStats e f).Finds u :=
  (requireSheet_finds he).bind fun _ => finds_modify fun w => w.frame_setSheet _ e

theorem changeTraits_finds (he : (u.sheet? e).isSome = true) (f : HeldTraits → HeldTraits) :
    (changeTraits e f).Finds u :=
  (requireSheet_finds he).bind fun _ => finds_modify fun w => w.frame_setSheet _ e

theorem requireStats_finds (he : (u.sheet? e).isSome = true) (specs : List ModifierSpec) :
    (requireStats e specs).Finds u := by
  refine (requireSheet_finds he).bind fun s => ?_
  split
  · exact finds_throw rfl
  · exact finds_pure _

theorem freshId_finds : freshId.Finds u := fun _ hw => hw

theorem attach_finds (he : (u.sheet? e).isSome = true) (source : ModifierSource)
    (specs : List ModifierSpec) : (attach e source specs).Finds u :=
  (requireStats_finds he specs).bind fun _ =>
    (Finds.mapM fun _ => freshId_finds.bind fun _ => finds_pure _).bind fun _ =>
      changeStats_finds he _

theorem insertFact_finds (s : String) : (insertFact s).Finds u :=
  finds_get.bind fun _ => (finds_ofFacts _).bind fun _ => finds_modify fun _ => rfl

theorem retract_finds (s : String) : (retract s).Finds u :=
  finds_get.bind fun _ => (finds_ofFacts _).bind fun _ => Finds.ite
    (finds_get.bind fun _ => (finds_ofFacts _).bind fun (_, _) =>
      Finds.bind (finds_modify fun _ => rfl) fun _ => finds_pure _) (finds_pure _)

/-! ## Evaluations -/

section Evaluations

variable {owner target : String}

theorem requireRelationship_finds (hr : (u.sheet? (.relationship owner target)).isSome = true) :
    (requireRelationship owner target).Finds u :=
  finds_look fun w hw hnone => by
    rw [← World.isSome_sheet?_of_frame hw, World.sheet?, hnone] at hr
    cases hr

theorem listActive_finds {f : Relationship → Relationship} (hf : ∀ r, (f r).face = r.face) :
    (modify fun w => w.modifyRelationship owner target f : Act PUnit).Finds u :=
  finds_modify fun w => World.frame_eq_of_face_eq ((listActive_fixes hf owner target).eq w)

theorem preconditionsHold_finds (preconditions : List String) :
    (preconditionsHold owner target preconditions).Finds u :=
  finds_get.bind fun _ => (finds_ofFacts _).bind fun _ => finds_pure _

theorem applyInfluence_finds (hr : (u.sheet? (.relationship owner target)).isSome = true)
    (i : Influence) : (applyInfluence owner target i).Finds u := by
  refine (preconditionsHold_finds _).bind fun _ => Finds.ite ?_ (finds_pure _)
  exact (attach_finds hr _ _).bind fun _ => listActive_finds (by intro r; rfl)

theorem reevaluate_finds (hr : (u.sheet? (.relationship owner target)).isSome = true) :
    (reevaluate owner target).Finds u := by
  have hforget : (forgetActive owner target).Finds u :=
    (requireRelationship_finds hr).bind fun _ =>
      (listActive_finds (by intro r; rfl)).bind fun _ => changeStats_finds hr _
  rw [reevaluate_eq]
  exact hforget.bind fun _ => finds_get.bind fun _ =>
    (Finds.forM fun i _ => applyInfluence_finds hr i).bind fun _ => finds_get.bind fun _ =>
      Finds.forM fun i _ => applyInfluence_finds hr i

/-- Every link of an agent leads to a relationship that is there. -/
theorem reevaluateAgent_finds (hu : u.Linked) {uid : String}
    (he : (u.sheet? (.agent uid)).isSome = true) : (reevaluateAgent uid).Finds u := by
  refine finds_look_bind (fun w hw hnone => ?_) fun w a hw ha => ?_
  · rw [← World.isSome_sheet?_of_frame hw, World.sheet?, hnone] at he
    cases he
  · have hlinked : w.Linked := hu.of_frame hw
    have hthere : ∀ owner target, (w.relationship? owner target).isSome = true →
        (reevaluate owner target).Finds u := fun owner target hr =>
      reevaluate_finds <| by
        rw [← World.isSome_sheet?_of_frame hw]
        simpa [World.sheet?] using hr
    refine Finds.bind (Finds.forM fun target ht => ?_) fun _ => Finds.forM fun owner ho => ?_
    · exact hthere uid target (by simpa [ha, ← hlinked.outgoing] using Dict.mem_keys_iff.mp ht)
    · exact hthere owner uid (by simpa [ha, ← hlinked.incoming] using Dict.mem_keys_iff.mp ho)

theorem reevaluateAround_finds (hu : u.Linked) (he : (u.sheet? e).isSome = true) :
    (reevaluateAround e).Finds u := by
  cases e with
  | agent uid => exact reevaluateAgent_finds hu he
  | relationship owner target => exact reevaluate_finds he

end Evaluations

/-! ## Traits and effects -/

theorem addTrait_finds (hu : u.Linked) (he : (u.sheet? e).isSome = true) (id : String)
    (duration : Int) (description : Option String) :
    (addTrait e id duration description).Finds u := by
  have htrait : (requireTraitFor e.kind id).Finds u :=
    Finds.bind (finds_look fun _ _ _ => rfl) fun _ =>
      Finds.ite ((finds_throw rfl).bind fun _ => finds_pure _) (finds_pure _)
  refine htrait.bind fun t => (requireSheet_finds he).bind fun s => Finds.ite (finds_pure _) ?_
  refine (requireStats_finds he _).bind fun _ => (insertFact_finds _).bind fun _ => ?_
  exact (changeTraits_finds he _).bind fun _ => (attach_finds he _ _).bind fun _ =>
    (reevaluateAround_finds hu he).bind fun _ => finds_pure _

theorem clearKind_finds (he : (u.sheet? e).isSome = true) (id : String) :
    (clearKind e id).Finds u := by
  cases e with
  | agent uid => exact finds_pure _
  | relationship owner target =>
      refine (requireRelationship_finds he).bind fun r => Finds.ite ?_ (finds_pure _)
      exact (finds_modify fun w => frame_modifyKind w owner target none).bind fun _ =>
        (retract_finds _).discard

theorem removeTrait_finds (hu : u.Linked) (he : (u.sheet? e).isSome = true) (id : String) :
    (removeTrait e id).Finds u := by
  refine (requireSheet_finds he).bind fun s => Finds.ite (finds_pure _) ?_
  refine (changeTraits_finds he _).bind fun _ => (changeStats_finds he _).bind fun _ => ?_
  refine (clearKind_finds he id).bind fun _ => (retract_finds _).discard.bind fun _ => ?_
  exact (reevaluateAround_finds hu he).bind fun _ => finds_pure _

theorem finds_orElse {value? : Option α} {error : WorldError} (h : error.isMissing = false) :
    (orElse value? error).Finds u := by
  cases value? with
  | some a => exact finds_pure a
  | none => exact finds_throw h

end Act

/-- The entity that an effect is about. -/
def Effect.entity : Effect → Entity
  | .addTrait e .. => e
  | .removeTrait e _ => e
  | .buff _ e .. => e
  | .increment e .. => e

namespace Act

variable {u : World}

/-- An effect misses nobody if its own entity is there. -/
theorem apply_finds (hu : u.Linked) {effect : Effect}
    (he : (u.sheet? effect.entity).isSome = true) : effect.apply.Finds u := by
  cases effect with
  | addTrait e id duration description => exact (addTrait_finds hu he id duration description).discard
  | removeTrait e id => exact (removeTrait_finds hu he id).discard
  | buff effect e stat amount duration =>
      refine (requireSheet_finds he).bind fun s => (finds_orElse rfl).discard.bind fun _ => ?_
      exact freshId_finds.bind fun _ => changeStats_finds he _
  | increment e stat delta =>
      refine (requireSheet_finds he).bind fun s => (finds_orElse rfl).bind fun _ => ?_
      exact (changeStats_finds he _).bind fun _ => finds_pure _

end Act

namespace Effect

variable {w : World} {ctx : EffectContext}

theorem isSome_sheet?_of_subject {kind : EntityKind} {args : List String} {e : Entity}
    (h : subject w ctx kind args = .ok e) : (w.sheet? e).isSome = true := by
  have hlast : ∀ e' : Entity, (do
      if (w.sheet? e').isNone then throw e'.notFound
      return e' : Except WorldError Entity) = .ok e → (w.sheet? e).isSome = true := by
    intro e' h
    cases hs : w.sheet? e' with
    | none =>
        rw [hs] at h
        cases h
    | some s =>
        rw [hs] at h
        cases h
        simp [hs]
  cases kind with
  | agent =>
      obtain ⟨uid, -, h⟩ := bind_eq_ok h
      exact hlast _ h
  | relationship =>
      obtain ⟨owner, -, h⟩ := bind_eq_ok h
      obtain ⟨target, -, h⟩ := bind_eq_ok h
      exact hlast _ h

theorem isSome_sheet?_of_ofArgs {form : EffectForm} {args : List String} {effect : Effect}
    (h : ofArgs w ctx form args = .ok effect) : (w.sheet? effect.entity).isSome = true := by
  rw [ofArgs] at h
  split at h
  · cases h
  obtain ⟨e, he, h⟩ := bind_eq_ok h
  have hthere := isSome_sheet?_of_subject he
  split at h
  case h_1 =>
    obtain ⟨_, -, h⟩ := bind_eq_ok h
    cases h
    exact hthere
  case h_2 =>
    cases h
    exact hthere
  case h_3 =>
    obtain ⟨_, -, h⟩ := bind_eq_ok h
    obtain ⟨_, -, h⟩ := bind_eq_ok h
    cases h
    exact hthere
  case h_4 =>
    obtain ⟨_, -, h⟩ := bind_eq_ok h
    cases h
    exact hthere

/-- An effect is created only for an entity that is there. -/
theorem isSome_sheet?_of_parse {text : String} {effect : Effect}
    (h : parse w ctx text = .ok effect) : (w.sheet? effect.entity).isSome = true := by
  simp only [parse] at h
  split at h
  · exact isSome_sheet?_of_ofArgs h
  · cases h

end Effect

/-! ## Effects that are created -/

namespace Act

variable {u w w' : World} {ctx : EffectContext} {texts : List String}

/-- Applying effects that were created misses nobody. -/
theorem forM_apply_finds (hw : w.Linked) {effects : List Effect}
    (h : (texts.mapM (createEffect ctx)).runOn w = (.ok effects, w')) :
    (effects.forM Effect.apply).Finds w := by
  refine Finds.forM fun effect hmem => apply_finds hw ?_
  have hcreated : Except.ok effect ∈ texts.map (Effect.parse w ctx) := by
    rw [((mapM_createEffect_leads w ctx texts).ok h).2]
    exact List.mem_map_of_mem hmem
  obtain ⟨text, -, hparse⟩ := List.mem_map.mp hcreated
  exact Effect.isSome_sheet?_of_parse hparse

theorem exists_of_bind_eq_error {α β : Type} {x : Act α} {f : α → Act β} {error : WorldError}
    (h : (x >>= f).runOn w = (.error error, w')) :
    x.runOn w = (.error error, w') ∨
      ∃ a v, x.runOn w = (.ok a, v) ∧ (f a).runOn v = (.error error, w') := by
  rw [runOn_bind] at h
  cases hx : x.runOn w with
  | mk r v =>
      rw [hx] at h
      cases r with
      | ok a => exact .inr ⟨a, v, rfl, h⟩
      | error error' =>
          obtain ⟨herror, rfl⟩ := Prod.mk.inj h
          exact .inl (by rw [Except.error.inj herror])

/-- A loop that fails has come to an element that fails. -/
theorem exists_of_forM_eq_error {α : Type} {l : List α} {f : α → Act PUnit} {error : WorldError}
    (h : (l.forM f).runOn w = (.error error, w')) :
    ∃ before a after v, l = before ++ a :: after ∧ (before.forM f).runOn w = (.ok ⟨⟩, v) ∧
      (f a).runOn v = (.error error, w') := by
  induction l generalizing w with
  | nil => cases h
  | cons a l ih =>
      obtain ha | ⟨_, v, ha, hl⟩ := exists_of_bind_eq_error h
      · exact ⟨[], a, l, w, rfl, rfl, ha⟩
      · obtain ⟨before, b, after, v', rfl, hbefore, hb⟩ := ih hl
        refine ⟨a :: before, b, after, v', rfl, ?_, hb⟩
        have hrun := runOn_bind (f a) (fun _ => before.forM f) w
        rw [ha] at hrun
        exact hrun.trans hbefore

/-- A response that fails for one of its effects fails in one of its contexts, when those before are
done. -/
theorem exists_of_respond_eq_error {event name : String} {response : EventResponse}
    {cause : WorldError}
    (h : (respond event ctx response).runOn w = (.error (.eventFailed name cause), w')) :
    name = event ∧ ∃ answer scopes scope rest v,
      w.facts.query response.preconditions [ctx.bindings] = .ok answer ∧ answer.success = true ∧
      responseContexts ctx response answer = scopes ++ scope :: rest ∧
      (scopes.forM fun scope => forEvent event (applyEffects scope response.effects)).runOn w =
        (.ok ⟨⟩, v) ∧
      (applyEffects scope response.effects).runOn v = (.error cause, w') := by
  obtain hget | ⟨_, _, hget, hrest⟩ := exists_of_bind_eq_error h
  · cases hget
  cases hget
  cases hquery : w.facts.query response.preconditions [ctx.bindings] with
  | error error =>
      rw [hquery] at hrest
      cases hrest
  | ok answer =>
      rw [hquery] at hrest
      obtain hfacts | ⟨_, _, hfacts, hloop⟩ := exists_of_bind_eq_error hrest
      · cases hfacts
      cases hfacts
      cases hsuccess : answer.success with
      | false =>
          rw [hsuccess] at hloop
          cases hloop
      | true =>
          rw [hsuccess, if_pos rfl] at hloop
          obtain ⟨scopes, scope, rest, v, hscopes, hbefore, hscope⟩ := exists_of_forM_eq_error hloop
          rw [forEvent, runOn_adapt] at hscope
          obtain ⟨herror, rfl⟩ := Prod.mk.inj hscope
          cases hrun : (applyEffects scope response.effects).runOn v with
          | mk r w' =>
              rw [hrun] at herror
              cases r with
              | ok a => cases herror
              | error error =>
                  cases herror
                  exact ⟨rfl, answer, scopes, scope, rest, v, rfl, hsuccess, hscopes, hbefore, hrun⟩

end Act

/-! ## Relationship modifiers -/

namespace Act

variable {α : Type}

theorem Fixes.attached {x : Act α} {e : Entity} (h : x.Fixes (·.own e)) : x.Fixes (·.attached e) :=
  h.of_coarser fun _ _ hown => (Prod.mk.inj hown).2

theorem Fixes.adapt {γ : Type} {look : World → γ} {x : Act α} (h : x.Fixes look)
    (f : WorldError → WorldError) : Fixes look (ExceptT.adapt f x) :=
  fun v => Ensures.adapt (h v) f

theorem changeStats_fixes_attached (e : Entity) (f : Stats → Change Stats) (e' : Entity) :
    (changeStats e f).Fixes (·.attached e') :=
  (fixes_look _ _).bind fun _ => fixes_modify fun w => by
    rw [← World.attached_setSheet w _ e e']
    cases e' <;> rfl

theorem changeTraits_fixes_attached (e : Entity) (f : HeldTraits → HeldTraits) (e' : Entity) :
    (changeTraits e f).Fixes (·.attached e') :=
  (fixes_look _ _).bind fun _ => fixes_modify fun w => World.attached_setSheet w _ e e'

theorem addTrait_fixes_attached (e : Entity) (id : String) (duration : Int)
    (description : Option String) (e' : Entity) :
    (addTrait e id duration description).Fixes (·.attached e') := by
  have hattach : ∀ source specs, (attach e source specs).Fixes (·.attached e') := fun source specs =>
    attach_fixes_of (fun _ _ _ ha hr hw => ((Prod.mk.inj (World.own_congr
      (World.entity?_congr ha hr e'))).2).trans hw) fun _ _ => changeStats_fixes_attached e _ e'
  refine (requireTraitFor_fixes _ _).bind fun t => (fixes_look _ _).bind fun s => ?_
  refine Fixes.ite (fixes_pure _) ((requireStats_fixes e _).bind fun _ => ?_)
  refine (insertFact_apart e' _).own.attached.bind fun _ => ?_
  refine (changeTraits_fixes_attached e _ e').bind fun _ => (hattach _ _).bind fun _ => ?_
  exact (reevaluateAround_fixes_own e e').attached.bind fun _ => fixes_pure _

theorem removeTrait_fixes_attached (e : Entity) (id : String) (e' : Entity) :
    (removeTrait e id).Fixes (·.attached e') :=
  (fixes_look _ _).bind fun _ => Fixes.ite (fixes_pure _) <|
    (changeTraits_fixes_attached e _ e').bind fun _ =>
      (changeStats_fixes_attached e _ e').bind fun _ => (settleRemoval_fixes_own e id e').attached

theorem apply_fixes_attached (effect : Effect) (e' : Entity) :
    effect.apply.Fixes (·.attached e') := by
  cases effect with
  | addTrait e id duration description =>
      exact (addTrait_fixes_attached e id duration description e').discard
  | removeTrait e id => exact (removeTrait_fixes_attached e id e').discard
  | buff effect e stat amount duration =>
      refine (fixes_look _ _).bind fun s => (fixes_orElse _ _).discard.bind fun _ => ?_
      exact (freshId_apart e').own.attached.bind fun _ => changeStats_fixes_attached e _ e'
  | increment e stat delta =>
      refine (fixes_look _ _).bind fun s => (fixes_orElse _ _).bind fun _ => ?_
      exact (changeStats_fixes_attached e _ e').bind fun _ => fixes_pure _

theorem apply_fixes_frame (effect : Effect) : effect.apply.Fixes World.frame :=
  fun _ => ensures_apply (steady_of_frame fun _ _ hframe hw => hframe.trans hw) effect

section Events

variable {γ : Type} {look : World → γ}

theorem forEvent_applyEffects_fixes (h : ∀ effect : Effect, effect.apply.Fixes look) (event : String)
    (ctx : EffectContext) (texts : List String) :
    (forEvent event (applyEffects ctx texts)).Fixes look :=
  Fixes.adapt ((Fixes.mapM (createEffect_fixes ctx)).bind fun _ => Fixes.forM h) _

theorem respond_fixes (h : ∀ effect : Effect, effect.apply.Fixes look) (event : String)
    (ctx : EffectContext) (response : EventResponse) : (respond event ctx response).Fixes look :=
  fixes_get.bind fun _ => (fixes_ofFacts _).bind fun _ => Fixes.ite
    (Fixes.forM fun scope => forEvent_applyEffects_fixes h event scope _) (fixes_pure _)

/-- What every effect leaves as it is, every event leaves as it is. -/
theorem dispatch_fixes (h : ∀ effect : Effect, effect.apply.Fixes look) (event : String)
    (agents : List String) : (dispatch event agents).Fixes look :=
  (fixes_look _ _).bind fun _ => Fixes.forM (respond_fixes h event _)

end Events

end Act

/-! ## Who is there -/

namespace World

/-- The same agents with the same types and links are there, the same relationships, and the same
schemas, traits, rules and events. The library of effects needs no field: it is the constant
`EffectForm.all` in every world. -/
structure SamePresence (w w' : World) : Prop where
  agents : ∀ uid, (w'.agent? uid).map (fun a => (a.uid, a.agentType, a.outgoing, a.incoming)) =
    (w.agent? uid).map fun a => (a.uid, a.agentType, a.outgoing, a.incoming)
  relationships : ∀ owner target, (w'.relationship? owner target).map (fun r => (r.owner, r.target)) =
    (w.relationship? owner target).map fun r => (r.owner, r.target)
  agentSchemas : w'.agentSchemas = w.agentSchemas
  relationshipSchemas : w'.relationshipSchemas = w.relationshipSchemas
  traits : w'.traits = w.traits
  rules : w'.rules = w.rules
  events : w'.events = w.events

theorem samePresence_of_frame {w w' : World} (h : w'.frame = w.frame) : w.SamePresence w' where
  agents uid := by
    have hmap := congrArg
      (fun w => (w.agent? uid).map fun a => (a.uid, a.agentType, a.outgoing, a.incoming)) h
    simp only [agent?_frame, Option.map_map] at hmap
    exact hmap
  relationships owner target := by
    have hmap := congrArg
      (fun w => (w.relationship? owner target).map fun r => (r.owner, r.target)) h
    simp only [relationship?_frame, Option.map_map] at hmap
    exact hmap
  agentSchemas := congrArg (·.agentSchemas) h
  relationshipSchemas := congrArg (·.relationshipSchemas) h
  traits := congrArg (·.traits) h
  rules := congrArg (·.rules) h
  events := congrArg (·.events) h

/-- While an event is dispatched, the effects of one of its responses are created in a context, and
`v` is the world by then: the responses before have followed, the preconditions of this one held in
the world that they left, and its effects have been applied in the contexts before. -/
inductive Creates (w : World) (event : String) (agents : List String) :
    EventResponse → EffectContext → World → Prop
  | intro {e : SocialEvent} {before after : List EventResponse} {response : EventResponse} {u v : World}
      {answer : QueryResult} {scopes rest : List EffectContext} {scope : EffectContext}
      (registered : w.events.get? (SocialEvent.symbolOf event agents.length) = some e)
      (split : e.responses = before ++ response :: after)
      (followed : (before.forM (Act.respond event (Act.eventContext e agents))).runOn w =
        (.ok ⟨⟩, u))
      (queried : u.facts.query response.preconditions [(Act.eventContext e agents).bindings] =
        .ok answer)
      (success : answer.success = true)
      (scopes_eq : Act.responseContexts (Act.eventContext e agents) response answer =
        scopes ++ scope :: rest)
      (applied : (scopes.forM fun scope =>
        Act.forEvent event (Act.applyEffects scope response.effects)).runOn u = (.ok ⟨⟩, v)) :
      Creates w event agents response scope v

variable {w v : World} {event : String} {agents : List String} {response : EventResponse}
  {scope : EffectContext}

/-- Nobody has come or gone by the time that effects are created. -/
theorem Creates.frame_eq (h : w.Creates event agents response scope v) : v.frame = w.frame := by
  cases h with
  | @intro e before _ _ u _ _ scopes _ _ _ _ hfollowed _ _ _ happlied =>
      have hu : u.frame = w.frame := by
        have hfixes := (Act.Fixes.forM (l := before)
          (Act.respond_fixes Act.apply_fixes_frame event (Act.eventContext e agents))).eq w
        rwa [hfollowed] at hfixes
      have hv := (Act.Fixes.forM (l := scopes) fun scope =>
        Act.forEvent_applyEffects_fixes Act.apply_fixes_frame event scope response.effects).eq u
      rw [happlied] at hv
      exact hv.trans hu

/-- An event that fails for one of its effects fails where effects are created, or where those that
were created are applied. -/
theorem exists_creates_of_dispatch {w' : World} {name : String} {cause : WorldError}
    (h : (Act.dispatch event agents).runOn w = (.error (.eventFailed name cause), w')) :
    name = event ∧ ∃ response scope v, w.Creates event agents response scope v ∧
      (Act.applyEffects scope response.effects).runOn v = (.error cause, w') := by
  have hlook : (Act.requireEvent (SocialEvent.symbolOf event agents.length)).runOn w =
      (Act.orElse (w.events.get? (SocialEvent.symbolOf event agents.length))
        (.eventNotFound (SocialEvent.symbolOf event agents.length))).runOn w := rfl
  rw [Act.dispatch, Act.runOn_bind, hlook] at h
  cases he : w.events.get? (SocialEvent.symbolOf event agents.length) with
  | none =>
      rw [he] at h
      cases h
  | some e =>
      rw [he] at h
      obtain ⟨before, response, after, u, hsplit, hfollowed, hresponse⟩ :=
        Act.exists_of_forM_eq_error h
      obtain ⟨hname, answer, scopes, scope, rest, v, hquery, hsuccess, hscopes, happlied, hlast⟩ :=
        Act.exists_of_respond_eq_error hresponse
      exact ⟨hname, response, scope, v,
        .intro he hsplit hfollowed hquery hsuccess hscopes happlied, hlast⟩

/-- Time and events leave everybody there, with the same types and links, and the libraries of traits,
rules and events as they are, while the effects are the same in every world; an event leaves the
relationship modifiers, too. So whatever has been applied before, an effect that was created misses
nobody, and an event that fails because an agent or a relationship is missing fails where an effect
is created. -/
theorem Reached.presence (hw : w.Reached) :
    (∀ event agents, w.SamePresence (w.after (.dispatch event agents)) ∧
      ∀ e, (w.after (.dispatch event agents)).attached e = w.attached e) ∧
    w.SamePresence (w.after .tick) ∧
    (∀ event agents response scope v, w.Creates event agents response scope v →
      ∀ effects, (response.effects.mapM (Act.createEffect scope)).runOn v = (.ok effects, v) →
      ∀ error w', (effects.forM Effect.apply).runOn v = (.error error, w') →
        error.isMissing = false) ∧
    (∀ event agents name cause w',
      (Act.dispatch event agents).runOn w = (.error (.eventFailed name cause), w') →
      cause.isMissing = true → name = event ∧ ∃ response scope,
        w.Creates event agents response scope w' ∧
        (response.effects.mapM (Act.createEffect scope)).runOn w' = (.error cause, w')) := by
  have hlinked : w.Linked := hw.readable.linked
  have hfinds : ∀ {event agents response scope v}, w.Creates event agents response scope v →
      ∀ effects v', (response.effects.mapM (Act.createEffect scope)).runOn v = (.ok effects, v') →
      ∀ error w', (effects.forM Effect.apply).runOn v = (.error error, w') →
        error.isMissing = false := by
    intro event agents response scope v h effects v' heffects error w' herror
    have hrun := Act.forM_apply_finds (hlinked.of_frame h.frame_eq) heffects v rfl
    rwa [herror] at hrun
  refine ⟨fun event agents => ⟨?_, fun e => ?_⟩, ?_, fun _ _ _ _ v h effects heffects =>
    hfinds h effects v heffects, ?_⟩
  · exact samePresence_of_frame ((Act.dispatch_fixes Act.apply_fixes_frame event agents).eq w)
  · exact (Act.dispatch_fixes (fun effect => Act.apply_fixes_attached effect e) event agents).eq w
  · have htick : Act.tick.Fixes frame := fun _ =>
      Act.ensures_tick (Act.steady_of_frame fun _ _ hframe hw => hframe.trans hw)
    exact samePresence_of_frame (htick.eq w)
  · intro event agents name cause w' h hmissing
    obtain ⟨hname, response, scope, v, hcreates, hrun⟩ := exists_creates_of_dispatch h
    refine ⟨hname, response, scope, ?_⟩
    have hcreated := Act.mapM_createEffect_leads v scope response.effects
    obtain herror | ⟨effects, v', heffects, happly⟩ := Act.exists_of_bind_eq_error hrun
    · obtain rfl : w' = v := (Act.leads_iff_runOn.mp hcreated).2 _ _ herror
      exact ⟨hcreates, herror⟩
    · obtain rfl : v' = v := (hcreated.ok heffects).1
      exact absurd (hfinds hcreates effects v' heffects cause w' happly) (by simp [hmissing])

/-- Whoever is met is brave from then on, but nobody has told what that is. -/
def meeting : SocialEvent :=
  ⟨"meet", ["?who"], "", [⟨[], ["AddAgentTrait ?who brave"], ""⟩]⟩

/-- Ann can be met, and Bob cannot. -/
def meetingRun : List Command := [
  .addEvent meeting, .addAgentSchema ⟨"person", [], []⟩, .addAgent "person" "ann"]

theorem creates_of_meeting :
    (meetingRun.foldl World.after ∅).Creates "meet" ["ann"]
      ⟨[], ["AddAgentTrait ?who brave"], ""⟩
      ((Act.eventContext meeting ["ann"]).withBindings (.ofList [("?who", .text "ann")]))
      (meetingRun.foldl World.after ∅) := by
  exact @Creates.intro _ _ _ meeting [] [] _ (meetingRun.foldl World.after ∅) _
    ⟨true, [.ofList [("?who", .text "ann")]]⟩ [] [] _ rfl rfl rfl rfl rfl rfl rfl

/-- Ann cannot be made brave, which is not for want of her; Bob is missed where he is to be. -/
theorem presence_of_meeting :
    ∃ w w' : World, w.Reached ∧ w.SamePresence (w.after (.dispatch "meet" ["ann"])) ∧
      (∃ response scope effects error v, w.Creates "meet" ["ann"] response scope w ∧
        (response.effects.mapM (Act.createEffect scope)).runOn w = (.ok effects, w) ∧
        (effects.forM Effect.apply).runOn w = (.error error, v) ∧ error.isMissing = false) ∧
      (Act.dispatch "meet" ["bob"]).runOn w =
        (.error (.eventFailed "meet" (.agentNotFound "bob")), w') ∧
      ∃ response scope, w.Creates "meet" ["bob"] response scope w' ∧
        (response.effects.mapM (Act.createEffect scope)).runOn w' =
          (.error (.agentNotFound "bob"), w') := by
  have hw : World.Reached (meetingRun.foldl World.after ∅) := (Reachable.empty.run _).reached
  obtain ⟨hevent, -, happly, hmissing⟩ := hw.presence
  have heffects : (["AddAgentTrait ?who brave"].mapM (Act.createEffect
      ((Act.eventContext meeting ["ann"]).withBindings (.ofList [("?who", .text "ann")])))).runOn
      (meetingRun.foldl World.after ∅) =
      (.ok [.addTrait (.agent "ann") "brave" (-1) none], meetingRun.foldl World.after ∅) := rfl
  have hfails : ([Effect.addTrait (.agent "ann") "brave" (-1) none].forM Effect.apply).runOn
      (meetingRun.foldl World.after ∅) =
      (.error (.traitNotFound "brave"), meetingRun.foldl World.after ∅) := rfl
  have hbob : (Act.dispatch "meet" ["bob"]).runOn (meetingRun.foldl World.after ∅) =
      (.error (.eventFailed "meet" (.agentNotFound "bob")), meetingRun.foldl World.after ∅) := rfl
  exact ⟨_, _, hw, (hevent "meet" ["ann"]).1, ⟨_, _, _, _, _, creates_of_meeting, heffects, hfails,
    happly _ _ _ _ _ creates_of_meeting _ heffects _ _ hfails⟩, hbob,
    (hmissing _ _ _ _ _ hbob rfl).2⟩

end World

end Society
