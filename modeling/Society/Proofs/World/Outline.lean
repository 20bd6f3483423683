import Society.Dict.Lemmas
import Society.Proofs.World.Entries

/-!
# Outlines of a world

Most of what an act does is done to numbers. What is left of a world without its stats and timers is
its outline; without the rules that the last evaluation found, its face; and without the facts and
the traits that are held, its frame, which says who is there and who is linked to whom.
-/

namespace Society

def HeldTrait.outline (h : HeldTrait) : HeldTrait :=
  { h with timer := none }

@[simp] theorem HeldTrait.outline_comp_outline : outline ∘ outline = outline := rfl

@[simp] theorem HeldTrait.outline_comp_tick : outline ∘ tick = outline := rfl

def Sheet.outline (s : Sheet) : Sheet :=
  ⟨∅, s.traits.map HeldTrait.outline⟩

@[simp] theorem Sheet.outline_outline (s : Sheet) : s.outline.outline = s.outline := by
  simp [outline, Dict.map_map]

def Agent.outline (a : Agent) : Agent :=
  { a with sheet := a.sheet.outline, modifiers := [] }

def Agent.frame (a : Agent) : Agent :=
  { a with sheet := ⟨∅, ∅⟩, modifiers := [] }

def Relationship.outline (r : Relationship) : Relationship :=
  { r with sheet := r.sheet.outline, activeModifiers := [] }

def Relationship.face (r : Relationship) : Relationship :=
  { r with sheet := r.sheet.outline, activeRules := [], activeModifiers := [] }

def Relationship.frame (r : Relationship) : Relationship :=
  .create r.owner r.target []

namespace World

/-- The world with its agents and relationships seen through two functions, and without its
counters. -/
def mask (f : Agent → Agent) (g : Relationship → Relationship) (w : World) : World :=
  { w with
    agents := w.agents.map f
    relationships := w.relationships.map (·.map g)
    nextId := 0
    announcements := [] }

/-- The world without stats and timers. -/
def outline (w : World) : World :=
  w.mask Agent.outline Relationship.outline

/-- The world without stats, timers and what the last evaluations found. -/
def face (w : World) : World :=
  w.mask Agent.outline Relationship.face

/-- Who is there and who is linked to whom, and the libraries. -/
def frame (w : World) : World :=
  { w.mask Agent.frame Relationship.frame with facts := ∅ }

section Mask

variable {f : Agent → Agent} {g : Relationship → Relationship} {w : World}

theorem agent?_mask (w : World) (uid : String) : (w.mask f g).agent? uid = (w.agent? uid).map f :=
  Dict.get?_map _ _ _

theorem relationship?_mask (w : World) (owner target : String) :
    (w.mask f g).relationship? owner target = (w.relationship? owner target).map g := by
  simp only [mask, relationship?, Dict.get?_map]
  cases w.relationships.get? owner with
  | none => rfl
  | some targets => exact Dict.get?_map _ _ _

theorem mask_mask (f' : Agent → Agent) (g' : Relationship → Relationship) (w : World) :
    (w.mask f g).mask f' g' = w.mask (f' ∘ f) (g' ∘ g) := by
  simp [mask, Dict.map_map, Function.comp_def]

theorem mask_modifyAgent {uid : String} {h : Agent → Agent}
    (hf : ∀ a, w.agent? uid = some a → f (h a) = f a) :
    (w.modifyAgent uid h).mask f g = w.mask f g := by
  simp only [mask, modifyAgent, Dict.map_modify hf]

theorem mask_modifyRelationship {owner target : String} {h : Relationship → Relationship}
    (hg : ∀ r, w.relationship? owner target = some r → g (h r) = g r) :
    (w.modifyRelationship owner target h).mask f g = w.mask f g := by
  simp only [mask, modifyRelationship]
  congr 1
  refine Dict.map_modify fun targets ht => Dict.map_modify fun r hr => hg r ?_
  simp [relationship?, ht, hr]

theorem mask_setSheet {s new : Sheet} {e : Entity} (hs : w.sheet? e = some s)
    (hf : ∀ a : Agent, a.sheet = s → f { a with sheet := new } = f a)
    (hg : ∀ r : Relationship, r.sheet = s → g { r with sheet := new } = g r) :
    (w.setSheet new e).mask f g = w.mask f g := by
  cases e with
  | agent uid =>
      refine mask_modifyAgent fun a ha => hf a ?_
      simpa [sheet?, ha] using hs
  | relationship owner target =>
      refine mask_modifyRelationship fun r hr => hg r ?_
      simpa [sheet?, hr] using hs

end Mask

theorem outline_comp_outline : Agent.outline ∘ Agent.outline = Agent.outline := by
  funext a
  simp [Agent.outline]

theorem face_comp_outline : Relationship.face ∘ Relationship.outline = Relationship.face := by
  funext r
  simp [Relationship.face, Relationship.outline]

theorem face_outline (w : World) : w.outline.face = w.face := by
  rw [face, outline, mask_mask, outline_comp_outline, face_comp_outline]
  rfl

theorem frame_face (w : World) : w.face.frame = w.frame := by
  rw [frame, face, mask_mask]
  rfl

theorem agent?_frame (w : World) (uid : String) :
    w.frame.agent? uid = (w.agent? uid).map Agent.frame :=
  agent?_mask (g := Relationship.frame) w uid

theorem relationship?_frame (w : World) (owner target : String) :
    w.frame.relationship? owner target = (w.relationship? owner target).map Relationship.frame :=
  relationship?_mask (f := Agent.frame) w owner target

theorem face_eq_of_outline_eq {w w' : World} (h : w'.outline = w.outline) : w'.face = w.face := by
  rw [← face_outline w', h, face_outline]

theorem frame_eq_of_face_eq {w w' : World} (h : w'.face = w.face) : w'.frame = w.frame := by
  rw [← frame_face w', h, frame_face]

theorem outline_setStats {w : World} {e : Entity} {s : Sheet} (hs : w.sheet? e = some s)
    (stats : Stats) : (w.setSheet { s with stats } e).outline = w.outline := by
  refine mask_setSheet hs (fun a ha => ?_) fun r hr => ?_
  · simp [Agent.outline, Sheet.outline, ha]
  · simp [Relationship.outline, Sheet.outline, hr]

theorem outline_tickTraits {w : World} {e : Entity} {s : Sheet} (hs : w.sheet? e = some s) :
    (w.setSheet { s with traits := s.traits.tick } e).outline = w.outline := by
  have htick : s.traits.tick.map HeldTrait.outline = s.traits.map HeldTrait.outline := by
    simp [HeldTraits.tick, Dict.map_map]
  refine mask_setSheet hs (fun a ha => ?_) fun r hr => ?_
  · simp [Agent.outline, Sheet.outline, ha, htick]
  · simp [Relationship.outline, Sheet.outline, hr, htick]

theorem frame_setSheet (w : World) (new : Sheet) (e : Entity) :
    (w.setSheet new e).frame = w.frame := by
  have hmask : (w.setSheet new e).mask Agent.frame Relationship.frame =
      w.mask Agent.frame Relationship.frame := by
    cases e with
    | agent uid => exact mask_modifyAgent fun _ _ => rfl
    | relationship owner target => exact mask_modifyRelationship fun _ _ => rfl
  simp only [frame, hmask]

end World

/-! ## What is done to numbers -/

namespace Act

open World (outline face frame)

theorem changeStats_fixes (e : Entity) (f : Stats → Change Stats) :
    (changeStats e f).Fixes outline := by
  intro v w hw
  refine leads_bind.mpr (leads_look.mpr ⟨fun s hs => ?_, fun _ => hw⟩)
  exact (World.outline_setStats hs _).trans hw

theorem tickTraits_fixes (e : Entity) : (changeTraits e HeldTraits.tick).Fixes outline := by
  intro v w hw
  refine leads_bind.mpr (leads_look.mpr ⟨fun s hs => ?_, fun _ => hw⟩)
  exact (World.outline_tickTraits hs).trans hw

theorem freshId_fixes : freshId.Fixes outline := by
  intro v w hw
  exact hw

theorem instances_fixes (source : ModifierSource) (specs : List ModifierSpec) :
    (instances source specs).Fixes outline :=
  Fixes.mapM fun _ => freshId_fixes.bind fun _ => fixes_pure _

theorem requireStats_fixes {γ : Type} {look : World → γ} (e : Entity) (specs : List ModifierSpec) :
    (requireStats e specs).Fixes look :=
  fun _ => requireStats_keeps e specs

theorem attach_fixes (e : Entity) (source : ModifierSource) (specs : List ModifierSpec) :
    (attach e source specs).Fixes outline :=
  (requireStats_fixes e specs).bind fun _ => (instances_fixes source specs).bind fun _ =>
    changeStats_fixes e _

theorem tickSheet_fixes (e : Entity) : (tickSheet e).Fixes outline :=
  (tickTraits_fixes e).bind fun _ => (fixes_look _ _).bind fun _ =>
    (changeStats_fixes e _).bind fun _ => fixes_pure _

theorem changeModifiers_fixes {f : Agent → Agent} (hf : ∀ a, (f a).outline = a.outline)
    (uid : String) : (modify fun w => w.modifyAgent uid f : Act PUnit).Fixes outline :=
  fixes_modify fun _ => World.mask_modifyAgent fun a _ => hf a

end Act

end Society
