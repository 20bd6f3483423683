import Society.Proofs.Sheet.Balance
import Society.Proofs.World.Act
import Society.World.Evaluation

/-!
# Influences

A rule and a relationship modifier influence a relationship in the same way: while its preconditions
hold, what it declares is attached, and it is listed. So an evaluation takes off what the last one
attached and applies one influence after the other, and whatever these two keep is kept by every
evaluation.
-/

namespace Society

/-- The entry of a rule that applies to a relationship. -/
def SocialRule.entry (owner target : String) (rule : SocialRule) : ActiveRule :=
  ⟨rule.id, (Entity.relationship owner target).fillIn rule.description⟩

/-- What may apply to a relationship: a rule, or a relationship modifier of one of its agents. -/
inductive Influence where
  | rule (x : SocialRule)
  | modifier (x : AttachedModifier)

namespace Influence

def source : Influence → ModifierSource
  | .rule x => .rule x.id
  | .modifier x => .relationshipModifier x.id

def preconditions : Influence → List String
  | .rule x => x.preconditions
  | .modifier x => x.preconditions

def modifiers : Influence → List ModifierSpec
  | .rule x => x.modifiers
  | .modifier x => x.modifiers

/-- The modifiers that are declared, each with the influence as its source. -/
def declared (i : Influence) : List (ModifierSource × ModifierSpec) :=
  i.modifiers.map (i.source, ·)

/-- How it is listed among the rules. -/
def asRule? (owner target : String) : Influence → Option ActiveRule
  | .rule x => some (x.entry owner target)
  | .modifier _ => none

/-- How it is listed among the relationship modifiers. -/
def asModifier? : Influence → Option ModifierId
  | .rule _ => none
  | .modifier x => some x.id

theorem isEvaluated_source (i : Influence) : i.source.isEvaluated = true := by
  cases i <;> rfl

end Influence

namespace Act

/-! ## An evaluation as a loop over influences -/

/-- Attaches what an influence declares and lists it, if its preconditions hold. -/
def applyInfluence (owner target : String) (i : Influence) : Act Unit := do
  if ← preconditionsHold owner target i.preconditions then
    attach (.relationship owner target) i.source i.modifiers
    modify fun w => w.modifyRelationship owner target fun r =>
      { r with
        activeRules := r.activeRules ++ (i.asRule? owner target).toList
        activeModifiers := r.activeModifiers ++ i.asModifier?.toList }

variable {P : World → Prop} {owner target uid : String}

theorem applyRule_eq (rule : SocialRule) :
    applyRule owner target rule = applyInfluence owner target (.rule rule) := by
  simp [applyRule, applyInfluence, Influence.asRule?, Influence.asModifier?,
    Influence.preconditions, Influence.source, Influence.modifiers, SocialRule.entry]

theorem applyModifier_eq (m : AttachedModifier) :
    applyModifier owner target m = applyInfluence owner target (.modifier m) := by
  simp [applyModifier, applyInfluence, Influence.asRule?, Influence.asModifier?,
    Influence.preconditions, Influence.source, Influence.modifiers]

theorem reevaluate_eq (owner target : String) :
    reevaluate owner target = (do
      forgetActive owner target
      ((← get).rules.map .rule).forM (applyInfluence owner target)
      ((projected (← get) owner target).map .modifier).forM (applyInfluence owner target)) := by
  simp [reevaluate, funext applyRule_eq, funext applyModifier_eq]

/-! ## What evaluations keep -/

theorem preconditionsHold_keeps (owner target : String) (preconditions : List String) :
    (preconditionsHold owner target preconditions).Keeps P :=
  keeps_get.bind fun _ => (keeps_ofFacts _).bind fun _ => keeps_pure _

theorem reevaluate_keeps_of (hforget : (forgetActive owner target).Keeps P)
    (happly : ∀ i, (applyInfluence owner target i).Keeps P) : (reevaluate owner target).Keeps P := by
  rw [reevaluate_eq]
  exact hforget.bind fun _ => keeps_get.bind fun _ =>
    (Keeps.forM happly).bind fun _ => keeps_get.bind fun _ => Keeps.forM happly

theorem reevaluateAgent_keeps_of (hout : ∀ target, (reevaluate uid target).Keeps P)
    (hin : ∀ owner, (reevaluate owner uid).Keeps P) : (reevaluateAgent uid).Keeps P :=
  (keeps_look _ _).bind fun _ => (Keeps.forM hout).bind fun _ => Keeps.forM hin

theorem reevaluateAround_keeps_of (h : ∀ owner target, (reevaluate owner target).Keeps P)
    (e : Entity) : (reevaluateAround e).Keeps P := by
  cases e with
  | agent uid => exact reevaluateAgent_keeps_of (h uid) fun owner => h owner uid
  | relationship owner target => exact h owner target

theorem reevaluateAll_keeps_of (h : ∀ owner target, (reevaluate owner target).Keeps P) :
    reevaluateAll.Keeps P :=
  keeps_get.bind fun _ => Keeps.forM fun _ => h _ _

end Act

end Society
