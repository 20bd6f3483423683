import Society.World.Time
import Society.Decimal.Reader
import Society.Text.Integer

/-!
# Effects

An effect is written as a name and arguments. Creating it checks the arguments against the world, and
applying it changes the world.
-/

namespace Society

/-- What an effect does to its entity. -/
inductive EffectKind where
  | addTrait
  | removeTrait
  | buff
  | increment
deriving DecidableEq, Repr

/-- An effect that can be asked for by name. -/
structure EffectForm where
  name : String
  kind : EffectKind
  subject : EntityKind
deriving DecidableEq, Repr

namespace EffectForm

/-- All effects that there are. -/
def all : List EffectForm := [
  ⟨"AddAgentTrait", .addTrait, .agent⟩,
  ⟨"RemoveAgentTrait", .removeTrait, .agent⟩,
  ⟨"AddRelationshipTrait", .addTrait, .relationship⟩,
  ⟨"RemoveRelationshipTrait", .removeTrait, .relationship⟩,
  ⟨"AddAgentStatBuff", .buff, .agent⟩,
  ⟨"IncrementAgentBaseStat", .increment, .agent⟩,
  ⟨"IncreaseRelationshipStat", .increment, .relationship⟩,
  ⟨"AddRelationshipStatBuff", .buff, .relationship⟩]

def ofName? (name : String) : Option EffectForm :=
  all.find? (·.name = name)

/-- The number of arguments that name the entity. -/
def subjectArgs (f : EffectForm) : Nat :=
  match f.subject with
  | .agent => 1
  | .relationship => 2

/-- The number of arguments that have to be there. -/
def leastArgs (f : EffectForm) : Nat :=
  match f.kind with
  | .addTrait | .removeTrait => f.subjectArgs + 1
  | .buff | .increment => f.subjectArgs + 2

end EffectForm

/-- An effect that is ready to be applied. -/
inductive Effect where
  | addTrait (entity : Entity) (trait : String) (duration : Int) (description : Option String)
  | removeTrait (entity : Entity) (trait : String)
  | buff (effect : String) (entity : Entity) (stat : String) (amount : Float) (duration : Int)
  | increment (entity : Entity) (stat : String) (delta : Float)
deriving DecidableEq

namespace Effect

/-- The text that an argument stands for. -/
def resolve (ctx : EffectContext) (arg : String) : Except WorldError String :=
  match ctx.resolve? arg with
  | some text => .ok text
  | none => .error (.unboundVariable arg)

/-- The entity that the first arguments name, which has to be there. -/
def subject (w : World) (ctx : EffectContext) (kind : EntityKind) (args : List String) :
    Except WorldError Entity := do
  let arg (i : Nat) := resolve ctx (args.getD i "")
  let e ← match kind with
    | .agent => do pure (Entity.agent (← arg 0))
    | .relationship => do pure (Entity.relationship (← arg 0) (← arg 1))
  if (w.sheet? e).isNone then throw e.notFound
  return e

/-- A duration, for ever if there is none. -/
def duration (effect : String) : Option String → Except WorldError Int
  | none => .ok (-1)
  | some arg =>
    match Text.int32? arg.toList with
    | some ticks => .ok ticks
    | none => .error (.effectArguments effect (.notADuration arg))

/-- A finite number. -/
def number (effect arg : String) : Except WorldError Float :=
  match Decimal.finite? arg.toList with
  | some x => .ok x
  | none => .error (.effectArguments effect (.notANumber arg))

/-- The description that the context gives, unless it is empty. -/
def describe (ctx : EffectContext) : Option String :=
  if ctx.description.isEmpty then none else some ctx.description

/-- Creates an effect of a form from its arguments. -/
def ofArgs (w : World) (ctx : EffectContext) (form : EffectForm) (args : List String) :
    Except WorldError Effect := do
  if args.length < form.leastArgs then
    throw (.effectArguments form.name (.tooFew form.leastArgs args))
  let entity ← subject w ctx form.subject args
  let rest := args.drop form.subjectArgs
  let first := rest.getD 0 ""
  match form.kind with
  | .addTrait => return .addTrait entity first (← duration form.name rest[1]?) (describe ctx)
  | .removeTrait => return .removeTrait entity first
  | .buff =>
    let amount ← number form.name (rest.getD 1 "")
    return .buff form.name entity first amount (← duration form.name rest[2]?)
  | .increment => return .increment entity first (← number form.name (rest.getD 1 ""))

/-- Creates the effect that a text asks for. -/
def parse (w : World) (ctx : EffectContext) (text : String) : Except WorldError Effect :=
  let parts := Text.words text
  match EffectForm.ofName? (parts.headD "") with
  | some form => ofArgs w ctx form parts.tail
  | none => .error (.unknownEffect (parts.headD ""))

/-- Lets the effect change the world. -/
def apply : Effect → Act Unit
  | addTrait e id duration description => discard (Act.addTrait e id duration description)
  | removeTrait e id => discard (Act.removeTrait e id)
  | buff effect e stat amount duration => do
    let sheet ← Act.requireSheet e
    discard <| Act.orElse (sheet.stats.get? stat) (.statNotFound stat)
    let spec : ModifierSpec := ⟨stat, amount, .flat⟩
    let m := spec.instance (← Act.freshId) (some (.effect effect))
    Act.changeStats e (·.attach [{ m with timer := .ofDuration duration }])
  | increment e stat delta => Act.changeStat e stat fun s => ((), s.increment delta)

end Effect

namespace Act

/-- Creates the effect that a text asks for. -/
def createEffect (ctx : EffectContext) (text : String) : Act Effect := do
  match Effect.parse (← get) ctx text with
  | .ok effect => return effect
  | .error e => throw e

/-- Creates all effects of a list, and then applies them in order. -/
def applyEffects (ctx : EffectContext) (texts : List String) : Act Unit := do
  let effects ← texts.mapM (createEffect ctx)
  effects.forM Effect.apply

/-- An act whose errors are causes for an event to fail. -/
def forEvent (event : String) (act : Act Unit) : Act Unit :=
  ExceptT.adapt (.eventFailed event) act

/-- The contexts in which the effects of a response are created: one for each row of the answer of
its preconditions, or the context of the event if there are no rows. -/
def responseContexts (ctx : EffectContext) (response : EventResponse) (answer : QueryResult) :
    List EffectContext :=
  let scopes := if answer.rows.isEmpty then [ctx] else answer.rows.map ctx.withBindings
  if response.description.isEmpty then scopes
  else scopes.map fun scope => scope.withTemplate response.description

/-- Lets a response to an event follow, if its preconditions hold. -/
def respond (event : String) (ctx : EffectContext) (response : EventResponse) : Act Unit := do
  let answer ← ofFacts ((← get).facts.query response.preconditions [ctx.bindings])
  if answer.success then
    (responseContexts ctx response answer).forM fun scope =>
      forEvent event (applyEffects scope response.effects)

/-- The context of an event whose roles are taken by agents in order. -/
def eventContext (event : SocialEvent) (agents : List String) : EffectContext :=
  ⟨event.description, Dict.ofList ((event.roles.zip agents).map fun (role, uid) => (role, .text uid))⟩

/-- Lets an event happen between agents. -/
def dispatch (event : String) (agents : List String) : Act Unit := do
  let e ← requireEvent (SocialEvent.symbolOf event agents.length)
  e.responses.forM (respond event (eventContext e agents))

end Act

end Society
