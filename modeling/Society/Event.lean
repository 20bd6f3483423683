import Society.Node.Value
import Society.Text.Fill

/-!
# Social events

An event has roles, which agents take when it is dispatched, and responses: effects that follow if
their preconditions hold. Effects are created in a context that binds the roles and tells what
happened.
-/

namespace Society

structure EventResponse where
  preconditions : List String
  effects : List String
  /-- Takes the place of the event's description unless it is empty. -/
  description : String

structure SocialEvent where
  name : String
  roles : List String
  description : String
  responses : List EventResponse

/-- The key of an event: events of one name may differ in the number of their roles. -/
def SocialEvent.symbolOf (name : String) (roles : Nat) : String :=
  name ++ "/" ++ toString roles

def SocialEvent.symbol (e : SocialEvent) : String :=
  symbolOf e.name e.roles.length

/-- What is bound while effects are created, and the template that describes what happened. -/
structure EffectContext where
  template : String
  bindings : RawBindings

namespace EffectContext

/-- The placeholder of a variable: its name in brackets, without the question mark. -/
def placeholder (variableName : String) : String :=
  let name := match variableName.toList with
    | '?' :: cs => String.ofList cs
    | _ => variableName
  "[" ++ name ++ "]"

/-- The template with the placeholders of all bound variables filled, one variable after the other. -/
def description (ctx : EffectContext) : String :=
  ctx.bindings.entries.foldl
    (fun text (name, value) => Text.fill (placeholder name) value.display text) ctx.template

/-- The context with further bindings, which hide the old ones. -/
def withBindings (ctx : EffectContext) (more : RawBindings) : EffectContext :=
  { ctx with
    bindings := more.entries.foldl (fun row (name, value) => row.insert name value) ctx.bindings }

def withTemplate (ctx : EffectContext) (template : String) : EffectContext :=
  { ctx with template }

/-- The text that an effect's argument stands for, unless it is a variable that is not bound. -/
def resolve? (ctx : EffectContext) (arg : String) : Option String :=
  if arg.toList.head? = some '?' then (ctx.bindings.get? arg).map RawValue.display else some arg

end EffectContext

end Society
