import Society.Fact.Error
import Society.Trait

/-!
# What can go wrong in a world

The causes for which a change of the world is refused, the words that say so, and for each error the
cause behind it.
-/

namespace Society

/-- Why the arguments of an effect are refused. -/
inductive ArgumentError where
  | tooFew (least : Nat) (args : List String)
  | notADuration (arg : String)
  | notANumber (arg : String)
deriving DecidableEq, Repr

inductive WorldError where
  /-- The facts refuse a sentence or a query. -/
  | facts (cause : FactError)
  | agentNotFound (uid : String)
  | duplicateAgent (uid : String)
  | relationshipNotFound (owner target : String)
  | duplicateRelationship (owner target : String)
  | agentSchemaNotFound (agentType : String)
  | relationshipSchemaNotFound (ownerType targetType : String)
  | traitNotFound (id : String)
  /-- The trait is for the other kind of entity. -/
  | traitKindMismatch (id : String) (expected : EntityKind)
  | statNotFound (stat : String)
  | ruleNotFound (id : String)
  | eventNotFound (symbol : String)
  | unknownEffect (name : String)
  | effectArguments (effect : String) (problem : ArgumentError)
  | unboundVariable (name : String)
  /-- An effect that an event calls for fails. -/
  | eventFailed (event : String) (cause : WorldError)
deriving DecidableEq, Repr

def ArgumentError.message : ArgumentError → String
  | .tooFew least args =>
    "expected at least " ++ toString least ++ " arguments but was " ++ toString args.length ++
      " ('" ++ " ".intercalate args ++ "')"
  | .notADuration arg => "expected integer duration but was '" ++ arg ++ "'"
  | .notANumber arg => "expected number but was '" ++ arg ++ "'"

namespace WorldError

/-- The error in words, which include those of its cause. -/
def message : WorldError → String
  | .facts cause => "Fact database error: " ++ cause.message
  | .agentNotFound uid => "Agent not found with ID: " ++ uid
  | .duplicateAgent uid => "Agent already exists with ID: " ++ uid
  | .relationshipNotFound owner target => "No relationship found from " ++ owner ++ " to " ++ target
  | .duplicateRelationship owner target =>
    "Relationship already exists from " ++ owner ++ " to " ++ target
  | .agentSchemaNotFound t => "No schema found for agent type: " ++ t
  | .relationshipSchemaNotFound o t =>
    "No schema found for relationships from '" ++ o ++ "' to '" ++ t ++ "'"
  | .traitNotFound id => "Trait not found for " ++ id
  | .traitKindMismatch id expected =>
    "Trait (" ++ id ++ ") must be of type '" ++ expected.name ++ "'"
  | .statNotFound stat => "Could not find stat for " ++ stat
  | .ruleNotFound id => "Social rule not found for " ++ id
  | .eventNotFound symbol => "No social event found for: " ++ symbol
  | .unknownEffect name => "Cannot find effect factory for: " ++ name
  | .effectArguments effect problem =>
    "Invalid arguments for '" ++ effect ++ "': " ++ problem.message
  | .unboundVariable name => "Variable " ++ name ++ " has no binding"
  | .eventFailed event cause =>
    "Error encountered while applying effects for '" ++ event ++ "' event: " ++ cause.message

/-- The error in words, and behind it each deeper cause. -/
def chain : WorldError → List String
  | .facts cause => [(WorldError.facts cause).message, cause.message]
  | .eventFailed event cause => (WorldError.eventFailed event cause).message :: cause.chain
  | e => [e.message]

end WorldError

end Society
