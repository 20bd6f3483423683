import Society.Config.Basic
import Society.Config.Uuid
import Society.Document.Toml.Reader

/-!
# Reading configurations

A configuration is a document. Fields that are not known are passed over, and a section that is
missing is empty. A document from a TOML text may depart further from the form of a configuration
than one from a JSON text.
-/

namespace Society

/-- How closely a document has to keep to the form of what is read from it. -/
inductive Rigor where
  /-- A list for a record has at most as many items as the record has fields, only null stands for
  nothing, and an identifier is a text. -/
  | strict
  /-- A list for a record may go on, an empty list or table stands for nothing too, and an
  identifier may be given by its bytes. -/
  | lenient
deriving DecidableEq, Repr

namespace Document

def text? : Document → Option String
  | .text s => some s
  | _ => none

def bool? : Document → Option Bool
  | .bool b => some b
  | _ => none

/-- A number; an integer is a number too. -/
def number? : Document → Option Float
  | .float x => some x
  | .int i => some (Float.ofInt i)
  | _ => none

def list? {α : Type} (read : Document → Option α) : Document → Option (List α)
  | .list items => items.mapM read
  | _ => none

def texts? : Document → Option (List String) :=
  list? text?

/-- A value that may be missing. -/
def option? {α : Type} (read : Document → Option α) : Document → Option (Option α)
  | .null => some none
  | d => (read d).map some

/-- A natural number of 32 bits. -/
def count? : Document → Option Nat
  | .int i => if 0 ≤ i ∧ i < 0x100000000 then some i.toNat else none
  | _ => none

/-- A byte. -/
def byte? : Document → Option Nat
  | .int i => if 0 ≤ i ∧ i < 0x100 then some i.toNat else none
  | _ => none

/-- An identifier: its text, or a list that begins with its bytes. -/
def uuid? (rigor : Rigor) : Document → Option String
  | .text s => Uuid.parse? s
  | .list items =>
    if rigor = .strict ∨ items.length < 16 then none
    else ((items.take 16).mapM byte?).map Uuid.ofBytes
  | _ => none

/-- Whether a document stands for nothing. -/
def isNothing (rigor : Rigor) : Document → Bool
  | .null => true
  | .list [] => rigor = .lenient
  | .table [] => rigor = .lenient
  | _ => false

/-- One of some names: the name, or a table with the name as its only key and nothing under it. -/
def oneOf? {α : Type} (rigor : Rigor) (names : List (String × α)) : Document → Option α
  | .text s => names.lookup s
  | .table [(s, d)] => if d.isNothing rigor then names.lookup s else none
  | _ => none

/-- A record by the names of its fields. A list gives the fields in their order, and a moment is a
record without fields. -/
def record? (rigor : Rigor) (names : List String) : Document → Option Document
  | .table fields => some (.table fields)
  | .list items =>
    if rigor = .strict ∧ names.length < items.length then none
    else some (.table (names.zip items))
  | .moment => some (.table [])
  | _ => none

/-- A field that has to be there. -/
def required {α : Type} (d : Document) (name : String) (read : Document → Option α) : Option α :=
  (d.field? name).bind read

/-- A field that may be missing, but that has to be right if it is there. -/
def optional {α : Type} (d : Document) (name : String) (read : Document → Option α) (default : α) :
    Option α :=
  match d.field? name with
  | some value => read value
  | none => some default

end Document

namespace Config

variable (rigor : Rigor)

def modifierSpec? (d : Document) : Option ModifierSpec := do
  let d ← d.record? rigor ["stat", "value", "modifier_type"]
  return {
    stat := ← d.required "stat" Document.text?
    amount := ← d.required "value" Document.number?
    kind := ← d.optional "modifier_type"
      (Document.oneOf? rigor [("flat", .flat), ("percent_add", .percentAdd),
        ("percent_multiply", .percentMultiply)]) .flat }

def statSchema? (d : Document) : Option StatSchema := do
  let d ← d.record? rigor ["stat", "base_value", "min_value", "max_value", "is_discrete"]
  return {
    stat := ← d.required "stat" Document.text?
    base := ← d.optional "base_value" Document.number? 0
    bounds := {
      least := ← d.optional "min_value" Document.number? Stat.wideBounds.least
      greatest := ← d.optional "max_value" Document.number? Stat.wideBounds.greatest
      discrete := ← d.optional "is_discrete" Document.bool? false } }

def trait? (d : Document) : Option Trait := do
  let d ← d.record? rigor
    ["trait_id", "trait_type", "name", "description", "modifiers", "conflicting_traits"]
  return {
    id := ← d.required "trait_id" Document.text?
    kind := ← d.required "trait_type"
      (Document.oneOf? rigor [("agent", .agent), ("relationship", .relationship)])
    name := ← d.required "name" Document.text?
    description := ← d.optional "description" Document.text? ""
    modifiers := ← d.optional "modifiers" (Document.list? (modifierSpec? rigor)) []
    conflicts := TextSet.ofList (← d.optional "conflicting_traits" Document.texts? []) }

def rule? (d : Document) : Option SocialRule := do
  let d ← d.record? rigor ["rule_id", "description", "preconditions", "modifiers"]
  return {
    id := ← d.required "rule_id" Document.text?
    description := ← d.optional "description" Document.text? ""
    preconditions := ← d.optional "preconditions" Document.texts? []
    modifiers := ← d.optional "modifiers" (Document.list? (modifierSpec? rigor)) [] }

def response? (d : Document) : Option EventResponse := do
  let d ← d.record? rigor ["preconditions", "effects", "description"]
  return {
    preconditions := ← d.optional "preconditions" Document.texts? []
    effects := ← d.optional "effects" Document.texts? []
    description := ← d.optional "description" Document.text? "" }

def event? (d : Document) : Option SocialEvent := do
  let d ← d.record? rigor ["name", "roles", "description", "responses"]
  return {
    name := ← d.required "name" Document.text?
    roles := ← d.required "roles" Document.texts?
    description := ← d.optional "description" Document.text? ""
    responses := ← d.optional "responses" (Document.list? (response? rigor)) [] }

def agentSchema? (d : Document) : Option AgentSchema := do
  let d ← d.record? rigor ["agent_type", "stats", "traits"]
  return {
    agentType := ← d.required "agent_type" Document.text?
    stats := ← d.optional "stats" (Document.list? (statSchema? rigor)) []
    traits := ← d.optional "traits" Document.texts? [] }

def relationshipSchema? (d : Document) : Option RelationshipSchema := do
  let d ← d.record? rigor ["owner_type", "target_type", "stats", "traits"]
  return {
    ownerType := ← d.required "owner_type" Document.text?
    targetType := ← d.required "target_type" Document.text?
    stats := ← d.optional "stats" (Document.list? (statSchema? rigor)) []
    traits := ← d.optional "traits" Document.texts? [] }

/-- A relationship modifier, with its id if there is one. -/
def relationshipModifier? (d : Document) : Option (Option String × RelationshipModifier) := do
  let d ← d.record? rigor
    ["id", "description", "direction", "preconditions", "modifiers", "remaining_duration"]
  let id ← d.optional "id" (fun d => (d.uuid? rigor).map some) none
  let m : RelationshipModifier := {
    description := ← d.required "description" Document.text?
    direction := ← d.required "direction"
      (Document.oneOf? rigor [("incoming", .incoming), ("outgoing", .outgoing)])
    preconditions := ← d.optional "preconditions" Document.texts? []
    modifiers := ← d.optional "modifiers" (Document.list? (modifierSpec? rigor)) []
    timer := ← d.optional "remaining_duration" (Document.option? Document.count?) none }
  return (id, m)

def agentEntry? (d : Document) : Option AgentEntry := do
  let d ← d.record? rigor ["uid", "agent_type", "traits", "relationship_modifiers"]
  return {
    uid := ← d.required "uid" Document.text?
    agentType := ← d.required "agent_type" Document.text?
    traits := ← d.optional "traits" Document.texts? []
    modifiers := ← d.optional "relationship_modifiers"
      (Document.list? (relationshipModifier? rigor)) [] }

def relationshipEntry? (d : Document) : Option RelationshipEntry := do
  let d ← d.record? rigor ["owner", "target", "relationship_type", "traits"]
  return {
    owner := ← d.required "owner" Document.text?
    target := ← d.required "target" Document.text?
    kind := ← d.optional "relationship_type" (Document.option? Document.text?) none
    traits := ← d.optional "traits" Document.texts? [] }

/-- The configuration that a document describes. -/
def ofDocument? (d : Document) : Option Config := do
  let d ← d.record? rigor
    ["agent_schemas", "relationship_schemas", "traits", "social_rules", "social_events", "facts",
      "agents", "relationships"]
  return {
    agentSchemas := ← d.optional "agent_schemas" (Document.list? (agentSchema? rigor)) []
    relationshipSchemas := ← d.optional "relationship_schemas"
      (Document.list? (relationshipSchema? rigor)) []
    traits := ← d.optional "traits" (Document.list? (trait? rigor)) []
    rules := ← d.optional "social_rules" (Document.list? (rule? rigor)) []
    events := ← d.optional "social_events" (Document.list? (event? rigor)) []
    facts := ← d.optional "facts" Document.texts? []
    agents := ← d.optional "agents" (Document.list? <| agentEntry? rigor) []
    relationships := ← d.optional "relationships" (Document.list? <| relationshipEntry? rigor) [] }

/-- The configuration that a TOML text describes. -/
def ofToml? (s : String) : Option Config :=
  (Toml.read? s).bind (ofDocument? .lenient)

end Config

end Society
