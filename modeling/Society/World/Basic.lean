import Society.Entity
import Society.Event
import Society.Query

/-!
# Worlds

A world has facts, libraries of traits, rules and events, schemas, agents and relationships. An act
changes a world and may fail; what it has changed before it fails stays changed.
-/

namespace Society

/-- The state of a simulation. The effects that responses may name are no part of it, since nothing
adds to them: they are the constant `EffectForm.all`. -/
structure World where
  facts : FactDatabase
  traits : Dict Trait
  /-- The rules in the order in which they were added. -/
  rules : List SocialRule
  events : Dict SocialEvent
  agentSchemas : Dict AgentSchema
  /-- The schemas of relationships, by the type of the owner and then of the target. -/
  relationshipSchemas : Dict (Dict RelationshipSchema)
  agents : Dict Agent
  /-- The relationships, by the owner and then the target. -/
  relationships : Dict (Dict Relationship)
  /-- The number that the next modifier without an id is given. -/
  nextId : Nat
  /-- What observers of stats have been told. -/
  announcements : List Announcement

namespace World

def empty : World where
  facts := ∅
  traits := ∅
  rules := []
  events := ∅
  agentSchemas := ∅
  relationshipSchemas := ∅
  agents := ∅
  relationships := ∅
  nextId := 0
  announcements := []

instance : EmptyCollection World := ⟨empty⟩

instance : Inhabited World := ⟨empty⟩

def agent? (w : World) (uid : String) : Option Agent :=
  w.agents.get? uid

def relationship? (w : World) (owner target : String) : Option Relationship :=
  (w.relationships.get? owner).bind (·.get? target)

/-- All relationships, by the owner and then the target. -/
def allRelationships (w : World) : List Relationship :=
  w.relationships.values.flatMap Dict.values

def sheet? (w : World) : Entity → Option Sheet
  | .agent uid => (w.agent? uid).map (·.sheet)
  | .relationship owner target => (w.relationship? owner target).map (·.sheet)

def setAgent (w : World) (uid : String) (a : Agent) : World :=
  { w with agents := w.agents.insert uid a }

def setRelationship (w : World) (owner target : String) (r : Relationship) : World :=
  { w with
    relationships :=
      w.relationships.insert owner (((w.relationships.get? owner).getD ∅).insert target r) }

/-- Takes a relationship out, and with the last one of an owner the owner. -/
def eraseRelationship (w : World) (owner target : String) : World :=
  match w.relationships.get? owner with
  | none => w
  | some targets =>
    let left := targets.erase target
    { w with
      relationships :=
        if left.isEmpty then w.relationships.erase owner else w.relationships.insert owner left }

def modifyAgent (w : World) (uid : String) (f : Agent → Agent) : World :=
  { w with agents := w.agents.modify uid f }

def modifyRelationship (w : World) (owner target : String) (f : Relationship → Relationship) :
    World :=
  { w with relationships := w.relationships.modify owner (·.modify target f) }

/-- Writes the sheet of an entity anew. -/
def setSheet (w : World) (sheet : Sheet) : Entity → World
  | .agent uid => w.modifyAgent uid fun a => { a with sheet }
  | .relationship owner target => w.modifyRelationship owner target fun r => { r with sheet }

end World

/-- A change of a world that may fail. -/
abbrev Act := ExceptT WorldError (StateM World)

namespace Act

/-- What became of an act, and the world after it. -/
def runOn {α : Type} (act : Act α) (w : World) : Except WorldError α × World :=
  (act.run.run w)

/-- An answer from the facts, whose errors are errors of the world. -/
def ofFacts {α : Type} (answer : Except FactError α) : Act α :=
  match answer with
  | .ok a => pure a
  | .error e => throw (.facts e)

/-- The value, or an error if there is none. -/
def orElse {α : Type} (value? : Option α) (error : WorldError) : Act α :=
  match value? with
  | some a => pure a
  | none => throw error

def requireAgent (uid : String) : Act Agent := do
  orElse ((← get).agent? uid) (.agentNotFound uid)

def requireRelationship (owner target : String) : Act Relationship := do
  orElse ((← get).relationship? owner target) (.relationshipNotFound owner target)

def requireSheet (e : Entity) : Act Sheet := do
  orElse ((← get).sheet? e) e.notFound

/-- Changes the stats of an entity, and records what is announced. -/
def changeStats (e : Entity) (f : Stats → Change Stats) : Act Unit := do
  let sheet ← requireSheet e
  let change := f sheet.stats
  modify fun w =>
    { w.setSheet { sheet with stats := change.result } e with
      announcements := w.announcements ++ change.announced }

/-- Changes one stat of an entity, with an answer. -/
def changeStat {α : Type} (e : Entity) (name : String) (f : Stat → α × Change Stat) : Act α := do
  let sheet ← requireSheet e
  let stat ← orElse (sheet.stats.get? name) (.statNotFound name)
  changeStats e fun stats => stats.change name fun s => (f s).2
  return (f stat).1

/-- Changes the traits that an entity holds. -/
def changeTraits (e : Entity) (f : HeldTraits → HeldTraits) : Act Unit := do
  let sheet ← requireSheet e
  modify fun w => w.setSheet { sheet with traits := f sheet.traits } e

/-- Fails unless an entity has all stats that modifiers name. -/
def requireStats (e : Entity) (specs : List ModifierSpec) : Act Unit := do
  match (← requireSheet e).stats.missing? specs with
  | some stat => throw (.statNotFound stat)
  | none => pure ()

/-- An id that no modifier has. -/
def freshId : Act ModifierId := do
  let w ← get
  set { w with nextId := w.nextId + 1 }
  return .fresh w.nextId

/-- The modifiers of declarations, with fresh ids. -/
def instances (source : ModifierSource) (specs : List ModifierSpec) : Act (List StatModifier) :=
  specs.mapM fun spec => return spec.instance (← freshId) (some source)

/-- Attaches modifiers to the stats of an entity, which has to have all of them. -/
def attach (e : Entity) (source : ModifierSource) (specs : List ModifierSpec) : Act Unit := do
  requireStats e specs
  let modifiers ← instances source specs
  changeStats e (·.attach modifiers)

def insertFact (s : String) : Act Unit := do
  let facts ← ofFacts ((← get).facts.insert s)
  modify fun w => { w with facts }

def deleteFact (s : String) : Act Bool := do
  let (facts, found) ← ofFacts ((← get).facts.delete s)
  modify fun w => { w with facts }
  return found

def clearFacts : Act Unit :=
  modify fun w => { w with facts := w.facts.clear }

/-- Deletes a fact if it is there. -/
def retract (s : String) : Act Bool := do
  if ← ofFacts ((← get).facts.assert s) then deleteFact s else return false

end Act

end Society
