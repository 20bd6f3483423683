import Society.Document.Json.Printer
import Society.World.Basic

/-!
# Snapshots

What a world looks like from outside at one moment: agents and relationships with their stats and
traits, and the facts. A snapshot is written as JSON or as lines of text.
-/

namespace Society

structure StatSnapshot where
  name : String
  base : Float
  value : Float
  normalized : Float
  /-- What the modifiers do, in the order in which they apply. -/
  modifiers : List String

structure TraitSnapshot where
  id : String
  kind : EntityKind
  description : String
  timer : Timer

structure AgentSnapshot where
  uid : String
  agentType : String
  stats : List StatSnapshot
  traits : List TraitSnapshot

structure RelationshipSnapshot where
  owner : String
  target : String
  kind : Option String
  stats : List StatSnapshot
  traits : List TraitSnapshot
  activeRules : List ActiveRule

structure Snapshot where
  agents : List AgentSnapshot
  relationships : List RelationshipSnapshot
  facts : List String

def StatSnapshot.capture (name : String) (s : Stat) : StatSnapshot where
  name := name
  base := s.base
  value := s.value
  normalized := s.normalized
  modifiers := s.modifiers.map StatModifier.description

def TraitSnapshot.capture (h : HeldTrait) : TraitSnapshot where
  id := h.definition.id
  kind := h.definition.kind
  description := h.description
  timer := h.timer

namespace Sheet

/-- The stats of a sheet, by name. -/
def statSnapshots (s : Sheet) : List StatSnapshot :=
  s.stats.entries.map fun (name, stat) => .capture name stat

/-- The traits of a sheet, by id. -/
def traitSnapshots (s : Sheet) : List TraitSnapshot :=
  s.traits.values.map .capture

end Sheet

def AgentSnapshot.capture (a : Agent) : AgentSnapshot where
  uid := a.uid
  agentType := a.agentType
  stats := a.sheet.statSnapshots
  traits := a.sheet.traitSnapshots

def RelationshipSnapshot.capture (r : Relationship) : RelationshipSnapshot where
  owner := r.owner
  target := r.target
  kind := r.kind
  stats := r.sheet.statSnapshots
  traits := r.sheet.traitSnapshots
  activeRules := r.activeRules

/-- The snapshot of a world. -/
def World.snapshot (w : World) : Snapshot where
  agents := w.agents.values.map .capture
  relationships := w.allRelationships.map .capture
  facts := w.facts.sentences

/-! ## JSON -/

def StatSnapshot.toDocument (s : StatSnapshot) : Document :=
  .table [("name", .text s.name), ("base_value", .float s.base), ("value", .float s.value),
    ("normalized", .float s.normalized), ("modifiers", .texts s.modifiers)]

def TraitSnapshot.toDocument (t : TraitSnapshot) : Document :=
  .table [("trait_id", .text t.id), ("trait_type", .text t.kind.name),
    ("description", .text t.description),
    ("remaining_duration", .ofOption (fun n : Nat => .int n) t.timer)]

def AgentSnapshot.toDocument (a : AgentSnapshot) : Document :=
  .table [("uid", .text a.uid), ("agent_type", .text a.agentType),
    ("stats", .list (a.stats.map StatSnapshot.toDocument)),
    ("traits", .list (a.traits.map TraitSnapshot.toDocument))]

def ActiveRule.toDocument (r : ActiveRule) : Document :=
  .table [("rule_id", .text r.id), ("description", .text r.description)]

def RelationshipSnapshot.toDocument (r : RelationshipSnapshot) : Document :=
  .table [("owner", .text r.owner), ("target", .text r.target),
    ("relationship_type", .ofOption .text r.kind),
    ("stats", .list (r.stats.map StatSnapshot.toDocument)),
    ("traits", .list (r.traits.map TraitSnapshot.toDocument)),
    ("active_social_rules", .list (r.activeRules.map ActiveRule.toDocument))]

def Snapshot.toDocument (s : Snapshot) : Document :=
  .table [("agents", .list (s.agents.map AgentSnapshot.toDocument)),
    ("relationships", .list (s.relationships.map RelationshipSnapshot.toDocument)),
    ("facts", .texts s.facts)]

/-- A snapshot as indented JSON. -/
def Snapshot.toJson (s : Snapshot) : String :=
  Json.pretty s.toDocument

/-! ## Lines of text -/

def StatSnapshot.line (s : StatSnapshot) : String :=
  "    " ++ s.name ++ ": " ++ Decimal.display s.value ++ " (base " ++ Decimal.display s.base ++ ")"

def TraitSnapshot.line (t : TraitSnapshot) : String :=
  "    [" ++ t.id ++ "] " ++ t.description

def AgentSnapshot.lines (a : AgentSnapshot) : List String :=
  ("  " ++ a.uid ++ " (" ++ a.agentType ++ ")") :: a.stats.map StatSnapshot.line ++
    a.traits.map TraitSnapshot.line

def RelationshipSnapshot.title (r : RelationshipSnapshot) : String :=
  let names := "  " ++ r.owner ++ " -> " ++ r.target
  match r.kind with
  | some kind => names ++ " (" ++ kind ++ ")"
  | none => names

def ActiveRule.line (r : ActiveRule) : String :=
  "    rule " ++ r.id ++ ": " ++ r.description

def RelationshipSnapshot.lines (r : RelationshipSnapshot) : List String :=
  r.title :: r.stats.map StatSnapshot.line ++ r.activeRules.map ActiveRule.line

/-- A snapshot as lines of text; the facts are left out. -/
def Snapshot.lines (s : Snapshot) : List String :=
  "Agents:" :: s.agents.flatMap AgentSnapshot.lines ++
    "Relationships:" :: s.relationships.flatMap RelationshipSnapshot.lines

end Society
