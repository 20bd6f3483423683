import Society.Stat.Basic
import Society.Trait

/-!
# Sheets

An agent or a relationship has stats and holds traits; both are written on its sheet.
-/

namespace Society

/-- Stats by their names. -/
abbrev Stats := Dict Stat

namespace Stats

/-- The stats of a list of schemas. -/
def ofSchemas (schemas : List StatSchema) : Stats :=
  Dict.ofList (schemas.map fun s => (s.stat, s.create))

/-- Changes every stat, in the order of their names. -/
def changeAll (stats : Stats) (f : Stat → Change Stat) : Change Stats :=
  ⟨stats.map fun s => (f s).result, stats.values.flatMap fun s => (f s).announced⟩

/-- Changes one stat. -/
def change (stats : Stats) (name : String) (f : Stat → Change Stat) : Change Stats :=
  match stats.get? name with
  | some s => ⟨stats.insert name (f s).result, (f s).announced⟩
  | none => ⟨stats, []⟩

/-- Whether a stat has a modifier from a source. -/
def anyFrom (stats : Stats) (source : ModifierSource) : Bool :=
  stats.values.any (·.hasFrom source)

/-- Removes all modifiers from a source. -/
def removeFrom (stats : Stats) (source : ModifierSource) : Change Stats :=
  stats.changeAll (·.removeFrom source)

/-- Removes all modifiers from several sources, one source after the other. -/
def removeFromAll (stats : Stats) : List ModifierSource → Change Stats
  | [] => ⟨stats, []⟩
  | source :: rest =>
    let first := stats.removeFrom source
    let second := first.result.removeFromAll rest
    ⟨second.result, first.announced ++ second.announced⟩

/-- Attaches modifiers to the stats that they name. -/
def attach (stats : Stats) : List StatModifier → Change Stats
  | [] => ⟨stats, []⟩
  | m :: rest =>
    let first := stats.change m.stat (·.add m)
    let second := first.result.attach rest
    ⟨second.result, first.announced ++ second.announced⟩

/-- Counts down the timers of all modifiers. -/
def tick (stats : Stats) : Change Stats :=
  stats.changeAll Stat.tick

/-- The first stat that modifiers name and that is missing. -/
def missing? (stats : Stats) (specs : List ModifierSpec) : Option String :=
  (specs.find? fun spec => !stats.contains spec.stat).map (·.stat)

end Stats

structure Sheet where
  stats : Stats
  traits : HeldTraits

end Society
