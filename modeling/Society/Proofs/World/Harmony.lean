import Society.Proofs.World.Lasting

/-!
# Traits in harmony

Conflicts are declared on either side, a holder keeps the definition that it was given, and the
library may be written anew at any time. Still nobody holds two traits that exclude each other.
-/

namespace Society

/-- What can be held together by an entity of a kind. -/
structure HeldTraits.Harmonious (kind : EntityKind) (held : HeldTraits) : Prop where
  keyed : held.Keyed
  kind : ∀ id h, held.get? id = some h → h.definition.kind = kind
  apart : ∀ id id' h h', held.get? id = some h → held.get? id' = some h' → id ≠ id' →
    h.definition.conflicts.contains h'.definition.id = false

theorem Trait.conflictsWith_eq_false_iff {a b : Trait} : a.conflictsWith b = false ↔
    a.conflicts.contains b.id = false ∧ b.conflicts.contains a.id = false := by
  simp [conflictsWith]

namespace HeldTraits

variable {kind : EntityKind} {held held' : HeldTraits}

theorem not_conflictsWith_of_canAdd {t : Trait} (h : held.canAdd t = true) {id : String}
    {there : HeldTrait} (hget : held.get? id = some there) :
    there.definition.conflictsWith t = false := by
  simp only [canAdd, conflicting, Bool.and_eq_true, Bool.not_eq_true', List.any_eq_false] at h
  have hnone := h.2 there (Dict.mem_values_iff.mpr ⟨id, hget⟩)
  simpa using hnone

theorem Harmonious.hold (h : Harmonious kind held) {t : Trait} (text : String) (duration : Int)
    (hkind : t.kind = kind) (hadd : held.canAdd t = true) :
    Harmonious kind (held.hold t text duration) := by
  constructor
  case keyed => exact h.keyed.hold t text duration
  case kind =>
    intro id there hget
    rw [HeldTraits.hold, Dict.get?_insert] at hget
    split at hget
    · cases hget
      exact hkind
    · exact h.kind id there hget
  case apart =>
    intro id id' there there' hget hget' hne
    rw [HeldTraits.hold, Dict.get?_insert] at hget hget'
    split at hget
    · rename_i hid
      rw [if_neg fun hid' => hne (hid.trans hid'.symm)] at hget'
      cases hget
      exact (Trait.conflictsWith_eq_false_iff.mp (not_conflictsWith_of_canAdd hadd hget')).2
    · split at hget'
      · cases hget'
        exact (Trait.conflictsWith_eq_false_iff.mp (not_conflictsWith_of_canAdd hadd hget)).1
      · exact h.apart id id' there there' hget hget' hne

/-- Fewer traits are no less in harmony, and timers have no part in it. -/
theorem Harmonious.of_some (h : Harmonious kind held)
    (hsome : ∀ id there', held'.get? id = some there' →
      ∃ there, held.get? id = some there ∧ there.definition = there'.definition) :
    Harmonious kind held' := by
  constructor
  case keyed =>
    intro id there' hget
    obtain ⟨there, hold, heq⟩ := hsome id there' hget
    exact heq ▸ h.keyed id there hold
  case kind =>
    intro id there' hget
    obtain ⟨there, hold, heq⟩ := hsome id there' hget
    exact heq ▸ h.kind id there hold
  case apart =>
    intro id id' there there' hget hget' hne
    obtain ⟨first, hfirst, heq⟩ := hsome id there hget
    obtain ⟨second, hsecond, heq'⟩ := hsome id' there' hget'
    exact heq ▸ heq' ▸ h.apart id id' first second hfirst hsecond hne

theorem stable_harmonious : Stable fun e held _ => Harmonious e.kind held where
  timeless e held held' kind hout h := by
    apply h.of_some
    intro id there' hget
    exact exists_of_outline hout hget
  empty _ := ⟨nofun, nofun, nofun⟩
  hold _ _ _ _ text duration h hkind hadd := h.hold text duration hkind hadd
  erase e held kind id h := by
    apply h.of_some
    intro id' there hget
    rw [Dict.get?_erase] at hget
    split at hget
    · cases hget
    · exact ⟨there, hget, rfl⟩

end HeldTraits

namespace World

variable {w w' : World}

theorem Reached.harmonious (h : w.Reached) {e : Entity} {s : Sheet} (hs : w.sheet? e = some s) :
    s.traits.Harmonious e.kind := by
  have hupholds := h.upholds FactDatabase.stable_true trivial HeldTraits.stable_harmonious
    fun _ _ _ _ hheld => hheld
  exact hupholds.traits e s hs

/-- A tick that succeeds leaves no trait behind whose time is over. -/
theorem Reached.not_expired (h : w.Reached) (ht : Act.tick.runOn w = (.ok (), w')) {e : Entity}
    {s : Sheet} (hs : w'.sheet? e = some s) {id : String} {held : HeldTrait}
    (hheld : s.traits.get? id = some held) : held.timer ≠ some 0 := by
  have hthere : Timed.trait held ∈ w'.timed e (.trait id) := by
    simp [timed_of_sheet? hs, Sheet.timed, hheld]
  rw [(h.counted ht e (.trait id)).timed_eq] at hthere
  obtain ⟨before, -, hnext⟩ := List.mem_filterMap.mp hthere
  unfold Timed.next at hnext
  split at hnext
  · cases hnext
  · rename_i hleft
    have htimer : held.timer = before.timer.tick := by
      have heq := congrArg Timed.timer (Option.some.inj hnext)
      rw [Timed.tick, Timed.timer_withTimer] at heq
      exact heq.symm
    rw [htimer]
    simpa [Timer.expired] using hleft

/-- All that is held by anybody is in harmony, whatever was done to the world; and after a tick that
succeeds there is time left for it. -/
theorem Reached.harmony (h : w.Reached) :
    (∀ e s, w.sheet? e = some s → s.traits.Harmonious e.kind) ∧
    ∀ w', Act.tick.runOn w = (.ok (), w') → ∀ e s, w'.sheet? e = some s →
      s.traits.Harmonious e.kind ∧
      ∀ id held, s.traits.get? id = some held → held.timer ≠ some 0 := by
  constructor
  · intro e s hs
    exact h.harmonious hs
  · intro w' ht e s hs
    have hw' : w'.Reached := h.of_ok (o := .command .tick) ht
    exact ⟨hw'.harmonious hs, fun id held hheld => h.not_expired ht hs hheld⟩

/-- Ann is sad, which excludes being happy, when being sad is written anew and excludes nothing any
more. -/
def moodRun : List Command := [
  .addTrait ⟨"sad", .agent, "Sad", "", [], .ofList ["happy"]⟩,
  .addTrait ⟨"happy", .agent, "Happy", "", [], ∅⟩, .addAgentSchema ⟨"person", [], []⟩,
  .addAgent "person" "ann", .giveTrait (.agent "ann") "sad" 2 none,
  .addTrait ⟨"sad", .agent, "Sad", "", [], ∅⟩, .giveTrait (.agent "ann") "happy" (-1) none]

/-- Ann is still refused to be happy, and a tick finds nothing but the sadness with one tick left. -/
theorem harmony_of_moods :
    ∃ w w' s, World.Reached w ∧ Act.tick.runOn w = (.ok (), w') ∧
      w'.sheet? (.agent "ann") = some s ∧ s.traits.keys = ["sad"] ∧
      s.traits.Harmonious .agent ∧
      ∀ id held, s.traits.get? id = some held → held.timer ≠ some 0 := by
  have hw : World.Reached (moodRun.foldl World.after ∅) := (Reachable.empty.run _).reached
  have ht : Act.tick.runOn (moodRun.foldl World.after ∅) =
      (.ok (), (moodRun.foldl World.after ∅).after .tick) := Act.runOn_eq_ok (by decide +kernel)
  obtain ⟨s, hs⟩ := Option.isSome_iff_exists.mp
    (show (((moodRun.foldl World.after ∅).after .tick).sheet? (.agent "ann")).isSome = true by
      decide +kernel)
  have hkeys : (((moodRun.foldl World.after ∅).after .tick).sheet? (.agent "ann")).map
      (·.traits.keys) = some ["sad"] := by decide +kernel
  rw [hs] at hkeys
  obtain ⟨hharmony, htime⟩ := hw.harmony.2 _ ht (.agent "ann") s hs
  exact ⟨_, _, s, hw, ht, hs, Option.some.inj hkeys, hharmony, htime⟩

end World

end Society
