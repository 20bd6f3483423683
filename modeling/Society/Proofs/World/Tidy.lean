import Society.Proofs.World.Readable
import Society.Proofs.World.Upheld

/-!
# Tidy worlds

Every trait is held under its own id, and the tree of facts is sound. No command makes a world
untidy, however it ends; and in a tidy world a fact that is taken back is no fact any more.
-/

namespace Society

open FactDatabase (Sound)

/-! ## Sentences that go on -/

namespace Sentence

/-- Whether a sentence is another one, or goes on from it. -/
def begins (x s : String) : Bool :=
  match parse x, parse s with
  | .ok p, .ok q => (keys p).isPrefixOf (keys q)
  | _, _ => false

variable {x y s a b c f : String} {p q : List Segment}

theorem begins_of_parse (hx : parse x = .ok p) (hs : parse s = .ok q) :
    begins x s = true ↔ keys p <+: keys q := by
  simp [begins, hx, hs]

theorem begins_iff : begins x s = true ↔
    ∃ p q, parse x = .ok p ∧ parse s = .ok q ∧ keys p <+: keys q := by
  constructor
  · intro h
    unfold begins at h
    split at h
    · exact ⟨_, _, ‹_›, ‹_›, List.isPrefixOf_iff_prefix.mp h⟩
    · cases h
  · rintro ⟨p, q, hx, hs, hpre⟩
    exact (begins_of_parse hx hs).mpr hpre

theorem begins_self (h : IsFact s) : begins s s = true := by
  obtain ⟨path, hp, -⟩ := h
  exact (begins_of_parse hp hp).mpr (List.prefix_refl _)

theorem begins_trans (h : begins x y = true) (h' : begins y s = true) : begins x s = true := by
  obtain ⟨p, q, hx, hy, hpre⟩ := begins_iff.mp h
  obtain ⟨q', r, hy', hs, hpre'⟩ := begins_iff.mp h'
  cases hy.symm.trans hy'
  exact (begins_of_parse hx hs).mpr (hpre.trans hpre')

theorem keys_append (p q : List Segment) : keys (p ++ q) = keys p ++ keys q :=
  List.map_append

theorem keys_closedBy (c : Cardinality) (path : List Segment) :
    keys (closedBy c path) = keys path := by
  induction path with
  | nil => rfl
  | cons s path ih =>
      cases path with
      | nil => rfl
      | cons t path =>
          rw [closedBy_cons _ _ (by simp), keys_cons, keys_cons, ih]

theorem begins_append (ha : parse a = .ok p) (h : IsFact (a ++ "." ++ b)) :
    begins a (a ++ "." ++ b) = true := by
  obtain ⟨path, hpath, -⟩ := h
  obtain ⟨q, -, rfl⟩ := parse_of_append .point ha hpath
  rw [begins_of_parse ha hpath, keys_append, keys_closedBy]
  exact List.prefix_append _ _

/-- The sentence is another one, or there is more behind it and a point. -/
def Extends (x s : String) : Prop :=
  s = x ∨ ∃ b, s = x ++ "." ++ b

theorem Extends.trans (h : Extends x s) (h' : Extends s f) : Extends x f := by
  rcases h with rfl | ⟨a, rfl⟩
  · exact h'
  · rcases h' with rfl | ⟨b, rfl⟩
    · exact .inr ⟨a, rfl⟩
    · exact .inr ⟨a ++ "." ++ b, by simp only [String.append_assoc]⟩

theorem Extends.append (h : Extends x s) (b : String) : Extends x (s ++ "." ++ b) :=
  h.trans (.inr ⟨b, rfl⟩)

theorem Extends.isPrefix (h : Extends x s) (hx : parse x = .ok p) (hs : parse s = .ok q) :
    p <+: q := by
  rcases h with rfl | ⟨b, rfl⟩
  · cases hx.symm.trans hs
    exact List.prefix_refl _
  · obtain ⟨r, -, rfl⟩ := parse_of_append .point hx hs
    rw [(proper_of_parse hx).closedBy_many]
    exact List.prefix_append _ _

/-- What goes on from a sentence reaches no further than the sentence itself. -/
theorem Extends.begins_eq_false (h : Extends x s) (hx : parse x = .ok p)
    (hf : begins x f = false) : begins s f = false := by
  by_contra hbegins
  rw [Bool.not_eq_false] at hbegins
  obtain ⟨q, _, hs, -, -⟩ := begins_iff.mp hbegins
  have hpre : begins x s = true :=
    (begins_of_parse hx hs).mpr ((h.isPrefix hx hs).map Segment.toSymbol)
  cases hf.symm.trans (begins_trans hpre hbegins)

theorem begins_append_append (ha : parse a = .ok p) :
    begins (a ++ "." ++ b) (a ++ "." ++ c) = begins b c := by
  rw [Bool.eq_iff_iff, begins_iff, begins_iff]
  constructor
  · rintro ⟨_, _, hb, hc, hpre⟩
    obtain ⟨q, hq, rfl⟩ := parse_of_append .point ha hb
    obtain ⟨r, hr, rfl⟩ := parse_of_append .point ha hc
    rw [keys_append, keys_append, List.prefix_append_right_inj] at hpre
    exact ⟨q, r, hq, hr, hpre⟩
  · rintro ⟨q, r, hq, hr, hpre⟩
    refine ⟨_, _, parse_append_point ha hq, parse_append_point ha hr, ?_⟩
    rwa [keys_append, keys_append, List.prefix_append_right_inj]

end Sentence

/-! ## Facts that are taken back -/

/-- What is deleted goes with all that goes on from it, and nothing else goes or comes. -/
theorem FactMap.holds_delete (m : FactMap) (path q : List Segment) :
    (m.delete path).holds q =
      (m.holds q && !(Sentence.keys path).isPrefixOf (Sentence.keys q)) := by
  by_cases hpre : Sentence.keys path <+: Sentence.keys q
  · simp [holds, delete, hpre, List.isPrefixOf_iff_prefix.mpr hpre]
  · have hstop : ∀ e ∈ (Sentence.stops q).dropLast, m.delete path e.1 = m e.1 := by
      intro e he
      apply if_neg
      intro hlonger
      have hmem := (List.dropLast_sublist _).mem he
      exact hpre (hlonger.trans (Sentence.isPrefix_of_mem_stops hmem))
    have hnot : (Sentence.keys path).isPrefixOf (Sentence.keys q) = false := by
      simpa [← List.isPrefixOf_iff_prefix] using hpre
    have hself : m.delete path (Sentence.keys q) = m (Sentence.keys q) := if_neg hpre
    have hall : ((Sentence.stops q).dropLast.all fun e =>
        (m.delete path e.1).any (·.cardinality = e.2.cardinality)) =
          (Sentence.stops q).dropLast.all fun e => (m e.1).any (·.cardinality = e.2.cardinality) := by
      rw [Bool.eq_iff_iff, List.all_eq_true, List.all_eq_true]
      exact forall₂_congr fun e he => by rw [hstop e he]
    simp only [holds, hself, hnot, Bool.not_false, Bool.and_true]
    exact congrArg _ hall

namespace FactDatabase

variable {db db' : FactDatabase} {s x : String} {found : Bool}

theorem stable_sound : Stable Sound := fun _ c h => h.step c

theorem view_of_delete (h : db.Sound) (hd : db.delete s = .ok (db', found)) :
    ∃ path, Sentence.parse s = .ok path ∧ Sentence.anyVariable path = false ∧
      db'.view = db.view.delete path := by
  have hview := step_view h (.delete s)
  simp only [FactDatabase.step, hd, FactMap.step, FactMap.stepSentence] at hview
  split at hview
  · cases hview
  · rename_i path hp
    split at hview
    · cases hview
    · rename_i hv
      simp only [FactMap.stepPath] at hview
      split at hview
      · cases hview
      · exact ⟨path, hp, by simpa using hv, (Prod.mk.inj hview).2.symm⟩

theorem assert_of_delete (h : db.Sound) (hd : db.delete x = .ok (db', found)) (s : String) :
    db'.assert s = (db.assert s).map (· && !Sentence.begins x s) := by
  obtain ⟨path, hx, -, hview⟩ := view_of_delete h hd
  cases hp : Sentence.parseFact .assert s with
  | error e => simp [assert, hp, Except.map]
  | ok q =>
      obtain ⟨hs, hv⟩ := Sentence.parseFact_eq_ok.mp hp
      rw [assert_of_parse hs hv, assert_of_parse hs hv, hview, FactMap.holds_delete]
      simp [Except.map, Sentence.begins, hx, hs]

/-- What is taken back is no fact any more. -/
theorem assert_of_retract (h : db.Sound) (hr : db.retract s = .ok (db', found)) :
    db'.assert s = .ok false := by
  cases retract_eq_ok hr with
  | inl hkept => rw [hkept.2, hkept.1]
  | inr hd =>
      obtain ⟨path, hp, hv, -⟩ := view_of_delete h hd.2
      rw [assert_of_delete h hd.2, hd.1, Sentence.begins_self ⟨path, hp, hv⟩]
      rfl

/-- What is no fact does not become one when another fact is taken back. -/
theorem assert_of_retract_other (h : db.Sound) (hr : db.retract x = .ok (db', found))
    (hn : db.assert s = .ok false) : db'.assert s = .ok false := by
  cases retract_eq_ok hr with
  | inl hkept => rwa [hkept.2]
  | inr hd =>
      rw [assert_of_delete h hd.2, hn]
      rfl

/-- A fact that is there takes along with it what goes on from it, when it is taken back. -/
theorem asserts_of_retract (h : db.Sound) (hr : db.retract x = .ok (db', found)) :
    db'.assert s = .ok true ↔
      db.assert s = .ok true ∧ (db.assert x = .ok true → Sentence.begins x s = false) := by
  cases retract_eq_ok hr with
  | inl hkept => simp [hkept.2, hkept.1]
  | inr hd =>
      rw [assert_of_delete h hd.2, hd.1]
      cases db.assert s <;> simp [Except.map]

end FactDatabase

/-! ## Traits under their own ids -/

def HeldTraits.Keyed (held : HeldTraits) : Prop :=
  ∀ id h, held.get? id = some h → h.definition.id = id

namespace HeldTraits

theorem keyed_empty : HeldTraits.Keyed ∅ := nofun

variable {held held' : HeldTraits}

theorem Keyed.hold (h : held.Keyed) (t : Trait) (description : String) (duration : Int) :
    (held.hold t description duration).Keyed := by
  intro id h' hget
  rw [HeldTraits.hold, Dict.get?_insert] at hget
  split at hget
  · rename_i hid
    rw [hid, ← Option.some.inj hget]
  · exact h id h' hget

theorem Keyed.erase (h : held.Keyed) (id : String) : Keyed (Dict.erase held id) := by
  intro id' h' hget
  rw [Dict.get?_erase] at hget
  split at hget
  · cases hget
  · exact h id' h' hget

/-- Traits that differ in their timers only come from the same definitions. -/
theorem exists_of_outline
    (hout : Dict.map held' HeldTrait.outline = Dict.map held HeldTrait.outline) {id : String}
    {there' : HeldTrait} (hget : held'.get? id = some there') :
    ∃ there, held.get? id = some there ∧ there.definition = there'.definition := by
  have hmap : (held.get? id).map HeldTrait.outline = some there'.outline := by
    rw [← Dict.get?_map, ← hout, Dict.get?_map, hget]
    rfl
  obtain ⟨there, hthere, heq⟩ := Option.map_eq_some_iff.mp hmap
  have hdef : there.outline.definition = there'.outline.definition :=
    congrArg HeldTrait.definition heq
  exact ⟨there, hthere, hdef⟩

theorem stable_keyed : Stable fun _ held _ => Keyed held where
  timeless _ _ _ _ hout h id there' hget := by
    obtain ⟨there, hthere, heq⟩ := exists_of_outline hout hget
    exact heq ▸ h id there hthere
  empty _ := keyed_empty
  hold _ _ _ t text duration h _ _ := h.hold t text duration
  erase _ _ _ id h := h.erase id

end HeldTraits

/-! ## Tidy worlds -/

namespace World

/-- The tree of facts is sound, and every trait is held under its own id. -/
structure Tidy (w : World) : Prop where
  facts : w.facts.Sound
  keyed : ∀ e s, w.sheet? e = some s → s.traits.Keyed

theorem tidy_eq : Tidy = Upholds Sound fun _ held _ => HeldTraits.Keyed held :=
  funext fun _ => propext ⟨fun h => ⟨h.facts, h.keyed⟩, fun h => ⟨h.facts, h.traits⟩⟩

variable {w w' : World}

theorem Tidy.of_face (h : w.Tidy) (hface : w'.face = w.face) : w'.Tidy := by
  rw [tidy_eq] at h ⊢
  exact h.of_face HeldTraits.stable_keyed.timeless hface

theorem Tidy.setSheet (h : w.Tidy) {e : Entity} {s new : Sheet} (hs : w.sheet? e = some s)
    (hnew : s.traits.Keyed → new.traits.Keyed) : (w.setSheet new e).Tidy := by
  rw [tidy_eq] at h ⊢
  exact h.setSheet hs (fun _ _ _ _ hheld => hheld) hnew

end World

/-! ## Acts -/

open FactDatabase (stable_sound)
open HeldTraits (stable_keyed)
open World (Tidy tidy_eq)

namespace Act

theorem clearKind_tidy (e : Entity) (id : String) : (clearKind e id).Keeps Tidy := by
  rw [tidy_eq]
  exact clearKind_upholds (T := fun _ held _ => held.Keyed) stable_sound e id

theorem removeTrait_tidy (e : Entity) (id : String) : (removeTrait e id).Keeps Tidy :=
  tidy_eq ▸ removeTrait_upholds stable_sound stable_keyed e id

theorem steady_tidy : Steady Tidy Tidy :=
  tidy_eq ▸ steady_upholds stable_sound stable_keyed

end Act

end Society
