import Society.Entity
import Society.Proofs.Fact.Refinement
import Society.Proofs.Sentence.Append

/-!
# What facts report

The facts of a world report that an entity is there, that it holds a trait, and of which type a
relationship is. Here is what the calls on a database do to the reports that it makes.
-/

namespace Society

/-! ## Calls with sentences that parse -/

namespace Sentence

theorem mem_stops_of_lookup {path : List Segment} {p : List String} {s : Segment}
    (h : (stops path).lookup p = some s) : (p, s) ∈ stops path := by
  obtain ⟨l, l', heq, -⟩ := List.lookup_eq_some_iff.mp h
  simp [heq]

theorem isSome_lookup_keys {path : List Segment} (h : path ≠ []) :
    ((stops path).lookup (keys path)).isSome := by
  induction path with
  | nil => exact absurd rfl h
  | cons s path ih =>
      rw [keys_cons, lookup_stops_cons, if_pos rfl]
      cases path with
      | nil => rfl
      | cons t path => simpa [keys] using ih (by simp)

end Sentence

theorem FactNode.isSome_view_of_append {n : FactNode} {p q : List String}
    (h : (n.view (p ++ q)).isSome) : (n.view p).isSome := by
  induction p generalizing n with
  | nil => simp
  | cons key p ih =>
      rw [List.cons_append, view_cons] at h
      rw [view_cons]
      cases hc : n.child? key with
      | none => simp [hc] at h
      | some child => exact ih (by simpa [hc] using h)

namespace FactDatabase

open Sentence (keys stops)

variable {db : FactDatabase} {s : String} {path : List Segment}

theorem holds_view (h : path ≠ []) : db.view.holds path = db.root.holds path := by
  rw [view, FactMap.holds_belowRoot _ h, ← FactNode.holds_eq h]

theorem assert_of_parse (hp : Sentence.parse s = .ok path)
    (hv : Sentence.anyVariable path = false) : db.assert s = .ok (db.view.holds path) := by
  rw [assert_eq, Sentence.parseFact_eq_ok.mpr ⟨hp, hv⟩,
    holds_view (Sentence.proper_of_parse hp).ne_nil]

theorem insert_of_parse (h : db.Sound) (hp : Sentence.parse s = .ok path)
    (hv : Sentence.anyVariable path = false) (hc : db.view.clash? path = none) :
    ∃ db', db.insert s = .ok db' ∧ db'.Sound ∧ db'.view = db.view.insert path := by
  have hstep := step_view h (.insert s)
  have hsound := h.step (.insert s)
  simp only [FactMap.step, FactMap.stepSentence, hp, hv, FactMap.stepPath, hc, Bool.false_eq_true,
    ↓reduceIte] at hstep
  obtain ⟨hans, hview⟩ := Prod.mk.inj hstep
  cases hi : db.insert s with
  | error e => simp [step, hi] at hans
  | ok db' =>
      simp only [step, hi] at hview hsound
      exact ⟨db', rfl, hsound, hview.symm⟩

theorem delete_of_parse (h : db.Sound) (hp : Sentence.parse s = .ok path)
    (hv : Sentence.anyVariable path = false) (hm : db.view.missing? path = none) :
    ∃ db', db.delete s = .ok (db', (db.view (keys path)).isSome) ∧ db'.Sound ∧
      db'.view = db.view.delete path := by
  have hstep := step_view h (.delete s)
  have hsound := h.step (.delete s)
  simp only [FactMap.step, FactMap.stepSentence, hp, hv, FactMap.stepPath, hm, Bool.false_eq_true,
    ↓reduceIte] at hstep
  obtain ⟨hans, hview⟩ := Prod.mk.inj hstep
  cases hd : db.delete s with
  | error e => simp [step, hd] at hans
  | ok r =>
      simp only [step, hd, Except.ok.injEq, FactAnswer.truth.injEq] at hans hview hsound
      exact ⟨r.1, by rw [hans], hsound, hview.symm⟩

/-- What leads somewhere goes through somewhere. -/
theorem isSome_view_of_isPrefix {p q : List String} (hq : q ≠ []) (hpre : q <+: p)
    (hp : (db.view p).isSome) : (db.view q).isSome := by
  obtain ⟨rest, rfl⟩ := hpre
  rw [view, FactMap.belowRoot_of_ne_nil _ (by simp [hq])] at hp
  rw [view, FactMap.belowRoot_of_ne_nil _ hq]
  exact FactNode.isSome_view_of_append hp

end FactDatabase

/-! ## Reports -/

namespace Sentence

/-- A text that is a sentence of one segment: the symbol that it reads as is the text itself. -/
def IsWord (s : String) : Prop :=
  parse s = .ok [⟨.symbol s, .many⟩]

/-- The segment of a word that may have many children. -/
def word (s : String) : Segment :=
  ⟨.symbol s, .many⟩

end Sentence

open Sentence (IsWord word)

/-- What the facts of a world report. -/
inductive Report where
  | present (e : Entity)
  | holds (e : Entity) (trait : String)
  | kind (owner target id : String)
deriving DecidableEq

def Entity.path : Entity → List Segment
  | .agent uid => [word uid]
  | .relationship owner target => [word owner, word "relationships", word target]

/-- The entities that the path of an entity goes through. -/
def Entity.hosts : Entity → List Entity
  | .agent uid => [.agent uid]
  | .relationship owner target => [.agent owner, .relationship owner target]

/-- The names of the entity are words. -/
def Entity.Plain : Entity → Prop
  | .agent uid => IsWord uid
  | .relationship owner target => IsWord owner ∧ IsWord target

namespace Report

/-- The sentence of a report. -/
def fact : Report → String
  | present e => e.fact
  | holds e trait => e.traitFact trait
  | kind owner target id => Relationship.kindFact owner target id

def path : Report → List Segment
  | present e => e.path
  | holds e trait => e.path ++ [word "traits", word trait]
  | kind owner target id =>
    (Entity.relationship owner target).path ++ [⟨.symbol "type", .one⟩, word id]

/-- All names in the report are words. -/
def Plain : Report → Prop
  | present e => e.Plain
  | holds e trait => e.Plain ∧ IsWord trait
  | kind owner target id => IsWord owner ∧ IsWord target ∧ IsWord id

end Report

/-- The names that the sentence of an entity is pasted from. -/
def Entity.names : Entity → List String
  | .agent uid => [uid]
  | .relationship owner target => [owner, target]

/-- The path of an entity, put together from the paths of its names. -/
def Entity.pathBy (path : String → List Segment) : Entity → List Segment
  | .agent uid => path uid
  | .relationship owner target => path owner ++ word "relationships" :: path target

namespace Report

/-- The names that the sentence of a report is pasted from. -/
def names : Report → List String
  | present e => e.names
  | holds e trait => e.names ++ [trait]
  | kind owner target id => [owner, target, id]

/-- The path of a report, put together from the paths of its names. -/
def pathBy (path : String → List Segment) : Report → List Segment
  | present e => e.pathBy path
  | holds e trait => e.pathBy path ++ word "traits" :: path trait
  | kind owner target id =>
    (Entity.relationship owner target).pathBy path ++ ⟨.symbol "type", .one⟩ :: path id

end Report

section Pasted

variable {path : String → List Segment}

theorem Entity.parse_fact_of_names {e : Entity}
    (h : ∀ name ∈ e.names, Sentence.parse name = .ok (path name)) :
    Sentence.parse e.fact = .ok (e.pathBy path) := by
  cases e with
  | agent uid => exact h uid List.mem_cons_self
  | relationship owner target =>
      obtain ⟨howner, htarget⟩ : Sentence.parse owner = .ok (path owner) ∧
          Sentence.parse target = .ok (path target) := by simpa [Entity.names] using h
      have hword : IsWord "relationships" := rfl
      have hfact : (Entity.relationship owner target).fact =
          owner ++ "." ++ "relationships" ++ "." ++ target := by
        simp only [Entity.fact, String.append_assoc]
        rfl
      have hpath := Sentence.parse_append_point (Sentence.parse_append_point howner hword) htarget
      simpa [hfact, Entity.pathBy, word] using hpath

theorem Report.parse_fact_of_names {r : Report}
    (h : ∀ name ∈ r.names, Sentence.parse name = .ok (path name)) :
    Sentence.parse r.fact = .ok (r.pathBy path) := by
  cases r with
  | present e => exact Entity.parse_fact_of_names h
  | holds e trait =>
      obtain ⟨he, htrait⟩ := List.forall_mem_append.mp h
      have htrait : Sentence.parse trait = .ok (path trait) := htrait trait List.mem_cons_self
      have hword : IsWord "traits" := rfl
      have hfact : (Report.holds e trait).fact = e.fact ++ "." ++ "traits" ++ "." ++ trait := by
        simp only [Report.fact, Entity.traitFact, String.append_assoc]
        rfl
      have hpath := Sentence.parse_append_point (Sentence.parse_append_point
        (Entity.parse_fact_of_names he) hword) htrait
      simpa [hfact, Report.pathBy, word] using hpath
  | kind owner target id =>
      obtain ⟨howner, htarget, hid⟩ : Sentence.parse owner = .ok (path owner) ∧
          Sentence.parse target = .ok (path target) ∧ Sentence.parse id = .ok (path id) := by
        simpa [Report.names] using h
      have hword : IsWord "type" := rfl
      have hfact : (Report.kind owner target id).fact =
          (Entity.relationship owner target).fact ++ "." ++ "type" ++ "!" ++ id := by
        simp only [Report.fact, Relationship.kindFact, String.append_assoc]
        rfl
      have hrelationship : Sentence.parse (Entity.relationship owner target).fact =
          .ok ((Entity.relationship owner target).pathBy path) :=
        Entity.parse_fact_of_names (by simp [Entity.names, howner, htarget])
      have hpath := Sentence.parse_append_bang
        (Sentence.parse_append_point hrelationship hword) hid
      simpa [hfact, Report.pathBy, Sentence.closedBy_append, Sentence.closedBy] using hpath

end Pasted

/-- Names that are words are pasted to a path of words. -/
theorem Report.parse_fact {r : Report} (h : r.Plain) : Sentence.parse r.fact = .ok r.path := by
  have hwords : ∀ name ∈ r.names, Sentence.parse name = .ok [word name] := by
    rcases r with (_ | _) | ⟨_ | _, _⟩ | _ <;>
      simpa [Report.names, Entity.names, Report.Plain, Entity.Plain, IsWord, word, and_assoc] using h
  have hpath : r.pathBy (fun name => [word name]) = r.path := by
    rcases r with (_ | _) | ⟨_ | _, _⟩ | _ <;> rfl
  rw [Report.parse_fact_of_names hwords, hpath]

theorem Entity.parse_fact {e : Entity} (h : e.Plain) : Sentence.parse e.fact = .ok e.path :=
  Report.parse_fact (r := .present e) h

/-! ## Trees of reports -/

/-- What a path of keys leads to among reports: each node is the symbol of its key, and only the
node of the type of a relationship may have one child. -/
def FactEntry.ofKeys (p : List String) : FactEntry :=
  ⟨.symbol (p.getLast?.getD ""),
    if p.length = 4 ∧ p.getLast? = some "type" then .one else .many⟩

namespace Report

open Sentence (keys stops)

theorem anyVariable_path (r : Report) : Sentence.anyVariable r.path = false := by
  rcases r with (_ | _) | ⟨_ | _, _⟩ | _ <;> rfl

theorem entry_of_mem_stops (r : Report) : ∀ e ∈ stops r.path, e.2.entry = .ofKeys e.1 := by
  rcases r with (_ | _) | ⟨_ | _, _⟩ | _ <;>
    simp [path, Entity.path, stops, word, Segment.toSymbol, NodeValue.toSymbol, FactEntry.ofKeys,
      Segment.entry]

theorem path_ne_nil (r : Report) : r.path ≠ [] := by
  rcases r with (_ | _) | ⟨_ | _, _⟩ | _ <;> simp [path, Entity.path]

/-- The keys along the path of a report. -/
def keys (r : Report) : List String :=
  Sentence.keys r.path

theorem keys_ne_nil (r : Report) : r.keys ≠ [] :=
  FactMap.keys_ne_nil r.path_ne_nil

@[simp] theorem keys_present_agent (uid : String) : (present (.agent uid)).keys = [uid] := rfl

@[simp] theorem keys_present_relationship (owner target : String) :
    (present (.relationship owner target)).keys = [owner, "relationships", target] := rfl

@[simp] theorem keys_holds_agent (uid trait : String) :
    (holds (.agent uid) trait).keys = [uid, "traits", trait] := rfl

@[simp] theorem keys_holds_relationship (owner target trait : String) :
    (holds (.relationship owner target) trait).keys =
      [owner, "relationships", target, "traits", trait] := rfl

@[simp] theorem keys_kind (owner target id : String) :
    (kind owner target id).keys = [owner, "relationships", target, "type", id] := rfl

/-- Another type of the same relationship. -/
def Rivals (r r' : Report) : Prop :=
  ∃ owner target id id', r = kind owner target id ∧ r' = kind owner target id' ∧ id ≠ id'

@[simp] theorem not_rivals_present (e : Entity) (r : Report) : ¬ (present e).Rivals r := by
  simp [Rivals]

@[simp] theorem not_rivals_holds (e : Entity) (trait : String) (r : Report) :
    ¬ (holds e trait).Rivals r := by
  simp [Rivals]

theorem rivals_kind (owner target id : String) (r : Report) :
    (kind owner target id).Rivals r ↔ ∃ id', r = kind owner target id' ∧ id ≠ id' := by
  simp [Rivals]

/-- No other report begins with a trait that is held. -/
theorem holds_isPrefix_iff {e : Entity} {trait : String} {r : Report} :
    (holds e trait).keys <+: r.keys ↔ r = holds e trait := by
  rw [eq_comm]
  rcases e with _ | _ <;> rcases r with (_ | _) | ⟨_ | _, _⟩ | _ <;>
    simp [List.cons_prefix_cons, and_assoc]

/-- No other report begins with the type of a relationship. -/
theorem kind_isPrefix_iff {owner target id : String} {r : Report} :
    (kind owner target id).keys <+: r.keys ↔ r = kind owner target id := by
  rw [eq_comm]
  rcases r with (_ | _) | ⟨_ | _, _⟩ | _ <;> simp [List.cons_prefix_cons]

/-- What a report is about. -/
def entity : Report → Entity
  | present e => e
  | holds e _ => e
  | kind owner target _ => .relationship owner target

/-- A report begins with reports of entities only. -/
theorem eq_present_of_isPrefix {r x : Report} (h : r.keys <+: x.keys) (hne : r ≠ x) :
    ∃ e ∈ x.entity.hosts, r = present e := by
  rcases x with (_ | _) | ⟨_ | _, _⟩ | _ <;> rcases r with (_ | _) | ⟨_ | _, _⟩ | _ <;>
    simp_all [List.cons_prefix_cons, entity, Entity.hosts]

end Report

namespace FactDatabase

open Sentence (keys stops)

/-- The facts make the reports of a kind, each by its node, and no node is there but for reports. -/
structure Tells (db : FactDatabase) (T : Report → Prop) : Prop where
  sound : db.Sound
  entry_eq : ∀ p e, db.view p = some e → e = .ofKeys p
  isSome_iff : ∀ r : Report, (db.view r.keys).isSome = true ↔ T r

variable {db : FactDatabase} {T : Report → Prop} {r : Report}

theorem Tells.congr {T' : Report → Prop} (h : db.Tells T) (hT : ∀ r, T r ↔ T' r) : db.Tells T' :=
  ⟨h.sound, h.entry_eq, fun r => (h.isSome_iff r).trans (hT r)⟩

theorem Tells.entry_stop (h : db.Tells T) {e : List String × Segment} (he : e ∈ stops r.path)
    {entry : FactEntry} (hv : db.view e.1 = some entry) : entry = e.2.entry := by
  rw [h.entry_eq _ _ hv, r.entry_of_mem_stops e he]

theorem Tells.clash?_eq (h : db.Tells T) (r : Report) : db.view.clash? r.path = none := by
  rw [FactMap.clash?, Option.map_eq_none_iff, List.find?_eq_none]
  intro e he
  cases hv : db.view e.1 with
  | none => simp [hv]
  | some entry => simp [hv, h.entry_stop he hv, Segment.entry]

/-- A report is made if its node is there: all cardinalities on the way are right. -/
theorem Tells.holds_eq (h : db.Tells T) (r : Report) :
    db.view.holds r.path = (db.view r.keys).isSome := by
  refine Bool.and_eq_left_iff_imp.mpr fun hsome => ?_
  rw [List.all_eq_true]
  intro e he
  have hmem : e ∈ stops r.path := (List.dropLast_sublist _).mem he
  obtain ⟨entry, hv⟩ := Option.isSome_iff_exists.mp (isSome_view_of_isPrefix
    (Sentence.ne_nil_of_mem_stops hmem) (Sentence.isPrefix_of_mem_stops hmem) hsome)
  simp [hv, h.entry_stop hmem hv, Segment.entry]

theorem Tells.assert_eq (h : db.Tells T) (hr : r.Plain) :
    db.assert r.fact = .ok (db.view r.keys).isSome := by
  rw [assert_of_parse (Report.parse_fact hr) r.anyVariable_path, h.holds_eq]

/-- What a report displaces is another type of the same relationship. -/
theorem Tells.displaces_iff (h : db.Tells T) {r' : Report} :
    (db.view.Displaces r.path r'.keys ∧ T r') ↔ (r.Rivals r' ∧ T r') := by
  refine and_congr_left fun hT => ⟨?_, ?_⟩
  · rintro ⟨q, next, key, rest, hq, hp, hne, e, he, hone⟩
    rw [h.entry_eq q e he] at hone
    have hlast : q.length = 4 ∧ q.getLast? = some "type" := by
      simpa [FactEntry.ofKeys] using hone
    obtain ⟨a, b, c, d, rfl⟩ : ∃ a b c d, q = [a, b, c, d] := by
      match q, hlast.1 with
      | [a, b, c, d], _ => exact ⟨a, b, c, d, rfl⟩
    obtain rfl : d = "type" := by simpa using hlast.2
    change [a, b, c, "type", next] <+: r.keys at hq
    rcases r with (_ | _) | ⟨_ | _, _⟩ | ⟨o, t, x⟩ <;> simp [List.cons_prefix_cons] at hq
    obtain ⟨rfl, rfl, rfl, rfl⟩ := hq
    rcases r' with (_ | _) | ⟨_ | _, _⟩ | ⟨o', t', x'⟩ <;> simp at hp
    obtain ⟨rfl, rfl, rfl, -⟩ := hp
    exact ⟨o', t', next, x', rfl, rfl, Ne.symm hne⟩
  · rintro ⟨owner, target, id, id', rfl, rfl, hne⟩
    have hsome : (db.view [owner, "relationships", target, "type"]).isSome :=
      isSome_view_of_isPrefix (by simp) ⟨[id'], rfl⟩ ((h.isSome_iff _).mpr hT)
    obtain ⟨e, he⟩ := Option.isSome_iff_exists.mp hsome
    refine ⟨[owner, "relationships", target, "type"], id, id', [], ⟨[], rfl⟩, rfl, Ne.symm hne, e, he,
      ?_⟩
    rw [h.entry_eq _ _ he]
    rfl

/-- A report whose beginnings are made can be added. It takes the place of its rivals. -/
theorem Tells.insert (h : db.Tells T) (hr : r.Plain)
    (habove : ∀ r' : Report, r'.keys <+: r.keys → r' ≠ r → T r') :
    ∃ db', db.insert r.fact = .ok db' ∧
      db'.Tells fun r' => r' = r ∨ (T r' ∧ ¬ r.Rivals r') := by
  obtain ⟨db', hi, hsound, hview⟩ := insert_of_parse h.sound (Report.parse_fact hr)
    r.anyVariable_path (h.clash?_eq r)
  refine ⟨db', hi, hsound, fun p e he => ?_, fun r' => ?_⟩
  · rw [hview] at he
    simp only [FactMap.insert] at he
    split at he
    · cases he
    · rcases Option.or_eq_some_iff.mp he with he | ⟨-, he⟩
      · exact h.entry_eq p e he
      · obtain ⟨s, hs, rfl⟩ := Option.map_eq_some_iff.mp he
        exact r.entry_of_mem_stops _ (Sentence.mem_stops_of_lookup hs)
  · rw [hview]
    simp only [FactMap.insert]
    constructor
    · intro hsome
      split at hsome
      · cases hsome
      · rename_i hstays
        by_cases hT : T r'
        · exact .inr ⟨hT, fun hriv => hstays (h.displaces_iff.mpr ⟨hriv, hT⟩).1⟩
        · have hnone : db.view r'.keys = none :=
            Option.not_isSome_iff_eq_none.mp (mt (h.isSome_iff r').mp hT)
          rw [hnone, Option.none_or, Option.isSome_map] at hsome
          obtain ⟨s, hs⟩ := Option.isSome_iff_exists.mp hsome
          have hpre := Sentence.isPrefix_of_mem_stops (Sentence.mem_stops_of_lookup hs)
          exact .inl (Classical.byContradiction fun hne => hT (habove r' hpre hne))
    · rintro (rfl | ⟨hT, hriv⟩)
      · have hlookup := Sentence.isSome_lookup_keys r'.path_ne_nil
        have hstays : ¬ db.view.Displaces r'.path r'.keys := by
          intro hd
          have hnone := FactMap.lookup_stops_of_displaces hd
          rw [Report.keys] at hnone
          simp [hnone] at hlookup
        rw [if_neg hstays, Option.isSome_or, Option.isSome_map]
        simp [Report.keys, hlookup]
      · rw [if_neg fun hd => hriv (h.displaces_iff.mp ⟨hd, hT⟩).1, Option.isSome_or,
          (h.isSome_iff r').mpr hT]
        rfl

/-- With a report everything goes that begins with it. A report of one word need not be made. -/
theorem Tells.delete (h : db.Tells T) (hr : r.Plain) (hthere : T r ∨ r.path.length = 1) :
    ∃ db' found, db.delete r.fact = .ok (db', found) ∧
      db'.Tells fun r' => T r' ∧ ¬ r.keys <+: r'.keys := by
  have hmissing : db.view.missing? r.path = none := by
    rw [FactMap.missing?, Option.map_eq_none_iff, List.find?_eq_none]
    intro e he
    rcases hthere with hT | hone
    · have hmem : e ∈ stops r.path := (List.dropLast_sublist _).mem he
      have hsome := isSome_view_of_isPrefix (Sentence.ne_nil_of_mem_stops hmem)
        (Sentence.isPrefix_of_mem_stops hmem) ((h.isSome_iff r).mpr hT)
      simp [Option.isSome_iff_ne_none.mp hsome]
    · obtain ⟨s, hs⟩ := List.length_eq_one_iff.mp hone
      simp [hs, stops] at he
  obtain ⟨db', hd, hsound, hview⟩ := delete_of_parse h.sound (Report.parse_fact hr)
    r.anyVariable_path hmissing
  refine ⟨db', _, hd, hsound, fun p e he => ?_, fun r' => ?_⟩
  · rw [hview, FactMap.delete] at he
    split at he
    · cases he
    · exact h.entry_eq p e he
  · rw [hview, FactMap.delete, ← h.isSome_iff r']
    split
    · rename_i hpre
      simp [show r.keys <+: r'.keys from hpre]
    · rename_i hpre
      simp [show ¬ r.keys <+: r'.keys from hpre]

/-- Facts of which there are none report nothing. -/
theorem tells_of_view_empty (hs : db.Sound) (h : db.view = FactMap.empty) :
    db.Tells fun _ => False := by
  constructor <;> simp [h, hs, FactMap.empty]

end FactDatabase

end Society
