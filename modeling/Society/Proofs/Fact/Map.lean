import Society.Proofs.Fact.Run
import Mathlib.Data.List.Find

/-!
# Facts as a map

The facts seen as a map from paths of keys to what is kept there, and the calls on a database said of
that map alone: by the beginnings of a path, without a tree and without a walk.
-/

namespace Society

/-- What is kept at the end of a path of keys. -/
structure FactEntry where
  value : NodeValue
  cardinality : Cardinality
deriving DecidableEq

/-- What each path of keys leads to. -/
abbrev FactMap :=
  List String → Option FactEntry

def Segment.entry (s : Segment) : FactEntry :=
  ⟨s.value, s.cardinality⟩

namespace Sentence

def keys (path : List Segment) : List String :=
  path.map Segment.toSymbol

/-- The nonempty beginnings of a path, the shortest first: the keys along each, and its last segment. -/
def stops : List Segment → List (List String × Segment)
  | [] => []
  | s :: path => ([s.toSymbol], s) :: (stops path).map fun (p, t) => (s.toSymbol :: p, t)

end Sentence

namespace FactMap

open Sentence (keys stops)

/-- The last segment of the first beginning of a path that is there with another cardinality than the
path gives it. -/
def clash? (m : FactMap) (path : List Segment) : Option Segment :=
  ((stops path).find? fun (p, s) => (m p).any (·.cardinality ≠ s.cardinality)).map (·.2)

/-- Whether `p` branches off the path below a node that may have one child: it goes on from there to
another child than the path. -/
def Displaces (m : FactMap) (path : List Segment) (p : List String) : Prop :=
  ∃ q next key rest, q ++ [next] <+: keys path ∧ p = q ++ key :: rest ∧ key ≠ next ∧
    ∃ e, m q = some e ∧ e.cardinality = .one

open Classical in
/-- The map with all beginnings of a path, without what branches off. What was there stays. -/
noncomputable def insert (m : FactMap) (path : List Segment) : FactMap := fun p =>
  if m.Displaces path p then none else (m p).or (((stops path).lookup p).map Segment.entry)

/-- Whether a path is there, each beginning but the whole with the cardinality that the path gives
it. -/
def holds (m : FactMap) (path : List Segment) : Bool :=
  (m (keys path)).isSome &&
    (stops path).dropLast.all fun (p, s) => (m p).any (·.cardinality = s.cardinality)

/-- The last segment of the first beginning of a path, other than the whole, that is not there. -/
def missing? (m : FactMap) (path : List Segment) : Option Segment :=
  ((stops path).dropLast.find? fun (p, _) => (m p).isNone).map (·.2)

/-- The map without a path and all that begins with it. -/
def delete (m : FactMap) (path : List Segment) : FactMap := fun p =>
  if keys path <+: p then none else m p

def empty : FactMap := fun _ => none

/-- The answer to a call on a path without variables, and the map after it. -/
noncomputable def stepPath (m : FactMap) (s : String) (action : FactAction) (path : List Segment) :
    Except FactError FactAnswer × FactMap :=
  match action with
  | .insert =>
    match m.clash? path with
    | some t => (.error (.cardinalityMismatch t.toSymbol s), m)
    | none => (.ok .done, m.insert path)
  | .assert => (.ok (.truth (m.holds path)), m)
  | .delete =>
    match m.missing? path with
    | some t => (.error (.missingChild t.toSymbol), m)
    | none => (.ok (.truth (m (keys path)).isSome), m.delete path)

/-- The answer to a call with a sentence: one that does not parse, or has a variable, is refused and
changes nothing. -/
noncomputable def stepSentence (m : FactMap) (action : FactAction) (s : String) :
    Except FactError FactAnswer × FactMap :=
  match Sentence.parse s with
  | .error e => (.error e, m)
  | .ok path =>
    if Sentence.anyVariable path then (.error (.variableInFact s action), m)
    else m.stepPath s action path

/-- The answer to a call, and the map after it. -/
noncomputable def step (m : FactMap) : FactCall → Except FactError FactAnswer × FactMap
  | .insert s => m.stepSentence .insert s
  | .assert s => m.stepSentence .assert s
  | .delete s => m.stepSentence .delete s
  | .clear => (.ok .done, empty)

/-- The answers to calls in order, and the map after the last one. -/
noncomputable def run (m : FactMap) : List FactCall → List (Except FactError FactAnswer) × FactMap
  | [] => ([], m)
  | c :: calls => ((m.step c).1 :: ((m.step c).2.run calls).1, ((m.step c).2.run calls).2)

end FactMap

/-! ## Beginnings of a path -/

namespace Sentence

@[simp] theorem keys_cons (s : Segment) (path : List Segment) :
    keys (s :: path) = s.toSymbol :: keys path := rfl

theorem ne_nil_of_mem_stops {path : List Segment} {e : List String × Segment} (h : e ∈ stops path) :
    e.1 ≠ [] := by
  cases path with
  | nil => cases h
  | cons s path =>
      rcases List.mem_cons.mp h with rfl | h
      · simp
      · obtain ⟨e', -, rfl⟩ := List.mem_map.mp h
        simp

theorem isPrefix_of_mem_stops {path : List Segment} {e : List String × Segment}
    (h : e ∈ stops path) : e.1 <+: keys path := by
  induction path generalizing e with
  | nil => cases h
  | cons s path ih =>
      rcases List.mem_cons.mp h with rfl | h
      · exact ⟨keys path, rfl⟩
      · obtain ⟨e', he', rfl⟩ := List.mem_map.mp h
        exact List.cons_prefix_cons.mpr ⟨rfl, ih he'⟩

theorem lookup_stops_nil (path : List Segment) : (stops path).lookup [] = none := by
  rw [List.lookup_eq_none_iff]
  intro e he
  simpa using ne_nil_of_mem_stops he

theorem lookup_map_cons (k key : String) (p : List String) (l : List (List String × Segment)) :
    (l.map fun (q, t) => (k :: q, t)).lookup (key :: p) = if key = k then l.lookup p else none := by
  induction l with
  | nil => simp
  | cons e l ih =>
      obtain ⟨q, t⟩ := e
      simp only [List.map_cons, List.lookup_cons, ih, List.cons_beq_cons]
      by_cases hk : key = k
      · simp [hk]
      · simp [hk, beq_false_of_ne hk]

theorem lookup_stops_cons (s : Segment) (path : List Segment) (key : String) (p : List String) :
    (stops (s :: path)).lookup (key :: p) =
      if key = s.toSymbol then (if p = [] then some s else (stops path).lookup p) else none := by
  simp only [stops, List.lookup_cons, lookup_map_cons, List.cons_beq_cons]
  by_cases hk : key = s.toSymbol
  · by_cases hp : p = []
    · simp [hk, hp]
    · simp [hk, hp, beq_false_of_ne hp]
  · simp [hk, beq_false_of_ne hk]

end Sentence

/-! ## The map operations along a path -/

namespace FactMap

open Sentence (keys stops)

/-- What the map knows behind a key. -/
def behind (m : FactMap) (key : String) : FactMap := fun p => m (key :: p)

theorem clash?_cons (m : FactMap) (s : Segment) (path : List Segment) :
    m.clash? (s :: path) =
      if (m [s.toSymbol]).any (·.cardinality ≠ s.cardinality) then some s
      else (m.behind s.toSymbol).clash? path := by
  simp only [clash?, stops, List.find?_cons]
  split
  · rename_i h
    rw [if_pos h]
    rfl
  · rename_i h
    rw [if_neg (by rw [h]; decide), List.find?_map, Option.map_map]
    rfl

theorem clash?_empty (path : List Segment) : empty.clash? path = none := by
  rw [clash?, List.find?_eq_none.mpr (fun e _ => by simp [empty])]
  rfl

theorem missing?_cons (m : FactMap) (s : Segment) {path : List Segment} (hp : path ≠ []) :
    m.missing? (s :: path) =
      if (m [s.toSymbol]).isNone then some s else (m.behind s.toSymbol).missing? path := by
  obtain ⟨t, path, rfl⟩ := List.exists_cons_of_ne_nil hp
  have hne : (stops (t :: path)).map (fun (p, u) => (s.toSymbol :: p, u)) ≠ [] := by
    simp [stops]
  rw [missing?, stops, List.dropLast_cons_of_ne_nil hne, ← List.map_dropLast, List.find?_cons]
  split
  · rename_i h; simp [h]
  · rename_i h
    simp only [h, Bool.false_eq_true, ↓reduceIte, List.find?_map, Option.map_map]
    rfl

theorem holds_cons (m : FactMap) (s : Segment) {path : List Segment} (hp : path ≠ []) :
    m.holds (s :: path) =
      ((m [s.toSymbol]).any (·.cardinality = s.cardinality) && (m.behind s.toSymbol).holds path) := by
  obtain ⟨t, path, rfl⟩ := List.exists_cons_of_ne_nil hp
  have hne : (stops (t :: path)).map (fun (p, u) => (s.toSymbol :: p, u)) ≠ [] := by
    simp [stops]
  rw [holds, stops, List.dropLast_cons_of_ne_nil hne, ← List.map_dropLast, List.all_cons,
    List.all_map, Bool.and_left_comm]
  rfl

theorem not_displaces_nil (m : FactMap) (path : List Segment) : ¬ m.Displaces path [] := by
  rintro ⟨q, next, key, rest, -, hp, -⟩
  simp at hp

theorem not_displaces_of_nil (m : FactMap) (p : List String) : ¬ m.Displaces [] p := by
  rintro ⟨q, next, key, rest, hq, -⟩
  simp [keys] at hq

/-- What branches off a path does so at its first node or behind it. -/
theorem displaces_cons {m : FactMap} {s : Segment} {path : List Segment} {key : String}
    {p : List String} :
    m.Displaces (s :: path) (key :: p) ↔
      (key ≠ s.toSymbol ∧ ∃ e, m [] = some e ∧ e.cardinality = .one) ∨
      (key = s.toSymbol ∧ (m.behind key).Displaces path p) := by
  constructor
  · rintro ⟨q, next, other, rest, hq, hp, hne, e, he, hone⟩
    cases q with
    | nil =>
        obtain ⟨rfl, rfl⟩ := List.cons.inj hp
        obtain ⟨rfl, -⟩ := List.cons_prefix_cons.mp hq
        exact .inl ⟨hne, e, he, hone⟩
    | cons k q =>
        obtain ⟨rfl, rfl⟩ := List.cons.inj hp
        obtain ⟨rfl, hq'⟩ := List.cons_prefix_cons.mp hq
        exact .inr ⟨rfl, q, next, other, rest, hq', rfl, hne, e, he, hone⟩
  · rintro (⟨hne, e, he, hone⟩ | ⟨rfl, q, next, other, rest, hq, rfl, hne, e, he, hone⟩)
    · exact ⟨[], s.toSymbol, key, p, List.cons_prefix_cons.mpr ⟨rfl, List.nil_prefix⟩, rfl, hne, e,
        he, hone⟩
    · exact ⟨s.toSymbol :: q, next, other, rest, List.cons_prefix_cons.mpr ⟨rfl, hq⟩, rfl, hne, e,
        he, hone⟩

theorem lookup_stops_of_displaces {m : FactMap} {path : List Segment} {p : List String}
    (h : m.Displaces path p) : (stops path).lookup p = none := by
  obtain ⟨q, next, key, rest, hq, rfl, hne, -⟩ := h
  rw [List.lookup_eq_none_iff]
  intro e he
  refine bne_iff_ne.mpr fun heq => ?_
  have hpre : q ++ key :: rest <+: keys path := heq ▸ Sentence.isPrefix_of_mem_stops he
  obtain ⟨a, ha⟩ := hq
  obtain ⟨b, hb⟩ := hpre
  rw [← ha, List.append_assoc, List.append_assoc] at hb
  have hkey := List.append_cancel_left hb
  simp only [List.cons_append, List.nil_append, List.cons.injEq] at hkey
  exact hne hkey.1

theorem delete_cons (m : FactMap) (s : Segment) (path : List Segment) (key : String)
    (p : List String) :
    m.delete (s :: path) (key :: p) =
      if key = s.toSymbol then (m.behind key).delete path p else m (key :: p) := by
  simp only [delete, Sentence.keys_cons, List.cons_prefix_cons, behind]
  by_cases hk : key = s.toSymbol
  · simp [hk]
  · simp [hk, Ne.symm hk]

theorem delete_cons_nil (m : FactMap) (s : Segment) (path : List Segment) :
    m.delete (s :: path) [] = m [] := by
  simp [delete]

theorem not_displaces_empty (path : List Segment) (p : List String) :
    ¬ empty.Displaces path p := by
  rintro ⟨q, next, key, rest, -, -, -, e, he, -⟩
  cases he

open Classical in
theorem insert_cons (m : FactMap) (s : Segment) (path : List Segment) (key : String)
    (p : List String) :
    m.insert (s :: path) (key :: p) =
      if key = s.toSymbol then
        if (m.behind key).Displaces path p then none
        else (m (key :: p)).or (if p = [] then some s.entry else ((stops path).lookup p).map Segment.entry)
      else if (m []).any (·.cardinality = .one) then none
      else m (key :: p) := by
  simp only [insert, displaces_cons, Sentence.lookup_stops_cons]
  by_cases hk : key = s.toSymbol
  · by_cases hp : p = [] <;> simp [hk, hp]
  · cases he : m [] <;> simp [hk]

/-! ## What an insertion leaves -/

section

variable {m : FactMap} {s : Segment} {path q : List Segment} {key : String}

theorem insert_first (hm : (m []).any (·.cardinality = .one) = false)
    (hkey : (m [key]).isSome = true) : m.insert path [key] = m [key] := by
  obtain ⟨e, he⟩ := Option.isSome_iff_exists.mp hkey
  cases path with
  | nil => simp [insert, not_displaces_of_nil, Sentence.stops]
  | cons s path =>
      rw [insert_cons]
      split
      · simp [not_displaces_nil, he]
      · simp [hm]

theorem behind_insert_self (hs : (m [s.toSymbol]).isSome = true) :
    (m.insert (s :: path)).behind s.toSymbol = (m.behind s.toSymbol).insert path := by
  obtain ⟨e, he⟩ := Option.isSome_iff_exists.mp hs
  funext p
  show m.insert (s :: path) (s.toSymbol :: p) = _
  rw [insert_cons, if_pos rfl, insert]
  cases p with
  | nil => simp [behind, he, Sentence.lookup_stops_nil]
  | cons key p => simp [behind]

theorem behind_insert_of_ne (hm : (m []).any (·.cardinality = .one) = false)
    (hne : key ≠ s.toSymbol) : (m.insert (s :: path)).behind key = m.behind key := by
  funext p
  show m.insert (s :: path) (key :: p) = _
  rw [insert_cons, if_neg hne, hm]
  rfl

/-- A path of nodes that may have many children stays, whatever is inserted. -/
theorem holds_insert (hm : (m []).any (·.cardinality = .one) = false)
    (hq : ∀ s ∈ q.dropLast, s.cardinality = .many) (h : m.holds q = true) :
    (m.insert path).holds q = true := by
  induction q generalizing m path with
  | nil =>
      have hsome : (m []).isSome = true := by simpa [holds, Sentence.keys, Sentence.stops] using h
      simp [holds, Sentence.keys, Sentence.stops, insert, not_displaces_nil, hsome]
  | cons s q ih =>
      cases q with
      | nil =>
          have hsome : (m [s.toSymbol]).isSome = true := by
            simpa [holds, Sentence.keys, Sentence.stops] using h
          simp [holds, Sentence.keys, Sentence.stops, insert_first hm hsome, hsome]
      | cons s' q =>
          rw [holds_cons _ _ (by simp), Bool.and_eq_true] at h ⊢
          obtain ⟨hfirst, hrest⟩ := h
          have hsome : (m [s.toSymbol]).isSome = true := Option.isSome_of_any hfirst
          refine ⟨by rwa [insert_first hm hsome], ?_⟩
          cases path with
          | nil =>
              have hsame : m.insert [] = m := by
                funext p
                simp [insert, not_displaces_of_nil, Sentence.stops]
              rwa [hsame]
          | cons t path =>
              by_cases hkey : s.toSymbol = t.toSymbol
              · have hmany : s.cardinality = .many := hq s (by simp)
                have hbehind : (m.behind s.toSymbol []).any (·.cardinality = .one) = false := by
                  obtain ⟨e, he⟩ := Option.isSome_iff_exists.mp hsome
                  simp_all [behind]
                rw [hkey, behind_insert_self (hkey ▸ hsome), ← hkey]
                exact ih hbehind (fun u hu => hq u (List.mem_cons_of_mem _ hu)) hrest
              · rwa [behind_insert_of_ne hm hkey]

end

/-! ## The map below the root -/

/-- The map without what the empty path leads to. -/
def belowRoot (m : FactMap) : FactMap := fun p =>
  if p = [] then none else m p

theorem belowRoot_of_ne_nil (m : FactMap) {p : List String} (h : p ≠ []) : m.belowRoot p = m p := by
  simp [belowRoot, h]

theorem belowRoot_stop (m : FactMap) {path : List Segment} {e : List String × Segment}
    (he : e ∈ stops path) : m.belowRoot e.1 = m e.1 :=
  m.belowRoot_of_ne_nil (Sentence.ne_nil_of_mem_stops he)

theorem clash?_belowRoot (m : FactMap) (path : List Segment) :
    m.belowRoot.clash? path = m.clash? path := by
  unfold clash?
  congr 1
  refine List.find?_congr fun e he => ?_
  simp only [m.belowRoot_stop he]

theorem missing?_belowRoot (m : FactMap) (path : List Segment) :
    m.belowRoot.missing? path = m.missing? path := by
  unfold missing?
  congr 1
  refine List.find?_congr fun e he => ?_
  simp only [m.belowRoot_stop ((List.dropLast_sublist _).mem he)]

theorem keys_ne_nil {path : List Segment} (h : path ≠ []) : keys path ≠ [] := by
  simpa [keys] using h

theorem holds_belowRoot (m : FactMap) {path : List Segment} (h : path ≠ []) :
    m.belowRoot.holds path = m.holds path := by
  rw [holds, holds, m.belowRoot_of_ne_nil (keys_ne_nil h), Bool.eq_iff_iff]
  simp only [Bool.and_eq_true, List.all_eq_true]
  refine and_congr_right fun _ => forall₂_congr fun e he => ?_
  simp only [m.belowRoot_stop ((List.dropLast_sublist _).mem he)]

/-- Nothing branches off at a root that may have many children. -/
theorem displaces_belowRoot {m : FactMap} (hm : ∀ e, m [] = some e → e.cardinality ≠ .one)
    {path : List Segment} {p : List String} : m.belowRoot.Displaces path p ↔ m.Displaces path p := by
  refine exists_congr fun q => exists_congr fun next => exists_congr fun key => exists_congr fun rest =>
    and_congr_right fun _ => and_congr_right fun _ => and_congr_right fun _ => ?_
  by_cases hq : q = []
  · subst hq
    refine ⟨?_, ?_⟩
    · rintro ⟨e, he, -⟩; simp [belowRoot] at he
    · rintro ⟨e, he, hone⟩; exact absurd hone (hm e he)
  · rw [m.belowRoot_of_ne_nil hq]

theorem insert_belowRoot {m : FactMap} (hm : ∀ e, m [] = some e → e.cardinality ≠ .one)
    (path : List Segment) : m.belowRoot.insert path = (m.insert path).belowRoot := by
  funext p
  by_cases hp : p = []
  · subst hp
    simp [insert, belowRoot, not_displaces_nil, Sentence.lookup_stops_nil]
  · rw [belowRoot_of_ne_nil _ hp]
    unfold insert
    rw [belowRoot_of_ne_nil m hp]
    by_cases hd : m.Displaces path p
    · rw [if_pos hd, if_pos ((displaces_belowRoot hm).mpr hd)]
    · rw [if_neg hd, if_neg (mt (displaces_belowRoot hm).mp hd)]

theorem delete_belowRoot (m : FactMap) (path : List Segment) :
    m.belowRoot.delete path = (m.delete path).belowRoot := by
  funext p
  by_cases hp : p = []
  · simp [delete, belowRoot, hp]
  · simp [delete, belowRoot, hp]

end FactMap

end Society
