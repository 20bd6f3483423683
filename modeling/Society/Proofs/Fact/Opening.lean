import Society.Proofs.Fact.Report

/-!
# What an insertion comes to

A path opens another one if it is the beginning of it, with the cardinalities that the other one
has there. After a path has been inserted, the paths that open it are there, and of the others those
that were there before and that it has not displaced.
-/

namespace Society

namespace Sentence

/-- A path is the beginning of another one, with its cardinalities. Those that follow the last
segment do not matter. -/
structure OpensPath (p q : List Segment) : Prop where
  keys : keys p <+: keys q
  cardinalities : p.dropLast.map Segment.cardinality <+: q.map Segment.cardinality

/-! ## Beginnings by their lengths -/

variable {p q : List Segment} {e : List String × Segment} {i : Nat}

theorem getElem?_stops (p : List Segment) (i : Nat) :
    (stops p)[i]? = p[i]?.map fun t => ((keys p).take (i + 1), t) := by
  induction p generalizing i with
  | nil => rfl
  | cons s p ih =>
      cases i with
      | zero => rfl
      | succ i =>
          simp only [stops, List.getElem?_cons_succ, List.getElem?_map, ih, Option.map_map]
          rfl

theorem stops_eq (p : List Segment) : stops p = p.mapIdx fun i t => ((keys p).take (i + 1), t) :=
  (List.mapIdx_eq_iff.mpr (getElem?_stops p)).symm

theorem mem_stops_iff :
    e ∈ stops p ↔ ∃ i, ∃ h : i < p.length, e = ((keys p).take (i + 1), p[i]) := by
  rw [stops_eq, List.mem_mapIdx]
  simp only [eq_comm]

theorem mem_dropLast_stops_iff :
    e ∈ (stops p).dropLast ↔ ∃ i, ∃ h : i + 1 < p.length, e = ((keys p).take (i + 1), p[i]) := by
  rw [stops_eq, List.mem_iff_getElem]
  simp only [List.getElem_dropLast, List.getElem_mapIdx, List.length_dropLast, List.length_mapIdx]
  constructor
  · rintro ⟨i, hi, rfl⟩
    exact ⟨i, by omega, rfl⟩
  · rintro ⟨i, hi, rfl⟩
    exact ⟨i, by omega, rfl⟩

theorem lookup_stops_take (h : i < p.length) :
    (stops p).lookup ((keys p).take (i + 1)) = some p[i] := by
  induction p generalizing i with
  | nil => cases h
  | cons s p ih =>
      rw [keys_cons, List.take_succ_cons, lookup_stops_cons, if_pos rfl]
      cases i with
      | zero => rfl
      | succ i =>
          have hi : i < p.length := by simpa using h
          have hne : (keys p).take (i + 1) ≠ [] := by
            cases p with
            | nil => cases hi
            | cons t p => simp
          rw [if_neg hne, ih hi]
          rfl

theorem lookup_stops_eq_none {k : List String} (h : ¬ k <+: keys p) :
    (stops p).lookup k = none := by
  rw [List.lookup_eq_none_iff]
  intro e he
  refine bne_iff_ne.mpr ?_
  rintro rfl
  exact h (isPrefix_of_mem_stops he)

theorem take_keys_of_isPrefix (h : keys p <+: keys q) (hi : i < p.length) :
    (keys p).take (i + 1) = (keys q).take (i + 1) := by
  have hlength : i + 1 ≤ (keys p).length := by simpa [keys] using Nat.succ_le_of_lt hi
  rw [List.prefix_iff_eq_take.mp h, List.take_take, Nat.min_eq_left hlength]

theorem length_le_of_isPrefix (h : keys p <+: keys q) : p.length ≤ q.length := by
  simpa [keys] using h.length_le

/-- Paths of which one opens the other, segment by segment. -/
theorem opensPath_iff :
    OpensPath p q ↔ keys p <+: keys q ∧ ∀ i (hp : i + 1 < p.length) (hq : i < q.length),
      p[i].cardinality = q[i].cardinality := by
  constructor
  · rintro ⟨hkeys, hcards⟩
    refine ⟨hkeys, fun i hp hq => ?_⟩
    have hi : i < (p.dropLast.map Segment.cardinality).length := by simp; omega
    have heq := hcards.getElem hi
    simpa using heq
  · rintro ⟨hkeys, hcards⟩
    refine ⟨hkeys, List.prefix_iff_getElem.mpr ⟨?_, fun i hi => ?_⟩⟩
    · have hle := length_le_of_isPrefix hkeys
      simp
      omega
    · have hp : i + 1 < p.length := by
        simp at hi
        omega
      simpa using hcards i hp ((Nat.lt_of_succ_lt hp).trans_le (length_le_of_isPrefix hkeys))

/-- What opens a path but does not reach its last segment opens the path without it. -/
theorem opensPath_append_iff {t : Segment} :
    OpensPath p (q ++ [t]) ∧ ¬ keys (q ++ [t]) <+: keys p ↔ OpensPath p q := by
  have hkeys : keys (q ++ [t]) = keys q ++ [t.toSymbol] := List.map_append
  rw [hkeys]
  constructor
  · rintro ⟨⟨hpre, hcards⟩, hnot⟩
    rw [hkeys, List.prefix_concat_iff] at hpre
    have hpre := hpre.resolve_left fun heq => hnot (heq ▸ List.prefix_refl _)
    refine ⟨hpre, List.prefix_of_prefix_length_le hcards (by simp) ?_⟩
    have hle := length_le_of_isPrefix hpre
    simp
    omega
  · rintro ⟨hpre, hcards⟩
    refine ⟨⟨hkeys ▸ hpre.trans (List.prefix_append _ _), ?_⟩, fun hlong => ?_⟩
    · rw [List.map_append]
      exact hcards.trans (List.prefix_append _ _)
    · have hle := (hlong.trans hpre).length_le
      simp only [List.length_append, List.length_singleton] at hle
      omega

end Sentence

namespace FactMap

open Sentence (keys stops OpensPath)

variable {m : FactMap} {p q : List Segment} {i : Nat}

theorem holds_iff : m.holds p = true ↔
    (m (keys p)).isSome = true ∧ ∀ i (h : i + 1 < p.length),
      (m ((keys p).take (i + 1))).any (·.cardinality = p[i].cardinality) = true := by
  rw [holds, Bool.and_eq_true, List.all_eq_true]
  refine and_congr_right fun _ => ⟨fun h i hi => ?_, fun h e he => ?_⟩
  · exact h _ (Sentence.mem_dropLast_stops_iff.mpr ⟨i, hi, rfl⟩)
  · obtain ⟨i, hi, rfl⟩ := Sentence.mem_dropLast_stops_iff.mp he
    exact h i hi

/-- Whatever leads somewhere leads there along a path. -/
def Closed (m : FactMap) : Prop :=
  ∀ k k', k ≠ [] → k <+: k' → (m k').isSome = true → (m k).isSome = true

/-- What opens a path that is held is held. -/
theorem holds_of_opensPath (hclosed : m.Closed) (hp : p ≠ []) (hopens : OpensPath p q)
    (h : m.holds q = true) : m.holds p = true := by
  obtain ⟨hkeys, hcards⟩ := Sentence.opensPath_iff.mp hopens
  obtain ⟨hsome, hall⟩ := holds_iff.mp h
  refine holds_iff.mpr ⟨hclosed _ _ (keys_ne_nil hp) hkeys hsome, fun i hi => ?_⟩
  have hq : i + 1 < q.length := hi.trans_le (Sentence.length_le_of_isPrefix hkeys)
  rw [Sentence.take_keys_of_isPrefix hkeys (Nat.lt_of_succ_lt hi),
    hcards i hi (Nat.lt_of_succ_lt hq)]
  exact hall i hq

theorem entry_of_clash? (hc : m.clash? q = none) (h : i < q.length) {e : FactEntry}
    (he : m ((keys q).take (i + 1)) = some e) : e.cardinality = q[i].cardinality := by
  rw [clash?, Option.map_eq_none_iff, List.find?_eq_none] at hc
  have hstop := hc _ (Sentence.mem_stops_iff.mpr ⟨i, h, rfl⟩)
  simpa [he] using hstop

/-- Each beginning of the path is there after it has been inserted, with its cardinality. -/
theorem insert_take (hc : m.clash? q = none) (h : i < q.length) :
    ∃ e, m.insert q ((keys q).take (i + 1)) = some e ∧ e.cardinality = q[i].cardinality := by
  have hlookup := Sentence.lookup_stops_take h
  have hnot : ¬ m.Displaces q ((keys q).take (i + 1)) := by
    intro hd
    rw [lookup_stops_of_displaces hd] at hlookup
    cases hlookup
  rw [insert, if_neg hnot, hlookup]
  cases he : m ((keys q).take (i + 1)) with
  | none => exact ⟨q[i].entry, rfl, rfl⟩
  | some e => exact ⟨e, rfl, entry_of_clash? hc h he⟩

theorem isSome_insert_keys (hc : m.clash? q = none) (hp : p ≠ []) (hkeys : keys p <+: keys q) :
    (m.insert q (keys p)).isSome = true := by
  have hpos := List.length_pos_iff.mpr hp
  have hlast : p.length - 1 < p.length := by omega
  have hall : (keys p).take (p.length - 1 + 1) = keys p :=
    List.take_of_length_le (by simp [keys]; omega)
  rw [← hall, Sentence.take_keys_of_isPrefix hkeys hlast]
  obtain ⟨e, he, -⟩ := insert_take hc (hlast.trans_le (Sentence.length_le_of_isPrefix hkeys))
  exact Option.isSome_iff_exists.mpr ⟨e, he⟩

/-- Of the beginnings of an inserted path, those are held that have its cardinalities. -/
theorem holds_insert_iff_opensPath (hc : m.clash? q = none) (hp : p ≠ [])
    (hkeys : keys p <+: keys q) : (m.insert q).holds p = true ↔ OpensPath p q := by
  rw [holds_iff, Sentence.opensPath_iff, and_iff_right (isSome_insert_keys hc hp hkeys),
    and_iff_right hkeys]
  refine forall₂_congr fun i hi => ?_
  have hq : i < q.length :=
    (Nat.lt_of_succ_lt hi).trans_le (Sentence.length_le_of_isPrefix hkeys)
  obtain ⟨e, he, hcard⟩ := insert_take hc hq
  rw [Sentence.take_keys_of_isPrefix hkeys (Nat.lt_of_succ_lt hi), he]
  simp [hcard, eq_comm, hq]

theorem Displaces.of_isPrefix {k k' : List String} (h : m.Displaces q k) (hk : k <+: k') :
    m.Displaces q k' := by
  obtain ⟨start, next, key, rest, hq, rfl, hne, he⟩ := h
  obtain ⟨more, rfl⟩ := hk
  exact ⟨start, next, key, rest ++ more, hq, by simp, hne, he⟩

/-- Whatever is on the way to a path that is not displaced keeps its entry. -/
theorem holds_insert_of_not_displaces (hclosed : m.Closed) (hd : ¬ m.Displaces q (keys p))
    (hsome : (m (keys p)).isSome = true) : (m.insert q).holds p = m.holds p := by
  have hentry : ∀ k, k <+: keys p → (m k).isSome = true → m.insert q k = m k := by
    intro k hpre hk
    obtain ⟨e, he⟩ := Option.isSome_iff_exists.mp hk
    rw [insert, if_neg (mt (·.of_isPrefix hpre) hd), he]
    rfl
  have hstop : ∀ e ∈ (stops p).dropLast, m.insert q e.1 = m e.1 := by
    intro e he
    have hmem := (List.dropLast_sublist _).mem he
    have hpre := Sentence.isPrefix_of_mem_stops hmem
    exact hentry e.1 hpre (hclosed e.1 _ (Sentence.ne_nil_of_mem_stops hmem) hpre hsome)
  have hall : ((stops p).dropLast.all fun e =>
      (m.insert q e.1).any (·.cardinality = e.2.cardinality)) =
        (stops p).dropLast.all fun e => (m e.1).any (·.cardinality = e.2.cardinality) := by
    rw [Bool.eq_iff_iff, List.all_eq_true, List.all_eq_true]
    exact forall₂_congr fun e he => by rw [hstop e he]
  rw [holds, holds, hentry (keys p) (List.prefix_refl _) hsome]
  exact congrArg _ hall

/-- After an insertion the paths are there that open what was inserted, and those that were there
before and were not displaced. -/
theorem holds_insert_iff (hclosed : m.Closed) (hc : m.clash? q = none) (hp : p ≠ []) :
    (m.insert q).holds p = true ↔
      OpensPath p q ∨ (m.holds p = true ∧ ¬ m.Displaces q (keys p)) := by
  constructor
  · intro h
    by_cases hkeys : keys p <+: keys q
    · exact .inl ((holds_insert_iff_opensPath hc hp hkeys).mp h)
    · have hsome := (holds_iff.mp h).1
      rw [insert, Sentence.lookup_stops_eq_none hkeys] at hsome
      split at hsome
      · cases hsome
      · rename_i hd
        have hbefore : (m (keys p)).isSome = true := by simpa using hsome
        exact .inr ⟨(holds_insert_of_not_displaces hclosed hd hbefore).symm.trans h, hd⟩
  · rintro (hopens | ⟨hholds, hd⟩)
    · exact (holds_insert_iff_opensPath hc hp hopens.keys).mpr hopens
    · exact (holds_insert_of_not_displaces hclosed hd (holds_iff.mp hholds).1).trans hholds

/-- A path of nodes that may have many children displaces nothing. -/
theorem not_displaces_of_many (hm : m [] = none) (hc : m.clash? q = none)
    (hmany : ∀ t ∈ q.dropLast, t.cardinality = .many) (k : List String) : ¬ m.Displaces q k := by
  rintro ⟨start, next, key, rest, hq, rfl, -, e, he, hone⟩
  have hstart : start = (keys q).take start.length :=
    List.prefix_iff_eq_take.mp ((List.prefix_append _ _).trans hq)
  have hlength : start.length + 1 ≤ q.length := by
    simpa [keys] using hq.length_le
  cases hi : start.length with
  | zero =>
      rw [List.eq_nil_of_length_eq_zero hi, hm] at he
      cases he
  | succ i =>
      have hlt : i < q.dropLast.length := by
        simp
        omega
      rw [hstart, hi] at he
      have hcard := entry_of_clash? hc (by omega) he
      have hone' : q.dropLast[i].cardinality = .one := by
        rw [List.getElem_dropLast, ← hcard, hone]
      rw [hmany _ (List.getElem_mem hlt)] at hone'
      cases hone'

end FactMap

end Society
