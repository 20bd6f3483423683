import Mathlib.Data.List.Nodup
import Society.Proofs.Query.Negation

/-!
# When each match is reported once

A trail can be found again from a row that has the value of every node that stands for a variable.
The row of a trail need not be such a row: where a variable occurs again, only its last value is
kept. Two trails may then leave the same row, and asserting it twice keeps both.
-/

namespace Society

/-- The row has the value of every node of the trail that stands for a variable. -/
def Bindings.Fits (row : Bindings) : List Segment → List FactNode → Prop
  | s :: path, n :: trail =>
    (∀ name, s.value = .var name → row.get? name = some n.value) ∧ row.Fits path trail
  | _, _ => True

namespace Bindings

theorem get?_along_of_forall_ne {path : List Segment} {name : String}
    (h : ∀ s ∈ path, s.value ≠ .var name) (row : Bindings) (trail : List FactNode) :
    (row.along path trail).get? name = row.get? name := by
  induction path generalizing row trail with
  | nil => rfl
  | cons s path ih =>
      cases trail with
      | nil => rfl
      | cons n trail =>
          rw [along, ih fun t ht => h t (List.mem_cons_of_mem _ ht), get?_extend,
            if_neg (h s List.mem_cons_self)]

/-- A row that fits a trail, and has what is bound before it, has all that is bound along it. -/
theorem Fits.get?_along {path : List Segment} {trail : List FactNode} {θ : Bindings}
    (h : θ.Fits path trail) {row : Bindings}
    (hrow : ∀ name v, row.get? name = some v → θ.get? name = some v) :
    ∀ name v, (row.along path trail).get? name = some v → θ.get? name = some v := by
  induction path generalizing trail row with
  | nil => exact hrow
  | cons s path ih =>
      cases trail with
      | nil => exact hrow
      | cons n trail =>
          refine ih h.2 fun name v hv => ?_
          rw [get?_extend] at hv
          split at hv
          · rename_i hs
            rw [h.1 name hs, hv]
          · exact hrow name v hv

/-- Where no variable occurs twice, the row of a trail fits it. -/
theorem fits_along {path : List Segment}
    (h : path.Pairwise fun s t => ∀ name, s.value = .var name → t.value ≠ .var name)
    (row : Bindings) (trail : List FactNode) : (row.along path trail).Fits path trail := by
  induction path generalizing row trail with
  | nil => trivial
  | cons s path ih =>
      obtain ⟨hs, hpath⟩ := List.pairwise_cons.mp h
      cases trail with
      | nil => trivial
      | cons n trail =>
          refine ⟨fun name hname => ?_, ih hpath _ _⟩
          rw [along, get?_along_of_forall_ne fun t ht => hs t ht name hname, get?_extend,
            if_pos hname]

end Bindings

namespace FactNode

variable {n : FactNode} {path : List Segment}

/-- A row fits at most one trail: the value of a node tells the key that it stands under. -/
theorem eq_of_fits (hn : n.Sound) {θ : Bindings} {t₁ t₂ : List FactNode}
    (h₁ : t₁ ∈ n.children.trails path) (h₂ : t₂ ∈ n.children.trails path)
    (hθ₁ : θ.Fits path t₁) (hθ₂ : θ.Fits path t₂) : t₁ = t₂ := by
  induction path generalizing n t₁ t₂ with
  | nil =>
      rw [Forest.trails, List.mem_singleton] at h₁ h₂
      rw [h₁, h₂]
  | cons s path ih =>
      obtain ⟨key₁, n₁, u₁, hn₁, ha₁, hu₁, rfl⟩ := (Forest.mem_trails_cons hn.2.ascending).mp h₁
      obtain ⟨key₂, n₂, u₂, hn₂, ha₂, hu₂, rfl⟩ := (Forest.mem_trails_cons hn.2.ascending).mp h₂
      have hkey : key₁ = key₂ := by
        cases hvar : s.value with
        | var name =>
            have hvalue : n₁.value = n₂.value :=
              Option.some.inj ((hθ₁.1 name hvar).symm.trans (hθ₂.1 name hvar))
            rw [(hn.2.find? hn₁).key_eq, (hn.2.find? hn₂).key_eq, toSymbol, toSymbol, hvalue]
        | _ =>
            simp only [Segment.accepts, hvar, NodeValue.isVariable, NodeValue.kind,
              Bool.or_eq_true, decide_eq_true_eq] at ha₁ ha₂
            exact (ha₁.resolve_left (by simp)).trans (ha₂.resolve_left (by simp)).symm
      subst hkey
      obtain rfl : n₁ = n₂ := Option.some.inj (hn₁.symm.trans hn₂)
      rw [ih (hn.2.find? hn₁).sound hu₁ hu₂ hθ₁.2 hθ₂.2]

/-- A path that the tree matches with a row has a trail that the row fits. -/
theorem Matches.exists_fits {θ : Bindings} (hn : n.Sound) (h : n.Matches θ path) :
    ∃ trail ∈ n.children.trails path, θ.Fits path trail := by
  induction path generalizing n with
  | nil => exact ⟨[], by simp [Forest.trails], trivial⟩
  | cons s path ih =>
      obtain ⟨child, hc, hvar, -, hrest⟩ := h
      obtain ⟨trail, ht, hfits⟩ := ih (hn.child? hc).sound hrest
      have hacc : s.accepts (Sentence.resolve θ s.value).toSymbol = true := by
        cases hv : s.value.isVariable with
        | true => simp [Segment.accepts, hv]
        | false => simp [Segment.accepts, hv, Sentence.resolve_of_not_variable hv, Segment.toSymbol]
      exact ⟨child :: trail,
        (Forest.mem_trails_cons hn.2.ascending).mpr ⟨_, child, trail, hc, hacc, ht, rfl⟩,
        hvar, hfits⟩

/-- No trail is found twice. -/
theorem nodup_trails (hn : n.Sound) : (n.children.trails path).Nodup := by
  induction path generalizing n with
  | nil => simp [Forest.trails]
  | cons s path ih =>
      have hfind {e : String × FactNode} (he : e ∈ n.children.toList) :
          n.children.find? e.1 = some e.2 :=
        (Forest.mem_toList_iff hn.2.ascending).mp he
      rw [Forest.trails, List.nodup_flatMap]
      constructor
      · intro e he
        have hsound := (hn.2.find? (hfind (List.mem_filter.mp he).1)).sound
        exact (ih hsound).map fun _ _ h => (List.cons.inj h).2
      · have hkeys : n.children.toList.Pairwise fun e e' => e.1 < e'.1 :=
          List.pairwise_map.mp hn.2.ascending
        refine (hkeys.filter _).imp_of_mem fun {e e'} he he' hlt t ht ht' => ?_
        obtain ⟨u, -, rfl⟩ := List.mem_map.mp ht
        obtain ⟨u', -, heq⟩ := List.mem_map.mp ht'
        have hnode : e'.2 = e.2 := (List.cons.inj heq).1
        have hkey : e'.1 = e.1 := by
          rw [(hn.2.find? (hfind (List.mem_filter.mp he).1)).key_eq,
            (hn.2.find? (hfind (List.mem_filter.mp he').1)).key_eq, hnode]
        exact absurd hlt (hkey ▸ String.lt_irrefl _)

end FactNode

namespace FactDatabase

variable {db : FactDatabase} {s : String} {path : List Segment}

/-- What a trail binds makes the sentence a fact. -/
def Asserts (db : FactDatabase) (s : String) (path : List Segment) (trail : List FactNode) : Prop :=
  (do db.assert (← Sentence.bind s (Bindings.along ∅ path trail))) = .ok true

theorem asserts_iff (h : db.Sound) (hp : Sentence.parse s = .ok path)
    (hv : Sentence.anyVariable path = true) {trail : List FactNode}
    (ht : trail ∈ db.root.children.trails path) :
    db.Asserts s path trail ↔ db.confirms path (Bindings.along ∅ path trail) = true := by
  have hmem : Bindings.along ∅ path trail ∈ db.unifyPath path := by
    rw [unifyPath_eq db hv]
    exact List.mem_map_of_mem ht
  rw [Asserts, assert_bind_of_mem h hp hv hmem, Except.ok.injEq]

/-- Two rows are equal only where two trails leave the same row. -/
theorem nodup_confirmed_iff (h : db.Sound) (hp : Sentence.parse s = .ok path)
    (hv : Sentence.anyVariable path = true) :
    ((db.unifyPath path).filter (db.confirms path)).Nodup ↔
      ∀ t₁ ∈ db.root.children.trails path, ∀ t₂ ∈ db.root.children.trails path,
        Bindings.along ∅ path t₁ = Bindings.along ∅ path t₂ → db.Asserts s path t₁ → t₁ = t₂ := by
  have hnodup : (db.root.children.trails path).Nodup := FactNode.nodup_trails h.sound_root
  rw [unifyPath_eq db hv, List.filter_map, List.nodup_map_iff_inj_on (hnodup.filter _)]
  simp only [List.mem_filter, Function.comp_apply]
  constructor
  · intro hinj t₁ ht₁ t₂ ht₂ heq hass
    have hconf := (asserts_iff h hp hv ht₁).mp hass
    exact hinj t₁ ⟨ht₁, hconf⟩ t₂ ⟨ht₂, heq ▸ hconf⟩ heq
  · rintro hinj t₁ ⟨ht₁, hconf⟩ t₂ ⟨ht₂, -⟩ heq
    exact hinj t₁ ht₁ t₂ ht₂ heq ((asserts_iff h hp hv ht₁).mpr hconf)

/-- A row that answers a path is the row of a trail that it fits. -/
theorem Answers.exists_fits (h : db.Sound) {θ : Bindings} (hθ : db.Answers path θ) :
    ∃ trail ∈ db.root.children.trails path, Bindings.along ∅ path trail = θ ∧ θ.Fits path trail := by
  obtain ⟨trail, ht, hfits⟩ := hθ.found.exists_fits h.sound_root
  refine ⟨trail, ht, Dict.ext_get? fun name => ?_, hfits⟩
  have hsome := Bindings.isSome_get?_along (Forest.length_of_mem_trails ht) ∅ name
  cases hget : (Bindings.along ∅ path trail).get? name with
  | some v => exact (hfits.get?_along (by simp) name v hget).symm
  | none =>
      have hnot : ¬ (θ.get? name).isSome := by
        rw [hθ.binds name]
        intro hvar
        simpa [hget] using hsome.mpr (.inl hvar)
      exact (Option.not_isSome_iff_eq_none.mp hnot).symm

end FactDatabase

namespace Clause

open FactDatabase

variable {db : FactDatabase} {s : String} {path : List Segment}

/-- The rows that an asserted sentence leaves, where nothing was known before, are pairwise distinct
exactly if no two trails leave the same row and make the sentence a fact. So they are if no variable
occurs twice. In a tree without floats they are exactly if every trail that makes the sentence a fact
has the same value wherever a variable occurs. -/
theorem evaluate_assert_nodup (hdb : db.Reachable) (hp : Sentence.parse s = .ok path)
    (hv : Sentence.anyVariable path = true) :
    ∃ state, evaluate db ⟨true, []⟩ (.assert s) = .ok state ∧
      (state.rows.Nodup ↔
        ∀ t₁ ∈ db.root.children.trails path, ∀ t₂ ∈ db.root.children.trails path,
          Bindings.along ∅ path t₁ = Bindings.along ∅ path t₂ → db.Asserts s path t₁ → t₁ = t₂) ∧
      ((path.Pairwise fun t u => ∀ name, t.value = .var name → u.value ≠ .var name) →
        state.rows.Nodup) ∧
      (db.root.FloatFree → (∀ t ∈ path, t.value.isFloat = false) →
        (state.rows.Nodup ↔ ∀ trail ∈ db.root.children.trails path, db.Asserts s path trail →
          (Bindings.along ∅ path trail).Fits path trail)) := by
  have h := hdb.sound
  have hiff := nodup_confirmed_iff h hp hv
  -- trails that their own rows fit are told apart by them
  have hfits {t₁ t₂ : List FactNode} (ht₁ : t₁ ∈ db.root.children.trails path)
      (ht₂ : t₂ ∈ db.root.children.trails path)
      (heq : Bindings.along ∅ path t₁ = Bindings.along ∅ path t₂)
      (hf₁ : (Bindings.along ∅ path t₁).Fits path t₁)
      (hf₂ : (Bindings.along ∅ path t₂).Fits path t₂) : t₁ = t₂ :=
    FactNode.eq_of_fits h.sound_root ht₁ ht₂ hf₁ (heq ▸ hf₂)
  refine ⟨_, evaluateAssert_nil_eq h hp hv, ?_, ?_, ?_⟩ <;> rw [QueryState.rows_ofRows, hiff]
  · intro hpath t₁ ht₁ t₂ ht₂ heq _
    exact hfits ht₁ ht₂ heq (Bindings.fits_along hpath _ _) (Bindings.fits_along hpath _ _)
  · intro hfl hs
    constructor
    · intro hinj trail ht hass
      have hmem : Bindings.along ∅ path trail ∈ db.unifyPath path := by
        rw [unifyPath_eq db hv]
        exact List.mem_map_of_mem ht
      have hans := (answers_iff h hfl (Sentence.proper_of_parse hp) hv hs).mpr
        ⟨hmem, (asserts_iff h hp hv ht).mp hass⟩
      obtain ⟨trail', ht', heq, hfit⟩ := hans.exists_fits h
      obtain rfl := hinj trail ht trail' ht' heq.symm hass
      exact hfit
    · intro hall t₁ ht₁ t₂ ht₂ heq hass
      exact hfits ht₁ ht₂ heq (hall t₁ ht₁ hass) (hall t₂ ht₂ (by rwa [Asserts, ← heq]))

/-- Of two facts and a sentence whose variables differ: each of the two rows is reported once. -/
theorem evaluate_assert_nodup_of_two_variables :
    ∃ db path, db.Reachable ∧ Sentence.parse "?x.rel.?y" = .ok path ∧
      Sentence.anyVariable path = true ∧
      ∃ state, evaluate db ⟨true, []⟩ (.assert "?x.rel.?y") = .ok state ∧ state.rows.Nodup ∧
        state.rows.length = 2 := by
  have hdb : FactDatabase.Reachable
      (((∅ : FactDatabase).step (.insert "b.rel.b")).2.step (.insert "a.rel.b")).2 :=
    .step _ (.step _ .empty)
  have hp : Sentence.parse "?x.rel.?y" =
      .ok [⟨.var "?x", .many⟩, ⟨.symbol "rel", .many⟩, ⟨.var "?y", .many⟩] := rfl
  obtain ⟨state, hs, -, hnodup, -⟩ := evaluate_assert_nodup hdb hp rfl
  refine ⟨_, _, hdb, hp, rfl, state, hs, hnodup (by simp), ?_⟩
  cases hs
  rfl

/-- Of the facts `a.rel.b` and `b.rel.b` only the second has equal ends, but `?x.rel.?x` reports its
row twice: the trail of the first leaves the same row. -/
theorem assert_reports_a_match_twice :
    ¬ ∀ (db : FactDatabase) (s : String) (path : List Segment), db.Reachable →
      Sentence.parse s = .ok path → Sentence.anyVariable path = true →
      ∃ state, evaluate db ⟨true, []⟩ (.assert s) = .ok state ∧ state.rows.Nodup := by
  intro h
  obtain ⟨state, hs, hnodup⟩ :=
    h (((∅ : FactDatabase).step (.insert "a.rel.b")).2.step (.insert "b.rel.b")).2 "?x.rel.?x" _
      (.step _ (.step _ .empty)) rfl rfl
  have hrows : state.rows = List.replicate 2 ((∅ : Bindings).insert "?x" (.symbol "b")) := by
    cases hs; rfl
  rw [hrows, List.nodup_replicate] at hnodup
  exact absurd hnodup (by decide)

end Clause

end Society
