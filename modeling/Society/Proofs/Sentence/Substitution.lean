import Mathlib.Data.List.Forall2
import Society.Proofs.Query.Candidate

/-!
# Binding a sentence

Binding writes the values of a row into a sentence. What is written parses as the path of the
sentence with the values in the places of their variables.
-/

namespace Society

namespace NodeValue

variable {v : NodeValue}

/-- Whether parsing some sentence gives the value. -/
def Parsed (v : NodeValue) : Prop :=
  ∃ s path, Sentence.parse s = .ok path ∧ ∃ t ∈ path, t.value = v

theorem Parsed.written (h : v.Parsed) : v.Written := by
  obtain ⟨s, path, hp, t, ht, rfl⟩ := h
  exact ((Sentence.proper_of_parse hp).written t ht).1

theorem written_int {i : Int} (hlo : -Text.int64Limit ≤ i) (hhi : i < Text.int64Limit) :
    (NodeValue.int i).Written := by
  refine ⟨(toString i).toList, ⟨fun hc => ?_, fun hc => ?_⟩, (ofToken_toString hlo hhi).symm⟩ <;>
    rcases Text.mem_toString hc with hc | hc <;> revert hc <;> decide

end NodeValue

namespace Segment

variable {row : Bindings} {s t : Segment}

/-- A segment after a row has been written into it: it has the value of the variable it was, if the
row binds that, and is as it was otherwise. -/
structure BoundBy (row : Bindings) (s t : Segment) : Prop where
  cardinality_eq : t.cardinality = s.cardinality
  value_eq : ∀ name v, s.value = .var name → row.get? name = some v → t.value = v
  eq_self : (∀ name, s.value = .var name → row.get? name = none) → t = s

theorem boundBy_resolve (row : Bindings) (s : Segment) :
    s.BoundBy row { s with value := Sentence.resolve row s.value } where
  cardinality_eq := rfl
  value_eq name v hname hv := by
    show Sentence.resolve row s.value = v
    rw [hname, Sentence.resolve_of_get? hv]
  eq_self hnone := by
    obtain ⟨value, cardinality⟩ := s
    cases value with
    | var name => simp [Sentence.resolve, hnone name rfl]
    | _ => rfl

end Segment

namespace Sentence

variable {s : String} {path : List Segment} {row : Bindings}

theorem boundBy_substitute (row : Bindings) (path : List Segment) :
    List.Forall₂ (Segment.BoundBy row) path (substitute row path) :=
  List.forall₂_map_right_iff.mpr (List.forall₂_same.mpr fun t _ => t.boundBy_resolve row)

/-- An empty row replaces nothing. -/
theorem substitute_empty (path : List Segment) : substitute ∅ path = path := by
  rw [substitute, List.map_congr_left (g := id), List.map_id]
  intro t _
  exact (t.boundBy_resolve ∅).eq_self fun name _ => Dict.get?_empty name

/-- A value that is put into a path without floats, or stands there already, is read again as it
is. -/
theorem resolve_written {v : NodeValue} (hv : v.Written) (hfloat : v.isFloat = false)
    (hrow : ∀ name v, row.get? name = some v → v.Written ∧ v.isFloat = false) :
    (resolve row v).Written ∧ (resolve row v).isFloat = false := by
  cases v with
  | var name =>
      cases hget : row.get? name with
      | some v => rw [resolve_of_get? hget]; exact hrow name v hget
      | none => simpa [resolve, hget] using ⟨hv, hfloat⟩
  | _ => exact ⟨hv, hfloat⟩

/-- What is written is read again as it was put in. -/
theorem parse_print_substitute (hp : parse s = .ok path)
    (hfloat : ∀ t ∈ path, t.value.isFloat = false)
    (hrow : ∀ name v, row.get? name = some v → v.Written ∧ v.isFloat = false) :
    parse (print (substitute row path)) = .ok (substitute row path) := by
  have hproper := proper_of_parse hp
  have hvalue : ∀ t ∈ path,
      (resolve row t.value).Written ∧ (resolve row t.value).isFloat = false :=
    fun t ht => resolve_written (hproper.written t ht).1 (hfloat t ht) hrow
  have hsub : Proper (substitute row path) :=
    proper_substitute hproper fun t ht => (hvalue t ht).1
  rw [parse_print hsub, reread_eq hsub]
  intro u hu
  obtain ⟨t, ht, rfl⟩ := List.mem_map.mp hu
  exact (hvalue t ht).2

/-- Binding a sentence without floats to integers and symbols gives a sentence of the same path, but
for the values in the places of the variables that are bound. With nothing bound the path is written
so that it parses as the same path. -/
theorem parse_of_bind (hp : parse s = .ok path) (hfloat : ∀ t ∈ path, t.value.isFloat = false)
    (hrow : ∀ name v, row.get? name = some v →
      (∃ i, -Text.int64Limit ≤ i ∧ i < Text.int64Limit ∧ v = .int i) ∨
        ∃ symbol, v = .symbol symbol ∧ v.Parsed) :
    (∃ bound path', bind s row = .ok bound ∧ parse bound = .ok path' ∧
      List.Forall₂ (Segment.BoundBy row) path path') ∧
      bind s ∅ = .ok (print path) ∧ parse (print path) = .ok path := by
  have hwritten : ∀ name v, row.get? name = some v → v.Written ∧ v.isFloat = false := by
    intro name v hv
    rcases hrow name v hv with ⟨i, hlo, hhi, rfl⟩ | ⟨symbol, rfl, hparsed⟩
    · exact ⟨NodeValue.written_int hlo hhi, rfl⟩
    · exact ⟨hparsed.written, rfl⟩
  have hempty : parse (print (substitute ∅ path)) = .ok (substitute ∅ path) :=
    parse_print_substitute hp hfloat (by simp)
  rw [substitute_empty] at hempty
  refine ⟨⟨_, _, bind_eq hp row, parse_print_substitute hp hfloat hwritten,
    boundBy_substitute row path⟩, ?_, hempty⟩
  rw [bind_eq hp, substitute_empty]

/-- A symbol with a delimiter is put in brackets again, and a variable without a value stays. -/
theorem parse_of_bind_brackets :
    let row := ((∅ : Bindings).insert "?who" (.symbol "bob.jr")).insert "?n" (.int (-3))
    ∃ path, parse "[x.y].?who!?n.+5.?z" = .ok path ∧
      bind "[x.y].?who!?n.+5.?z" row = .ok "[x.y].[bob.jr]!-3.5.?z" ∧
      (∃ bound path', bind "[x.y].?who!?n.+5.?z" row = .ok bound ∧ parse bound = .ok path' ∧
        List.Forall₂ (Segment.BoundBy row) path path') ∧
      bind "[x.y].?who!?n.+5.?z" ∅ = .ok (print path) ∧ parse (print path) = .ok path := by
  intro row
  have hp : parse "[x.y].?who!?n.+5.?z" = .ok [⟨.symbol "x.y", .many⟩, ⟨.var "?who", .one⟩,
      ⟨.var "?n", .many⟩, ⟨.int 5, .many⟩, ⟨.var "?z", .many⟩] := by decide +kernel
  have hwho : (NodeValue.symbol "bob.jr").Parsed :=
    ⟨"[bob.jr]", [⟨.symbol "bob.jr", .many⟩], by decide +kernel, _, List.mem_singleton_self _, rfl⟩
  refine ⟨_, hp, by decide +kernel, parse_of_bind hp (by decide) fun name v hv => ?_⟩
  rw [Dict.get?_insert] at hv
  split at hv
  · obtain rfl := Option.some.inj hv
    exact .inl ⟨-3, by decide, by decide, rfl⟩
  · rw [Dict.get?_insert] at hv
    split at hv
    · obtain rfl := Option.some.inj hv
      exact .inr ⟨_, rfl, hwho⟩
    · simp at hv

end Sentence

end Society
