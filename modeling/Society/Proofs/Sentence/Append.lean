import Society.Proofs.Sentence.RoundTrip

/-!
# Sentences that are put together

A sentence that is pasted from two others, with a delimiter between them, names the path of the
first followed by the path of the second. The delimiter is the cardinality of the last segment of
the first.
-/

namespace Society.Sentence

/-- The path with another cardinality at its end. -/
def closedBy (c : Cardinality) : List Segment → List Segment
  | [] => []
  | [s] => [{ s with cardinality := c }]
  | s :: path => s :: closedBy c path

theorem closedBy_cons (c : Cardinality) (s : Segment) {path : List Segment} (h : path ≠ []) :
    closedBy c (s :: path) = s :: closedBy c path := by
  cases path with
  | nil => exact absurd rfl h
  | cons t path => rfl

theorem closedBy_append (c : Cardinality) (path : List Segment) (s : Segment) (rest : List Segment) :
    closedBy c (path ++ s :: rest) = path ++ closedBy c (s :: rest) := by
  induction path with
  | nil => rfl
  | cons t path ih => rw [List.cons_append, closedBy_cons _ _ (by simp), ih, List.cons_append]

/-- The last segment of a sentence lets many children follow already. -/
theorem Proper.closedBy_many {path : List Segment} (h : Proper path) :
    closedBy .many path = path := by
  induction path with
  | nil => rfl
  | cons s path ih =>
      cases path with
      | nil =>
          obtain ⟨-, hc⟩ := h
          simp [closedBy, ← hc]
      | cons t path => rw [closedBy_cons _ _ (by simp), ih h.2.2]

/-- The delimiters of sentences, with the cardinality that each stands for. -/
inductive Delimits : Char → Cardinality → Prop where
  | point : Delimits '.' .many
  | bang : Delimits '!' .one

theorem segmentsAfter?_append {d : Char} {c : Cardinality} (hd : Delimits d c)
    {token a : List Char} {inLiteral : Bool} {path : List Segment}
    (ha : segmentsAfter? token inLiteral a = some path) (b : List Char) :
    segmentsAfter? token inLiteral (a ++ d :: b) =
      (segmentsAfter? [] false b).map (closedBy c path ++ ·) := by
  induction a generalizing token inLiteral path with
  | nil =>
      cases inLiteral with
      | true => cases ha
      | false =>
          obtain rfl := Option.some.inj ha
          cases hd <;> rfl
  | cons x a ih =>
      have hne : ∀ path', segmentsAfter? [] false a = some path' → path' ≠ [] := fun path' h =>
        (proper_of_segmentsAfter? (by simp [Text.Plain]) h).ne_nil
      simp only [segmentsAfter?, List.cons_append] at ha ⊢
      split at ha
      · rename_i hx
        rw [if_pos hx]
        exact ih ha
      · rename_i hx
        rw [if_neg hx]
        split at ha
        · rename_i hx
          rw [if_pos hx]
          exact ih ha
        · rename_i hx
          rw [if_neg hx]
          split at ha
          · rename_i hx
            obtain ⟨path', hp, rfl⟩ := Option.map_eq_some_iff.mp ha
            rw [if_pos hx, ih hp, closedBy_cons _ _ (hne path' hp), Option.map_map]
            rfl
          · rename_i hx
            rw [if_neg hx]
            split at ha
            · rename_i hx
              obtain ⟨path', hp, rfl⟩ := Option.map_eq_some_iff.mp ha
              rw [if_pos hx, ih hp, closedBy_cons _ _ (hne path' hp), Option.map_map]
              rfl
            · rename_i hx
              rw [if_neg hx]
              exact ih ha

theorem parse_eq_ok {s : String} {path : List Segment} :
    parse s = .ok path ↔ segmentsAfter? [] false s.toList = some path := by
  unfold parse
  cases segmentsAfter? [] false s.toList <;> simp

theorem parse_append_delimiter {d : Char} {c : Cardinality} (hd : Delimits d c) {a b : String}
    {p q : List Segment} (ha : parse a = .ok p) (hb : parse b = .ok q) :
    parse (a ++ String.singleton d ++ b) = .ok (closedBy c p ++ q) := by
  rw [parse_eq_ok] at ha hb ⊢
  simp [segmentsAfter?_append hd ha, hb]

theorem parse_append_point {a b : String} {p q : List Segment} (ha : parse a = .ok p)
    (hb : parse b = .ok q) : parse (a ++ "." ++ b) = .ok (p ++ q) := by
  rw [← (proper_of_parse ha).closedBy_many]
  exact parse_append_delimiter .point ha hb

theorem parse_append_bang {a b : String} {p q : List Segment} (ha : parse a = .ok p)
    (hb : parse b = .ok q) : parse (a ++ "!" ++ b) = .ok (closedBy .one p ++ q) :=
  parse_append_delimiter .bang ha hb

end Society.Sentence
