import Society.Proofs.Sentence.Token

/-!
# Writing a path and reading it again

A sentence that parses names a proper path: written values, each but the last with a delimiter behind
it. The sentence of a proper path parses to as many segments with the same cardinalities, whose
values are what the written symbols read as.
-/

namespace Society

/-- What the written symbol of a segment reads as. -/
def Segment.reread (s : Segment) : Segment :=
  .ofToken s.toSymbol.toList s.cardinality

namespace Sentence

open Text (Plain)

/-- A path that a sentence can name. -/
def Proper : List Segment → Prop
  | [] => False
  | [s] => s.value.Written ∧ s.cardinality = .many
  | s :: path => s.value.Written ∧ s.cardinality ≠ .none ∧ Proper path

theorem proper_cons {s : Segment} {path : List Segment} (hs : s.value.Written)
    (hc : s.cardinality ≠ .none) (h : Proper path) : Proper (s :: path) := by
  cases path with
  | nil => exact h.elim
  | cons t path => exact ⟨hs, hc, h⟩

theorem Proper.ne_nil {path : List Segment} (h : Proper path) : path ≠ [] := by
  rintro rfl; exact h

theorem Proper.written {path : List Segment} (h : Proper path) :
    ∀ s ∈ path, s.value.Written ∧ s.cardinality ≠ .none := by
  induction path with
  | nil => exact h.elim
  | cons s path ih =>
      cases path with
      | nil =>
          intro t ht
          obtain rfl := List.mem_singleton.mp ht
          exact ⟨h.1, by simp [h.2]⟩
      | cons s' path =>
          intro t ht
          rcases List.mem_cons.mp ht with rfl | ht
          · exact ⟨h.1, h.2.1⟩
          · exact ih h.2.2 t ht

/-! ## What parses is proper -/

theorem plain_reverse {token : List Char} (h : Plain token) : Plain token.reverse := by
  simpa [Plain] using h

theorem plain_cons {c : Char} {token : List Char} (h : Plain token) (ho : c ≠ '[') (hc : c ≠ ']') :
    Plain (c :: token) := by
  simp [Plain, Ne.symm ho, Ne.symm hc, h.1, h.2]

theorem written_ofToken {token : List Char} (h : Plain token) (c : Cardinality) :
    (Segment.ofToken token c).value.Written :=
  ⟨token, h, rfl⟩

theorem proper_of_segmentsAfter? {token cs : List Char} {inLiteral : Bool} {path : List Segment}
    (ht : Plain token) (h : segmentsAfter? token inLiteral cs = some path) : Proper path := by
  induction cs generalizing token inLiteral path with
  | nil =>
      simp only [segmentsAfter?] at h
      split at h
      · cases h
      · obtain rfl := Option.some.inj h
        exact ⟨written_ofToken (plain_reverse ht) .many, rfl⟩
  | cons c cs ih =>
      simp only [segmentsAfter?] at h
      split at h
      · exact ih ht h
      · rename_i ho
        split at h
        · exact ih ht h
        · rename_i hc
          have hnil : Plain [] := by simp [Plain]
          split at h
          · obtain ⟨path', hp, rfl⟩ := Option.map_eq_some_iff.mp h
            exact proper_cons (written_ofToken (plain_reverse ht) .many) (by simp [Segment.ofToken])
              (ih hnil hp)
          · split at h
            · obtain ⟨path', hp, rfl⟩ := Option.map_eq_some_iff.mp h
              exact proper_cons (written_ofToken (plain_reverse ht) .one) (by simp [Segment.ofToken])
                (ih hnil hp)
            · exact ih (plain_cons ht ho hc) h

theorem proper_of_parse {s : String} {path : List Segment} (h : parse s = .ok path) :
    Proper path := by
  unfold parse at h
  split at h
  · rename_i hp
    obtain rfl := Except.ok.inj h
    exact proper_of_segmentsAfter? (by simp [Plain]) hp
  · cases h

/-! ## What is printed parses -/

theorem segmentsAfter?_literal {cs : List Char} (h : Plain cs) (token rest : List Char) :
    segmentsAfter? token true (cs ++ rest) = segmentsAfter? (cs.reverse ++ token) true rest := by
  induction cs generalizing token with
  | nil => rfl
  | cons c cs ih =>
      simp only [Plain, List.mem_cons, not_or] at h
      simp only [List.cons_append, segmentsAfter?]
      simp [Ne.symm h.1.1, Ne.symm h.2.1, ih ⟨h.1.2, h.2.2⟩]

theorem segmentsAfter?_plain {cs : List Char} (h : Plain cs) (hd : ∀ c ∈ cs, c ≠ '.' ∧ c ≠ '!')
    (token rest : List Char) :
    segmentsAfter? token false (cs ++ rest) = segmentsAfter? (cs.reverse ++ token) false rest := by
  induction cs generalizing token with
  | nil => rfl
  | cons c cs ih =>
      simp only [Plain, List.mem_cons, not_or] at h
      have hc := hd c List.mem_cons_self
      simp only [List.cons_append, segmentsAfter?]
      simp [Ne.symm h.1.1, Ne.symm h.2.1, hc.1, hc.2,
        ih ⟨h.1.2, h.2.2⟩ fun c' hc' => hd c' (List.mem_cons_of_mem _ hc')]

/-- An escaped symbol becomes the token, with or without the brackets that the escape adds. -/
theorem segmentsAfter?_escape {symbol : String} (h : Plain symbol.toList) (rest : List Char) :
    segmentsAfter? [] false ((escape symbol).toList ++ rest) =
      segmentsAfter? symbol.toList.reverse false rest := by
  unfold escape
  split
  · have hl : ("[" ++ symbol ++ "]").toList ++ rest = '[' :: (symbol.toList ++ ']' :: rest) := by
      simp
    rw [hl]
    simp only [segmentsAfter?, ↓reduceIte, segmentsAfter?_literal h, List.append_nil]
    simp
  · rename_i hd
    have hd' : ∀ c ∈ symbol.toList, c ≠ '.' ∧ c ≠ '!' := by
      intro c hc
      simp only [List.any_eq_true, not_exists, not_and] at hd
      simpa using hd c hc
    rw [segmentsAfter?_plain h hd', List.append_nil]

theorem segmentsAfter?_print {path : List Segment} (h : Proper path) :
    segmentsAfter? [] false (print path).toList = some (path.map Segment.reread) := by
  induction path with
  | nil => exact h.elim
  | cons s path ih =>
      cases path with
      | nil =>
          have hp := segmentsAfter?_escape h.1.plain_toSymbol []
          rw [List.append_nil] at hp
          rw [print, Segment.toSymbol, hp]
          simp [segmentsAfter?, Segment.reread, Segment.toSymbol, h.2]
      | cons s' path =>
          obtain ⟨hs, hc, h⟩ := h
          have hd : ∃ c, s.cardinality.delimiter.toList = [c] ∧
              ((c = '.' ∧ s.cardinality = .many) ∨ (c = '!' ∧ s.cardinality = .one)) := by
            cases hsc : s.cardinality with
            | none => exact absurd hsc hc
            | one => exact ⟨'!', rfl, .inr ⟨rfl, rfl⟩⟩
            | many => exact ⟨'.', rfl, .inl ⟨rfl, rfl⟩⟩
          obtain ⟨c, hdc, hcase⟩ := hd
          rw [print, String.toList_append, String.toList_append, List.append_assoc, hdc,
            Segment.toSymbol, segmentsAfter?_escape hs.plain_toSymbol]
          rcases hcase with ⟨rfl, hm⟩ | ⟨rfl, hm⟩
          · simp [segmentsAfter?, ih h, Segment.reread, Segment.toSymbol, hm]
          · simp [segmentsAfter?, ih h, Segment.reread, Segment.toSymbol, hm]
          · simp  -- the path goes on, so `print` writes a delimiter

/-- The sentence of a proper path parses to what its written symbols read as. -/
theorem parse_print {path : List Segment} (h : Proper path) :
    parse (print path) = .ok (path.map Segment.reread) := by
  simp [parse, segmentsAfter?_print h]

/-- Without floats nothing is lost: the path itself is read again. -/
theorem reread_eq {path : List Segment} (h : Proper path)
    (hf : ∀ s ∈ path, s.value.isFloat = false) : path.map Segment.reread = path := by
  have hid : ∀ s ∈ path, s.reread = s := by
    intro s hs
    have hv := (h.written s hs).1.ofToken_toSymbol (hf s hs)
    simp only [Segment.reread, Segment.ofToken, Segment.toSymbol, hv]
  rw [List.map_congr_left hid, List.map_id'']
  intro s; rfl

end Sentence

end Society
