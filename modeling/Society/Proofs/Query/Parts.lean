import Mathlib.Data.List.Basic
import Mathlib.Data.List.Induction
import Society.Proofs.Sentence.Composition
import Society.Query.Clause

/-!
# The parts of a clause

A clause is cut at its gaps, the blanks that stand outside of brackets. Nothing but the gaps is lost,
characters without a gap between them stay together, and the parts with single blanks between them
are a clause of the same parts.
-/

namespace Society

/-! ## The gaps of a text -/

namespace Text

/-- Whether a character is a gap behind a text: a blank, and no bracket is open. -/
def isGap (before : List Char) (c : Char) : Bool :=
  isBlank c && !leavesOpen false before

/-- The text without its gaps. -/
def dense (cs : List Char) : List Char :=
  (cs.zipIdx.filter fun (c, i) => !isGap (cs.take i) c).map Prod.fst

/-- A text without gaps. -/
def Solid (cs : List Char) : Prop :=
  ∀ before c after, cs = before ++ c :: after → isGap before c = false

theorem isBracket_of_isBlank {c : Char} (h : isBlank c = true) : isBracket c = false := by
  cases hc : isBracket c with
  | false => rfl
  | true =>
      obtain rfl | rfl : c = '[' ∨ c = ']' := by simpa [isBracket] using hc
      · exact absurd h (by decide)
      · exact absurd h (by decide)

theorem isGap_iff {before : List Char} {c : Char} :
    isGap before c = true ↔ isBlank c = true ∧ leavesOpen false before = false := by
  simp [isGap]

/-- Where there is a gap there could be a single blank. -/
theorem isGap_space {before : List Char} {c : Char} (h : isGap before c = true) :
    isGap before ' ' = true :=
  isGap_iff.mpr ⟨by decide, (isGap_iff.mp h).2⟩

/-- Behind a gap a text begins anew. -/
theorem isGap_append {before : List Char} {c : Char} (h : isGap before c = true)
    (text : List Char) (d : Char) : isGap (before ++ c :: text) d = isGap text d := by
  obtain ⟨hblank, hclosed⟩ := isGap_iff.mp h
  rw [isGap, leavesOpen_append, hclosed, leavesOpen_cons_of_not (isBracket_of_isBlank hblank), isGap]

theorem solid_nil : Solid [] := by
  intro before c after h
  simp at h

theorem Solid.of_append {cs rest : List Char} (h : Solid (cs ++ rest)) : Solid cs := by
  rintro before c after rfl
  exact h before c (after ++ rest) (by simp)

theorem Solid.concat {cs : List Char} {c : Char} (h : Solid cs) (hc : isGap cs c = false) :
    Solid (cs ++ [c]) := by
  intro before d after heq
  rcases after.eq_nil_or_concat' with rfl | ⟨after, e, rfl⟩
  · obtain ⟨rfl, hd⟩ := List.append_inj' heq rfl
    obtain rfl := List.singleton_inj.mp hd
    exact hc
  · have hfront : cs ++ [c] = before ++ d :: after ++ [e] := by simpa using heq
    exact h before d after (List.append_inj' hfront rfl).1

/-- A text has no gap, or it has a first one. -/
theorem solid_or_gap (cs : List Char) :
    Solid cs ∨ ∃ before c after, cs = before ++ c :: after ∧ Solid before ∧ isGap before c = true := by
  -- From the back, so that a gap that was found remains the first one.
  induction cs using List.reverseRecOn with
  | nil => exact .inl solid_nil
  | append_singleton cs c ih =>
      rcases ih with h | ⟨before, d, after, rfl, h, hd⟩
      · cases hc : isGap cs c with
        | false => exact .inl (h.concat hc)
        | true => exact .inr ⟨cs, c, [], rfl, h, hc⟩
      · exact .inr ⟨before, d, after ++ [c], by simp, h, hd⟩

/-- Induction from gap to gap. -/
@[elab_as_elim]
theorem gap_induction {P : List Char → Prop} (solid : ∀ cs, Solid cs → P cs)
    (gap : ∀ before c after, Solid before → isGap before c = true → P after →
      P (before ++ c :: after)) (cs : List Char) : P cs := by
  rcases solid_or_gap cs with h | ⟨before, c, after, heq, h, hc⟩
  · exact solid cs h
  · have hshorter : after.length < cs.length := by simp [heq]; omega
    rw [heq]
    exact gap before c after h hc (gap_induction solid gap after)
termination_by cs.length

/-- A gap stands before two neighbours or behind them, unless it is one of them. -/
theorem gap_beside_pair {front rest before after : List Char} {e c d : Char}
    (h : front ++ e :: rest = before ++ c :: d :: after) (he : isGap front e = true)
    (hc : isGap before c = false) (hd : isGap (before ++ [c]) d = false) :
    (∃ mid, before = front ++ e :: mid ∧ rest = mid ++ c :: d :: after) ∨
    (∃ mid, front = before ++ [c, d] ++ mid) := by
  rcases List.append_eq_append_iff.mp h with ⟨mid, rfl, hrest⟩ | ⟨mid, rfl, hrest⟩
  · cases mid with
    | nil =>
        obtain ⟨rfl, -⟩ := List.cons.inj hrest
        simp [he] at hc
    | cons _ mid =>
        simp only [List.cons_append, List.cons.injEq] at hrest
        obtain ⟨rfl, hrest⟩ := hrest
        exact .inl ⟨mid, rfl, hrest⟩
  · -- The gap would be the first of the two, or the second, or it is behind both.
    rcases mid with _ | ⟨_, _ | ⟨_, mid⟩⟩
    · obtain ⟨rfl, -⟩ := List.cons.inj hrest
      simp [hc] at he
    · simp only [List.cons_append, List.nil_append, List.cons.injEq] at hrest
      obtain ⟨rfl, rfl, -⟩ := hrest
      simp [hd] at he
    · simp only [List.cons_append, List.cons.injEq] at hrest
      obtain ⟨rfl, rfl, -⟩ := hrest
      exact .inr ⟨mid, by simp⟩

theorem dense_concat (cs : List Char) (c : Char) :
    dense (cs ++ [c]) = if isGap cs c then dense cs else dense cs ++ [c] := by
  have hfront : cs.zipIdx.filter (fun (d, i) => !isGap ((cs ++ [c]).take i) d) =
      cs.zipIdx.filter fun (d, i) => !isGap (cs.take i) d := by
    refine List.filter_congr ?_
    rintro ⟨d, i⟩ hmem
    obtain ⟨hi, -⟩ := List.getElem?_eq_some_iff.mp (List.mk_mem_zipIdx_iff_getElem?.mp hmem)
    simp only [List.take_append_of_le_length hi.le]
  rw [dense, List.zipIdx_append, List.filter_append, List.map_append, hfront]
  cases hc : isGap cs c <;> simp [dense, hc]

theorem dense_of_solid {cs : List Char} (h : Solid cs) : dense cs = cs := by
  induction cs using List.reverseRecOn with
  | nil => rfl
  | append_singleton cs c ih =>
      have hc : isGap cs c = false := h cs c [] rfl
      simp [dense_concat, hc, ih h.of_append]

theorem dense_append {before : List Char} {c : Char} (h : isGap before c = true)
    (after : List Char) : dense (before ++ c :: after) = dense before ++ dense after := by
  induction after using List.reverseRecOn with
  | nil => simp [dense_concat, h, dense_of_solid solid_nil]
  | append_singleton after d ih =>
      rw [← List.cons_append, ← List.append_assoc, dense_concat, dense_concat, isGap_append h, ih]
      cases isGap after d <;> simp

end Text

/-! ## The scan for the parts -/

namespace Clause

open Text (Solid dense isBlank isBracket isGap leavesOpen wordOf)

theorem partsAfter_cons (reversed : List Char) (inLiteral : Bool) (c : Char) (cs : List Char) :
    partsAfter reversed inLiteral (c :: cs) =
      if isBlank c && !inLiteral then wordOf reversed ++ partsAfter [] false cs
      else partsAfter (c :: reversed) (leavesOpen inLiteral [c]) cs := by
  rw [partsAfter]
  split
  · rename_i hc
    subst hc
    rfl
  · rename_i hopen
    split
    · rename_i hc
      subst hc
      rfl
    · rename_i hclose
      have hc : isBracket c = false := by simp [isBracket, hopen, hclose]
      simp [Text.leavesOpen_cons_of_not hc]

/-- Without gaps the scan goes on with one part, until the text ends. What it has read so far is the
text that decides whether the next character is a gap. -/
theorem partsAfter_of_solid {reversed cs : List Char} (h : Solid (reversed.reverse ++ cs)) :
    partsAfter reversed (leavesOpen false reversed.reverse) cs = wordOf (cs.reverse ++ reversed) := by
  induction cs generalizing reversed with
  | nil => rfl
  | cons c cs ih =>
      have hc : isGap reversed.reverse c = false := h _ c cs rfl
      rw [isGap] at hc
      rw [partsAfter_cons, hc]
      simpa [Text.leavesOpen_append] using @ih (c :: reversed) (by simpa using h)

/-- At a gap the scan begins anew. -/
theorem partsAfter_append {reversed before after : List Char} {inLiteral : Bool} {c : Char}
    (hblank : isBlank c = true) (hclosed : leavesOpen inLiteral before = false) :
    partsAfter reversed inLiteral (before ++ c :: after) =
      partsAfter reversed inLiteral before ++ partsAfter [] false after := by
  induction before generalizing reversed inLiteral with
  | nil =>
      obtain rfl : inLiteral = false := hclosed
      simp [partsAfter_cons, hblank, partsAfter]
  | cons d before ih =>
      rw [List.cons_append, partsAfter_cons, partsAfter_cons]
      rw [← List.singleton_append, Text.leavesOpen_append] at hclosed
      split
      · rename_i hd
        obtain ⟨hblankd, hopen⟩ := Bool.and_eq_true_iff.mp hd
        obtain rfl : inLiteral = false := by simpa using hopen
        rw [Text.leavesOpen_cons_of_not (Text.isBracket_of_isBlank hblankd)] at hclosed
        rw [ih (by simpa using hclosed), List.append_assoc]
      · exact ih hclosed

theorem split_of_solid {cs : List Char} (h : Solid cs) :
    split (String.ofList cs) = wordOf cs.reverse := by
  have hparts := @partsAfter_of_solid [] cs h
  simpa [split] using hparts

/-- At a gap the parts before it and the parts behind it come together. With `split_of_solid` this says
all about splitting. -/
theorem split_append {before after : List Char} {c : Char} (h : isGap before c = true) :
    split (String.ofList (before ++ c :: after)) =
      split (String.ofList before) ++ split (String.ofList after) := by
  obtain ⟨hblank, hclosed⟩ := Text.isGap_iff.mp h
  simpa [split] using partsAfter_append hblank hclosed

/-! ## What the parts keep -/

theorem wordOf_of_ne_nil {cs : List Char} (h : cs ≠ []) : wordOf cs.reverse = [String.ofList cs] := by
  simp [wordOf, h]

theorem toList_join_wordOf (cs : List Char) : (String.join (wordOf cs.reverse)).toList = cs := by
  by_cases h : cs = [] <;> simp [wordOf, h]

theorem solid_of_mem_wordOf {cs : List Char} (h : Solid cs) :
    ∀ part ∈ wordOf cs.reverse, part ≠ "" ∧ Solid part.toList := by
  intro part hpart
  by_cases hne : cs = []
  · simp [wordOf, hne] at hpart
  · obtain rfl : part = String.ofList cs := by simpa [wordOf_of_ne_nil hne] using hpart
    simpa [hne] using h

/-- No part is empty and no part has a gap. -/
theorem solid_of_mem_split (cs : List Char) :
    ∀ part ∈ split (String.ofList cs), part ≠ "" ∧ Solid part.toList := by
  induction cs using Text.gap_induction with
  | solid cs hcs =>
      rw [split_of_solid hcs]
      exact solid_of_mem_wordOf hcs
  | gap before c after hbefore hc ih =>
      rw [split_append hc, split_of_solid hbefore]
      exact List.forall_mem_append.mpr ⟨solid_of_mem_wordOf hbefore, ih⟩

/-- All the parts together are the text without its gaps. -/
theorem toList_join_split (cs : List Char) :
    (String.join (split (String.ofList cs))).toList = dense cs := by
  induction cs using Text.gap_induction with
  | solid cs hcs => rw [split_of_solid hcs, toList_join_wordOf, Text.dense_of_solid hcs]
  | gap before c after hbefore hc ih =>
      rw [split_append hc, String.join_append, String.toList_append, ih, Text.dense_append hc,
        split_of_solid hbefore, toList_join_wordOf, Text.dense_of_solid hbefore]

/-- The characters stand side by side in one of the parts, and `front` is all that the parts have
before them. -/
def InOnePart (parts : List String) (front cs : List Char) : Prop :=
  ∃ earlier part later left right, parts = earlier ++ part :: later ∧
    part.toList = left ++ cs ++ right ∧ (String.join earlier).toList ++ left = front

theorem InOnePart.append_left {parts : List String} {front cs : List Char}
    (h : InOnePart parts front cs) (earlier : List String) :
    InOnePart (earlier ++ parts) ((String.join earlier).toList ++ front) cs := by
  obtain ⟨mid, part, later, left, right, rfl, hpart, rfl⟩ := h
  exact ⟨earlier ++ mid, part, later, left, right, by simp, hpart, by simp [String.join_append]⟩

theorem InOnePart.append_right {parts : List String} {front cs : List Char}
    (h : InOnePart parts front cs) (later : List String) : InOnePart (parts ++ later) front cs := by
  obtain ⟨earlier, part, mid, left, right, rfl, hpart, rfl⟩ := h
  exact ⟨earlier, part, mid ++ later, left, right, by simp, hpart, rfl⟩

theorem inOnePart_of_solid {before cs after : List Char} (h : Solid (before ++ cs ++ after))
    (hne : cs ≠ []) : InOnePart (split (String.ofList (before ++ cs ++ after))) (dense before) cs := by
  have hbefore : Solid before := @Text.Solid.of_append before (cs ++ after) (by simpa using h)
  refine ⟨[], String.ofList (before ++ cs ++ after), [], before, after, ?_, by simp, ?_⟩
  · rw [split_of_solid h, wordOf_of_ne_nil (by simp [hne]), List.nil_append]
  · simp [Text.dense_of_solid hbefore]

/-- Two neighbours neither of which is a gap are neighbours in one of the parts. -/
theorem inOnePart_split {cs before after : List Char} {c d : Char}
    (h : cs = before ++ c :: d :: after) (hc : isGap before c = false)
    (hd : isGap (before ++ [c]) d = false) :
    InOnePart (split (String.ofList cs)) (dense before) [c, d] := by
  induction cs using Text.gap_induction generalizing before with
  | solid cs hcs =>
      obtain rfl : cs = before ++ [c, d] ++ after := by simpa using h
      exact inOnePart_of_solid hcs (by simp)
  | gap front e rest hfront he ih =>
      rw [split_append he]
      rcases Text.gap_beside_pair h he hc hd with ⟨mid, rfl, hrest⟩ | ⟨mid, rfl⟩
      · rw [List.append_assoc, List.cons_append, Text.isGap_append he] at hd
        rw [Text.isGap_append he] at hc
        rw [Text.dense_append he, ← toList_join_split front]
        exact (ih hrest hc hd).append_left _
      · exact (inOnePart_of_solid hfront (by simp)).append_right _

/-! ## Splitting again -/

/-- A part that closes its brackets is a part in front of any others. -/
theorem split_intercalate_cons {part : List Char} (hpart : Solid part) (hne : part ≠ [])
    (hclosed : isGap part ' ' = true) (parts : List String) :
    split (" ".intercalate (String.ofList part :: parts)) =
      String.ofList part :: split (" ".intercalate parts) := by
  have hsplit : split (String.ofList part) = [String.ofList part] := by
    rw [split_of_solid hpart, wordOf_of_ne_nil hne]
  cases parts with
  | nil => rw [String.intercalate_singleton, String.intercalate_nil, hsplit]; rfl
  | cons next parts =>
      have htext : " ".intercalate (String.ofList part :: next :: parts) =
          String.ofList (part ++ ' ' :: (" ".intercalate (next :: parts)).toList) := by
        rw [String.intercalate_cons_cons, ← String.toList_inj]
        simp
      rw [htext, split_append hclosed, hsplit, String.ofList_toList, List.singleton_append]

/-- With single blanks between the parts the parts are the same. -/
theorem split_intercalate (cs : List Char) :
    split (" ".intercalate (split (String.ofList cs))) = split (String.ofList cs) := by
  induction cs using Text.gap_induction with
  | solid cs hcs =>
      by_cases hne : cs = []
      · subst hne; rfl
      · rw [split_of_solid hcs, wordOf_of_ne_nil hne, String.intercalate_singleton,
          split_of_solid hcs, wordOf_of_ne_nil hne]
  | gap before c after hbefore hc ih =>
      rw [split_append hc, split_of_solid hbefore]
      by_cases hne : before = []
      · subst hne
        exact ih
      · rw [wordOf_of_ne_nil hne, List.singleton_append,
          split_intercalate_cons hbefore hne (Text.isGap_space hc), ih]

/-- Splitting loses nothing and is stable. The parts are not empty and have no gaps, and together they
are the clause without its gaps. Two neighbours neither of which is a gap stay together in one part,
with just as much of the clause before them, and a gap divides the parts before it from those behind
it. The parts with single blanks between them are split into the same parts. -/
theorem split_lossless (clause : String) :
    (∀ part ∈ split clause, part ≠ "" ∧ Solid part.toList) ∧
    (String.join (split clause)).toList = dense clause.toList ∧
    (∀ before c d after, clause.toList = before ++ c :: d :: after →
      isGap before c = false → isGap (before ++ [c]) d = false →
      InOnePart (split clause) (dense before) [c, d]) ∧
    (∀ before c after, clause.toList = before ++ c :: after → isGap before c = true →
      split clause = split (String.ofList before) ++ split (String.ofList after)) ∧
    split (" ".intercalate (split clause)) = split clause := by
  obtain ⟨cs, rfl⟩ : ∃ cs, clause = String.ofList cs := ⟨clause.toList, by simp⟩
  simp only [String.toList_ofList]
  refine ⟨solid_of_mem_split cs, toList_join_split cs, ?_, ?_, split_intercalate cs⟩
  · intro before c d after h hc hd
    exact inOnePart_split h hc hd
  · rintro before c after rfl hc
    exact split_append hc

/-- A literal that a bracket inside of it closes, a stray bracket, and a literal left open. -/
theorem split_lossless_of_brackets :
    split " eq [Toph [of]  y] [open end " = ["eq", "[Toph [of]", "y]", "[open end "] ∧
    Solid "[open end ".toList ∧
    InOnePart (split " eq [Toph [of]  y] [open end ") "eq[Toph".toList [' ', '['] ∧
    split " eq [Toph [of]  y] [open end " = split " eq [Toph [of]" ++ split " y] [open end " ∧
    split "eq [Toph [of] y] [open end " = ["eq", "[Toph [of]", "y]", "[open end "] := by
  have hsplit : split " eq [Toph [of]  y] [open end " =
      ["eq", "[Toph [of]", "y]", "[open end "] := by decide +kernel
  obtain ⟨hparts, -, hpair, hgap, hagain⟩ := split_lossless " eq [Toph [of]  y] [open end "
  rw [hsplit] at hagain
  refine ⟨hsplit, (hparts "[open end " (by simp [hsplit])).2, ?_, ?_, hagain⟩
  · exact hpair " eq [Toph".toList ' ' '[' "of]  y] [open end ".toList
      (by decide +kernel) (by decide +kernel) (by decide +kernel)
  · exact hgap " eq [Toph [of]".toList ' ' " y] [open end ".toList
      (by decide +kernel) (by decide +kernel)

end Clause

end Society
