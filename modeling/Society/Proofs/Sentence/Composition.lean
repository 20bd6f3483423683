import Society.Proofs.Fact.Report

/-!
# Which sentences parse

Brackets open and close without nesting, so only the last one matters: a text is no sentence exactly
if its last bracket is an opening one. Sentences put together with a delimiter are sentences again,
and their paths are put together; so are those of all sentences that tell of a world.
-/

namespace Society

/-! ## The last bracket -/

namespace Text

def isBracket (c : Char) : Bool :=
  c = '[' || c = ']'

def lastBracket? (cs : List Char) : Option Char :=
  (cs.filter isBracket).getLast?

/-- Whether a bracket is open behind a text, if one is open before it or not. -/
def leavesOpen (inLiteral : Bool) (cs : List Char) : Bool :=
  (lastBracket? cs).elim inLiteral (· = '[')

@[simp] theorem leavesOpen_nil (inLiteral : Bool) : leavesOpen inLiteral [] = inLiteral := rfl

theorem leavesOpen_cons_of_isBracket {c : Char} (h : isBracket c = true) (inLiteral : Bool)
    (cs : List Char) : leavesOpen inLiteral (c :: cs) = leavesOpen (c = '[') cs := by
  unfold leavesOpen lastBracket?
  rw [List.filter_cons_of_pos h, List.getLast?_cons]
  cases (cs.filter isBracket).getLast? <;> rfl

theorem leavesOpen_cons_of_not {c : Char} (h : isBracket c = false) (inLiteral : Bool)
    (cs : List Char) : leavesOpen inLiteral (c :: cs) = leavesOpen inLiteral cs := by
  unfold leavesOpen lastBracket?
  rw [List.filter_cons_of_neg (by simp [h])]

theorem leavesOpen_append (inLiteral : Bool) (front cs : List Char) :
    leavesOpen inLiteral (front ++ cs) = leavesOpen (leavesOpen inLiteral front) cs := by
  unfold leavesOpen lastBracket?
  rw [List.filter_append, List.getLast?_append]
  cases (cs.filter isBracket).getLast? <;> rfl

theorem leavesOpen_false_iff {cs : List Char} :
    leavesOpen false cs = true ↔ lastBracket? cs = some '[' := by
  unfold leavesOpen
  cases lastBracket? cs <;> simp

end Text

/-! ## Sentences that do not parse -/

namespace Sentence

open Text (leavesOpen)

theorem segmentsAfter?_eq_none_iff {token : List Char} {inLiteral : Bool} {cs : List Char} :
    segmentsAfter? token inLiteral cs = none ↔ leavesOpen inLiteral cs = true := by
  induction cs generalizing token inLiteral with
  | nil => cases inLiteral <;> simp [segmentsAfter?]
  | cons c cs ih =>
      rw [segmentsAfter?]
      split
      · rename_i hc
        subst hc
        simpa [Text.leavesOpen_cons_of_isBracket, Text.isBracket] using ih
      · rename_i hopen
        split
        · rename_i hc
          subst hc
          simpa [Text.leavesOpen_cons_of_isBracket, Text.isBracket] using ih
        · rename_i hclose
          rw [Text.leavesOpen_cons_of_not (by simp [Text.isBracket, hopen, hclose])]
          -- A delimiter outside of brackets leaves them closed, any other character as they are.
          split
          · rename_i hc
            simpa [show inLiteral = false by simpa using hc.2] using ih
          · split
            · rename_i hc
              simpa [show inLiteral = false by simpa using hc.2] using ih
            · exact ih

/-- A text is no sentence exactly if its last bracket is an opening one. -/
theorem parse_eq_error_iff {s : String} :
    (∃ error, parse s = .error error) ↔ Text.lastBracket? s.toList = some '[' := by
  rw [← Text.leavesOpen_false_iff, ← @segmentsAfter?_eq_none_iff [], parse]
  cases segmentsAfter? [] false s.toList <;> simp

/-! ## Sentences put together -/

/-- Parsing is compositional. A text fails to parse exactly if its last bracket is an opening one.
Two sentences with a delimiter between them name the path of the first, closed by the delimiter,
followed by the path of the second; so whatever the names in a world are, as long as they parse, the
sentences that tell of it parse to the paths of the names, put together. -/
theorem parse_compositional :
    (∀ s, (∃ error, parse s = .error error) ↔ Text.lastBracket? s.toList = some '[') ∧
    (∀ a b p q, parse a = .ok p → parse b = .ok q →
      parse (a ++ "." ++ b) = .ok (p ++ q) ∧
      parse (a ++ "!" ++ b) = .ok (closedBy .one p ++ q)) ∧
    (∀ (r : Report) (path : String → List Segment),
      (∀ name ∈ r.names, parse name = .ok (path name)) → parse r.fact = .ok (r.pathBy path)) :=
  ⟨fun _ => parse_eq_error_iff,
    fun _ _ _ _ ha hb => ⟨parse_append_point ha hb, parse_append_bang ha hb⟩,
    fun _ _ h => Report.parse_fact_of_names h⟩

/-- Two uids with brackets that are closed twice or shut in a delimiter, and the type of the
relationship between them. -/
theorem parse_compositional_of_brackets :
    parse "]ann.[o!]" = .ok [⟨.symbol "ann", .many⟩, ⟨.symbol "o!", .many⟩] ∧
    parse "7]!x" = .ok [⟨.int 7, .one⟩, ⟨.symbol "x", .many⟩] ∧
    parse ("]ann.[o!]" ++ "!" ++ "7]!x") =
      .ok [⟨.symbol "ann", .many⟩, ⟨.symbol "o!", .one⟩, ⟨.int 7, .one⟩, ⟨.symbol "x", .many⟩] ∧
    parse (Relationship.kindFact "]ann.[o!]" "7]!x" "7]!x") =
      .ok [⟨.symbol "ann", .many⟩, ⟨.symbol "o!", .many⟩, ⟨.symbol "relationships", .many⟩,
        ⟨.int 7, .one⟩, ⟨.symbol "x", .many⟩, ⟨.symbol "type", .one⟩,
        ⟨.int 7, .one⟩, ⟨.symbol "x", .many⟩] := by
  have hann : parse "]ann.[o!]" = .ok [⟨.symbol "ann", .many⟩, ⟨.symbol "o!", .many⟩] := by
    decide +kernel
  have hx : parse "7]!x" = .ok [⟨.int 7, .one⟩, ⟨.symbol "x", .many⟩] := by
    decide +kernel
  obtain ⟨-, happend, hreport⟩ := parse_compositional
  refine ⟨hann, hx, (happend _ _ _ _ hann hx).2, ?_⟩
  refine hreport (.kind "]ann.[o!]" "7]!x" "7]!x") (fun name => (parse name).toOption.getD []) ?_
  simp [Report.names, hann, hx, Except.toOption]

end Sentence

end Society
