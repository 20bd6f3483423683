import Society.Proofs.Decimal.Text
import Society.Proofs.Text.Integer
import Society.Sentence

/-!
# Values that are written in sentences

A value is written if a piece of a sentence reads as it. The symbol of a written value can be written
in turn; unless the value is a float it reads back as the value itself.
-/

namespace Society

/-- A text without brackets, which can stand between two delimiters of a sentence. -/
def Text.Plain (cs : List Char) : Prop :=
  '[' ∉ cs ∧ ']' ∉ cs

namespace NodeValue

/-- The value of a piece of a sentence. -/
def Written (v : NodeValue) : Prop :=
  ∃ token, Text.Plain token ∧ v = ofToken token

def isFloat : NodeValue → Bool
  | .float _ => true
  | _ => false

/-- What a piece of a sentence can be, by the kind of its value. -/
theorem ofToken_cases (cs : List Char) :
    (cs.head? = some '?' ∧ ofToken cs = .var (String.ofList cs)) ∨
    (cs.head? ≠ some '?' ∧ number? cs = none ∧ ofToken cs = .symbol (String.ofList cs)) ∨
    (cs.head? ≠ some '?' ∧ ∃ i, -Text.int64Limit ≤ i ∧ i < Text.int64Limit ∧ ofToken cs = .int i) ∨
    (cs.head? ≠ some '?' ∧ ∃ x, ofToken cs = .float x) := by
  by_cases hq : cs.head? = some '?'
  · exact .inl ⟨hq, by simp [ofToken, hq]⟩
  · cases hn : number? cs with
    | none => exact .inr (.inl ⟨hq, rfl, by simp [ofToken, hq, hn]⟩)
    | some v =>
        have hv : ofToken cs = v := by simp [ofToken, hq, hn]
        rw [hv]
        unfold number? at hn
        split at hn
        · rename_i i hi
          obtain rfl := Option.some.inj hn
          obtain ⟨hlo, hhi⟩ := Text.int64?_range hi
          exact .inr (.inr (.inl ⟨hq, i, hlo, hhi, rfl⟩))
        · obtain ⟨x, -, rfl⟩ := Option.map_eq_some_iff.mp hn
          unfold ofFloat
          split
          · rename_i i _
            split
            · rename_i hi
              exact .inr (.inr (.inl ⟨hq, i, by simp only [Text.int64Limit]; omega,
                by simp only [Text.int64Limit]; omega, rfl⟩))
            · exact .inr (.inr (.inr ⟨hq, x, rfl⟩))
          · exact .inr (.inr (.inr ⟨hq, x, rfl⟩))

theorem isVariable_ofToken (cs : List Char) : (ofToken cs).isVariable = (cs.head? = some '?') := by
  rcases ofToken_cases cs with ⟨hq, h⟩ | ⟨hq, -, h⟩ | ⟨hq, i, -, -, h⟩ | ⟨hq, x, h⟩ <;>
    simp [h, hq, isVariable, kind]

theorem ofToken_toString {i : Int} (hlo : -Text.int64Limit ≤ i) (hhi : i < Text.int64Limit) :
    ofToken (toString i).toList = .int i := by
  have hq : (toString i).toList.head? ≠ some '?' := by
    intro h
    rcases Text.mem_toString (List.mem_of_mem_head? h) with h | h <;> revert h <;> decide
  have hn : number? (toString i).toList = some (.int i) := by
    simp only [number?, Text.int64?_toString hlo hhi]
  simp only [ofToken, hq, hn, ↓reduceIte, Option.getD_some]

theorem Written.ofToken_toSymbol {v : NodeValue} (h : v.Written) (hf : v.isFloat = false) :
    ofToken v.toSymbol.toList = v := by
  obtain ⟨cs, -, rfl⟩ := h
  rcases ofToken_cases cs with ⟨-, h⟩ | ⟨-, -, h⟩ | ⟨-, i, hlo, hhi, h⟩ | ⟨-, x, h⟩
  · simp [h, toSymbol]
  · simp [h, toSymbol]
  · rw [h]; exact ofToken_toString hlo hhi
  · simp [h, isFloat] at hf

theorem Written.plain_toSymbol {v : NodeValue} (h : v.Written) : Text.Plain v.toSymbol.toList := by
  obtain ⟨cs, hp, rfl⟩ := h
  rcases ofToken_cases cs with ⟨-, h⟩ | ⟨-, -, h⟩ | ⟨-, i, -, -, h⟩ | ⟨-, x, h⟩ <;> rw [h]
  · simpa [toSymbol] using hp
  · simpa [toSymbol] using hp
  · constructor <;> intro hc <;>
      (rcases Text.mem_toString hc with hc | hc <;> revert hc <;> decide)
  · constructor <;> intro hc <;> exact absurd (Decimal.numeral_toPrecision x 3 _ hc) (by decide)

/-- Only the symbol of a variable begins with a question mark. -/
theorem Written.head?_toSymbol {v : NodeValue} (h : v.Written) (hv : v.isVariable = false) :
    v.toSymbol.toList.head? ≠ some '?' := by
  obtain ⟨cs, -, rfl⟩ := h
  rcases ofToken_cases cs with ⟨-, h⟩ | ⟨hq, -, h⟩ | ⟨-, i, -, -, h⟩ | ⟨-, x, h⟩ <;> rw [h] at hv ⊢
  · simp [isVariable, kind] at hv
  · simpa [toSymbol] using hq
  · intro hc
    rcases Text.mem_toString (List.mem_of_mem_head? hc) with hc | hc <;> revert hc <;> decide
  · intro hc
    exact absurd (Decimal.numeral_toPrecision x 3 _ (List.mem_of_mem_head? hc)) (by decide)

end NodeValue

end Society
