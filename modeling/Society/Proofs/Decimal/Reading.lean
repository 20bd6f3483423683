import Society.Node.Value

/-!
# The characters of texts that are read as numbers

A text that is read as a number has only letters, digits, signs and points. So there is no blank in
it, and no bracket or question mark.
-/

namespace Society

namespace Text

/-- The characters that can stand in a number. -/
def isNumberChar (c : Char) : Bool :=
  c.isAlphanum || c ∈ ['-', '+', '.']

variable {c : Char} {cs : List Char}

theorem isNumberChar_of_isDigit (h : isDigit c = true) : isNumberChar c = true := by
  have hd : c.isDigit = true := h
  simp [isNumberChar, Char.isAlphanum, hd]

theorem mem_splitSign (h : c ∈ cs) : c ∈ ['-', '+'] ∨ c ∈ (splitSign cs).2 := by
  unfold splitSign
  split
  · rcases List.mem_cons.mp h with rfl | h
    · exact .inl (by simp)
    · exact .inr h
  · rcases List.mem_cons.mp h with rfl | h
    · exact .inl (by simp)
    · exact .inr h
  · exact .inr h

theorem isNumberChar_of_splitSign (h : ∀ c ∈ (splitSign cs).2, isNumberChar c = true) :
    ∀ c ∈ cs, isNumberChar c = true := by
  intro c hc
  rcases mem_splitSign hc with hsign | hc
  · rcases List.mem_cons.mp hsign with rfl | hsign
    · rfl
    · obtain rfl := List.mem_singleton.mp hsign
      rfl
  · exact h c hc

theorem isNumberChar_of_natural? {n : Nat} (h : natural? cs = some n) :
    ∀ c ∈ cs, isNumberChar c = true := by
  unfold natural? at h
  split at h
  · rename_i hd
    simp only [Bool.and_eq_true, List.all_eq_true] at hd
    exact fun c hc => isNumberChar_of_isDigit (hd.2 c hc)
  · cases h

theorem isNumberChar_of_integer? {i : Int} (h : integer? cs = some i) :
    ∀ c ∈ cs, isNumberChar c = true := by
  obtain ⟨n, hn, -⟩ := Option.map_eq_some_iff.mp h
  exact isNumberChar_of_splitSign (isNumberChar_of_natural? hn)

theorem toNat_of_isAlphanum (h : c.isAlphanum = true) : 48 ≤ c.toNat ∧ c.toNat ≤ 122 := by
  have hrange : ∀ a b : Char, 48 ≤ a.toNat → b.toNat ≤ 122 → a.val ≤ c.val → c.val ≤ b.val →
      48 ≤ c.toNat ∧ c.toNat ≤ 122 := by
    intro a b ha hb hac hcb
    exact ⟨Nat.le_trans ha (UInt32.le_iff_toNat_le.mp hac),
      Nat.le_trans (UInt32.le_iff_toNat_le.mp hcb) hb⟩
  rcases Bool.or_eq_true_iff.mp h with halpha | hdigit
  · rcases Bool.or_eq_true_iff.mp halpha with hupper | hlower
    · obtain ⟨hac, hcb⟩ := of_decide_eq_true hupper
      exact hrange 'A' 'Z' (by decide) (by decide) hac hcb
    · obtain ⟨hac, hcb⟩ := Bool.and_eq_true_iff.mp hlower
      exact hrange 'a' 'z' (by decide) (by decide) (of_decide_eq_true hac) (of_decide_eq_true hcb)
  · obtain ⟨hac, hcb⟩ := Bool.and_eq_true_iff.mp hdigit
    exact hrange '0' '9' (by decide) (by decide) (of_decide_eq_true hac) (of_decide_eq_true hcb)

/-- Letters, digits, signs and points are no blanks. -/
theorem isBlank_eq_false (h : isNumberChar c = true) : isBlank c = false := by
  rcases Bool.or_eq_true_iff.mp h with h | h
  · obtain ⟨hlow, hhigh⟩ := toNat_of_isAlphanum h
    simp only [isBlank, Bool.or_eq_false_iff, Bool.and_eq_false_iff, decide_eq_false_iff_not,
      beq_eq_false_iff_ne]
    omega
  · simp only [List.mem_cons, List.not_mem_nil, or_false, decide_eq_true_eq] at h
    rcases h with rfl | rfl | rfl <;> rfl

theorem isNumberChar_of_toLower (h : c.toLower ∈ "infinityan".toList) : isNumberChar c = true := by
  unfold Char.toLower at h
  split at h
  · rename_i hupper
    have hc : c.isAlpha = true := Bool.or_eq_true_iff.mpr (.inl (decide_eq_true hupper))
    simp [isNumberChar, Char.isAlphanum, hc]
  · have hletters : "infinityan".toList.all isNumberChar = true := by decide
    exact List.all_eq_true.mp hletters c h

/-- Nothing is trimmed from a text without blanks. -/
theorem trim_eq_self (h : ∀ c ∈ cs, isBlank c = false) : trim cs = cs := by
  have hdrop {ds : List Char} (hds : ∀ c ∈ ds, isBlank c = false) : ds.dropWhile isBlank = ds := by
    cases ds with
    | nil => rfl
    | cons c ds => rw [List.dropWhile_cons_of_neg (by simp [hds c List.mem_cons_self])]
  rw [trim, hdrop h, hdrop fun c hc => h c (List.mem_reverse.mp hc), List.reverse_reverse]

end Text

namespace Decimal

open Text

variable {cs : List Char} {x : Float}

theorem isNumberChar_of_exponent? {e : Int} (h : exponent? cs = some e) :
    ∀ c ∈ cs, isNumberChar c = true := by
  cases cs with
  | nil => simp
  | cons c cs =>
      simp only [exponent?] at h
      split at h
      · rename_i hc
        intro d hd
        rcases List.mem_cons.mp hd with rfl | hd
        · rcases hc with rfl | rfl <;> rfl
        · exact isNumberChar_of_integer? h d hd
      · cases h

theorem isNumberChar_of_takeWhile : ∀ c ∈ cs.takeWhile isDigit, isNumberChar c = true :=
  fun _ hc => isNumberChar_of_isDigit (List.all_eq_true.mp List.all_takeWhile _ hc)

/-- Digits at the front, and characters of numbers behind them. -/
theorem isNumberChar_of_dropWhile (h : ∀ c ∈ cs.dropWhile isDigit, isNumberChar c = true) :
    ∀ c ∈ cs, isNumberChar c = true := by
  intro c hc
  rw [← List.takeWhile_append_dropWhile (p := isDigit) (l := cs)] at hc
  rcases List.mem_append.mp hc with hc | hc
  · exact isNumberChar_of_takeWhile c hc
  · exact h c hc

theorem isNumberChar_of_unsigned? (h : unsigned? cs = some x) :
    ∀ c ∈ cs, isNumberChar c = true := by
  refine isNumberChar_of_dropWhile ?_
  simp only [unsigned?] at h
  split at h
  · -- a point, more digits and an exponent
    rename_i ds hrest
    rw [hrest]
    split at h
    · cases h
    · obtain ⟨e, he, -⟩ := Option.map_eq_some_iff.mp h
      intro c hc
      rcases List.mem_cons.mp hc with rfl | hc
      · rfl
      · exact isNumberChar_of_dropWhile (isNumberChar_of_exponent? he) c hc
  · split at h
    · cases h
    · obtain ⟨e, he, -⟩ := Option.map_eq_some_iff.mp h
      exact isNumberChar_of_exponent? he

theorem isNumberChar_of_special? (h : special? cs = some x) :
    ∀ c ∈ cs, isNumberChar c = true := by
  have hname : ∀ name : String, String.ofList (cs.map Char.toLower) = name →
      name.toList.all ("infinityan".toList.contains ·) = true →
        ∀ c ∈ cs, isNumberChar c = true := by
    rintro _ rfl hletters c hc
    rw [String.toList_ofList, List.all_map, List.all_eq_true] at hletters
    exact isNumberChar_of_toLower (List.contains_iff_mem.mp (hletters c hc))
  simp only [special?] at h
  split at h
  · rename_i hinf
    rcases hinf with hinf | hinf
    · exact hname _ hinf (by decide)
    · exact hname _ hinf (by decide)
  · split at h
    · rename_i hnan
      exact hname _ hnan (by decide)
    · cases h

theorem isNumberChar_of_finite? (h : finite? cs = some x) : ∀ c ∈ cs, isNumberChar c = true := by
  obtain ⟨hn, -⟩ := Option.filter_eq_some_iff.mp h
  obtain ⟨y, hy, -⟩ := Option.map_eq_some_iff.mp hn
  refine isNumberChar_of_splitSign ?_
  rcases Option.or_eq_some_iff.mp hy with hy | ⟨-, hy⟩
  · exact isNumberChar_of_unsigned? hy
  · exact isNumberChar_of_special? hy

end Decimal

/-- A text that is read as a number has only the characters of numbers. -/
theorem NodeValue.isNumberChar_of_number? {cs : List Char} {v : NodeValue}
    (h : number? cs = some v) : ∀ c ∈ cs, Text.isNumberChar c = true := by
  unfold number? at h
  split at h
  · rename_i i hi
    exact Text.isNumberChar_of_integer? (Option.filter_eq_some_iff.mp hi).1
  · obtain ⟨x, hx, -⟩ := Option.map_eq_some_iff.mp h
    exact Decimal.isNumberChar_of_finite? hx

end Society
