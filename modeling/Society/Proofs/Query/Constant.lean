import Society.Proofs.Decimal.Reading
import Society.Proofs.Query.Enumeration
import Society.Proofs.Sentence.Substitution

/-!
# Constants in a negated sentence

A caller's row binds variables to constants. A sentence that is negated from there is written with
their values and looked up: the row stays unless the tree has the path that is written.
-/

namespace Society

open Sentence (keys substitute resolve)

/-! ## What a caller's value is written as -/

/-- A value of a caller that is read, where it is written, as the value that it stands for: an
integer, a text that writes a number between blanks, or a text without brackets that does not begin
as a variable does. -/
inductive RawValue.Legible : RawValue → Prop
  | int {i : Int} (hlo : -Text.int64Limit ≤ i) (hhi : i < Text.int64Limit) : Legible (.int i)
  | number {s : String} {v : NodeValue} (h : NodeValue.number? (Text.trim s.toList) = some v) :
    Legible (.text s)
  | plain {s : String} (hplain : Text.Plain s.toList) (hq : s.toList.head? ≠ some '?') :
    Legible (.text s)

namespace NodeValue

theorem stored_ofToken {token : List Char} (hp : Text.Plain token) (hq : token.head? ≠ some '?') :
    (ofToken token).Stored :=
  ⟨⟨token, hp, rfl⟩, Bool.eq_false_iff.mpr fun hv => hq (isVariable_ofToken token ▸ hv)⟩

theorem stored_of_number? {cs : List Char} {v : NodeValue} (h : number? cs = some v) :
    v.Stored := by
  have hchars := isNumberChar_of_number? h
  have hq : cs.head? ≠ some '?' := fun hq =>
    absurd (hchars _ (List.mem_of_mem_head? hq)) (by decide)
  have hplain : Text.Plain cs :=
    ⟨fun hc => absurd (hchars _ hc) (by decide), fun hc => absurd (hchars _ hc) (by decide)⟩
  have hv : ofToken cs = v := by simp [ofToken, hq, h]
  exact hv ▸ stored_ofToken hplain hq

/-- A text that is no number without the blanks at its ends is none with them. -/
theorem number?_eq_none_of_trim {cs : List Char} (h : number? (Text.trim cs) = none) :
    number? cs = none := by
  cases hn : number? cs with
  | none => rfl
  | some v =>
      have hblank : ∀ c ∈ cs, Text.isBlank c = false := fun c hc =>
        Text.isBlank_eq_false (isNumberChar_of_number? hn c hc)
      rw [Text.trim_eq_self hblank] at h
      exact hn.symm.trans h

theorem stored_ofRaw {raw : RawValue} (h : raw.Legible) : (ofRaw raw).Stored := by
  cases h with
  | int hlo hhi => exact ⟨written_int hlo hhi, rfl⟩
  | number hn => simpa [ofRaw, hn] using stored_of_number? hn
  | @plain s hplain hq =>
      cases hn : number? (Text.trim s.toList) with
      | some v => simpa [ofRaw, hn] using stored_of_number? hn
      | none =>
          have hv : ofRaw (.text s) = ofToken s.toList := by
            simp [ofRaw, hn, ofToken, hq, number?_eq_none_of_trim hn]
          exact hv ▸ stored_ofToken hplain hq

/-- The key under which a value is looked for once it is written: its symbol, and for a float the
symbol of the number that its three digits read as. -/
def lookupKey (v : NodeValue) : String :=
  if v.isFloat then (ofToken v.toSymbol.toList).toSymbol else v.toSymbol

theorem Written.lookupKey_eq {v : NodeValue} (h : v.Written) :
    v.lookupKey = (ofToken v.toSymbol.toList).toSymbol := by
  unfold lookupKey
  split
  · rfl
  · rename_i hf
    rw [h.ofToken_toSymbol (by simpa using hf)]

end NodeValue

/-! ## Paths of a tree -/

namespace FactNode

variable {n : FactNode} {path : List Segment}

/-- Whether a way down from a node has these keys, and these cardinalities at all nodes but the
last. -/
def HasPath (n : FactNode) (keys : List String) (cardinalities : List Cardinality) : Prop :=
  ∃ trail, n.Descends trail ∧ trail.map toSymbol = keys ∧
    trail.dropLast.map cardinality = cardinalities

theorem hasPath_nil (n : FactNode) : n.HasPath [] [] :=
  ⟨[], trivial, rfl, rfl⟩

theorem hasPath_singleton (h : n.Orderly) {key : String} :
    n.HasPath [key] [] ↔ (n.child? key).isSome = true := by
  constructor
  · rintro ⟨trail, hdown, hkeys, -⟩
    obtain ⟨m, rfl, rfl⟩ := List.map_eq_singleton_iff.mp hkeys
    rw [hdown.1]
    rfl
  · intro hsome
    obtain ⟨m, hm⟩ := Option.isSome_iff_exists.mp hsome
    obtain rfl := h.symbol_eq hm
    exact ⟨[m], ⟨hm, trivial⟩, rfl, rfl⟩

theorem hasPath_cons (h : n.Orderly) {key : String} {ks : List String} (hks : ks ≠ [])
    {c : Cardinality} {cs : List Cardinality} :
    n.HasPath (key :: ks) (c :: cs) ↔
      ∃ m, n.child? key = some m ∧ m.cardinality = c ∧ m.HasPath ks cs := by
  constructor
  · rintro ⟨trail, hdown, hkeys, hcs⟩
    obtain ⟨m, trail, rfl, rfl, rfl⟩ := List.map_eq_cons_iff.mp hkeys
    rw [List.dropLast_cons_of_ne_nil (by rintro rfl; exact hks rfl)] at hcs
    obtain ⟨hc, hcs⟩ := List.cons.inj hcs
    exact ⟨m, hdown.1, hc, trail, hdown.2, rfl, hcs⟩
  · rintro ⟨m, hm, rfl, trail, hdown, rfl, rfl⟩
    obtain rfl := h.symbol_eq hm
    refine ⟨m :: trail, ⟨hm, hdown⟩, rfl, ?_⟩
    rw [List.dropLast_cons_of_ne_nil (by rintro rfl; exact hks rfl)]
    rfl

theorem holds_iff_hasPath (h : n.Everywhere Orderly) :
    n.holds path = true ↔ n.HasPath (keys path) (path.dropLast.map Segment.cardinality) := by
  induction path generalizing n with
  | nil => exact iff_of_true rfl n.hasPath_nil
  | cons s path ih =>
      cases path with
      | nil =>
          rw [Sentence.keys_cons, Sentence.keys, List.map_nil, List.dropLast_singleton,
            List.map_nil, hasPath_singleton h.here]
          cases hc : n.child? s.toSymbol <;> simp [holds, hc]
      | cons t path =>
          have hks : keys (t :: path) ≠ [] := List.cons_ne_nil _ _
          rw [Sentence.keys_cons, List.dropLast_cons_of_ne_nil (List.cons_ne_nil t path),
            List.map_cons, hasPath_cons h.here hks, holds]
          cases hc : n.child? s.toSymbol with
          | none => simp
          | some m => simp [ih (h.of_child? hc)]

end FactNode

namespace Clause

variable {db : FactDatabase} {s : String} {path : List Segment}

theorem holdsFor_eq (db : FactDatabase) (hp : Sentence.parse s = .ok path) {row : Bindings}
    (hrow : ∀ t ∈ path, (resolve row t.value).Stored) :
    holdsFor db s row = .ok (db.confirms path row) := by
  have hassert := db.assert_bind hp hrow
  have hproper := Sentence.proper_substitute (Sentence.proper_of_parse hp) fun t ht => (hrow t ht).1
  have hstored : ∀ t ∈ substitute row path, t.value.Stored := by
    intro t ht
    obtain ⟨u, hu, rfl⟩ := List.mem_map.mp ht
    exact hrow u hu
  have hvars : Sentence.hasVariables (Sentence.print (substitute row path)) = .ok false := by
    simp [Sentence.hasVariables, Sentence.parse_print hproper, Except.map,
      Sentence.anyVariable_reread hstored]
  rw [Sentence.bind_eq hp] at hassert
  simp only [holdsFor, Sentence.bind_eq hp, Bind.bind, Except.bind, hvars]
  exact hassert

/-- What a caller binds to the variables of a sentence can be written into it as a fact. -/
theorem stored_resolve_of_legible (hp : Sentence.parse s = .ok path) {row : RawBindings}
    (hrow : ∀ t ∈ path, ∀ name, t.value = .var name →
      ∃ raw, row.get? name = some raw ∧ raw.Legible) :
    ∀ t ∈ path, (resolve row.toBindings t.value).Stored := by
  intro t ht
  cases hname : t.value with
  | var name =>
      obtain ⟨raw, hget, hraw⟩ := hrow t ht name hname
      have hbound : row.toBindings.get? name = some (.ofRaw raw) := by
        simp [RawBindings.toBindings, Dict.get?_map, hget]
      rw [Sentence.resolve_of_get? hbound]
      exact NodeValue.stored_ofRaw hraw
  | _ =>
      have hw := ((Sentence.proper_of_parse hp).written t ht).1
      rw [hname] at hw
      exact ⟨hw, rfl⟩

/-- Of a row that binds all variables of a sentence, the negated sentence asks whether the path that
the row makes of it is there. -/
theorem evaluateNot_bound (db : FactDatabase) (hp : Sentence.parse s = .ok path)
    (hv : Sentence.anyVariable path = true) {row : Bindings}
    (hrow : ∀ t ∈ path, (resolve row t.value).Stored) (success : Bool) :
    evaluateNot db ⟨success, [row]⟩ s =
      .ok (if db.confirms path row then .failed else ⟨true, [row]⟩) := by
  have hvars : Sentence.hasVariables s = .ok true := by
    simp [Sentence.hasVariables, hp, Except.map, hv]
  have hkeep : keepIf (fun row => do return !(← holdsFor db s row)) [row] =
      .ok ([row].filter fun row => !db.confirms path row) := by
    refine keepIf_eq fun r hr => ?_
    obtain rfl := List.mem_singleton.mp hr
    simp only [holdsFor_eq db hp hrow, Bind.bind, Except.bind]
    rfl
  simp only [Bind.bind, Except.bind] at hkeep
  simp only [evaluateNot, hvars, hkeep, Bind.bind, Except.bind, ↓reduceIte, List.isEmpty_cons,
    Bool.false_eq_true]
  cases hconf : db.confirms path row <;>
    simp [hconf, QueryState.ofRows, Pure.pure, Except.pure]

/-- A negated sentence whose variables a caller binds drops the row exactly if the tree has the path
that the values make of the sentence. -/
theorem evaluate_not_constant (hdb : db.Reachable) (hp : Sentence.parse s = .ok path)
    (hv : Sentence.anyVariable path = true) {row : RawBindings}
    (hrow : ∀ t ∈ path, ∀ name, t.value = .var name →
      ∃ raw, row.get? name = some raw ∧ raw.Legible) (success : Bool) :
    ∃ state, evaluate db ⟨success, [row.toBindings]⟩ (.not s) = .ok state ∧
      (db.root.HasPath (path.map fun t => (resolve row.toBindings t.value).lookupKey)
        (path.dropLast.map Segment.cardinality) → state = .failed) ∧
      (¬ db.root.HasPath (path.map fun t => (resolve row.toBindings t.value).lookupKey)
        (path.dropLast.map Segment.cardinality) → state = ⟨true, [row.toBindings]⟩) := by
  have hstored := stored_resolve_of_legible hp hrow
  have hkeys : keys ((substitute row.toBindings path).map Segment.reread) =
      path.map fun t => (resolve row.toBindings t.value).lookupKey := by
    rw [keys, substitute, List.map_map, List.map_map]
    exact List.map_congr_left fun t ht => (hstored t ht).1.lookupKey_eq.symm
  have hcards : ((substitute row.toBindings path).map Segment.reread).dropLast.map
      Segment.cardinality = path.dropLast.map Segment.cardinality := by
    simp [substitute, ← List.map_dropLast, Function.comp_def, Segment.reread, Segment.ofToken]
  have hiff : db.confirms path row.toBindings = true ↔ _ := FactNode.holds_iff_hasPath
    fun _ _ hm => hdb.sound.sound_root.orderly_at? hm
  rw [hkeys, hcards] at hiff
  refine ⟨_, evaluateNot_bound db hp hv hstored success, fun hpath => ?_, fun hpath => ?_⟩
  · rw [if_pos (hiff.mpr hpath)]
  · rw [if_neg (hpath ∘ hiff.mp)]

/-- A name with a point in it is one key of the path. -/
theorem evaluate_not_constant_of_junior :
    ∃ (db : FactDatabase) (path : List Segment), db.Reachable ∧
      Sentence.parse "?x.likes!?y" = .ok path ∧
      ∃ state, evaluate db ⟨true, [RawBindings.toBindings
          (Dict.ofList [("?x", .text "ann"), ("?y", .text "bob.jr")])]⟩ (.not "?x.likes!?y") =
          .ok state ∧ state = .failed := by
  have hdb : FactDatabase.Reachable ((∅ : FactDatabase).step (.insert "ann.likes![bob.jr]")).2 :=
    .step _ .empty
  have hp : Sentence.parse "?x.likes!?y" =
      .ok [⟨.var "?x", .many⟩, ⟨.symbol "likes", .one⟩, ⟨.var "?y", .many⟩] := rfl
  have hholds : ((∅ : FactDatabase).step (.insert "ann.likes![bob.jr]")).2.root.holds
      [⟨.symbol "ann", .many⟩, ⟨.symbol "likes", .one⟩, ⟨.symbol "bob.jr", .many⟩] = true := by
    decide +kernel
  have hpath := (FactNode.holds_iff_hasPath
    fun _ _ hm => hdb.sound.sound_root.orderly_at? hm).mp hholds
  have hrow : ∀ t ∈ [⟨.var "?x", .many⟩, ⟨.symbol "likes", .one⟩, ⟨.var "?y", .many⟩],
      ∀ name, Segment.value t = .var name → ∃ raw,
        (Dict.ofList [("?x", .text "ann"), ("?y", .text "bob.jr")] : RawBindings).get? name =
          some raw ∧ raw.Legible := by
    simp only [List.forall_mem_cons, List.not_mem_nil, false_implies, implies_true, and_true]
    refine ⟨fun name hname => ?_, nofun, fun name hname => ?_⟩
    · cases hname
      exact ⟨_, rfl, .plain ⟨by decide, by decide⟩ (by decide)⟩
    · cases hname
      exact ⟨_, rfl, .plain ⟨by decide, by decide⟩ (by decide)⟩
  obtain ⟨state, hstate, hfails, -⟩ := evaluate_not_constant hdb hp rfl hrow true
  exact ⟨_, _, hdb, hp, state, hstate, hfails hpath⟩

/-- A text that writes a number of five digits is looked up by the number that three of them write,
though the fact with the number itself is there. -/
theorem long_number_is_no_constant :
    ¬ ∀ (db : FactDatabase) (s : String) (path : List Segment) (row : RawBindings), db.Reachable →
      Sentence.parse s = .ok path → Sentence.anyVariable path = true →
      (∀ t ∈ path, ∀ name, t.value = .var name → ∃ raw, row.get? name = some raw ∧
        ((∃ i, -Text.int64Limit ≤ i ∧ i < Text.int64Limit ∧ raw = .int i) ∨
          ∃ text, raw = .text text)) →
      ∃ state, evaluate db ⟨true, [row.toBindings]⟩ (.not s) = .ok state ∧
        (state.rows = [row.toBindings] ↔
          ¬ db.root.HasPath (path.map fun t => (resolve row.toBindings t.value).toSymbol)
            (path.dropLast.map Segment.cardinality)) := by
  intro h
  have hdb : FactDatabase.Reachable ((∅ : FactDatabase).step (.insert "ann.score.[1234.5]")).2 :=
    .step _ .empty
  have hp : Sentence.parse "ann.score.?r" =
      .ok [⟨.symbol "ann", .many⟩, ⟨.symbol "score", .many⟩, ⟨.var "?r", .many⟩] := rfl
  have hbound : ∀ t ∈ [⟨.symbol "ann", .many⟩, ⟨.symbol "score", .many⟩, ⟨.var "?r", .many⟩],
      ∀ name, Segment.value t = .var name →
        (Dict.ofList [("?r", RawValue.text "1234.5")]).get? name = some (.text "1234.5") := by
    simp only [List.forall_mem_cons, List.not_mem_nil, false_implies, implies_true, and_true]
    refine ⟨nofun, nofun, fun name hname => ?_⟩
    cases hname
    rfl
  obtain ⟨state, hstate, hiff⟩ := h _ _ _ _ hdb hp rfl
    fun t ht name hname => ⟨_, hbound t ht name hname, .inr ⟨_, rfl⟩⟩
  have hstored := stored_resolve_of_legible hp fun t ht name hname =>
    ⟨_, hbound t ht name hname, .number (v := .ofToken "1234.5".toList) (by decide +kernel)⟩
  have hholds : ((∅ : FactDatabase).step (.insert "ann.score.[1234.5]")).2.root.holds
      [.ofToken "ann".toList .many, .ofToken "score".toList .many,
        .ofToken "1234.5".toList .many] = true := by
    decide +kernel
  have hpath := (FactNode.holds_iff_hasPath
    fun _ _ hm => hdb.sound.sound_root.orderly_at? hm).mp hholds
  -- the path with the key of the number is there, but the one that is written is not
  rw [evaluate, evaluateNot_bound _ hp rfl hstored, if_neg (by decide +kernel)] at hstate
  cases hstate
  exact hiff.mp rfl hpath

end Clause

end Society
