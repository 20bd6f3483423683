import Mathlib.Data.List.Find
import Society.Entity
import Society.Event
import Society.Proofs.Sentence.Token

/-!
# Descriptions are filled in one scan

Placeholders are replaced one after the other over the whole text. That is as good as one scan of the
template, which never looks at a value that it has put in, as long as the brackets of the template do
not nest and no value has a bracket left open or contains a placeholder whose turn comes later.
-/

namespace Society

namespace Text

/-! ## One scan for all placeholders -/

def bracketed (name : List Char) : List Char :=
  '[' :: (name ++ [']'])

/-- The text with every placeholder replaced by the first value under its name, in one scan from left
to right; while `skip` is not zero the text still belongs to the placeholder that was replaced last. -/
def fillEach (values : List (List Char × List Char)) : (skip : Nat) → List Char → List Char
  | _, [] => []
  | skip + 1, _ :: text => fillEach values skip text
  | 0, c :: text =>
    match values.find? fun entry => (bracketed entry.1).isPrefixOf (c :: text) with
    | some (name, value) => value ++ fillEach values (name.length + 1) text
    | none => c :: fillEach values 0 text

def fillAll (values : List (String × String)) (template : String) : String :=
  String.ofList
    (fillEach (values.map fun entry => (entry.1.toList, entry.2.toList)) 0 template.toList)

theorem isSome_stripFront? (pattern text : List Char) :
    (stripFront? pattern text).isSome = pattern.isPrefixOf text := by
  induction pattern generalizing text with
  | nil => rfl
  | cons p pattern ih =>
      cases text with
      | nil => rfl
      | cons c text => by_cases h : p = c <;> simp [stripFront?, List.isPrefixOf, h, ih]

/-- Replacing one placeholder is the scan for its name alone. -/
theorem fillFrom_bracketed (name value : List Char) (skip : Nat) (text : List Char) :
    fillFrom (bracketed name) value skip text = fillEach [(name, value)] skip text := by
  induction text generalizing skip with
  | nil => cases skip <;> rfl
  | cons c text ih =>
      cases skip with
      | succ skip => exact ih skip
      | zero =>
          have hlength : (bracketed name).length - 1 = name.length + 1 := by simp [bracketed]
          rw [fillFrom, fillEach, isSome_stripFront?, hlength, ih, ih]
          by_cases h : (bracketed name).isPrefixOf (c :: text) = true <;> simp [h]

/-! ## What the scan does to the parts of a text -/

variable {values : List (List Char × List Char)}

theorem fillEach_nil (text : List Char) : fillEach [] 0 text = text := by
  induction text with
  | nil => rfl
  | cons c text ih => simpa [fillEach] using ih

theorem fillEach_length_append (front text : List Char) :
    fillEach values front.length (front ++ text) = fillEach values 0 text := by
  induction front with
  | nil => rfl
  | cons c front ih => simpa [fillEach] using ih

theorem fillEach_cons_of_ne {c : Char} (h : c ≠ '[') (text : List Char) :
    fillEach values 0 (c :: text) = c :: fillEach values 0 text := by
  have hnone : (values.find? fun entry => (bracketed entry.1).isPrefixOf (c :: text)) = none := by
    simp [bracketed, h.symm]
  simp [fillEach, hnone]

theorem fillEach_append_of_not_mem {front : List Char} (h : '[' ∉ front) (text : List Char) :
    fillEach values 0 (front ++ text) = front ++ fillEach values 0 text := by
  induction front with
  | nil => rfl
  | cons c front ih =>
      simp only [List.mem_cons, not_or] at h
      rw [List.cons_append, fillEach_cons_of_ne (Ne.symm h.1), ih h.2, List.cons_append]

/-- Two names without brackets are the same if one is closed where the other is. -/
theorem append_bracket_prefix_iff {name inner text : List Char} (hname : ']' ∉ name)
    (hinner : ']' ∉ inner) : name ++ [']'] <+: inner ++ ']' :: text ↔ name = inner := by
  refine ⟨fun h => ?_, fun h => ⟨text, by simp [h]⟩⟩
  induction name generalizing inner with
  | nil =>
      cases inner with
      | nil => rfl
      | cons c inner => simp_all
  | cons d name ih =>
      cases inner with
      | nil => simp_all
      | cons c inner =>
          simp only [List.mem_cons, not_or] at hname hinner
          obtain ⟨rfl, hrest⟩ := List.cons_prefix_cons.mp h
          rw [ih hname.2 hinner.2 hrest]

theorem isPrefixOf_bracketed {name inner : List Char} (hname : Plain name) (hinner : Plain inner)
    (text : List Char) :
    (bracketed name).isPrefixOf ('[' :: (inner ++ ']' :: text)) = decide (name = inner) := by
  rw [Bool.eq_iff_iff, List.isPrefixOf_iff_prefix, decide_eq_true_iff, bracketed,
    List.cons_prefix_cons, append_bracket_prefix_iff hname.2 hinner.2]
  simp

/-- A name in brackets becomes the value that is first under it, and is copied if there is none. -/
theorem fillEach_bracketed (hvalues : ∀ entry ∈ values, Plain entry.1) {inner : List Char}
    (hinner : Plain inner) (text : List Char) :
    fillEach values 0 ('[' :: (inner ++ ']' :: text)) =
      ((values.find? (·.1 = inner)).map (·.2)).getD (bracketed inner) ++
        fillEach values 0 text := by
  have hfind : (values.find? fun entry =>
      (bracketed entry.1).isPrefixOf ('[' :: (inner ++ ']' :: text))) =
      values.find? (·.1 = inner) :=
    List.find?_congr fun entry hentry => isPrefixOf_bracketed (hvalues entry hentry) hinner text
  rw [fillEach, hfind]
  cases h : values.find? (·.1 = inner) with
  | none =>
      simp [fillEach_append_of_not_mem hinner.1, fillEach_cons_of_ne, bracketed]
  | some entry =>
      obtain rfl : entry.1 = inner := by simpa using List.find?_some h
      have hskip := @fillEach_length_append values (entry.1 ++ [']']) text
      simp only [List.length_append, List.length_singleton, List.append_assoc,
        List.singleton_append] at hskip
      simp [hskip]

/-- A bracket that is never closed belongs to no placeholder. -/
theorem fillEach_unclosed {inner : List Char} (hinner : Plain inner) :
    fillEach values 0 ('[' :: inner) = '[' :: inner := by
  have hnone : (values.find? fun entry => (bracketed entry.1).isPrefixOf ('[' :: inner)) = none := by
    simp only [List.find?_eq_none, List.isPrefixOf_iff_prefix]
    intro entry _ hprefix
    have hmem : ']' ∈ '[' :: inner := hprefix.subset (by simp [bracketed])
    exact hinner.2 (by simpa using hmem)
  simpa [fillEach, hnone] using fillEach_append_of_not_mem hinner.1 []

/-! ## Brackets that do not nest -/

/-- A text is put together from characters that open no bracket, names in brackets, and at the end
perhaps a bracket that is left open. -/
inductive Brackets : (leftOpen : Bool) → List Char → Prop
  | nil : Brackets false []
  | char {leftOpen : Bool} {c : Char} {text : List Char} :
    c ≠ '[' → Brackets leftOpen text → Brackets leftOpen (c :: text)
  | bracketed {leftOpen : Bool} {inner text : List Char} :
    Plain inner → Brackets leftOpen text → Brackets leftOpen ('[' :: (inner ++ ']' :: text))
  | unclosed {inner : List Char} : Plain inner → Brackets true ('[' :: inner)

/-- No bracket opens inside of another. -/
def Flat (cs : List Char) : Prop :=
  ∃ leftOpen, Brackets leftOpen cs

/-- A value that the scan for a name leaves alone wherever it is put: its brackets are closed, and
none of them holds the name. -/
def Inert (name value : List Char) : Prop :=
  Brackets false value ∧ ¬ bracketed name <:+: value

theorem Brackets.append {leftOpen : Bool} {front text : List Char} (hfront : Brackets false front)
    (h : Brackets leftOpen text) : Brackets leftOpen (front ++ text) := by
  generalize hclosed : false = closed at hfront
  induction hfront with
  | nil => exact h
  | char hc _ ih => exact .char hc (ih hclosed)
  | bracketed hinner _ ih => simpa using Brackets.bracketed hinner (ih hclosed)
  | unclosed => cases hclosed

/-! ## One placeholder after the other -/

theorem fillEach_append_of_inert (hvalues : ∀ entry ∈ values, Plain entry.1) {value : List Char}
    (hclosed : Brackets false value) (hfree : ∀ entry ∈ values, ¬ bracketed entry.1 <:+: value)
    (text : List Char) : fillEach values 0 (value ++ text) = value ++ fillEach values 0 text := by
  generalize hopen : false = leftOpen at hclosed
  induction hclosed with
  | nil => rfl
  | char hc _ ih =>
      have hrest := fun entry hentry hin => hfree entry hentry (List.infix_cons hin)
      rw [List.cons_append, fillEach_cons_of_ne hc, List.cons_append, ih hrest hopen]
  | @bracketed _ inner value hinner _ ih =>
      have hnone : values.find? (·.1 = inner) = none := by
        simp only [List.find?_eq_none, decide_eq_true_eq]
        rintro entry hentry rfl
        exact hfree entry hentry ⟨[], value, by simp [Text.bracketed]⟩
      have hrest : ∀ entry ∈ values, ¬ Text.bracketed entry.1 <:+: value :=
        fun entry hentry hin => hfree entry hentry
          (hin.trans ⟨'[' :: (inner ++ [']']), [], by simp⟩)
      have hfill := fillEach_bracketed hvalues hinner (value ++ text)
      rw [hnone, ih hrest hopen] at hfill
      simpa [Text.bracketed] using hfill
  | unclosed => cases hopen

/-- The scan for many names is the scan for the first and then the scan for the others, if those do
not find anything in what the first has put in. -/
theorem fillEach_cons {name value : List Char} (hname : Plain name)
    (hvalues : ∀ entry ∈ values, Plain entry.1) (hclosed : Brackets false value)
    (hfree : ∀ entry ∈ values, ¬ bracketed entry.1 <:+: value) {template : List Char}
    (h : Flat template) :
    fillEach values 0 (fillEach [(name, value)] 0 template) =
      fillEach ((name, value) :: values) 0 template := by
  have hone : ∀ entry ∈ [(name, value)], Plain entry.1 := List.forall_mem_singleton.mpr hname
  have hall : ∀ entry ∈ (name, value) :: values, Plain entry.1 :=
    List.forall_mem_cons.mpr ⟨hname, hvalues⟩
  obtain ⟨leftOpen, h⟩ := h
  induction h with
  | nil => rfl
  | char hc _ ih => simp [fillEach_cons_of_ne hc, ih]
  | @bracketed _ inner text hinner _ ih =>
      rw [fillEach_bracketed hone hinner, fillEach_bracketed hall hinner, ← ih]
      by_cases heq : name = inner
      · simp [heq, fillEach_append_of_inert hvalues hclosed hfree]
      · have := fillEach_bracketed hvalues hinner (fillEach [(name, value)] 0 text)
        simpa [heq, Text.bracketed] using this
  | unclosed hinner => simp [fillEach_unclosed hinner]

theorem Flat.fillEach {name value : List Char} (hname : Plain name)
    (hclosed : Brackets false value) {template : List Char} (h : Flat template) :
    Flat (Text.fillEach [(name, value)] 0 template) := by
  have hone : ∀ entry ∈ [(name, value)], Plain entry.1 := List.forall_mem_singleton.mpr hname
  obtain ⟨leftOpen, h⟩ := h
  refine ⟨leftOpen, ?_⟩
  induction h with
  | nil => exact .nil
  | char hc _ ih => simpa [fillEach_cons_of_ne hc] using Brackets.char hc ih
  | @bracketed _ inner text hinner _ ih =>
      rw [fillEach_bracketed hone hinner]
      by_cases heq : name = inner
      · simpa [heq] using hclosed.append ih
      · simpa [heq, Text.bracketed] using Brackets.bracketed hinner ih
  | unclosed hinner => simpa [fillEach_unclosed hinner] using Brackets.unclosed hinner

/-- Filling one placeholder after the other is filling all of them in one scan, if no value has a
bracket left open or holds a name that comes after it. -/
theorem foldl_fillFrom (hvalues : ∀ entry ∈ values, Plain entry.1)
    (hinert : values.Pairwise fun entry later => Inert later.1 entry.2) {template : List Char}
    (h : Flat template) :
    values.foldl (fun text entry => fillFrom (bracketed entry.1) entry.2 0 text) template =
      fillEach values 0 template := by
  induction values generalizing template with
  | nil => simp [fillEach_nil]
  | cons entry values ih =>
      obtain ⟨name, value⟩ := entry
      rw [List.foldl_cons, fillFrom_bracketed]
      obtain ⟨hname, hvalues⟩ := List.forall_mem_cons.mp hvalues
      obtain ⟨hlater, hinert⟩ := List.pairwise_cons.mp hinert
      cases values with
      | nil => rfl
      | cons next values =>
          have hclosed : Brackets false value := (hlater next List.mem_cons_self).1
          rw [ih hvalues hinert (h.fillEach hname hclosed),
            fillEach_cons hname hvalues hclosed (fun later hmem => (hlater later hmem).2) h]

theorem toList_fill (placeholder value template : String) :
    (fill placeholder value template).toList =
      fillFrom placeholder.toList value.toList 0 template.toList := by
  simp [fill]

end Text

/-! ## Descriptions -/

open Text (Flat Inert Plain fillAll)

namespace EffectContext

/-- The name that stands for a variable in templates. -/
def nameOf (variableName : String) : String :=
  match variableName.toList with
  | '?' :: cs => String.ofList cs
  | _ => variableName

/-- What each name stands for, in the order of the variables. -/
def values (ctx : EffectContext) : List (String × String) :=
  ctx.bindings.entries.map fun entry => (nameOf entry.1, entry.2.display)

theorem toList_placeholder (variableName : String) :
    (placeholder variableName).toList = Text.bracketed (nameOf variableName).toList := by
  have h : placeholder variableName = "[" ++ nameOf variableName ++ "]" := rfl
  simp [h, Text.bracketed]

theorem toList_description (ctx : EffectContext) :
    ctx.description.toList =
      (ctx.values.map fun entry => (entry.1.toList, entry.2.toList)).foldl
        (fun text entry => Text.fillFrom (Text.bracketed entry.1) entry.2 0 text)
        ctx.template.toList := by
  unfold description values
  rw [List.map_map, List.foldl_map]
  exact (List.foldl_hom String.toList fun text entry => by
    simp [Text.toList_fill, toList_placeholder]).symm

end EffectContext

/-- A description is the outcome of one scan of its template, in which no value that is put in is
looked at, whenever the brackets of the template do not nest, no name has brackets, and every value
is inert to the names whose turn comes later. So it is for the names of a relationship. -/
theorem description_in_one_scan (ctx : EffectContext) (owner target template : String) :
    (Flat ctx.template.toList →
      (∀ entry ∈ ctx.values, Plain entry.1.toList) →
      (ctx.values.Pairwise fun entry later => Inert later.1.toList entry.2.toList) →
      ctx.description = fillAll ctx.values ctx.template) ∧
    (Flat template.toList → Inert "target".toList owner.toList →
      (Entity.relationship owner target).fillIn template =
        fillAll [("owner", owner), ("target", target)] template) := by
  refine ⟨fun hflat hnames hinert => ?_, fun hflat hinert => ?_⟩
  · rw [← String.toList_inj, EffectContext.toList_description, fillAll, String.toList_ofList]
    exact Text.foldl_fillFrom (List.forall_mem_map.mpr hnames)
      (by simpa [List.pairwise_map] using hinert) hflat
  · rw [← String.toList_inj, fillAll, String.toList_ofList, Entity.fillIn, Text.toList_fill,
      Text.toList_fill]
    refine @Text.foldl_fillFrom
      [("owner".toList, owner.toList), ("target".toList, target.toList)] ?_ ?_ _ hflat
    · simp [Plain]
    · simpa using hinert

/-- A value in brackets that are no placeholder, before a value with an open bracket; and an owner
whose uid has brackets. -/
theorem description_in_one_scan_of_brackets :
    EffectContext.description ⟨"[a]-[b]",
      (Dict.insert ∅ "?a" (.text "[sic]")).insert "?b" (.text "[a")⟩ = "[sic]-[a" ∧
    (Entity.relationship "[ann]" "[owner]").fillIn "[owner]-[target]" = "[ann]-[owner]" := by
  have hflat : ∀ a b, Plain a → Plain b →
      Flat (Text.bracketed a ++ '-' :: Text.bracketed b) := fun a b ha hb =>
    ⟨false, by simpa [Text.bracketed] using
      Text.Brackets.bracketed ha (.char (by decide : '-' ≠ '[') (.bracketed hb .nil))⟩
  have hinert : ∀ name inner, Plain inner → ¬ Text.bracketed name <:+: Text.bracketed inner →
      Inert name (Text.bracketed inner) := fun name inner hinner hfree =>
    ⟨.bracketed hinner .nil, hfree⟩
  have hvalues : EffectContext.values ⟨"[a]-[b]",
      (Dict.insert ∅ "?a" (.text "[sic]")).insert "?b" (.text "[a")⟩ =
      [("a", "[sic]"), ("b", "[a")] := by decide +kernel
  refine ⟨((description_in_one_scan _ "" "" "").1 ?_ ?_ ?_).trans ?_,
    ((description_in_one_scan ⟨"", ∅⟩ _ _ _).2 ?_ ?_).trans ?_⟩
  · exact hflat ['a'] ['b'] (by simp [Plain]) (by simp [Plain])
  · simp [hvalues, Plain]
  · rw [hvalues]
    exact List.pairwise_pair.mpr (hinert ['b'] "sic".toList (by simp [Plain]) (by decide))
  · decide +kernel
  · exact hflat "owner".toList "target".toList (by simp [Plain]) (by simp [Plain])
  · exact hinert "target".toList "ann".toList (by simp [Plain]) (by decide)
  · decide +kernel

/-- A value that is itself a placeholder is filled in turn, though one scan leaves it alone; so is
the uid of an owner. -/
theorem value_is_expanded :
    EffectContext.description ⟨"[a]",
      (Dict.insert ∅ "?a" (.text "[b]")).insert "?b" (.text "x")⟩ = "x" ∧
    fillAll (EffectContext.values ⟨"[a]",
      (Dict.insert ∅ "?a" (.text "[b]")).insert "?b" (.text "x")⟩) "[a]" = "[b]" ∧
    (Entity.relationship "[target]" "bob").fillIn "[owner]" = "bob" ∧
    fillAll [("owner", "[target]"), ("target", "bob")] "[owner]" = "[target]" := by
  decide +kernel

end Society
