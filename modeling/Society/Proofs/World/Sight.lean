import Society.Proofs.Query.Front
import Society.Proofs.World.Holding

/-!
# Traits in the sight of rules

A rule binds a variable to the text of an agent's name and asks for a fact that begins with it. The
text is read as one value there, while the fact was made of a sentence in which the name stands as it
is. The rule sees the trait if both readings of the name come to the same value.
-/

namespace Society

open Sentence (IsWord begins keys word)

/-! ## Sentences that are written anew -/

/-- A fact is one still when its path is written anew, if each written symbol reads as a value with
the same symbol. -/
theorem FactDatabase.assert_print {db : FactDatabase} {s : String} {path : List Segment}
    (hs : Sentence.IsFact s) (hp : Sentence.parse s = .ok path)
    (hsame : ∀ t ∈ path, t.reread.toSymbol = t.toSymbol) :
    db.assert (Sentence.print path) = db.assert s := by
  obtain ⟨_, hp', hv⟩ := hs
  cases hp.symm.trans hp'
  have hproper := Sentence.proper_of_parse hp
  have hstored : ∀ t ∈ path, t.value.Stored := fun t ht =>
    ⟨(hproper.written t ht).1, by simpa using List.any_eq_false.mp hv t ht⟩
  rw [assert_of_parse hp hv, assert_eq, Sentence.parseFact_eq_ok.mpr
    ⟨Sentence.parse_print hproper, Sentence.anyVariable_reread hstored⟩, holds_view hproper.ne_nil]
  exact congrArg Except.ok (FactNode.holds_reread hsame _)

theorem Sentence.IsWord.reread {s : String} (h : IsWord s) : (word s).reread = word s := by
  have hreread := Sentence.reread_eq (Sentence.proper_of_parse h) (by simp [NodeValue.isFloat])
  simpa [word] using hreread

/-- Of an agent that is to have a trait, a rule asks with the text of its name. -/
theorem Sentence.IsWord.parse_ownerTraits {trait : String} (h : IsWord trait) :
    parse ("?owner.traits." ++ trait) =
      .ok (⟨.var "?owner", .many⟩ :: [word "traits", word trait]) := by
  have hvar : parse "?owner" = .ok [⟨.var "?owner", .many⟩] := rfl
  have hask : "?owner.traits." ++ trait = "?owner" ++ "." ++ ("traits" ++ "." ++ trait) := by
    simp only [← String.append_assoc]
    rfl
  rw [hask]
  exact parse_append_point hvar h.parse_traits

/-! ## Names that are read alike -/

namespace Holding

variable {h : Holding} {w : World}

/-- A fact that is safe can be found by the value of its name. -/
theorem Safe.found (hw : h.Safe w) (hr : w.Shows h.report)
    (hsame : (Segment.reread ⟨h.value, .many⟩).toSymbol = h.value.toSymbol) :
    (∃ e, w.facts.view [h.value.toSymbol] = some e ∧ e.value = h.value) ∧
      (w.facts.view (h.value.toSymbol :: keys [word "traits", word h.trait])).isSome = true ∧
      w.facts.assert (Sentence.print (⟨h.value, .many⟩ :: [word "traits", word h.trait])) =
        .ok true := by
  have htold := hw.told hr
  have hfact := FactDatabase.isFact_of_assert htold
  have hholds : w.facts.view.holds h.path = true := by
    obtain ⟨_, hp, hv⟩ := hfact
    cases hp.symm.trans (parse_fact (h := h))
    rwa [FactDatabase.assert_of_parse hp hv, Except.ok.injEq] at htold
  have hsome : (w.facts.view (keys h.path)).isSome = true := (Bool.and_eq_true_iff.mp hholds).1
  refine ⟨?_, hsome, ?_⟩
  · have hfirst : (w.facts.view [h.value.toSymbol]).isSome = true :=
      FactDatabase.isSome_view_of_isPrefix (by simp) ⟨_, rfl⟩ hsome
    obtain ⟨e, he⟩ := Option.isSome_iff_exists.mp hfirst
    exact ⟨e, he, hw.first e he⟩
  · have hword : IsWord "traits" := rfl
    have hprint : w.facts.assert (Sentence.print h.path) = w.facts.assert h.fact := by
      refine FactDatabase.assert_print hfact parse_fact fun t ht => ?_
      simp only [path, List.mem_cons, List.not_mem_nil, or_false] at ht
      rcases ht with rfl | rfl | rfl
      · exact hsame
      · rw [hword.reread]
      · rw [h.isWord_trait.reread]
    exact hprint.trans htold

/-- A word is read as the symbol that it is. -/
theorem value_eq_of_isWord (hu : IsWord h.uid) : h.value = .symbol h.uid := by
  have hpath := Except.ok.inj (h.parse_uid.symm.trans hu)
  exact congrArg Segment.value (List.cons.inj hpath).1

/-- Other words do not reach the fact of words. -/
theorem sparedBy_of_plain (hu : IsWord h.uid) {c : Command} (hc : c.Plain) : h.SparedBy c := by
  have hvalue := value_eq_of_isWord hu
  cases c with
  | addTrait t =>
      by_cases ht : t.id = h.trait
      · exact .inl ht
      · right
        rw [← Bool.not_eq_true, Sentence.begins_of_parse hc h.isWord_trait]
        simpa [keys, Segment.toSymbol, NodeValue.toSymbol] using ht
  | addAgent agentType uid =>
      by_cases huid : uid = h.uid
      · exact .inl huid
      · refine .inr ⟨?_, fun s path hp hkey => ?_⟩
        · rw [← Bool.not_eq_true, Sentence.begins_of_parse hc parse_fact]
          simpa [path, keys, hvalue, Segment.toSymbol, NodeValue.toSymbol] using huid
        · obtain ⟨rfl, -⟩ := List.cons.inj (Except.ok.inj (hp.symm.trans hc))
          rw [hvalue] at hkey
          exact absurd hkey huid
  | insertFact s => cases hc
  | deleteFact s => cases hc
  | clearFacts => cases hc
  | _ => rfl

end Holding

theorem NodeValue.number?_ne_symbol {cs : List Char} {v : NodeValue} (h : number? cs = some v)
    (s : String) : v ≠ .symbol s := by
  rintro rfl
  unfold number? at h
  split at h
  · cases h
  · obtain ⟨x, -, hx⟩ := Option.map_eq_some_iff.mp h
    unfold ofFloat at hx
    split at hx
    · split at hx <;> cases hx
    · cases hx

namespace World

variable {w : World}

theorem ReachableBy.mono {allowed allowed' : World → Command → Prop} (h : w.ReachableBy allowed)
    (himp : ∀ w c, allowed w c → allowed' w c) : w.ReachableBy allowed' := by
  induction h with
  | empty => exact .empty
  | step c _ hc ih => exact ih.step c (himp _ c hc)

/-- A rule that looks for a trait at the owner of a relationship sees it where the text of the owner's
name, read as one value, is kept as a fact, with the trait below, and the sentence that is written
with that value is a fact. So it sees a trait that is held if the name is read as this value in
sentences, too, and no other name reaches the fact. Among words, it does not see it if and only if the
name writes a number between blanks. -/
theorem Reachable.sight (hw : w.Reachable) {uid trait : String} (ht : IsWord trait)
    {row : RawBindings} (hrow : row.get? "?owner" = some (.text uid)) :
    ∃ state, Clause.evaluate w.facts ⟨true, [row.toBindings]⟩ (.assert ("?owner.traits." ++ trait)) =
        .ok state ∧
      (state.success = true ↔
        (∃ e, w.facts.view [(NodeValue.ofRaw (.text uid)).toSymbol] = some e ∧
          e.value = .ofRaw (.text uid)) ∧
        (w.facts.view ((NodeValue.ofRaw (.text uid)).toSymbol ::
          keys [word "traits", word trait])).isSome = true ∧
        w.facts.assert (Sentence.print (⟨.ofRaw (.text uid), .many⟩ ::
          [word "traits", word trait])) = .ok true) ∧
      (∀ h : Holding, h.uid = uid → h.trait = trait → h.value = .ofRaw (.text uid) →
        (Segment.reread ⟨h.value, .many⟩).toSymbol = h.value.toSymbol →
          (w.ReachableBy fun _ c => h.SparedBy c) → w.Shows h.report → state.success = true) ∧
      ((w.ReachableBy fun _ c => c.Plain) → w.Shows (.holds (.agent uid) trait) →
        (state.success = true ↔ NodeValue.number? (Text.trim uid.toList) = none)) := by
  have hvalue : row.toBindings.get? "?owner" = some (.ofRaw (.text uid)) := by
    simp [RawBindings.toBindings, Dict.get?_map, hrow]
  obtain ⟨state, hstate, hiff⟩ := Clause.evaluate_first hw.reached.tidy.facts rfl
    ht.parse_ownerTraits hvalue
  have hsees : ∀ h : Holding, h.uid = uid → h.trait = trait → h.value = .ofRaw (.text uid) →
      (Segment.reread ⟨h.value, .many⟩).toSymbol = h.value.toSymbol →
        (w.ReachableBy fun _ c => h.SparedBy c) → w.Shows h.report → state.success = true := by
    rintro h rfl rfl halike hsame hspared hr
    rw [hiff, ← halike]
    exact (Holding.safe_of_reachableBy hspared).found hr hsame
  refine ⟨state, hstate, hiff, hsees, fun hplain hr => ?_⟩
  obtain ⟨huid, -⟩ := hplain.mirrors.plain _ hr
  have huid : IsWord uid := huid
  cases hn : NodeValue.number? (Text.trim uid.toList) with
  | none =>
      have hsymbol : NodeValue.ofRaw (.text uid) = .symbol uid := by simp [NodeValue.ofRaw, hn]
      refine iff_of_true (hsees ⟨uid, trait, .symbol uid, huid, ht⟩ rfl rfl hsymbol.symm ?_ ?_ hr) rfl
      · have hreread := huid.reread
        exact congrArg Segment.toSymbol hreread
      · exact hplain.mono fun _ c hc => Holding.sparedBy_of_plain huid hc
  | some v =>
      have hnumber : NodeValue.ofRaw (.text uid) = v := by simp [NodeValue.ofRaw, hn]
      refine iff_of_false (fun hs => ?_) (by simp)
      obtain ⟨⟨e, he, hev⟩, -, -⟩ := hiff.mp hs
      obtain ⟨T, hT, -⟩ := hplain.mirrors.tells
      rw [hT.entry_eq _ _ he, hnumber] at hev
      exact NodeValue.number?_ne_symbol hn _ hev.symm

/-- There is a trait to hold, and an agent who holds it. -/
def braveRunOf (uid : String) : List Command := [
  .addTrait ⟨"brave", .agent, "Brave", "", [], ∅⟩, .addAgentSchema ⟨"person", [], ["brave"]⟩,
  .addAgent "person" uid]

/-- The agent `007` is the number seven wherever its name is read. -/
theorem sight_of_number :
    ∃ w : World, w.Reachable ∧ IsWord "brave" ∧ w.Shows (.holds (.agent "007") "brave") ∧
      ∃ state, Clause.evaluate w.facts
          ⟨true, [RawBindings.toBindings (Dict.ofList [("?owner", .text "007")])]⟩
          (.assert ("?owner.traits." ++ "brave")) = .ok state ∧ state.success = true := by
  have hw : World.Reachable ((braveRunOf "007").foldl World.after ∅) := Reachable.empty.run _
  have hbrave : IsWord "brave" := rfl
  have hshows : World.Shows ((braveRunOf "007").foldl World.after ∅)
      (.holds (.agent "007") "brave") := by
    show (((braveRunOf "007").foldl World.after ∅).sheet? (.agent "007")).any
      (·.traits.contains "brave") = true
    decide +kernel
  have hspared : World.ReachableBy
      (fun _ c => (⟨"007", "brave", .int 7, rfl, hbrave⟩ : Holding).SparedBy c)
      ((braveRunOf "007").foldl World.after ∅) :=
    ReachableBy.empty.run ⟨.inl rfl, rfl, .inl rfl, trivial⟩
  have hrow : (Dict.ofList [("?owner", RawValue.text "007")]).get? "?owner" =
      some (.text "007") := rfl
  have hreread : (Segment.reread ⟨.int 7, .many⟩).toSymbol = (NodeValue.int 7).toSymbol := by
    decide +kernel
  obtain ⟨state, hstate, -, hsees, -⟩ := hw.sight hbrave hrow
  exact ⟨_, hw, hbrave, hshows, state, hstate,
    hsees ⟨"007", "brave", .int 7, rfl, hbrave⟩ rfl rfl rfl hreread hspared hshows⟩

/-- No rule sees what Agent Smith holds: its fact begins with `agent`. -/
theorem smith_is_not_seen :
    ¬ ∀ (w : World) (uid trait : String) (row : RawBindings),
      (w.ReachableBy fun _ c => c.isEdit = false) → (w.agent? uid).isSome = true →
        w.Shows (.holds (.agent uid) trait) → IsWord trait →
          row.get? "?owner" = some (.text uid) →
            ∃ state, Clause.evaluate w.facts ⟨true, [row.toBindings]⟩
              (.assert ("?owner.traits." ++ trait)) = .ok state ∧ state.success = true := by
  intro h
  have hw : World.ReachableBy (fun _ c => c.isEdit = false)
      ((braveRunOf "agent.smith").foldl World.after ∅) :=
    ReachableBy.empty.run ⟨rfl, rfl, rfl, trivial⟩
  have hshows : World.Shows ((braveRunOf "agent.smith").foldl World.after ∅)
      (.holds (.agent "agent.smith") "brave") := by
    show (((braveRunOf "agent.smith").foldl World.after ∅).sheet? (.agent "agent.smith")).any
      (·.traits.contains "brave") = true
    decide +kernel
  obtain ⟨state, hstate, hsees⟩ := h _ "agent.smith" "brave"
    (Dict.ofList [("?owner", .text "agent.smith")]) hw (by decide +kernel) hshows rfl rfl
  have hfails : (Clause.evaluate ((braveRunOf "agent.smith").foldl World.after ∅).facts
      ⟨true, [RawBindings.toBindings (Dict.ofList [("?owner", .text "agent.smith")])]⟩
      (.assert ("?owner.traits." ++ "brave"))).toOption.any (·.success) = false := by
    decide +kernel
  rw [hstate] at hfails
  exact absurd hsees (by simpa [Except.toOption] using hfails)

end World

end Society
