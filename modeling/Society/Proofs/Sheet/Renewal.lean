import Society.Proofs.Sheet.Balance

/-!
# Attaching anew

An evaluation takes off what the last one attached and attaches modifiers that are numbered anew.
What it leaves alone is the bare stat; and what a second evaluation attaches differs from what the
first one did in the numbers only.
-/

namespace Society

namespace StatModifier

/-- The modifiers of declarations, each for its source, with the numbers that begin at `n`. -/
def numbered (n : Nat) : List (ModifierSource × ModifierSpec) → List StatModifier
  | [] => []
  | (source, spec) :: rest => spec.instance (.fresh n) (some source) :: numbered (n + 1) rest

/-- The modifier without the number that an evaluation gave it. -/
def unnumbered (m : StatModifier) : StatModifier :=
  if m.isEvaluated then { m with id := .fresh 0 } else m

theorem numbered_append (n : Nat) (l l' : List (ModifierSource × ModifierSpec)) :
    numbered n (l ++ l') = numbered n l ++ numbered (n + l.length) l' := by
  induction l generalizing n with
  | nil => rfl
  | cons p l ih =>
      simp only [List.cons_append, numbered, ih, List.length_cons]
      rw [show n + 1 + l.length = n + (l.length + 1) by omega]

theorem exists_of_mem_numbered {n : Nat} {l : List (ModifierSource × ModifierSpec)}
    {m : StatModifier} (h : m ∈ numbered n l) :
    ∃ p ∈ l, ∃ k, m = p.2.instance (.fresh k) (some p.1) := by
  induction l generalizing n with
  | nil => cases h
  | cons p l ih =>
      rcases List.mem_cons.mp h with rfl | h
      · exact ⟨p, List.mem_cons_self, n, rfl⟩
      · obtain ⟨p', hp', hk⟩ := ih h
        exact ⟨p', List.mem_cons_of_mem p hp', hk⟩

/-- Each declaration is numbered once, for its source and on its stat. -/
theorem map_filter_numbered (n : Nat) (l : List (ModifierSource × ModifierSpec)) (name : String) :
    ((numbered n l).filter fun m => m.stat = name).map (fun m => (m.source, m.toModifierSpec)) =
      (l.filter fun p => p.2.stat = name).map fun p => (some p.1, p.2) := by
  induction l generalizing n with
  | nil => rfl
  | cons p l ih =>
      have hstat : (p.2.instance (.fresh n) (some p.1)).stat = p.2.stat := rfl
      simp only [numbered, List.filter_cons, hstat]
      split
      · rw [List.map_cons, List.map_cons, ih]
        rfl
      · exact ih (n + 1)

theorem isEvaluated_of_mem_numbered {n : Nat} {l : List (ModifierSource × ModifierSpec)}
    (hl : ∀ p ∈ l, p.1.isEvaluated = true) : ∀ m ∈ numbered n l, m.isEvaluated = true := by
  intro m hm
  obtain ⟨p, hp, k, rfl⟩ := exists_of_mem_numbered hm
  exact hl p hp

/-- From which number on modifiers are counted shows in their numbers only. -/
theorem unnumbered_numbered {l : List (ModifierSource × ModifierSpec)}
    (hl : ∀ p ∈ l, p.1.isEvaluated = true) (n n' : Nat) :
    (numbered n l).map unnumbered = (numbered n' l).map unnumbered := by
  induction l generalizing n n' with
  | nil => rfl
  | cons p l ih =>
      obtain ⟨hp, hl⟩ := List.forall_mem_cons.mp hl
      have hid : ∀ k, unnumbered (p.2.instance (.fresh k) (some p.1)) =
          p.2.instance (.fresh 0) (some p.1) :=
        fun k => if_pos hp
      simp only [numbered, List.map_cons, hid]
      rw [ih hl]

theorem order_unnumbered (m : StatModifier) : m.unnumbered.order = m.order := by
  unfold unnumbered
  split <;> rfl

theorem stat_unnumbered (m : StatModifier) : m.unnumbered.stat = m.stat := by
  unfold unnumbered
  split <;> rfl

theorem unnumbered_filter (l : List StatModifier) (name : String) :
    (l.filter fun m => m.stat = name).map unnumbered =
      (l.map unnumbered).filter fun m => m.stat = name := by
  rw [List.filter_map]
  congr 1
  refine List.filter_congr fun m _ => ?_
  rw [Function.comp_apply, stat_unnumbered]

theorem effect_unnumbered (m : StatModifier) :
    (m.unnumbered.kind, m.unnumbered.amount) = (m.kind, m.amount) := by
  unfold unnumbered
  split <;> rfl

end StatModifier

namespace Stat

/-- The list with modifiers put into their places, one after the other. -/
def insertAll (ms l : List StatModifier) : List StatModifier :=
  ms.foldl (fun l m => insertByOrder m l) l

/-- The stat with these modifiers, read anew. -/
def refit (s : Stat) (modifiers : List StatModifier) : Stat :=
  (changed { s with modifiers }).result

/-- The stat with modifiers added, one after the other. -/
def addAll (s : Stat) (ms : List StatModifier) : Stat :=
  ms.foldl (fun s m => (s.add m).result) s

/-- The stat without the modifiers from these sources, taken off one source after the other. -/
def dropAll (s : Stat) (sources : List ModifierSource) : Stat :=
  sources.foldl (fun s source => (s.removeFrom source).result) s

/-- The stat without what evaluations attached, and without its reading. -/
def bare (s : Stat) : Stat :=
  { Stat.create s.base s.bounds with
    modifiers := s.modifiers.filter (!·.isEvaluated)
    observers := s.observers }

/-- The stat without the numbers that evaluations gave. -/
def unnumbered (s : Stat) : Stat :=
  { s with modifiers := s.modifiers.map (·.unnumbered) }

variable {s : Stat} {ms : List StatModifier} {sources : List ModifierSource}

theorem refit_refit (s : Stat) (l l' : List StatModifier) : (s.refit l).refit l' = s.refit l' := rfl

theorem reading_refit (s : Stat) (l : List StatModifier) :
    (s.refit l).reading = (s.refit l).measure := rfl

theorem addAll_eq_refit (h : ms ≠ []) :
    s.addAll ms = s.refit (insertAll ms s.modifiers) := by
  induction ms generalizing s with
  | nil => exact absurd rfl h
  | cons m ms ih =>
      by_cases hms : ms = []
      · subst hms
        rfl
      · exact ih hms

theorem dropAll_eq (s : Stat) (sources : List ModifierSource) :
    s.dropAll sources = s ∨ ∃ l, s.dropAll sources = s.refit l := by
  induction sources generalizing s with
  | nil => exact .inl rfl
  | cons source rest ih =>
      have hfirst : (s.removeFrom source).result = s ∨
          (s.removeFrom source).result = s.refit (s.modifiers.filter fun m => !m.isFrom source) := by
        unfold removeFrom keepOnly
        split
        · exact .inl rfl
        · exact .inr rfl
      show (s.removeFrom source).result.dropAll rest = s ∨
        ∃ l, (s.removeFrom source).result.dropAll rest = s.refit l
      rcases hfirst with hfirst | hfirst
      · rw [hfirst]
        exact ih s
      · rw [hfirst]
        rcases ih (s.refit _) with hrest | ⟨l, hrest⟩
        · exact .inr ⟨_, hrest⟩
        · exact .inr ⟨l, hrest.trans (refit_refit s _ l)⟩

theorem refit_dropAll (s : Stat) (sources : List ModifierSource) (l : List StatModifier) :
    (s.dropAll sources).refit l = s.refit l := by
  rcases s.dropAll_eq sources with h | ⟨l', h⟩
  · rw [h]
  · rw [h, refit_refit]

theorem modifiers_dropAll (s : Stat) (sources : List ModifierSource) :
    (s.dropAll sources).modifiers =
      s.modifiers.filter fun m => sources.all fun source => !m.isFrom source := by
  induction sources generalizing s with
  | nil => simp [dropAll]
  | cons source rest ih =>
      have hrest := ih (s.removeFrom source).result
      rw [removeFrom, modifiers_keepOnly, List.filter_filter] at hrest
      simpa [dropAll, removeFrom, Bool.and_comm] using hrest

theorem dropAll_eq_self (h : ∀ m ∈ s.modifiers, ∀ source ∈ sources, m.isFrom source = false) :
    s.dropAll sources = s := by
  induction sources with
  | nil => rfl
  | cons source rest ih =>
      have hfirst : (s.removeFrom source).result = s := by
        rw [removeFrom, keepOnly, if_pos]
        · rfl
        · exact List.all_eq_true.mpr fun m hm => by simp [h m hm source List.mem_cons_self]
      show (s.removeFrom source).result.dropAll rest = s
      rw [hfirst]
      exact ih fun m hm source' hs => h m hm source' (List.mem_cons_of_mem source hs)

theorem bare_add {m : StatModifier} (h : m.isEvaluated = true) (s : Stat) :
    (s.add m).result.bare = s.bare := by
  have hmodifiers := filter_insertByOrder (p := (!·.isEvaluated)) (m := m) (by simp [h]) s.modifiers
  show ({ Stat.create s.base s.bounds with
    modifiers := (insertByOrder m s.modifiers).filter (!·.isEvaluated)
    observers := s.observers } : Stat) = s.bare
  rw [hmodifiers]
  rfl

theorem bare_keepOnly {keep : StatModifier → Bool}
    (h : ∀ m : StatModifier, m.isEvaluated = false → keep m = true) (s : Stat) :
    (s.keepOnly keep).result.bare = s.bare := by
  have hmodifiers : (s.keepOnly keep).result.modifiers.filter (!·.isEvaluated) =
      s.modifiers.filter (!·.isEvaluated) := by
    rw [modifiers_keepOnly, List.filter_filter]
    refine List.filter_congr fun m _ => ?_
    cases hm : m.isEvaluated with
    | true => rfl
    | false => simp [h m hm]
  unfold keepOnly at hmodifiers ⊢
  split
  · rfl
  · rename_i hall
    rw [if_neg hall] at hmodifiers
    exact congrArg (fun modifiers => ({ Stat.create s.base s.bounds with
      modifiers
      observers := s.observers } : Stat)) hmodifiers

theorem bare_removeFrom {source : ModifierSource} (h : source.isEvaluated = true) (s : Stat) :
    (s.removeFrom source).result.bare = s.bare := by
  refine bare_keepOnly (fun m hm => ?_) s
  rw [Bool.not_eq_true']
  refine Bool.eq_false_iff.mpr fun hfrom => ?_
  rw [StatModifier.isEvaluated_of_isFrom hfrom, h] at hm
  cases hm

theorem unnumbered_insertByOrder (m : StatModifier) (l : List StatModifier) :
    (insertByOrder m l).map (·.unnumbered) =
      insertByOrder m.unnumbered (l.map (·.unnumbered)) := by
  induction l with
  | nil => rfl
  | cons x l ih =>
      simp only [insertByOrder, List.map_cons, StatModifier.order_unnumbered]
      split
      · rfl
      · rw [List.map_cons, ih]

theorem unnumbered_insertAll (ms l : List StatModifier) :
    (insertAll ms l).map (·.unnumbered) =
      insertAll (ms.map (·.unnumbered)) (l.map (·.unnumbered)) := by
  induction ms generalizing l with
  | nil => rfl
  | cons m ms ih =>
      rw [insertAll, List.foldl_cons, ← insertAll, ih, unnumbered_insertByOrder]
      rfl

theorem filter_insertAll {p : StatModifier → Bool} (h : ∀ m ∈ ms, p m = false)
    (l : List StatModifier) : (insertAll ms l).filter p = l.filter p := by
  induction ms generalizing l with
  | nil => rfl
  | cons m ms ih =>
      obtain ⟨hm, hms⟩ := List.forall_mem_cons.mp h
      exact (ih hms _).trans (filter_insertByOrder hm l)

/-- Modifiers that differ in the numbers only give the same reading. -/
theorem unnumbered_refit {l l' : List StatModifier}
    (h : l.map (·.unnumbered) = l'.map (·.unnumbered)) (s : Stat) :
    (s.refit l).unnumbered = (s.refit l').unnumbered := by
  have heffects : ∀ l : List StatModifier, l.map (fun m => (m.kind, m.amount)) =
      (l.map (·.unnumbered)).map fun m => (m.kind, m.amount) := by
    intro l
    rw [List.map_map]
    exact List.map_congr_left fun m _ => m.effect_unnumbered.symm
  have hreading : (s.refit l).reading = (s.refit l').reading := by
    simp only [refit, changed, measure, heffects l, heffects l', h]
  simp only [unnumbered, refit, changed] at hreading ⊢
  rw [h, hreading]

/-- To take off what was attached and to attach it again comes to the same, but for the numbers. -/
theorem unnumbered_again {ms' : List StatModifier} (hs : ∀ m ∈ s.modifiers, m.isEvaluated = false)
    (hsources : ∀ source ∈ sources, source.isEvaluated = true)
    (hms : ∀ m ∈ ms, ∃ source ∈ sources, m.isFrom source = true)
    (hsame : ms'.map (·.unnumbered) = ms.map (·.unnumbered)) :
    (((s.addAll ms).dropAll sources).addAll ms').unnumbered = (s.addAll ms).unnumbered := by
  have hother : ∀ m ∈ s.modifiers, ∀ source ∈ sources, m.isFrom source = false := by
    intro m hm source hsource
    refine Bool.eq_false_iff.mpr fun hfrom => ?_
    have heval := StatModifier.isEvaluated_of_isFrom hfrom
    rw [hs m hm, hsources source hsource] at heval
    cases heval
  by_cases hnil : ms = []
  · subst hnil
    obtain rfl : ms' = [] := by simpa using hsame
    exact congrArg unnumbered (dropAll_eq_self hother)
  · have hnil' : ms' ≠ [] := by
      rintro rfl
      exact hnil (by simpa using hsame.symm)
    have hback : ((s.addAll ms).dropAll sources).modifiers = s.modifiers := by
      rw [modifiers_dropAll, addAll_eq_refit hnil]
      have htaken : ∀ m ∈ ms, (sources.all fun source => !m.isFrom source) = false := by
        intro m hm
        obtain ⟨source, hsource, hfrom⟩ := hms m hm
        exact List.all_eq_false.mpr ⟨source, hsource, by simp [hfrom]⟩
      refine (filter_insertAll htaken s.modifiers).trans (List.filter_eq_self.mpr fun m hm => ?_)
      simpa using hother m hm
    rw [addAll_eq_refit hnil', hback, refit_dropAll, addAll_eq_refit hnil, refit_refit]
    apply unnumbered_refit
    rw [unnumbered_insertAll, unnumbered_insertAll, hsame]

end Stat

namespace Stats

/-- The stats without what evaluations attached, and without their readings. -/
def bare (stats : Stats) : Stats :=
  stats.map Stat.bare

/-- The stats without the numbers that evaluations gave. -/
def unnumbered (stats : Stats) : Stats :=
  stats.map Stat.unnumbered

/-- The modifiers on the stat of a name that evaluations attached. -/
def evaluatedOn (stats : Stats) (name : String) : List StatModifier :=
  (stats.modifiersOn name).filter (·.isEvaluated)

variable {stats : Stats} {ms : List StatModifier} {sources : List ModifierSource} {name : String}

theorem result_change (stats : Stats) (name : String) (f : Stat → Change Stat) :
    (stats.change name f).result = stats.modify name fun s => (f s).result := by
  unfold change Dict.modify
  cases stats.get? name <;> rfl

theorem result_attach_append (stats : Stats) (ms ms' : List StatModifier) :
    (stats.attach (ms ++ ms')).result = ((stats.attach ms).result.attach ms').result := by
  induction ms generalizing stats with
  | nil => rfl
  | cons m ms ih => exact ih _

theorem get?_attach (stats : Stats) (ms : List StatModifier) (name : String) :
    (stats.attach ms).result.get? name =
      (stats.get? name).map (·.addAll (ms.filter fun m => m.stat = name)) := by
  induction ms generalizing stats with
  | nil => simp [attach, Stat.addAll]
  | cons m ms ih =>
      rw [attach, ih, get?_change]
      by_cases hname : m.stat = name
      · subst hname
        cases stats.get? m.stat <;> simp [Stat.addAll]
      · rw [if_neg (Ne.symm hname), List.filter_cons_of_neg (by simpa using hname)]

theorem get?_removeFromAll (stats : Stats) (sources : List ModifierSource) (name : String) :
    (stats.removeFromAll sources).result.get? name =
      (stats.get? name).map (·.dropAll sources) := by
  induction sources generalizing stats with
  | nil => simp [removeFromAll, Stat.dropAll]
  | cons source rest ih =>
      rw [removeFromAll, ih, removeFrom, get?_changeAll, Option.map_map]
      rfl

theorem bare_removeFromAll (h : ∀ source ∈ sources, source.isEvaluated = true) (stats : Stats) :
    (stats.removeFromAll sources).result.bare = stats.bare := by
  induction sources generalizing stats with
  | nil => rfl
  | cons source rest ih =>
      obtain ⟨hsource, hrest⟩ := List.forall_mem_cons.mp h
      have hfirst : Stat.bare ∘ (fun s => (s.removeFrom source).result) = Stat.bare :=
        funext (Stat.bare_removeFrom hsource)
      refine (ih hrest _).trans ?_
      rw [bare, removeFrom, changeAll, Dict.map_map, hfirst, bare]

theorem bare_attach (h : ∀ m ∈ ms, m.isEvaluated = true) (stats : Stats) :
    (stats.attach ms).result.bare = stats.bare := by
  induction ms generalizing stats with
  | nil => rfl
  | cons m ms ih =>
      obtain ⟨hm, hms⟩ := List.forall_mem_cons.mp h
      refine (ih hms _).trans ?_
      rw [result_change]
      exact Dict.map_modify fun s _ => Stat.bare_add hm s

/-- Wherever something was taken off or attached, the stat is read anew. -/
theorem reading_of_renewed {s' : Stat}
    (h : ((stats.removeFromAll sources).result.attach ms).result.get? name = some s') :
    stats.get? name = some s' ∨ s'.reading = s'.measure := by
  rw [get?_attach, get?_removeFromAll, Option.map_map] at h
  obtain ⟨s, hs, rfl⟩ := Option.map_eq_some_iff.mp h
  rw [Function.comp_apply]
  by_cases hnil : ms.filter (fun m => m.stat = name) = []
  · rw [hnil]
    show _ = some (s.dropAll sources) ∨ (s.dropAll sources).reading = (s.dropAll sources).measure
    rcases s.dropAll_eq sources with heq | ⟨l, heq⟩
    · rw [heq]
      exact .inl hs
    · rw [heq]
      exact .inr (Stat.reading_refit s l)
  · rw [Stat.addAll_eq_refit hnil]
    exact .inr (Stat.reading_refit _ _)

theorem evaluatedOn_attach_perm (hnone : stats.evaluatedOn name = [])
    (hms : ∀ m ∈ ms, m.isEvaluated = true ∧ stats.contains m.stat = true) :
    ((stats.attach ms).result.evaluatedOn name).Perm (ms.filter fun m => m.stat = name) := by
  cases hc : stats.contains name with
  | false =>
      have hnil : ms.filter (fun m => m.stat = name) = [] := by
        rw [List.filter_eq_nil_iff]
        intro m hm hname
        have hthere := (hms m hm).2
        rw [of_decide_eq_true hname, hc] at hthere
        cases hthere
      rw [hnil, evaluatedOn, modifiersOn_of_not_contains (by simpa using hc)]
      rfl
  | true =>
      have hall : (ms.filter fun m => m.stat = name).filter (·.isEvaluated) =
          ms.filter fun m => m.stat = name :=
        List.filter_eq_self.mpr fun m hm => (hms m (List.mem_of_mem_filter hm)).1
      have hperm := (modifiersOn_attach_perm hc ms).filter (·.isEvaluated)
      rw [List.filter_append, hall, ← evaluatedOn, ← evaluatedOn, hnone, List.append_nil] at hperm
      exact hperm

theorem unnumbered_again {ms' : List StatModifier} (hnone : ∀ name, stats.evaluatedOn name = [])
    (hsources : ∀ source ∈ sources, source.isEvaluated = true)
    (hms : ∀ m ∈ ms, ∃ source ∈ sources, m.isFrom source = true)
    (hsame : ms'.map (·.unnumbered) = ms.map (·.unnumbered)) :
    (((stats.attach ms).result.removeFromAll sources).result.attach ms').result.unnumbered =
      (stats.attach ms).result.unnumbered := by
  refine Dict.ext_get? fun name => ?_
  simp only [unnumbered, Dict.get?_map, get?_attach, get?_removeFromAll, Option.map_map]
  cases hs : stats.get? name with
  | none => rfl
  | some s =>
      have hbefore : ∀ m ∈ s.modifiers, m.isEvaluated = false := by
        have hnot := hnone name
        rw [evaluatedOn, modifiersOn_of_get? hs, List.filter_eq_nil_iff] at hnot
        simpa using hnot
      refine congrArg some (Stat.unnumbered_again hbefore hsources
        (fun m hm => hms m (List.mem_of_mem_filter hm)) ?_)
      rw [StatModifier.unnumbered_filter, StatModifier.unnumbered_filter, hsame]

end Stats

end Society
