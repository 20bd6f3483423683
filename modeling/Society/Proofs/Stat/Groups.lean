import Mathlib.Data.List.SplitBy
import Society.Proofs.Stat.Log

/-!
# Modifiers in groups

Modifiers are applied one by one, with a look at the next one to see whether shares go on. That comes
to the same as to cut them into runs of one kind and to apply run after run. And where all modifiers
have the orders of their kinds there are three groups, however they were added.
-/

namespace Society

namespace Quantity

variable {α : Type} [Quantity α]

/-- A value changed by amounts of one kind in a row. -/
def applyAll (value : α) (amounts : List α) : ModifierKind → α
  | .flat => amounts.foldl (· + ·) value
  | .percentAdd => value * (1 + amounts.foldl (· + ·) 0)
  | .percentMultiply => amounts.foldl (fun value amount => value * (1 + amount)) value

/-- A value changed by a run of modifiers, all of the kind of the first. -/
def applyRun (value : α) : List (ModifierKind × α) → α
  | [] => value
  | (kind, amount) :: rest => applyAll value (amount :: rest.map (·.2)) kind

/-- A value changed by three groups; a group of shares that has none does nothing. -/
def grouped (value : α) (flats shares factors : List α) : α :=
  let value := applyAll value flats .flat
  let value := if shares.isEmpty then value else applyAll value shares .percentAdd
  applyAll value factors .percentMultiply

variable {value shares : α} {amounts : List α} {rest : List (ModifierKind × α)}

/-! ## One run -/

/-- What is no share is applied at once, and leaves the sum of the shares as it is. -/
theorem modifyFrom_each {kind : ModifierKind} (hkind : kind ≠ .percentAdd) (value shares : α)
    (amounts : List α) (rest : List (ModifierKind × α)) :
    modifyFrom value shares (amounts.map (kind, ·) ++ rest) =
      modifyFrom (applyAll value amounts kind) shares rest := by
  cases kind with
  | percentAdd => exact absurd rfl hkind
  | flat =>
      induction amounts generalizing value with
      | nil => rfl
      | cons amount amounts ih => exact ih (value + amount)
  | percentMultiply =>
      induction amounts generalizing value with
      | nil => rfl
      | cons amount amounts ih => exact ih (value * (1 + amount))

/-- The last share of a run is the one that is not followed by another. -/
theorem modifyFrom_shares (hne : amounts ≠ []) (hrest : ∀ m ∈ rest.head?, m.1 ≠ .percentAdd) :
    modifyFrom value shares (amounts.map (.percentAdd, ·) ++ rest) =
      modifyFrom (value * (1 + amounts.foldl (· + ·) shares)) 0 rest := by
  induction amounts generalizing shares with
  | nil => exact absurd rfl hne
  | cons amount amounts ih =>
      cases amounts with
      | cons next amounts => exact ih (List.cons_ne_nil next amounts)
      | nil =>
          cases rest with
          | nil => rfl
          | cons m rest =>
              obtain ⟨kind, other⟩ := m
              cases kind with
              | percentAdd => exact absurd rfl (hrest _ rfl)
              | _ => rfl

theorem modifyFrom_run (kind : ModifierKind) (hne : amounts ≠ [])
    (hrest : ∀ m ∈ rest.head?, m.1 ≠ kind) :
    modifyFrom value 0 (amounts.map (kind, ·) ++ rest) =
      modifyFrom (applyAll value amounts kind) 0 rest := by
  by_cases hkind : kind = .percentAdd
  · subst hkind
    exact modifyFrom_shares hne hrest
  · exact modifyFrom_each hkind value 0 amounts rest

/-! ## All runs -/

/-- A row of modifiers of one kind is that kind with amounts. -/
theorem exists_amounts {run : List (ModifierKind × α)} (hne : run ≠ [])
    (hsame : run.IsChain fun m m' => (m.1 == m'.1) = true) :
    ∃ kind amounts, amounts ≠ [] ∧ run = amounts.map (kind, ·) ∧
      ∀ value, applyRun value run = applyAll value amounts kind := by
  cases run with
  | nil => exact absurd rfl hne
  | cons m rest =>
      obtain ⟨kind, amount⟩ := m
      have hall : ∀ m ∈ rest, m.1 = kind := by
        induction rest generalizing amount with
        | nil => simp
        | cons m rest ih =>
            obtain ⟨kind', amount'⟩ := m
            obtain ⟨hhead, htail⟩ := List.isChain_cons_cons.mp hsame
            obtain rfl : kind = kind' := by simpa using hhead
            exact List.forall_mem_cons.mpr ⟨rfl, ih amount' (by simp) htail⟩
      refine ⟨kind, amount :: rest.map (·.2), by simp, ?_, fun _ => rfl⟩
      rw [List.map_cons, List.map_map]
      congr 1
      refine (List.map_id' rest).symm.trans (List.map_congr_left fun m hm => ?_)
      exact Prod.ext (hall m hm) rfl

theorem modifyFrom_flatten {runs : List (List (ModifierKind × α))} (hne : [] ∉ runs)
    (hsame : ∀ run ∈ runs, run.IsChain fun m m' => (m.1 == m'.1) = true)
    (hcut : runs.IsChain fun run run' =>
      ∃ h h', ((run.getLast h).1 == (run'.head h').1) = false) (value : α) :
    modifyFrom value 0 runs.flatten = runs.foldl applyRun value := by
  induction runs generalizing value with
  | nil => rfl
  | cons run runs ih =>
      obtain ⟨hrun, hruns⟩ := List.forall_mem_cons.mp hsame
      simp only [List.mem_cons, not_or] at hne
      obtain ⟨kind, amounts, hamounts, rfl, happly⟩ := exists_amounts (Ne.symm hne.1) hrun
      have hrest : ∀ m ∈ runs.flatten.head?, m.1 ≠ kind := by
        cases runs with
        | nil => simp
        | cons run' runs =>
            obtain ⟨⟨h, h', hother⟩, -⟩ := List.isChain_cons_cons.mp hcut
            rw [List.flatten_cons, List.head?_append_of_ne_nil _ h', List.head?_eq_some_head h']
            simp only [List.getLast_map, beq_eq_false_iff_ne] at hother
            simpa using hother.symm
      rw [List.flatten_cons, modifyFrom_run kind hamounts hrest, List.foldl_cons, happly]
      exact ih hne.2 hruns hcut.tail _

/-- Modifiers are applied as the maximal runs of one kind that they fall into. -/
theorem modified_eq_runs (base : α) (modifiers : List (ModifierKind × α)) :
    modified base modifiers = (modifiers.splitBy fun m m' => m.1 == m'.1).foldl applyRun base := by
  obtain ⟨hflatten, hne, hsame, hcut⟩ :=
    List.splitBy_eq_iff.mp (Eq.refl (modifiers.splitBy fun m m' => m.1 == m'.1))
  rw [modified, ← modifyFrom_flatten hne hsame hcut, ← hflatten]

/-- Three groups in the order of their kinds are applied group by group. -/
theorem modified_groups (base : α) (flats shares factors : List α) :
    modified base (flats.map (.flat, ·) ++
      (shares.map (.percentAdd, ·) ++ factors.map (.percentMultiply, ·))) =
      grouped base flats shares factors := by
  have hfactors (value : α) : modifyFrom value 0 (factors.map (.percentMultiply, ·)) =
      applyAll value factors .percentMultiply := by
    simpa [modifyFrom] using modifyFrom_each (by decide) value 0 factors []
  rw [modified, modifyFrom_each (by decide), grouped]
  by_cases hnil : shares = []
  · subst hnil
    exact hfactors _
  · have hrest : ∀ m ∈ (factors.map (ModifierKind.percentMultiply, ·)).head?,
        m.1 ≠ .percentAdd := by
      cases factors <;> simp
    rw [modifyFrom_run .percentAdd hnil hrest, hfactors, if_neg (by simpa using hnil)]

end Quantity

/-! ## Modifiers with the orders of their kinds -/

/-- The order of the modifier is that of its kind. -/
def StatModifier.Ordered (m : StatModifier) : Prop :=
  m.order = m.kind.defaultOrder

theorem ModifierKind.defaultOrder_inj {k k' : ModifierKind}
    (h : k.defaultOrder = k'.defaultOrder) : k = k' := by
  cases k <;> cases k' <;> first | rfl | cases h

namespace Stat

variable {l : List StatModifier}

theorem order_of_mem_kind (h : ∀ m ∈ l, m.Ordered) {kind : ModifierKind} {m : StatModifier}
    (hm : m ∈ l.filter (·.kind = kind)) : m.order = kind.defaultOrder := by
  rw [List.mem_filter, decide_eq_true_eq] at hm
  rw [h m hm.1, hm.2]

theorem ascends_kind (h : ∀ m ∈ l, m.Ordered) (kind : ModifierKind) :
    Ascends (l.filter (·.kind = kind)) :=
  List.pairwise_of_forall_mem_list fun _ hm _ hm' =>
    ((order_of_mem_kind h hm).trans (order_of_mem_kind h hm').symm).le

theorem filter_order_kind (h : ∀ m ∈ l, m.Ordered) (kind : ModifierKind) (k : Int) :
    (l.filter (·.kind = kind)).filter (·.order == k) =
      if kind.defaultOrder = k then l.filter (·.order == k) else [] := by
  rw [List.filter_filter]
  split
  · rename_i hk
    refine List.filter_congr fun m hm => ?_
    rw [h m hm, ← hk, Bool.and_eq_left_iff_imp]
    intro hkind
    simpa using ModifierKind.defaultOrder_inj (by simpa using hkind)
  · rename_i hk
    refine List.filter_eq_nil_iff.mpr fun m hm hboth => hk ?_
    rw [Bool.and_eq_true, beq_iff_eq, decide_eq_true_eq] at hboth
    rw [← hboth.1, h m hm, hboth.2]

/-- With the orders of their kinds modifiers apply in three groups. -/
theorem inOrder_eq_groups (h : ∀ m ∈ l, m.Ordered) :
    inOrder l = l.filter (·.kind = .flat) ++
      (l.filter (·.kind = .percentAdd) ++ l.filter (·.kind = .percentMultiply)) := by
  refine (Ascends.eq_inOrder ?_ fun k => ?_).symm
  · refine List.pairwise_append.mpr ⟨ascends_kind h _, List.pairwise_append.mpr
      ⟨ascends_kind h _, ascends_kind h _, fun m hm m' hm' => ?_⟩, fun m hm m' hm' => ?_⟩
    · rw [order_of_mem_kind h hm, order_of_mem_kind h hm']
      decide
    · rcases List.mem_append.mp hm' with hm' | hm'
      all_goals
        rw [order_of_mem_kind h hm, order_of_mem_kind h hm']
        decide
  · rw [List.filter_append, List.filter_append, filter_order_kind h, filter_order_kind h,
      filter_order_kind h]
    by_cases hk : ∃ kind : ModifierKind, kind.defaultOrder = k
    · obtain ⟨kind, rfl⟩ := hk
      cases kind <;> simp [ModifierKind.defaultOrder]
    · have hnone : l.filter (·.order == k) = [] := by
        refine List.filter_eq_nil_iff.mpr fun m hm horder => hk ⟨m.kind, ?_⟩
        rw [← h m hm]
        simpa using horder
      rw [hnone, ite_self, ite_self, ite_self]
      rfl

end Stat

namespace StatLog

variable {calls : List StatCall} {log : StatLog}

/-- What was added goes on with all that counting down leaves. -/
theorem forall_attached_step {P : StatModifier → Prop} (htick : ∀ m, P m → P m.tick)
    {call : StatCall} (hadd : ∀ m, call = .add m → P m) (h : ∀ m ∈ log.attached, P m) :
    ∀ m ∈ (log.step call).attached, P m := by
  cases call with
  | add m =>
      intro m' hm'
      rcases List.mem_append.mp hm' with hm' | hm'
      · exact h m' hm'
      · obtain rfl := List.mem_singleton.mp hm'
        exact hadd m' rfl
  | remove id =>
      intro m hm
      rw [step, detach] at hm
      split at hm
      · exact h m (List.mem_of_mem_erase hm)
      · exact h m hm
  | removeFrom source => exact fun m hm => h m (List.mem_of_mem_filter hm)
  | tick =>
      intro m hm
      obtain ⟨m, hm', rfl⟩ := List.mem_map.mp (List.mem_of_mem_filter hm)
      exact htick m (h m hm')
  | _ => exact h

theorem forall_attached_run {P : StatModifier → Prop} (htick : ∀ m, P m → P m.tick)
    (hadd : ∀ m, StatCall.add m ∈ calls → P m) (h : ∀ m ∈ log.attached, P m) :
    ∀ m ∈ (log.run calls).attached, P m := by
  induction calls generalizing log with
  | nil => exact h
  | cons call calls ih =>
      have hrun : log.run (call :: calls) = (log.step call).run calls := rfl
      rw [hrun]
      refine ih (fun m hm => hadd m (List.mem_cons_of_mem _ hm)) ?_
      exact forall_attached_step htick (fun m hm => hadd m (by simp [hm])) h

/-- The amounts of the attached modifiers of a kind, in the order in which they were added. -/
def amounts (log : StatLog) (kind : ModifierKind) : List Float :=
  (log.attached.filter (·.kind = kind)).map (·.amount)

theorem map_inOrder_attached (h : ∀ m ∈ log.attached, m.Ordered) :
    (Stat.inOrder log.attached).map (fun m => (m.kind, m.amount)) =
      (log.amounts .flat).map (.flat, ·) ++
        ((log.amounts .percentAdd).map (.percentAdd, ·) ++
          (log.amounts .percentMultiply).map (.percentMultiply, ·)) := by
  have hkind (kind : ModifierKind) :
      (log.attached.filter (·.kind = kind)).map (fun m => (m.kind, m.amount)) =
        (log.amounts kind).map (kind, ·) := by
    rw [amounts, List.map_map]
    refine List.map_congr_left fun m hm => ?_
    rw [List.mem_filter, decide_eq_true_eq] at hm
    exact Prod.ext hm.2 rfl
  rw [Stat.inOrder_eq_groups h, List.map_append, List.map_append, hkind, hkind, hkind]

end StatLog

/-- Modifiers are applied as the runs of one kind that they fall into, each as a whole and one after
the other. So after any calls on a new stat that add modifiers with the orders of their kinds, the
value before it is moved into the bounds is the base with all flat amounts added, multiplied once by
one more than the sum of the shares, if there are any, and by one more than each factor, each group in
the order in which it was added. -/
theorem Stat.modified_grouped {α : Type} [Quantity α] :
    (∀ (base : α) (modifiers : List (ModifierKind × α)),
      Quantity.modified base modifiers =
        (modifiers.splitBy fun m m' => m.1 == m'.1).foldl Quantity.applyRun base) ∧
    ∀ (base : Float) (bounds : Bounds Float) (calls : List StatCall),
      (∀ m, StatCall.add m ∈ calls → m.Ordered) →
      let log := (StatLog.start base).run calls
      let s := (create base bounds).run calls
      Quantity.modified s.base (s.modifiers.map fun m => (m.kind, m.amount)) =
          Quantity.grouped log.base (log.amounts .flat) (log.amounts .percentAdd)
            (log.amounts .percentMultiply) ∧
        s.reading = Quantity.settle bounds
          (Quantity.modified s.base (s.modifiers.map fun m => (m.kind, m.amount))) := by
  refine ⟨Quantity.modified_eq_runs, fun base bounds calls hadd => ?_⟩
  intro log s
  have hs : s = log.stat bounds := run_create base bounds calls
  have hordered : ∀ m ∈ log.attached, m.Ordered :=
    StatLog.forall_attached_run (fun _ h => h) hadd (by simp [StatLog.start])
  rw [hs]
  refine ⟨?_, rfl⟩
  rw [← Quantity.modified_groups, ← StatLog.map_inOrder_attached hordered]
  rfl

/-- A factor, a share, a flat amount and another share, added in this order: the flat amount comes
first, and the shares are summed before they are applied. -/
theorem Stat.modified_grouped_of_mixed :
    let calls : List StatCall := [
      .add (ModifierSpec.instance ⟨"trust", 0.5, .percentMultiply⟩ (.given "a") none),
      .add (ModifierSpec.instance ⟨"trust", 0.2, .percentAdd⟩ (.given "b") none),
      .add (ModifierSpec.instance ⟨"trust", 5, .flat⟩ (.given "c") none),
      .add (ModifierSpec.instance ⟨"trust", 0.1, .percentAdd⟩ (.given "d") none)]
    (∀ m, StatCall.add m ∈ calls → m.Ordered) ∧
      Quantity.modified 10 (((create 10 wideBounds).run calls).modifiers.map fun m =>
        (m.kind, m.amount)) = (10 + 5) * (1 + (0 + 0.2 + 0.1)) * (1 + 0.5) := by
  intro calls
  have hordered : ∀ m, StatCall.add m ∈ calls → m.Ordered := by
    intro m hm
    simp only [calls, List.mem_cons, StatCall.add.injEq, List.not_mem_nil, or_false] at hm
    rcases hm with rfl | rfl | rfl | rfl <;> rfl
  exact ⟨hordered, ((modified_grouped (α := Float)).2 10 wideBounds calls hordered).1⟩

end Society
