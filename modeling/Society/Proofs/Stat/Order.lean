import Mathlib.Data.Int.Order.Basic
import Mathlib.Data.List.Basic
import Mathlib.Order.Basic
import Society.Proofs.Sheet.Modifiers

/-!
# The order in which modifiers apply

Modifiers apply by their orders, and those with the same order as they come in the list. A sorted list
is fixed by what it has for each order. So to put a modifier into its place, to take some off and to
change them in place comes to the same before and after sorting.
-/

namespace Society.Stat

/-- The modifiers as they apply: lower orders first, and with equal orders the earlier one first. -/
def inOrder (l : List StatModifier) : List StatModifier :=
  l.mergeSort fun m m' => m.order ≤ m'.order

/-- No modifier stands behind one of a higher order. -/
def Ascends (l : List StatModifier) : Prop :=
  l.Pairwise fun m m' => m.order ≤ m'.order

variable {l l' : List StatModifier} {m : StatModifier}

/-! ## Sorted lists -/

theorem order_trans (a b c : StatModifier) (hab : decide (a.order ≤ b.order) = true)
    (hbc : decide (b.order ≤ c.order) = true) : decide (a.order ≤ c.order) = true :=
  decide_eq_true ((of_decide_eq_true hab).trans (of_decide_eq_true hbc))

theorem order_total (a b : StatModifier) :
    (decide (a.order ≤ b.order) || decide (b.order ≤ a.order)) = true := by
  simpa using le_total a.order b.order

/-- Sorted lists that have the same modifiers for each order, in the same order, are the same. -/
theorem Ascends.ext (h : Ascends l) (h' : Ascends l')
    (hsame : ∀ k, l.filter (·.order == k) = l'.filter (·.order == k)) : l = l' := by
  induction l generalizing l' with
  | nil =>
      refine (List.eq_nil_iff_forall_not_mem.mpr fun m hm => ?_).symm
      have hnil := hsame m.order
      rw [List.filter_nil, eq_comm, List.filter_eq_nil_iff] at hnil
      exact hnil m hm (by simp)
  | cons x l ih =>
      have hmem : ∀ m, m ∈ x :: l ↔ m ∈ l' := by
        intro m
        simpa using congrArg (m ∈ ·) (hsame m.order)
      cases l' with
      | nil => exact absurd ((hmem x).mp List.mem_cons_self) (by simp)
      | cons y l' =>
          obtain ⟨hx, hl⟩ := List.pairwise_cons.mp h
          obtain ⟨hy, hl'⟩ := List.pairwise_cons.mp h'
          -- both heads have the least order that there is
          have hxy : x.order = y.order := by
            have hyx := (hmem y).mpr List.mem_cons_self
            have hxy := (hmem x).mp List.mem_cons_self
            refine le_antisymm ?_ ?_
            · rcases List.mem_cons.mp hyx with rfl | hyx
              · exact le_rfl
              · exact hx y hyx
            · rcases List.mem_cons.mp hxy with rfl | hxy
              · exact le_rfl
              · exact hy x hxy
          have hhead := hsame x.order
          simp only [List.filter_cons, hxy, beq_self_eq_true, if_true] at hhead
          obtain ⟨rfl, -⟩ := List.cons.inj hhead
          rw [ih hl hl' fun k => ?_]
          have htail := hsame k
          simp only [List.filter_cons] at htail
          split at htail
          · exact (List.cons.inj htail).2
          · exact htail

theorem ascends_inOrder (l : List StatModifier) : Ascends (inOrder l) := by
  have hsorted : (inOrder l).Pairwise fun m m' => decide (m.order ≤ m'.order) = true :=
    List.pairwise_mergeSort order_trans order_total l
  exact hsorted.imp fun h => of_decide_eq_true h

/-- Sorting leaves what has one order as it is. -/
theorem filter_order_inOrder (l : List StatModifier) (k : Int) :
    (inOrder l).filter (·.order == k) = l.filter (·.order == k) := by
  have hequal : (l.filter (·.order == k)).Pairwise fun m m' => m.order ≤ m'.order := by
    refine List.pairwise_of_forall_mem_list fun m hm m' hm' => ?_
    have hm := (List.mem_filter.mp hm).2
    have hm' := (List.mem_filter.mp hm').2
    simp_all
  have hsub : (l.filter (·.order == k)).Sublist (inOrder l) :=
    List.sublist_mergeSort order_trans order_total (hequal.imp fun h => by simpa using h)
      List.filter_sublist
  have hperm := (List.mergeSort_perm l fun m m' => m.order ≤ m'.order).filter (·.order == k)
  have hfilter := hsub.filter (·.order == k)
  rw [List.filter_filter, List.filter_congr fun m _ => Bool.and_self _] at hfilter
  exact (hfilter.eq_of_length hperm.length_eq.symm).symm

/-- What is sorted, and has the same for each order, is the list as it applies. -/
theorem Ascends.eq_inOrder (h : Ascends l')
    (hsame : ∀ k, l'.filter (·.order == k) = l.filter (·.order == k)) : l' = inOrder l :=
  h.ext (ascends_inOrder l) fun k => (hsame k).trans (filter_order_inOrder l k).symm

theorem mem_inOrder : m ∈ inOrder l ↔ m ∈ l :=
  List.mem_mergeSort

/-! ## Changes of a sorted list -/

theorem Ascends.insertByOrder (h : Ascends l) (m : StatModifier) :
    Ascends (insertByOrder m l) := by
  induction l with
  | nil => exact List.pairwise_singleton _ _
  | cons x l ih =>
      obtain ⟨hx, hl⟩ := List.pairwise_cons.mp h
      rw [Stat.insertByOrder]
      split
      · rename_i hlt
        refine List.pairwise_cons.mpr ⟨fun y hy => ?_, h⟩
        rcases List.mem_cons.mp hy with rfl | hy
        · exact hlt.le
        · exact hlt.le.trans (hx y hy)
      · rename_i hge
        refine List.pairwise_cons.mpr ⟨fun y hy => ?_, ih hl⟩
        rcases List.mem_cons.mp ((insertByOrder_perm m l).mem_iff.mp hy) with rfl | hy
        · exact not_lt.mp hge
        · exact hx y hy

/-- A modifier goes behind all that have its order. -/
theorem Ascends.filter_order_insertByOrder (h : Ascends l) (m : StatModifier) :
    (Stat.insertByOrder m l).filter (·.order == m.order) = l.filter (·.order == m.order) ++ [m] := by
  induction l with
  | nil => simp [Stat.insertByOrder]
  | cons x l ih =>
      obtain ⟨hx, hl⟩ := List.pairwise_cons.mp h
      rw [Stat.insertByOrder]
      split
      · rename_i hlt
        have hnone : (x :: l).filter (·.order == m.order) = [] := by
          refine List.filter_eq_nil_iff.mpr fun y hy => ?_
          rcases List.mem_cons.mp hy with rfl | hy
          · simpa using hlt.ne'
          · simpa using (hlt.trans_le (hx y hy)).ne'
        rw [List.filter_cons_of_pos (by simp), hnone]
        rfl
      · rw [List.filter_cons, List.filter_cons, ih hl]
        split <;> rfl

theorem insertByOrder_inOrder (m : StatModifier) (l : List StatModifier) :
    insertByOrder m (inOrder l) = inOrder (l ++ [m]) := by
  refine ((ascends_inOrder l).insertByOrder m).eq_inOrder fun k => ?_
  rw [List.filter_append]
  by_cases hk : m.order = k
  · subst hk
    rw [(ascends_inOrder l).filter_order_insertByOrder, filter_order_inOrder]
    simp
  · rw [filter_insertByOrder (by simpa using hk), filter_order_inOrder]
    simp [hk]

theorem filter_inOrder (p : StatModifier → Bool) (l : List StatModifier) :
    (inOrder l).filter p = inOrder (l.filter p) := by
  refine Ascends.eq_inOrder ((ascends_inOrder l).filter p) fun k => ?_
  rw [List.filter_comm, filter_order_inOrder, List.filter_comm]

theorem map_inOrder {f : StatModifier → StatModifier} (hf : ∀ m, (f m).order = m.order)
    (l : List StatModifier) : (inOrder l).map f = inOrder (l.map f) :=
  List.map_mergeSort fun m _ m' _ => by rw [hf, hf]

theorem erase_inOrder (m : StatModifier) (l : List StatModifier) :
    (inOrder l).erase m = inOrder (l.erase m) := by
  refine Ascends.eq_inOrder ((ascends_inOrder l).sublist List.erase_sublist) fun k => ?_
  rw [← List.erase_filter, filter_order_inOrder, List.erase_filter]

/-- To take off the first that passes a test is to take off what is found. -/
theorem eraseP_eq_erase {p : StatModifier → Bool} (h : l.find? p = some m) :
    l.eraseP p = l.erase m := by
  induction l with
  | nil => cases h
  | cons x l ih =>
      cases hx : p x with
      | true =>
          obtain rfl : x = m := by simpa [hx] using h
          rw [List.eraseP_cons_of_pos hx, List.erase_cons_head]
      | false =>
          have hfind : l.find? p = some m := by simpa [hx] using h
          have hne : x ≠ m := by
            rintro rfl
            exact absurd (List.find?_some hfind) (by simp [hx])
          rw [List.eraseP_cons_of_neg (by simp [hx]), List.erase_cons_tail (by simpa using hne),
            ih hfind]

end Society.Stat
