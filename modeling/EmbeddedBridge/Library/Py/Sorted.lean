import Mathlib.Data.List.Sort

/-! # Sorting

`sorted(items, key=key)`, which is stable: items with one key stay in their order.  Together
with the order of the keys this says what comes out (`filter_sortedBy`, `pairwise_sortedBy`).
-/

namespace EmbeddedBridge.Library.Py

variable {α κ : Type*} [LinearOrder κ] (key : α → κ) (items : List α)

/-- `sorted` -/
def sortedBy : List α := items.mergeSort fun left right => decide (key left ≤ key right)

theorem sortedBy_perm : (sortedBy key items).Perm items := List.mergeSort_perm items _

theorem mem_sortedBy {item : α} : item ∈ sortedBy key items ↔ item ∈ items :=
  (sortedBy_perm key items).mem_iff

variable {key} in
theorem trans_key (first second third : α) (below : decide (key first ≤ key second) = true)
    (above : decide (key second ≤ key third) = true) : decide (key first ≤ key third) = true :=
  decide_eq_true ((of_decide_eq_true below).trans (of_decide_eq_true above))

variable {key} in
theorem total_key (left right : α) :
    (decide (key left ≤ key right) || decide (key right ≤ key left)) = true := by
  simpa using le_total (key left) (key right)

theorem pairwise_sortedBy :
    (sortedBy key items).Pairwise fun left right => key left ≤ key right :=
  (List.pairwise_mergeSort trans_key total_key items).imp of_decide_eq_true

/-- Items with one key keep their order. -/
theorem filter_sortedBy (value : κ) :
    (sortedBy key items).filter (fun item => decide (key item = value)) =
      items.filter fun item => decide (key item = value) := by
  have alike : (items.filter fun item => decide (key item = value)).Pairwise
      fun left right => decide (key left ≤ key right) := by
    refine List.pairwise_of_forall_mem_list fun left first right second => decide_eq_true ?_
    have keyLeft := of_decide_eq_true (List.mem_filter.mp first).2
    have keyRight := of_decide_eq_true (List.mem_filter.mp second).2
    exact (keyLeft.trans keyRight.symm).le
  have kept : (items.filter fun item => decide (key item = value)).Sublist (sortedBy key items) :=
    List.sublist_mergeSort trans_key total_key alike List.filter_sublist
  have inside := kept.filter fun item => decide (key item = value)
  rw [List.filter_filter, List.filter_congr fun item _ => Bool.and_self _] at inside
  exact (inside.eq_of_length ((sortedBy_perm key items).filter _).length_eq.symm).symm

end EmbeddedBridge.Library.Py
