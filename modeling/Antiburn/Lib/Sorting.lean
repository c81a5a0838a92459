/-
Sorted selections.

A query with ORDER BY selects rows and sorts them.  Leaving rows out before the
sort, or after it, gives the same list.
-/
import Mathlib

namespace Antiburn

namespace Sorting

variable {α : Type*} {r : α → α → Prop} [DecidableRel r] {p : α → Bool}

lemma filter_mergeSort_of_equal {le : α → α → Bool}
    (htrans : ∀ a b c, le a b = true → le b c = true → le a c = true)
    (htotal : ∀ a b, (le a b || le b a) = true) {items : List α}
    (hequal : ∀ a b, p a = true → p b = true → le a b = true) :
    (items.mergeSort le).filter p = items.filter p := by
  have hsorted : (items.filter p).Pairwise fun a b => le a b = true :=
    List.pairwise_of_forall_mem_list fun a ha b hb =>
      hequal a b (List.of_mem_filter ha) (List.of_mem_filter hb)
  have hsub : (items.filter p).Sublist (items.mergeSort le) :=
    List.sublist_mergeSort htrans htotal hsorted List.filter_sublist
  have hkept := hsub.filter p
  rw [List.filter_filter] at hkept
  simp only [Bool.and_self] at hkept
  refine (hkept.eq_of_length ?_).symm
  exact ((List.mergeSort_perm items le).filter p).length_eq.symm

end Sorting

end Antiburn
