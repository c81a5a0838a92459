/-
Pro rata distribution.

Items fall into classes, and every class hands out its amount to its items, each
in proportion to its weight.  What is handed out is the amount of every class that
has weight; what a class without weight keeps back is left.
-/
import Mathlib

namespace Antiburn

namespace ProRata

variable {α K : Type*}

section Classes

variable [AddCommMonoid K] (cls : α → Nat)

def classSum (f : α → K) (items : List α) (i : Nat) : K :=
  ((items.filter fun item => cls item = i).map f).sum

variable {cls}

@[simp] lemma classSum_nil (f : α → K) (i : Nat) : classSum cls f [] i = 0 := rfl

lemma classSum_cons (f : α → K) (item : α) (items : List α) (i : Nat) :
    classSum cls f (item :: items) i =
      (if cls item = i then f item else 0) + classSum cls f items i := by
  unfold classSum
  by_cases h : cls item = i
  · rw [List.filter_cons_of_pos (by simpa using h), if_pos h, List.map_cons, List.sum_cons]
  · rw [List.filter_cons_of_neg (by simpa using h), if_neg h, zero_add]

lemma sum_classes {n : Nat} (f : α → K) {items : List α} (hitems : ∀ item ∈ items, cls item < n) :
    (items.map f).sum = ∑ i ∈ Finset.range n, classSum cls f items i := by
  induction items with
  | nil =>
    symm
    exact Finset.sum_eq_zero fun i _ => classSum_nil f i
  | cons item rest ih =>
    have hitem : cls item ∈ Finset.range n := Finset.mem_range.mpr (hitems item List.mem_cons_self)
    have hrest : ∀ other ∈ rest, cls other < n :=
      fun other hother => hitems other (List.mem_cons_of_mem _ hother)
    rw [List.map_cons, List.sum_cons, ih hrest]
    simp only [classSum_cons, Finset.sum_add_distrib]
    rw [Finset.sum_ite_eq, if_pos hitem]

lemma classSum_filter (f : α → K) {p : α → Bool} {items : List α} {i : Nat}
    (h : ∀ item ∈ items, cls item = i → p item = true) :
    classSum cls f (items.filter p) i = classSum cls f items i := by
  unfold classSum
  rw [List.filter_filter]
  refine congrArg (fun kept => (kept.map f).sum) (List.filter_congr fun item hitem => ?_)
  by_cases hclass : cls item = i
  · simp [hclass, h item hitem hclass]
  · simp [hclass]

end Classes

/-! ### Sums over lists, by position -/

section Positions

variable [AddCommMonoid K]

lemma sum_filter_map (p : α → Bool) (f : α → K) (items : List α) :
    ((items.filter p).map f).sum = (items.map fun item => if p item = true then f item else 0).sum := by
  induction items with
  | nil => rfl
  | cons item rest ih =>
    by_cases h : p item = true
    · rw [List.filter_cons_of_pos h, List.map_cons, List.map_cons, List.sum_cons, List.sum_cons,
        if_pos h, ih]
    · rw [List.filter_cons_of_neg h, List.map_cons, List.sum_cons, if_neg h, zero_add, ih]

lemma sum_getD (amounts : List K) :
    ∑ i ∈ Finset.range amounts.length, amounts.getD i 0 = amounts.sum := by
  induction amounts with
  | nil => rfl
  | cons amount rest ih =>
    rw [List.length_cons, Finset.sum_range_succ', List.sum_cons, ← ih, add_comm]
    rfl

lemma sum_zip {β : Type*} (f : α → β → K) (a₀ : α) (b₀ : β) {as : List α} {bs : List β}
    (h : as.length = bs.length) :
    ((as.zip bs).map fun entry => f entry.1 entry.2).sum =
      ∑ i ∈ Finset.range as.length, f (as.getD i a₀) (bs.getD i b₀) := by
  induction as generalizing bs with
  | nil => rfl
  | cons a as ih =>
    cases bs with
    | nil => cases h
    | cons b bs =>
      rw [List.zip_cons_cons, List.map_cons, List.sum_cons, ih (Nat.succ.inj h), List.length_cons,
        Finset.sum_range_succ', add_comm]
      rfl

end Positions

variable [Field K] {cls : α → Nat}

lemma classSum_share (weight : α → K) (amount : Nat → K) (items : List α) (i : Nat)
    (total : Nat → K) :
    classSum cls (fun item => amount (cls item) * weight item / total (cls item)) items i =
      amount i * classSum cls weight items i / total i := by
  induction items with
  | nil => simp
  | cons item rest ih =>
    rw [classSum_cons, classSum_cons, ih]
    by_cases h : cls item = i
    · rw [if_pos h, if_pos h, h]
      ring
    · rw [if_neg h, if_neg h, zero_add, zero_add]

open Classical in
/-- **All that is handed out is the amount of the classes that have weight.** -/
lemma sum_share {n : Nat} (weight : α → K) (amount : Nat → K) {items : List α}
    (hitems : ∀ item ∈ items, cls item < n) :
    (items.map fun item =>
        amount (cls item) * weight item / classSum cls weight items (cls item)).sum =
      ∑ i ∈ Finset.range n, if classSum cls weight items i = 0 then 0 else amount i := by
  rw [sum_classes _ hitems]
  refine Finset.sum_congr rfl fun i _ => ?_
  rw [classSum_share weight amount items i fun j => classSum cls weight items j]
  by_cases h : classSum cls weight items i = 0
  · rw [if_pos h, h, div_zero]
  · rw [if_neg h, mul_div_assoc, div_self h, mul_one]

end ProRata

end Antiburn
