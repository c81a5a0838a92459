/-
Bounded first-in-first-out windows that every key enters at most once.

The window keeps, beside its items, the log of every key offered to it.  One
step either shrinks the window and logs some keys, or admits a key that was
never logged, at the back, and evicts from the front what exceeds the size.
Such a window is bounded and free of repetitions, keeps the order of first
offers, and a key that left it never returns.
-/
import Mathlib

namespace Antiburn

structure FifoWindow (κ : Type*) where
  items : List κ
  offered : List κ

namespace FifoWindow

variable {κ : Type*} {size : Nat} {w w' : FifoWindow κ}

def push (size : Nat) (items : List κ) (key : κ) : List κ :=
  (items ++ [key]).drop ((items ++ [key]).length - size)

def evicted (size : Nat) (items : List κ) (key : κ) : List κ :=
  (items ++ [key]).take ((items ++ [key]).length - size)

inductive Step (size : Nat) (w : FifoWindow κ) : FifoWindow κ → Prop
  | shrink (items extra : List κ) (h : items.Sublist w.items) :
      Step size w ⟨items, w.offered ++ extra⟩
  | enter (key : κ) (h : key ∉ w.offered) :
      Step size w ⟨push size w.items key, w.offered ++ [key]⟩

lemma length_push_le (size : Nat) (items : List κ) (key : κ) :
    (push size items key).length ≤ size := by
  unfold push
  rw [List.length_drop]
  omega

lemma push_sublist (size : Nat) (items : List κ) (key : κ) :
    (push size items key).Sublist (items ++ [key]) := List.drop_sublist _ _

lemma mem_push_self (hsize : 0 < size) (items : List κ) (key : κ) :
    key ∈ push size items key := by
  unfold push
  have h : (items ++ [key]).length - size ≤ items.length := by
    rw [List.length_append, List.length_singleton]
    omega
  rw [List.drop_append_of_le_length h]
  exact List.mem_append_right _ (List.mem_singleton_self key)

lemma mem_push_iff {items : List κ} {key : κ} (hnodup : (items ++ [key]).Nodup) (key' : κ) :
    key' ∈ push size items key ↔ key' ∈ items ++ [key] ∧ key' ∉ evicted size items key := by
  unfold push evicted
  generalize (items ++ [key]).length - size = n
  have hsplit := List.take_append_drop n (items ++ [key])
  have hdisjoint : ((items ++ [key]).take n).Disjoint ((items ++ [key]).drop n) := by
    rw [← hsplit] at hnodup
    exact List.disjoint_of_nodup_append hnodup
  constructor
  · intro hkept
    exact ⟨List.mem_of_mem_drop hkept, fun hout => hdisjoint hout hkept⟩
  · rintro ⟨hmem, hkept⟩
    rw [← hsplit, List.mem_append] at hmem
    exact hmem.resolve_left hkept

variable [DecidableEq κ]

/-- What every step keeps. -/
structure Valid (size : Nat) (w : FifoWindow κ) : Prop where
  bounded : w.items.length ≤ size
  nodup : w.items.Nodup
  offered : ∀ key ∈ w.items, key ∈ w.offered
  ordered : w.items.Pairwise fun a b => w.offered.idxOf a < w.offered.idxOf b

lemma valid_empty (size : Nat) (offered : List κ) : Valid size ⟨[], offered⟩ :=
  ⟨Nat.zero_le _, List.nodup_nil, by simp, .nil⟩

lemma Valid.shrink (h : Valid size w) {items : List κ} (hsub : items.Sublist w.items)
    (extra : List κ) : Valid size ⟨items, w.offered ++ extra⟩ where
  bounded := Nat.le_trans hsub.length_le h.bounded
  nodup := h.nodup.sublist hsub
  offered key hkey := List.mem_append_left _ (h.offered key (hsub.subset hkey))
  ordered := by
    refine (h.ordered.sublist hsub).imp_of_mem ?_
    intro a b ha hb hab
    rw [List.idxOf_append_of_mem (h.offered a (hsub.subset ha)),
      List.idxOf_append_of_mem (h.offered b (hsub.subset hb))]
    exact hab

lemma Valid.nodup_append (h : Valid size w) {key : κ} (hkey : key ∉ w.offered) :
    (w.items ++ [key]).Nodup := by
  refine List.nodup_append.mpr ⟨h.nodup, List.nodup_singleton key, ?_⟩
  rintro a ha b hb rfl
  rw [List.mem_singleton] at hb
  exact hkey (hb ▸ h.offered a ha)

lemma Valid.enter (h : Valid size w) {key : κ} (hkey : key ∉ w.offered) :
    Valid size ⟨push size w.items key, w.offered ++ [key]⟩ := by
  have hsub := push_sublist size w.items key
  have hnodup := h.nodup_append hkey
  have hord : (w.items ++ [key]).Pairwise fun a b =>
      (w.offered ++ [key]).idxOf a < (w.offered ++ [key]).idxOf b := by
    rw [List.pairwise_append]
    refine ⟨(h.shrink (List.Sublist.refl _) [key]).ordered, List.pairwise_singleton _ _, ?_⟩
    intro a ha b hb
    -- the new key is last in the log, every older key is found before it
    rw [List.mem_singleton.mp hb, List.idxOf_append_of_mem (h.offered a ha),
      List.idxOf_append_of_notMem hkey]
    exact Nat.lt_add_right _ (List.idxOf_lt_length_of_mem (h.offered a ha))
  refine ⟨length_push_le _ _ _, hnodup.sublist hsub, ?_, hord.sublist hsub⟩
  intro a ha
  rcases List.mem_append.mp (hsub.subset ha) with ha | ha
  · exact List.mem_append_left _ (h.offered a ha)
  · exact List.mem_append_right _ ha

end FifoWindow

lemma take_snoc_if {α : Type*} {kept items : List α} {bound : Nat} {keeps : Bool} {item : α}
    (hkept : kept = items.take bound) :
    (if keeps && decide (kept.length < bound) then kept ++ [item] else kept) =
      (items ++ if keeps then [item] else []).take bound := by
  subst hkept
  cases keeps with
  | false => simp
  | true =>
    by_cases hroom : items.length < bound
    · rw [List.take_of_length_le (Nat.le_of_lt hroom), List.take_of_length_le (by simp; omega)]
      simp [hroom]
    · rw [List.take_append_of_le_length (by omega)]
      simp
      omega

end Antiburn
