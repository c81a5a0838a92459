/-
Buffers that put items back in order.

A buffer holds at most `size` items.  When one more arrives, a least one leaves;
at the end the rest leaves, least first.  Whatever arrives leaves once
(`Runs.perm`, `Drains.perm`).  Items that arrive at most `size` places after their
rank leave in order (`pairwise_of_inPlace`).
-/
import Mathlib

namespace Antiburn

namespace Reorder

variable {α β : Type*} [LinearOrder β] {key : α → β} {size : Nat}

structure Leaves (key : α → β) (inside : List α) (least : α) (rest : List α) : Prop where
  perm : inside.Perm (least :: rest)
  least : ∀ item ∈ inside, key least ≤ key item

/-- A buffer after some arrivals: what it holds, and what left it, in order. -/
inductive Runs (key : α → β) (size : Nat) : List α → List α → List α → Prop
  | start : Runs key size [] [] []
  | keeps {arrived inside left : List α} {item : α} (run : Runs key size arrived inside left)
      (room : inside.length < size) : Runs key size (arrived ++ [item]) (inside ++ [item]) left
  | passes {arrived inside left rest : List α} {item least : α}
      (run : Runs key size arrived inside left) (full : inside.length = size)
      (leaves : Leaves key (inside ++ [item]) least rest) :
      Runs key size (arrived ++ [item]) rest (left ++ [least])

/-- What a buffer gives away at the end. -/
inductive Drains (key : α → β) : List α → List α → Prop
  | done : Drains key [] []
  | next {inside rest left : List α} {least : α} (leaves : Leaves key inside least rest)
      (drains : Drains key rest left) : Drains key inside (least :: left)

def rank (key : α → β) (items : List α) (item : α) : Nat :=
  items.countP fun other => decide (key other < key item)

/-- Every item stands at most `size` places after its rank. -/
def InPlace (key : α → β) (size : Nat) (items : List α) : Prop :=
  ∀ before item after, items = before ++ item :: after →
    before.length ≤ rank key items item + size

lemma inPlace_of_pairwise {items : List α}
    (h : items.Pairwise fun item later => key item < key later) : InPlace key size items := by
  intro before item after hsplit
  rw [hsplit, List.pairwise_append] at h
  have hahead : before.countP (fun other => decide (key other < key item)) = before.length := by
    rw [List.countP_eq_length]
    intro other hother
    simpa using h.2.2 other hother item List.mem_cons_self
  unfold rank
  rw [hsplit, List.countP_append, hahead]
  omega

variable {arrived inside left : List α}

lemma Runs.perm (h : Runs key size arrived inside left) :
    (left ++ inside).Perm arrived := by
  induction h with
  | start => exact .refl _
  | keeps _ _ ih =>
    rw [← List.append_assoc]
    exact ih.append_right _
  | @passes arrived inside left rest item least _ _ leaves ih =>
    calc
      (left ++ [least] ++ rest).Perm (left ++ (inside ++ [item])) := by
        rw [List.append_assoc]
        exact leaves.perm.symm.append_left left
      _ = left ++ inside ++ [item] := (List.append_assoc _ _ _).symm
      (left ++ inside ++ [item]).Perm (arrived ++ [item]) := ih.append_right _

lemma Runs.length_le (h : Runs key size arrived inside left) :
    inside.length ≤ size := by
  induction h with
  | start => exact Nat.zero_le _
  | keeps _ room _ =>
    rw [List.length_append, List.length_singleton]
    omega
  | passes _ full leaves _ =>
    have hlen := leaves.perm.length_eq
    rw [List.length_append, List.length_singleton, List.length_cons] at hlen
    omega

lemma Drains.perm {inside left : List α} (h : Drains key inside left) :
    left.Perm inside := by
  induction h with
  | done => exact .refl _
  | next leaves _ ih => exact (ih.cons _).trans leaves.perm.symm

lemma Leaves.lt {inside rest : List α} {least : α} (h : Leaves key inside least rest)
    (hdist : (inside.map key).Nodup) : ∀ item ∈ rest, key least < key item := by
  intro item hitem
  have hnodup := (h.perm.map key).nodup hdist
  rw [List.map_cons, List.nodup_cons] at hnodup
  refine lt_of_le_of_ne (h.least item (h.perm.mem_iff.mpr (List.mem_cons_of_mem _ hitem))) ?_
  intro heq
  exact hnodup.1 (heq ▸ List.mem_map_of_mem hitem)

lemma Drains.pairwise {inside left : List α} (h : Drains key inside left)
    (hdist : (inside.map key).Nodup) :
    left.Pairwise fun item later => key item < key later := by
  induction h with
  | done => exact .nil
  | next leaves drains ih =>
    have hnodup := (leaves.perm.map key).nodup hdist
    rw [List.map_cons, List.nodup_cons] at hnodup
    refine List.pairwise_cons.mpr ⟨fun item hitem => ?_, ih hnodup.2⟩
    exact leaves.lt hdist item (drains.perm.mem_iff.mp hitem)

lemma exists_least (key : α → β) {items : List α} (h : items ≠ []) :
    ∃ least ∈ items, ∀ item ∈ items, key least ≤ key item := by
  induction items with
  | nil => exact absurd rfl h
  | cons a rest ih =>
    by_cases hrest : rest = []
    · subst hrest
      exact ⟨a, List.mem_cons_self, by simp⟩
    obtain ⟨least, hmem, hleast⟩ := ih hrest
    rcases le_total (key a) (key least) with hle | hle
    · refine ⟨a, List.mem_cons_self, fun item hitem => ?_⟩
      rcases List.mem_cons.mp hitem with rfl | hitem
      · exact le_rfl
      · exact hle.trans (hleast item hitem)
    · refine ⟨least, List.mem_cons_of_mem _ hmem, fun item hitem => ?_⟩
      rcases List.mem_cons.mp hitem with rfl | hitem
      · exact hle
      · exact hleast item hitem

lemma least_ahead {arrived inside left rest future : List α} {item least : α}
    (run : Runs key size arrived inside left) (full : inside.length = size)
    (leaves : Leaves key (inside ++ [item]) least rest)
    (hplaces : InPlace key size (arrived ++ item :: future)) :
    ∀ later ∈ future, key least ≤ key later := by
  intro later hlater
  obtain ⟨first, hfirst, hle⟩ := exists_least key (List.ne_nil_of_mem hlater)
  by_contra hahead
  have hbehind : ∀ other ∈ inside ++ [item], ¬key other < key first := by
    intro other hother hlt
    exact hahead ((leaves.least other hother).trans (hlt.le.trans (hle later hlater)))
  obtain ⟨before, after, rfl⟩ := List.append_of_mem hfirst
  have hplace := hplaces (arrived ++ item :: before) first after (by simp)
  -- only what has left can be ahead of the first that is to come
  have hrank : rank key (arrived ++ item :: (before ++ first :: after)) first ≤ left.length := by
    have hperm : (arrived ++ item :: (before ++ first :: after)).Perm
        (left ++ ((inside ++ [item]) ++ (before ++ first :: after))) := by
      have hgone := run.perm.symm.append_right ([item] ++ (before ++ first :: after))
      simpa using hgone
    unfold rank
    rw [hperm.countP_eq, List.countP_append, List.countP_append]
    have hinside : (inside ++ [item]).countP (fun other => decide (key other < key first)) = 0 := by
      rw [List.countP_eq_zero]
      intro other hother
      simpa using hbehind other hother
    have hfuture : (before ++ first :: after).countP
        (fun other => decide (key other < key first)) = 0 := by
      rw [List.countP_eq_zero]
      intro other hother
      simpa using hle other hother
    rw [hinside, hfuture]
    exact List.countP_le_length
  have hlen := run.perm.length_eq
  rw [List.length_append] at hlen
  rw [List.length_append, List.length_cons] at hplace
  omega

lemma Runs.ahead (h : Runs key size arrived inside left)
    (future : List α) (hdist : ((arrived ++ future).map key).Nodup)
    (hplaces : InPlace key size (arrived ++ future)) :
    (left.Pairwise fun item later => key item < key later) ∧
      ∀ gone ∈ left, ∀ item ∈ inside ++ future, key gone < key item := by
  induction h generalizing future with
  | start => exact ⟨.nil, by simp⟩
  | keeps _ _ ih =>
    rw [List.append_assoc] at hdist hplaces ⊢
    exact ih _ hdist hplaces
  | @passes arrived inside left rest item least run full leaves ih =>
    rw [List.append_assoc] at hdist hplaces
    obtain ⟨hsorted, hahead⟩ := ih (item :: future) hdist hplaces
    have hin : ∀ other ∈ inside ++ [item], ∀ gone ∈ left, key gone < key other := by
      intro other hother gone hgone
      refine hahead gone hgone other ?_
      rcases List.mem_append.mp hother with hother | hother
      · exact List.mem_append_left _ hother
      · exact List.mem_append_right _ (by simpa using Or.inl (List.mem_singleton.mp hother))
    have hmem : least ∈ inside ++ [item] := leaves.perm.mem_iff.mpr List.mem_cons_self
    have hall : (left ++ ((inside ++ [item]) ++ future)).Perm (arrived ++ ([item] ++ future)) := by
      have hperm := run.perm.append_right ([item] ++ future)
      simpa using hperm
    have hnodup := (hall.symm.map key).nodup hdist
    rw [List.map_append, List.map_append, List.nodup_append, List.nodup_append] at hnodup
    refine ⟨List.pairwise_append.mpr ⟨hsorted, List.pairwise_singleton _ _, ?_⟩, ?_⟩
    · intro gone hgone last hlast
      rw [List.mem_singleton.mp hlast]
      exact hin least hmem gone hgone
    · intro gone hgone other hother
      rcases List.mem_append.mp hgone with hgone | hgone
      · rcases List.mem_append.mp hother with hother | hother
        · exact hin other (leaves.perm.mem_iff.mpr (List.mem_cons_of_mem _ hother)) gone hgone
        · exact hahead gone hgone other
            (List.mem_append_right _ (List.mem_cons_of_mem _ hother))
      · rw [List.mem_singleton.mp hgone]
        rcases List.mem_append.mp hother with hother | hother
        · exact leaves.lt hnodup.2.1.1 other hother
        · refine lt_of_le_of_ne (least_ahead run full leaves hplaces other hother) ?_
          exact hnodup.2.1.2.2 _ (List.mem_map_of_mem hmem) _ (List.mem_map_of_mem hother)

section

variable {arrived inside left drained : List α} (run : Runs key size arrived inside left)
  (drains : Drains key inside drained)
include run drains

lemma pairwise_of_inPlace
    (hdist : (arrived.map key).Nodup) (hplaces : InPlace key size arrived) :
    (left ++ drained).Pairwise fun item later => key item < key later := by
  rw [← List.append_nil arrived] at hdist hplaces
  obtain ⟨hsorted, hahead⟩ := run.ahead [] hdist hplaces
  rw [List.append_nil] at hdist hahead
  have hnodup := (run.perm.symm.map key).nodup hdist
  rw [List.map_append, List.nodup_append] at hnodup
  refine List.pairwise_append.mpr ⟨hsorted, drains.pairwise hnodup.2.1, ?_⟩
  intro gone hgone item hitem
  exact hahead gone hgone item (drains.perm.mem_iff.mp hitem)

lemma perm_of_drains :
    (left ++ drained).Perm arrived :=
  (drains.perm.append_left left).trans run.perm

end

end Reorder

end Antiburn
