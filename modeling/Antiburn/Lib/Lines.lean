/-
Lists cut at a separator.

A list is its complete lines, each ended by the separator, and an unfinished
tail.  Reading on from a list only ever extends its tail or completes it
(`split_append_of_notMem`, `split_append_sep`), which is what a reader that works
on pieces needs.
-/
import Mathlib

namespace Antiburn

namespace Lines

section Join

variable {α : Type*} (sep : α)

def join (lines : List (List α)) : List α := (lines.map (· ++ [sep])).flatten

variable {sep}

@[simp] lemma join_nil : join sep ([] : List (List α)) = [] := rfl

lemma join_cons (line : List α) (lines : List (List α)) :
    join sep (line :: lines) = line ++ sep :: join sep lines := by
  simp [join]

lemma join_append (lines lines' : List (List α)) :
    join sep (lines ++ lines') = join sep lines ++ join sep lines' := by
  simp [join]

end Join

variable {α : Type*} [DecidableEq α] (sep : α)

/-- One element: it ends the tail or extends it. -/
def step (state : List (List α) × List α) (a : α) : List (List α) × List α :=
  if a = sep then (state.1 ++ [state.2], []) else (state.1, state.2 ++ [a])

def split (xs : List α) : List (List α) × List α := xs.foldl (step sep) ([], [])

/-- The complete lines, without their separators. -/
def complete (xs : List α) : List (List α) := (split sep xs).1

/-- What follows the last separator. -/
def tail (xs : List α) : List α := (split sep xs).2

variable {sep} {xs c : List α}

lemma split_append_sep : split sep (xs ++ [sep]) = (complete sep xs ++ [tail sep xs], []) := by
  unfold split
  rw [List.foldl_append]
  show step sep _ sep = _
  unfold step
  rw [if_pos rfl]
  rfl

lemma split_append_of_notMem (h : sep ∉ c) :
    split sep (xs ++ c) = (complete sep xs, tail sep xs ++ c) := by
  induction c using List.reverseRecOn with
  | nil => rw [List.append_nil, List.append_nil]; rfl
  | append_singleton c a ih =>
    rw [List.mem_append, List.mem_singleton, not_or] at h
    rw [← List.append_assoc]
    unfold split at ih ⊢
    rw [List.foldl_append, ih h.1]
    show step sep _ a = _
    unfold step
    rw [if_neg (Ne.symm h.2), List.append_assoc]

variable (sep) in
/-- **A list is its lines, then its tail.** -/
lemma join_complete_append_tail (xs : List α) :
    join sep (complete sep xs) ++ tail sep xs = xs := by
  induction xs using List.reverseRecOn with
  | nil => rfl
  | append_singleton xs a ih =>
    by_cases h : a = sep
    · subst h
      unfold complete tail
      rw [split_append_sep, join_append, join_cons, join_nil]
      show (join a (complete a xs) ++ (tail a xs ++ [a])) ++ [] = xs ++ [a]
      rw [List.append_nil, ← List.append_assoc, ih]
    · unfold complete tail
      rw [split_append_of_notMem (by simpa using Ne.symm h)]
      show join sep (complete sep xs) ++ (tail sep xs ++ [a]) = xs ++ [a]
      rw [← List.append_assoc, ih]

lemma sep_notMem (xs : List α) :
    sep ∉ tail sep xs ∧ ∀ line ∈ complete sep xs, sep ∉ line := by
  induction xs using List.reverseRecOn with
  | nil => exact ⟨List.not_mem_nil, fun line h => absurd h List.not_mem_nil⟩
  | append_singleton xs a ih =>
    by_cases h : a = sep
    · subst h
      unfold complete tail
      rw [split_append_sep]
      refine ⟨List.not_mem_nil, fun line hline => ?_⟩
      rcases List.mem_append.mp hline with hline | hline
      · exact ih.2 line hline
      · rw [List.mem_singleton] at hline
        exact hline ▸ ih.1
    · unfold complete tail
      rw [split_append_of_notMem (by simpa using Ne.symm h)]
      refine ⟨fun hmem => ?_, ih.2⟩
      rcases List.mem_append.mp hmem with hmem | hmem
      · exact ih.1 hmem
      · exact h (List.mem_singleton.mp hmem).symm

end Lines

end Antiburn
