/-
Checked sums.

A checked addition gives nothing when the sum does not fit.  What fits is closed
downwards: a part of a sum that fits does fit.  So a partial sum overflows only
if the whole one does, and the order and the shape in which parts are added do
not show in the result.  A part may also be unknown; then the sum is.
-/
import Mathlib

namespace Antiburn

namespace Checked

variable {M : Type*} [AddCommMonoid M] (fits : M → Prop) [DecidablePred fits]

/-- Whatever is part of a sum that fits, fits. -/
def DownClosed : Prop := ∀ a b, fits (a + b) → fits a

/-- A value, if it fits. -/
def cap (a : M) : Option M := if fits a then some a else none

/-- The checked sum of two parts that may be unknown. -/
def add (a b : Option M) : Option M := a.bind fun x => b.bind fun y => cap fits (x + y)

/-- The checked sum of parts that may be unknown, taken at once. -/
def total (parts : List (Option M)) : Option M :=
  if ∀ part ∈ parts, part.isSome = true then cap fits (parts.filterMap id).sum else none

variable {fits}

omit [AddCommMonoid M] in
lemma cap_of_fits {a : M} (h : fits a) : cap fits a = some a := if_pos h

omit [AddCommMonoid M] in
lemma cap_eq_some {a b : M} : cap fits a = some b ↔ fits a ∧ a = b := by
  unfold cap
  split_ifs with h <;> simp [h]

omit [AddCommMonoid M] in
lemma cap_eq_none {a : M} : cap fits a = none ↔ ¬fits a := by
  unfold cap
  split_ifs with h <;> simp [h]

@[simp] lemma add_none_left (b : Option M) : add fits none b = none := rfl

@[simp] lemma add_none_right (a : Option M) : add fits a none = none := by
  cases a <;> rfl

@[simp] lemma add_some_some (a b : M) : add fits (some a) (some b) = cap fits (a + b) := rfl

lemma add_cap_cap (h : DownClosed fits) (a b : M) :
    add fits (cap fits a) (cap fits b) = cap fits (a + b) := by
  by_cases ha : fits a
  · by_cases hb : fits b
    · rw [cap_of_fits ha, cap_of_fits hb, add_some_some]
    · have hsum : ¬fits (a + b) := fun hfits => hb (h b a (AddCommMonoid.add_comm a b ▸ hfits))
      rw [cap_eq_none.mpr hb, add_none_right, cap_eq_none.mpr hsum]
  · have hsum : ¬fits (a + b) := fun hfits => ha (h a b hfits)
    rw [cap_eq_none.mpr ha, add_none_left, cap_eq_none.mpr hsum]

lemma total_singleton {part : Option M} (h : ∀ a, part = some a → fits a) :
    total fits [part] = part := by
  cases part with
  | none => exact if_neg (by simp)
  | some a =>
    unfold total
    rw [if_pos (by simp)]
    simpa using cap_of_fits (h a rfl)

lemma total_append (h : DownClosed fits) (parts others : List (Option M)) :
    total fits (parts ++ others) = add fits (total fits parts) (total fits others) := by
  unfold total
  by_cases hparts : ∀ part ∈ parts, part.isSome = true
  · by_cases hothers : ∀ part ∈ others, part.isSome = true
    · rw [if_pos (List.forall_mem_append.mpr ⟨hparts, hothers⟩), if_pos hparts, if_pos hothers,
        add_cap_cap h, List.filterMap_append, List.sum_append]
    · rw [if_neg fun hboth => hothers (List.forall_mem_append.mp hboth).2, if_neg hothers,
        add_none_right]
  · rw [if_neg fun hboth => hparts (List.forall_mem_append.mp hboth).1, if_neg hparts,
      add_none_left]

lemma total_perm {parts others : List (Option M)} (h : parts.Perm others) :
    total fits parts = total fits others := by
  unfold total
  rw [(h.filterMap id).sum_eq]
  refine if_congr ?_ rfl rfl
  simp only [h.mem_iff]

lemma foldl_add (h : DownClosed fits) (values : List M) (start : M) :
    values.foldl (fun sum value => add fits sum (some value)) (cap fits start) =
      cap fits (start + values.sum) := by
  induction values generalizing start with
  | nil => simp
  | cons value rest ih =>
    rw [List.foldl_cons, List.sum_cons, ← add_assoc, ← ih (start + value)]
    congr 1
    by_cases hfits : fits start
    · rw [cap_of_fits hfits, add_some_some]
    · have hsum : ¬fits (start + value) := fun hboth => hfits (h start value hboth)
      rw [cap_eq_none.mpr hfits, add_none_left, cap_eq_none.mpr hsum]

end Checked

end Antiburn
