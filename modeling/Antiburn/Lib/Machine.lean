/-
Labelled transition systems and their finite runs.

A `Machine σ ι` has a step relation whose labels name the operation performed
and what it returned.  `Run M s ls t` says that `M` goes from `s` to `t` through
the labels `ls`.  Runs compose and split at any point of the label list, which
is how temporal statements ("never again", "at most once") are reduced to an
invariant and to what one step preserves.
-/
import Mathlib

namespace Antiburn

structure Machine (σ ι : Type*) where
  step : σ → ι → σ → Prop

namespace Machine

variable {σ ι : Type*} {M : Machine σ ι}

inductive Run (M : Machine σ ι) : σ → List ι → σ → Prop
  | nil (s) : Run M s [] s
  | cons {s l t ls u} : M.step s l t → Run M t ls u → Run M s (l :: ls) u

namespace Run

variable {s t : σ}

lemma single {l : ι} (h : M.step s l t) : M.Run s [l] t := .cons h (.nil t)

lemma append {s t u : σ} {ls ls' : List ι} (h : M.Run s ls t) (h' : M.Run t ls' u) :
    M.Run s (ls ++ ls') u := by
  induction h with
  | nil => exact h'
  | cons hstep _ ih => exact .cons hstep (ih h')

variable {ls : List ι}

lemma snoc {s t u : σ} {l : ι} (h : M.Run s ls t) (hstep : M.step t l u) :
    M.Run s (ls ++ [l]) u :=
  h.append (.single hstep)

lemma of_append {s u : σ} {ls ls' : List ι} (h : M.Run s (ls ++ ls') u) :
    ∃ t, M.Run s ls t ∧ M.Run t ls' u := by
  induction ls generalizing s with
  | nil => exact ⟨s, .nil s, h⟩
  | cons l ls ih =>
    cases h with
    | cons hstep hrest =>
      obtain ⟨t, ht, hu⟩ := ih hrest
      exact ⟨t, .cons hstep ht, hu⟩

lemma of_cons {s u : σ} {l : ι} (h : M.Run s (l :: ls) u) :
    ∃ t, M.step s l t ∧ M.Run t ls u := by
  cases h with
  | cons hstep hrest => exact ⟨_, hstep, hrest⟩

lemma unique (hdet : ∀ s l t t', M.step s l t → M.step s l t' → t = t') {s t t' : σ} (h : M.Run s ls t) (h' : M.Run s ls t') : t = t' := by
  induction h with
  | nil => cases h'; rfl
  | cons hstep _ ih =>
    cases h' with
    | cons hstep' hrest' => exact ih (hdet _ _ _ _ hstep hstep' ▸ hrest')

/-- **Invariant rule.**  What every step keeps, every run keeps. -/
lemma invariant {I : σ → Prop} (hstep : ∀ s l t, M.step s l t → I s → I t) (h : M.Run s ls t) (hs : I s) : I t := by
  induction h with
  | nil => exact hs
  | cons h _ ih => exact ih (hstep _ _ _ h hs)

variable {P : ι → Prop}

/-- **Invariant rule with a side condition on the labels.** -/
lemma invariant_of {I : σ → Prop}
    (hstep : ∀ s l t, P l → M.step s l t → I s → I t) (h : M.Run s ls t) (hP : ∀ l ∈ ls, P l) (hs : I s) : I t := by
  induction h with
  | nil => exact hs
  | cons h _ ih =>
    exact ih (fun l hl => hP l (.tail _ hl)) (hstep _ _ _ (hP _ (.head _)) h hs)

/-- **Invariant rule over the trace.**  The invariant may speak of the labels so far. -/
lemma trace_invariant {I : List ι → σ → Prop}
    (hstep : ∀ ls s l t, P l → M.step s l t → I ls s → I (ls ++ [l]) t) {before ls : List ι} (h : M.Run s ls t) (hP : ∀ l ∈ ls, P l) (hs : I before s) :
    I (before ++ ls) t := by
  induction h generalizing before with
  | nil => rwa [List.append_nil]
  | @cons s l t ls u hl _ ih =>
    have hmid : I (before ++ [l]) t := hstep _ _ _ _ (hP l (.head _)) hl hs
    have hend := ih (fun l hl => hP l (.tail _ hl)) hmid
    rwa [List.append_assoc, List.singleton_append] at hend

/-- **At most once.**  If a label of kind `P` leaves a state in `D`, steps
keep `D`, and no step from `D` has a label of kind `P`, then a run has at
most one such label. -/
lemma at_most_once {D : σ → Prop}
    (hdone : ∀ s l t, M.step s l t → P l → D t)
    (hkeep : ∀ s l t, M.step s l t → D s → D t)
    (hnot : ∀ s l t, M.step s l t → D s → ¬ P l) (h : M.Run s ls t) :
    ls.Pairwise fun l l' => P l → ¬ P l' := by
  induction h with
  | nil => exact .nil
  | @cons s l t ls u hstep hrest ih =>
    refine .cons ?_ ih
    intro l' hl' hl
    have hmid : D t := hdone _ _ _ hstep hl
    obtain ⟨before, after, rfl⟩ := List.append_of_mem hl'
    obtain ⟨v, hv, hw⟩ := hrest.of_append
    obtain ⟨w, hstep', _⟩ := hw.of_cons
    exact hnot _ _ _ hstep' (hv.invariant hkeep hmid)

/-- **Never again.**  From a state in `D`, no label of kind `P` occurs. -/
lemma never {D : σ → Prop}
    (hkeep : ∀ s l t, M.step s l t → D s → D t)
    (hnot : ∀ s l t, M.step s l t → D s → ¬ P l) (h : M.Run s ls t) (hs : D s) : ∀ l ∈ ls, ¬ P l := by
  induction h with
  | nil => intro l hl; cases hl
  | cons hstep _ ih =>
    intro l hl
    rcases List.mem_cons.mp hl with rfl | hl
    · exact hnot _ _ _ hstep hs
    · exact ih (hkeep _ _ _ hstep hs) l hl

end Run

end Machine

end Antiburn
