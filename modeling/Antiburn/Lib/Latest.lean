/-
The latest entry of a key in a log.

A log is appended to at its end.  An entry that follows the latest one of its key
follows every earlier one of that key, as soon as `R` composes: `follows_append` keeps
an order between the entries of one key by a look at the latest one only.
-/
import Mathlib

namespace Antiburn

namespace Log

variable {ε κ : Type*} {key : ε → κ} {R : ε → ε → Prop} {log : List ε} {entry last : ε} {k : κ}

/-- The entries of one key are in the order `R`. -/
def Follows (key : ε → κ) (R : ε → ε → Prop) (log : List ε) : Prop :=
  log.Pairwise fun a b => key a = key b → R a b

variable [DecidableEq κ]

def latest (key : ε → κ) (k : κ) (log : List ε) : Option ε :=
  log.reverse.find? fun entry => key entry == k

lemma latest_append (log : List ε) (entry : ε) (k : κ) :
    latest key k (log ++ [entry]) = if k = key entry then some entry else latest key k log := by
  rw [latest, List.reverse_append, List.reverse_singleton, List.singleton_append,
    List.find?_cons]
  rcases eq_or_ne k (key entry) with rfl | hne
  · rw [beq_self_eq_true, if_pos rfl]
  · rw [beq_eq_false_iff_ne.mpr hne.symm, if_neg hne]
    rfl

lemma latest_eq_some (h : latest key k log = some last) : last ∈ log ∧ key last = k := by
  have hkey := List.find?_some h
  exact ⟨List.mem_reverse.mp (List.mem_of_find?_eq_some h), eq_of_beq hkey⟩

lemma latest_isSome (key : ε → κ) (hmem : entry ∈ log) : ∃ last, latest key (key entry) log = some last := by
  refine Option.isSome_iff_exists.mp ?_
  rw [latest, List.find?_isSome]
  exact ⟨entry, List.mem_reverse.mpr hmem, beq_self_eq_true _⟩

lemma follows_latest (hrefl : ∀ a, R a a) (hlog : Follows key R log)
    (hlatest : latest key k log = some last) (hmem : entry ∈ log) (hkey : key entry = k) :
    R entry last := by
  induction log using List.reverseRecOn with
  | nil => cases hmem
  | append_singleton log final ih =>
    rw [latest_append] at hlatest
    obtain ⟨hbefore, -, hfinal⟩ := List.pairwise_append.mp hlog
    rcases List.mem_append.mp hmem with hmem | hmem
    · split_ifs at hlatest with hk
      · rw [← Option.some.inj hlatest]
        exact hfinal entry hmem final (.head _) (hkey.trans hk)
      · exact ih hbefore hlatest hmem
    · rw [List.mem_singleton.mp hmem] at hkey ⊢
      rw [if_pos hkey.symm] at hlatest
      rw [← Option.some.inj hlatest]
      exact hrefl final

/-- **An entry that follows the latest one of its key keeps the order.** -/
lemma follows_append (hrefl : ∀ a, R a a) (htrans : ∀ a b c, R a b → R b c → R a c)
    (hlog : Follows key R log)
    (hentry : ∀ last, latest key (key entry) log = some last → R last entry) :
    Follows key R (log ++ [entry]) := by
  refine List.pairwise_append.mpr ⟨hlog, List.pairwise_singleton _ _, ?_⟩
  intro a hmem b hb hkey
  rw [List.mem_singleton.mp hb] at hkey ⊢
  obtain ⟨last, hlast⟩ := latest_isSome key hmem
  have hlast' : R a last := follows_latest hrefl hlog hlast hmem rfl
  exact htrans a last entry hlast' (hentry last (hkey ▸ hlast))

end Log

end Antiburn
