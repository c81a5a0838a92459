/-
Weighed maps.

A finite map with distinct keys weighs the sum of what its entries weigh.  Each
operation changes the weight by the entries it adds and takes out; a counter that
follows the operations is therefore never short of what it gives back.
-/
import Mathlib

namespace Antiburn

/-- Maps from `κ` to `ν`. -/
abbrev Tally (κ ν : Type*) := AList fun _ : κ => ν

namespace Tally

variable {κ ν : Type*} [DecidableEq κ] {weight : κ → ν → Nat} {map : Tally κ ν} {key : κ}
  {value : ν}

def weigh (weight : κ → ν → Nat) (map : Tally κ ν) : Nat :=
  (map.entries.map fun entry => weight entry.1 entry.2).sum

def size (map : Tally κ ν) : Nat := map.entries.length

def retain (test : κ → ν → Bool) (map : Tally κ ν) : Tally κ ν where
  entries := map.entries.filter fun entry => test entry.1 entry.2
  nodupKeys := map.nodupKeys.sublist (List.filter_sublist)

omit [DecidableEq κ] in
@[simp] lemma weigh_empty : weigh weight (∅ : Tally κ ν) = 0 := rfl

lemma weigh_erase (h : map.lookup key = some value) :
    weigh weight map = weight key value + weigh weight (map.erase key) := by
  have hmem : key ∈ map.entries.keys :=
    AList.lookup_isSome.mp (Option.isSome_iff_exists.mpr ⟨value, h⟩)
  obtain ⟨found, before, after, hnot, hents, herase⟩ := List.exists_of_kerase hmem
  have hvalue : found = value := by
    have hat : Sigma.mk key found ∈ map.entries := by
      rw [hents]
      exact List.mem_append_right _ List.mem_cons_self
    have hlookup : map.lookup key = some found := AList.mem_lookup_iff.mpr hat
    exact Option.some.inj (hlookup.symm.trans h)
  subst hvalue
  unfold weigh
  rw [show (map.erase key).entries = map.entries.kerase key from rfl, herase, hents,
    List.map_append, List.map_append, List.sum_append, List.sum_append, List.map_cons,
    List.sum_cons]
  dsimp only
  omega

lemma erase_of_none (h : map.lookup key = none) : map.erase key = map :=
  AList.ext (List.kerase_of_notMem_keys (AList.lookup_eq_none.mp h))

lemma weigh_insert :
    weigh weight (map.insert key value) = weight key value + weigh weight (map.erase key) := rfl

lemma weigh_insert_new (h : map.lookup key = none) :
    weigh weight (map.insert key value) = weight key value + weigh weight map := by
  rw [weigh_insert, erase_of_none h]

lemma weigh_insert_old {old : ν} (h : map.lookup key = some old) :
    weigh weight (map.insert key value) + weight key old =
      weight key value + weigh weight map := by
  rw [weigh_insert, weigh_erase h]
  omega

omit [DecidableEq κ] in
lemma weigh_retain (test : κ → ν → Bool) (map : Tally κ ν) :
    weigh weight map = weigh weight (map.retain test) +
      weigh weight (map.retain fun key value => !test key value) := by
  unfold weigh retain
  dsimp only
  induction map.entries with
  | nil => rfl
  | cons entry rest ih =>
    cases htest : test entry.1 entry.2 with
    | true =>
      simp only [List.filter_cons, htest, Bool.not_true, List.map_cons, List.sum_cons, if_true,
        Bool.false_eq_true, if_false]
      omega
    | false =>
      simp only [List.filter_cons, htest, Bool.not_false, List.map_cons, List.sum_cons, if_true,
        Bool.false_eq_true, if_false]
      omega

lemma lookup_retain {test : κ → ν → Bool} :
    (map.retain test).lookup key = some value ↔
      map.lookup key = some value ∧ test key value = true := by
  rw [← Option.mem_def, ← Option.mem_def, AList.mem_lookup_iff, AList.mem_lookup_iff]
  unfold retain
  rw [List.mem_filter]

lemma lookup_insert_eq_ite (map : Tally κ ν) (key : κ) (value : ν) (other : κ) :
    (map.insert key value).lookup other = if other = key then some value else map.lookup other := by
  split_ifs with h
  · rw [h, AList.lookup_insert]
  · rw [AList.lookup_insert_ne h]

lemma lookup_erase_eq_ite (map : Tally κ ν) (key other : κ) :
    (map.erase key).lookup other = if other = key then none else map.lookup other := by
  split_ifs with h
  · rw [h, AList.lookup_erase]
  · rw [AList.lookup_erase_ne h]

lemma lookup_insert_eq_some {other : κ} {found : ν} :
    (map.insert key value).lookup other = some found ↔
      other = key ∧ found = value ∨ other ≠ key ∧ map.lookup other = some found := by
  rw [lookup_insert_eq_ite]
  split_ifs with h <;> simp [h, eq_comm]

lemma lookup_erase_eq_some {other : κ} {found : ν} :
    (map.erase key).lookup other = some found ↔ other ≠ key ∧ map.lookup other = some found := by
  rw [lookup_erase_eq_ite]
  split_ifs with h <;> simp [h]

end Tally

end Antiburn
