/-
Lookups and key counts of ordered maps.

`Std.ExtTreeMap` states its lookup lemmas through the comparison function; the
versions here decide equality of keys.  `countKeys m p` is the number of keys
that satisfy `p`: it depends on the keys alone, so changing values in place
keeps it and inserting a fresh key raises it by one.
-/
import Std.Data.ExtTreeMap.Lemmas
import Mathlib

namespace Std.ExtTreeMap

variable {κ α : Type*} {cmp : κ → κ → Ordering} [TransCmp cmp] [LawfulEqCmp cmp] [DecidableEq κ]
variable (m : ExtTreeMap κ α cmp)

lemma lookup_insert (k k' : κ) (v : α) :
    (m.insert k v)[k']? = if k = k' then some v else m[k']? := by
  rw [getElem?_insert]
  simp only [LawfulEqCmp.compare_eq_iff_eq]

lemma lookup_modify (k k' : κ) (f : α → α) :
    (m.modify k f)[k']? = if k = k' then m[k']?.map f else m[k']? := by
  rw [getElem?_modify]
  simp only [LawfulEqCmp.compare_eq_iff_eq]
  split_ifs with h
  · rw [h]
  · rfl

lemma lookup_erase (k k' : κ) :
    (m.erase k)[k']? = if k = k' then none else m[k']? := by
  rw [getElem?_erase]
  simp only [LawfulEqCmp.compare_eq_iff_eq]

omit [DecidableEq κ] in
lemma lookup_map {β : Type*} (f : κ → α → β) (k : κ) :
    (m.map f)[k]? = m[k]?.map (f k) := by
  rw [getElem?_map]

def countKeys (p : κ → Bool) : Nat := (m.filter fun k _ => p k).size

variable {m}

omit [DecidableEq κ] in
lemma lookup_filterKeys (p : κ → Bool) (k : κ) :
    (m.filter fun k _ => p k)[k]? = if p k then m[k]? else none := by
  rw [getElem?_filter']
  cases m[k]? <;> cases p k <;> rfl

lemma filterKeys_insert (p : κ → Bool) (k : κ) (v : α) :
    ((m.insert k v).filter fun k _ => p k) =
      if p k then (m.filter fun k _ => p k).insert k v else m.filter fun k _ => p k := by
  apply ext_getElem?
  intro k'
  rw [lookup_filterKeys, lookup_insert]
  by_cases hp : p k
  · rw [if_pos hp, lookup_insert, lookup_filterKeys]
    by_cases h : k = k'
    · subst h; simp only [hp, if_true]
    · simp only [if_neg h]
  · rw [if_neg hp, lookup_filterKeys]
    by_cases h : k = k'
    · subst h; simp only [hp, Bool.false_eq_true, if_false]
    · simp only [if_neg h]

lemma filterKeys_modify (p : κ → Bool) (k : κ) (f : α → α) :
    ((m.modify k f).filter fun k _ => p k) =
      if p k then (m.filter fun k _ => p k).modify k f else m.filter fun k _ => p k := by
  apply ext_getElem?
  intro k'
  rw [lookup_filterKeys, lookup_modify]
  by_cases hp : p k
  · rw [if_pos hp, lookup_modify, lookup_filterKeys]
    split_ifs <;> rfl
  · rw [if_neg hp, lookup_filterKeys]
    by_cases h : k = k'
    · subst h; simp only [hp, Bool.false_eq_true, if_false]
    · simp only [if_neg h]

omit [DecidableEq κ] in
lemma filterKeys_map {β : Type*} (p : κ → Bool) (f : κ → α → β) :
    ((m.map f).filter fun k _ => p k) = (m.filter fun k _ => p k).map f := by
  apply ext_getElem?
  intro k'
  rw [lookup_filterKeys, lookup_map, lookup_map, lookup_filterKeys]
  split_ifs <;> rfl

omit [DecidableEq κ] in
lemma countKeys_filterKeys (p : κ → Bool) :
    (m.filter fun k _ => p k).countKeys p = m.countKeys p := by
  have hidem : ((m.filter fun k _ => p k).filter fun k _ => p k) = m.filter fun k _ => p k := by
    apply ext_getElem?
    intro k'
    rw [lookup_filterKeys, lookup_filterKeys]
    split_ifs <;> rfl
  rw [countKeys, hidem, countKeys]

lemma countKeys_insert_new {p : κ → Bool} {k : κ} (v : α) (hk : m[k]? = none) (hp : p k) :
    (m.insert k v).countKeys p = m.countKeys p + 1 := by
  have hnew : (m.filter fun k _ => p k).contains k = false := by
    rw [contains_eq_isSome_getElem?, lookup_filterKeys, hk, ite_self]
    rfl
  rw [countKeys, filterKeys_insert, if_pos hp, size_insert, hnew]
  rfl

lemma ofList_toList_self : ofList m.toList cmp = m := by
  apply ext_getElem?
  intro k
  cases hk : m[k]? with
  | some v =>
    have hmem : (k, v) ∈ m.toList := mem_toList_iff_getElem?_eq_some.mpr hk
    exact getElem?_ofList_of_mem ReflCmp.compare_self distinct_keys_toList hmem
  | none =>
    have hlawful : LawfulBEqCmp cmp := ⟨by
      intro a b
      rw [LawfulEqCmp.compare_eq_iff_eq, beq_iff_eq]⟩
    refine getElem?_ofList_of_contains_eq_false ?_
    rw [← Bool.not_eq_true, List.contains_iff_mem, List.mem_map]
    rintro ⟨⟨k', v⟩, hmem, rfl⟩
    rw [mem_toList_iff_getElem?_eq_some.mp hmem] at hk
    cases hk

end Std.ExtTreeMap
