/-
Success of computations that may fail.

A `do` block is taken apart with `of_bind_ok`, one statement at a time; a check
whose value is not used is read through `isOk`.
-/
import Mathlib

namespace Except

variable {ε ε' α β : Type*}

lemma of_bind_ok {first : Except ε α} {rest : α → Except ε β} {value : β}
    (h : first.bind rest = .ok value) : ∃ a, first = .ok a ∧ rest a = .ok value := by
  cases first with
  | error error => cases h
  | ok a => exact ⟨a, rfl, h⟩

lemma bind_ok_iff {α β : Type} {first : Except ε α} {rest : α → Except ε β} {value : β} :
    (first >>= rest) = .ok value ↔ ∃ a, first = .ok a ∧ rest a = .ok value := by
  constructor
  · exact of_bind_ok
  · rintro ⟨a, rfl, h⟩
    exact h

section

variable {β : Type} {c : Prop} [Decidable c] {error : ε} {rest : Unit → Except ε β} {value : β}

lemma of_refuse_ok
    (h : (if c then (throw error : Except ε Unit) >>= rest else rest ()) = .ok value) :
    ¬c ∧ rest () = .ok value := by
  by_cases hc : c
  · rw [if_pos hc] at h
    cases h
  · rw [if_neg hc] at h
    exact ⟨hc, h⟩

lemma refuse_ok (hc : ¬c) (h : rest () = .ok value) :
    (if c then (throw error : Except ε Unit) >>= rest else rest ()) = .ok value := by
  rw [if_neg hc]
  exact h

end

lemma isOk_iff {result : Except ε α} : result.isOk = true ↔ ∃ value, result = .ok value := by
  cases result with
  | error error => exact iff_of_false (fun h => by cases h) (fun ⟨_, h⟩ => by cases h)
  | ok value => exact iff_of_true rfl ⟨value, rfl⟩

@[simp] lemma isOk_mapError (f : ε → ε') (result : Except ε α) :
    (result.mapError f).isOk = result.isOk := by
  cases result <;> rfl

lemma mapError_ok_iff {f : ε → ε'} {result : Except ε α} {value : α} :
    result.mapError f = .ok value ↔ result = .ok value := by
  cases result with
  | error error => exact iff_of_false (fun h => by cases h) (fun h => by cases h)
  | ok a => rw [Except.mapError, Except.ok.injEq, Except.ok.injEq]

lemma map_ok_iff {f : α → β} {result : Except ε α} {value : β} :
    result.map f = .ok value ↔ ∃ a, result = .ok a ∧ f a = value := by
  cases result with
  | error error => exact iff_of_false (fun h => by cases h) (fun ⟨_, h, _⟩ => by cases h)
  | ok a =>
    rw [Except.map, Except.ok.injEq]
    simp only [Except.ok.injEq, exists_eq_left']

lemma discard_ok_iff {ε α : Type} {result : Except ε α} :
    (discard result : Except ε Unit) = .ok () ↔ result.isOk = true := by
  cases result with
  | error error => exact iff_of_false (fun h => by cases h) (fun h => by cases h)
  | ok a => exact iff_of_true rfl rfl

lemma foldlM_rel {R : β → β → Prop} (hrefl : ∀ b, R b b) (htrans : ∀ a b c, R a b → R b c → R a c)
    {f : β → α → Except ε β} {l : List α} (hstep : ∀ b, ∀ a ∈ l, ∀ b', f b a = .ok b' → R b b')
    {b b' : β} (h : l.foldlM f b = .ok b') : R b b' := by
  induction l generalizing b with
  | nil =>
    cases h
    exact hrefl _
  | cons a l ih =>
    obtain ⟨mid, hmid, hrest⟩ := of_bind_ok h
    exact htrans _ _ _ (hstep b a (.head _) mid hmid)
      (ih (fun b a hmem => hstep b a (.tail _ hmem)) hrest)

lemma forM_ok_iff {f : α → Except ε Unit} {l : List α} :
    l.forM f = .ok () ↔ ∀ a ∈ l, f a = .ok () := by
  induction l with
  | nil => exact iff_of_true rfl fun a ha => by cases ha
  | cons a rest ih =>
    show (f a >>= fun _ => rest.forM f) = .ok () ↔ _
    rw [List.forall_mem_cons, ← ih, bind_ok_iff]
    exact ⟨fun ⟨_, ha, hrest⟩ => ⟨ha, hrest⟩, fun ⟨ha, hrest⟩ => ⟨(), ha, hrest⟩⟩

lemma mapM_map_ok {α β : Type} {f : β → Except ε α} {g : α → β} {l : List α}
    (h : ∀ a ∈ l, f (g a) = .ok a) : (l.map g).mapM f = .ok l := by
  induction l with
  | nil => rfl
  | cons a rest ih =>
    rw [List.map_cons, List.mapM_cons, h a List.mem_cons_self,
      ih fun b hb => h b (List.mem_cons_of_mem _ hb)]
    rfl

section

variable {f : α → Except ε β} {l : List α} {l' : List β} (h : l.mapM f = .ok l')
include h

lemma exists_mapM {a : α}
    (hmem : a ∈ l) : ∃ b ∈ l', f a = .ok b := by
  induction l generalizing l' with
  | nil => cases hmem
  | cons head l ih =>
    rw [List.mapM_cons] at h
    obtain ⟨b, hb, h⟩ := of_bind_ok h
    obtain ⟨rest, hrest, h⟩ := of_bind_ok h
    cases h
    rcases List.mem_cons.mp hmem with rfl | hmem
    · exact ⟨b, List.mem_cons_self, hb⟩
    · obtain ⟨found, hfound, hf⟩ := ih hrest hmem
      exact ⟨found, List.mem_cons_of_mem _ hfound, hf⟩

lemma mem_mapM {b : β}
    (hmem : b ∈ l') : ∃ a ∈ l, f a = .ok b := by
  induction l generalizing l' with
  | nil =>
    cases h
    cases hmem
  | cons a l ih =>
    rw [List.mapM_cons] at h
    obtain ⟨first, hfirst, h⟩ := of_bind_ok h
    obtain ⟨rest, hrest, h⟩ := of_bind_ok h
    cases h
    rcases List.mem_cons.mp hmem with rfl | hmem
    · exact ⟨a, .head _, hfirst⟩
    · obtain ⟨a', ha', hb⟩ := ih hrest hmem
      exact ⟨a', .tail _ ha', hb⟩

end

lemma mem_flatMapM {f : α → Except ε (List β)} {l : List α} {l' : List β}
    (h : l.flatMapM f = .ok l') {b : β} (hmem : b ∈ l') :
    ∃ a ∈ l, ∃ bs, f a = .ok bs ∧ b ∈ bs := by
  induction l generalizing l' with
  | nil =>
    cases h
    cases hmem
  | cons a l ih =>
    rw [List.flatMapM_cons] at h
    obtain ⟨first, hfirst, h⟩ := of_bind_ok h
    obtain ⟨rest, hrest, h⟩ := of_bind_ok h
    cases h
    rcases List.mem_append.mp hmem with hmem | hmem
    · exact ⟨a, .head _, first, hfirst, hmem⟩
    · obtain ⟨a', ha', bs, hbs, hb⟩ := ih hrest hmem
      exact ⟨a', .tail _ ha', bs, hbs, hb⟩

end Except
