/-
Codes that can be read off the front of a text.

`Decodes encode good tail` says that of two equal texts, each a code and a tail, the
codes are of one value and the tails are equal.  Codes of a fixed length decode, codes
that carry their length do, and a list of codes without a count is determined by the
whole text.  `of_prefix` is the way in for other codes: it is enough that no code is a
proper prefix of another one, in front of an admissible tail.
-/
import Mathlib

namespace PrefixCode

variable {α β : Type}

/-- Codes of good values are read off the front of a text, in front of an admissible tail. -/
def Decodes (encode : α → List β) (good : α → Prop) (tail : List β → Prop) : Prop :=
  ∀ a a', good a → good a' → ∀ x x', tail x → tail x' →
    encode a ++ x = encode a' ++ x' → a = a' ∧ x = x'

variable {encode : α → List β} {good : α → Prop} {tail : List β → Prop}

lemma of_prefix (h : ∀ a a' t x', good a → good a' → tail (t ++ x') →
    encode a' = encode a ++ t → a = a' ∧ t = []) : Decodes encode good tail := by
  intro a a' ha ha' x x' hx hx' heq
  rcases List.append_eq_append_iff.mp heq with ⟨t, hcode, rfl⟩ | ⟨t, hcode, rfl⟩
  · obtain ⟨rfl, rfl⟩ := h a a' t x' ha ha' hx hcode
    exact ⟨rfl, rfl⟩
  · obtain ⟨rfl, rfl⟩ := h a' a t x ha' ha hx' hcode
    exact ⟨rfl, rfl⟩

lemma of_length {n : Nat} (hlen : ∀ a, good a → (encode a).length = n)
    (hinj : ∀ a a', good a → good a' → encode a = encode a' → a = a') :
    Decodes encode good fun _ => True := by
  intro a a' ha ha' x x' _ _ heq
  obtain ⟨hcode, htail⟩ := List.append_inj heq ((hlen a ha).trans (hlen a' ha').symm)
  exact ⟨hinj a a' ha ha' hcode, htail⟩

lemma of_counted {count : Nat → List β} {bound : Nat} {body : α → List β}
    (hcount : Decodes count (· < bound) fun _ => True)
    (hbound : ∀ a, good a → (body a).length < bound)
    (hinj : ∀ a a', good a → good a' → body a = body a' → a = a') :
    Decodes (fun a => count (body a).length ++ body a) good fun _ => True := by
  intro a a' ha ha' x x' _ _ heq
  rw [List.append_assoc, List.append_assoc] at heq
  obtain ⟨hlen, hrest⟩ := hcount _ _ (hbound a ha) (hbound a' ha') _ _ trivial trivial heq
  obtain ⟨hbody, htail⟩ := List.append_inj hrest hlen
  exact ⟨hinj a a' ha ha' hbody, htail⟩

lemma flatten_inj (h : Decodes encode good fun _ => True) (hne : ∀ a, good a → encode a ≠ []) :
    ∀ {l l' : List α}, (∀ a ∈ l, good a) → (∀ a ∈ l', good a) →
      (l.map encode).flatten = (l'.map encode).flatten → l = l' := by
  intro l
  induction l with
  | nil =>
    intro l' _ hl' heq
    cases l' with
    | nil => rfl
    | cons a rest =>
      have hnil := (List.append_eq_nil_iff.mp heq.symm).1
      exact absurd hnil (hne a (hl' a List.mem_cons_self))
  | cons a rest ih =>
    intro l' hl hl' heq
    cases l' with
    | nil =>
      have hnil := (List.append_eq_nil_iff.mp heq).1
      exact absurd hnil (hne a (hl a List.mem_cons_self))
    | cons a' rest' =>
      obtain ⟨rfl, hrest⟩ := h a a' (hl a List.mem_cons_self) (hl' a' List.mem_cons_self) _ _
        trivial trivial heq
      rw [ih (fun b hb => hl b (List.mem_cons_of_mem _ hb))
        (fun b hb => hl' b (List.mem_cons_of_mem _ hb)) hrest]

end PrefixCode
