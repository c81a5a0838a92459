/-
Digit strings written from the leading digit.

`Nat.ofDigits` reads a string from its last digit; texts are read from the
first.  `positional base digits` is the value of a string as it is written, and
the lemmas here say how appending, a leading digit and the length bound it.
-/
import Mathlib

namespace Antiburn

def positional (base : Nat) (digits : List Nat) : Nat := Nat.ofDigits base digits.reverse

section Positional

variable {base : Nat}

@[simp] lemma positional_nil : positional base [] = 0 := rfl

@[simp] lemma positional_singleton (digit : Nat) : positional base [digit] = digit :=
  Nat.ofDigits_singleton

lemma positional_append (front back : List Nat) :
    positional base (front ++ back) =
      positional base front * base ^ back.length + positional base back := by
  show Nat.ofDigits base (front ++ back).reverse = _
  rw [List.reverse_append, Nat.ofDigits_append, List.length_reverse, Nat.mul_comm, Nat.add_comm]
  rfl

lemma positional_cons (digit : Nat) (rest : List Nat) :
    positional base (digit :: rest) = digit * base ^ rest.length + positional base rest := by
  have h := @positional_append base [digit] rest
  rwa [positional_singleton] at h

lemma foldl_positional (digits : List Nat) :
    digits.foldl (fun value digit => value * base + digit) 0 = positional base digits := by
  induction digits using List.reverseRecOn with
  | nil => rfl
  | append_singleton front digit ih =>
    rw [List.foldl_append, ih, positional_append]
    simp

@[simp] lemma positional_replicate_zero (count : Nat) :
    positional base (List.replicate count 0) = 0 := by
  show Nat.ofDigits base (List.replicate count 0).reverse = 0
  rw [List.reverse_replicate, Nat.ofDigits_replicate_zero]

lemma positional_append_zeros (digits : List Nat) (count : Nat) :
    positional base (digits ++ List.replicate count 0) = positional base digits * base ^ count := by
  rw [positional_append, positional_replicate_zero, List.length_replicate, Nat.add_zero]

lemma positional_dropWhile_zero (digits : List Nat) :
    positional base (digits.dropWhile (· == 0)) = positional base digits := by
  induction digits with
  | nil => rfl
  | cons digit rest ih =>
    by_cases h : digit = 0
    · subst h
      rw [List.dropWhile_cons_of_pos (by rfl), ih, positional_cons, Nat.zero_mul, Nat.zero_add]
    · rw [List.dropWhile_cons_of_neg (by simpa using h)]

lemma positional_lt (hbase : 1 < base) {digits : List Nat} (h : ∀ digit ∈ digits, digit < base) :
    positional base digits < base ^ digits.length := by
  have hlt := Nat.ofDigits_lt_base_pow_length (l := digits.reverse) hbase fun digit hmem =>
    h digit (List.mem_reverse.mp hmem)
  rwa [List.length_reverse] at hlt

lemma pow_le_positional {digit : Nat} (h : digit ≠ 0) (rest : List Nat) :
    base ^ rest.length ≤ positional base (digit :: rest) := by
  rw [positional_cons]
  have hle : 1 * base ^ rest.length ≤ digit * base ^ rest.length :=
    Nat.mul_le_mul_right _ (Nat.one_le_iff_ne_zero.mpr h)
  omega

lemma positional_cons_lt (hbase : 1 < base) {a b : Nat} {as bs : List Nat}
    (hlen : as.length = bs.length) (has : ∀ digit ∈ as, digit < base) (h : a < b) :
    positional base (a :: as) < positional base (b :: bs) := by
  rw [positional_cons, positional_cons, ← hlen]
  have hlt := positional_lt hbase has
  have hle : (a + 1) * base ^ as.length ≤ b * base ^ as.length := Nat.mul_le_mul_right _ h
  rw [Nat.add_mul, Nat.one_mul] at hle
  omega

lemma not_dvd_positional {digits : List Nat} {last : Nat} (hlast : digits.getLast? = some last)
    (hpos : last ≠ 0) (hlt : last < base) : ¬base ∣ positional base digits := by
  obtain ⟨front, rfl⟩ := List.getLast?_eq_some_iff.mp hlast
  rw [positional_append]
  intro hdvd
  have hmod : base ∣ last := by
    have hmul : base ∣ positional base front * base ^ [last].length :=
      Dvd.intro_left (positional base front) (by simp)
    simpa using (Nat.dvd_add_right hmul).mp hdvd
  exact hpos (Nat.eq_zero_of_dvd_of_lt hmod hlt)

end Positional

end Antiburn
