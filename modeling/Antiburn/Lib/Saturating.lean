/-
Saturating arithmetic on 64-bit counters.
-/
import Mathlib

namespace Antiburn

/-- Greatest 64-bit counter. -/
def U64_MAX : Nat := 2 ^ 64 - 1

/-- `u64::saturating_add`. -/
def saturatingAdd (a b : Nat) : Nat := min (a + b) U64_MAX

/-- `u64::saturating_mul`. -/
def saturatingMul (a b : Nat) : Nat := min (a * b) U64_MAX

lemma saturatingAdd_of_le {a b : Nat} (h : a + b ≤ U64_MAX) : saturatingAdd a b = a + b :=
  Nat.min_eq_left h

lemma saturatingMul_of_le {a b : Nat} (h : a * b ≤ U64_MAX) : saturatingMul a b = a * b :=
  Nat.min_eq_left h

end Antiburn
