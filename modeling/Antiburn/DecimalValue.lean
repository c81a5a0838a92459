/-
What a decimal numeral denotes, and that comparing parsed numbers compares it.

`Numeral` is a decimal numeral by its parts, `Numeral.text` writes it and
`Numeral.value` is the rational it denotes.  `DecimalNumber.parse` brings the
text into a normal form; `Normal` states that form and that no scale in it came
near the end of `i64`.  Two normal forms then compare by the position of their
leading digits and, where these agree, by their digits.
-/
import Antiburn.Decimal
import Antiburn.Lib.Positional
import Mathlib

namespace Antiburn

/-! ### Numerals -/

inductive Sign where
  | absent
  | plus
  | minus
  deriving DecidableEq

namespace Sign

def text : Sign → List Char
  | absent => []
  | plus => ['+']
  | minus => ['-']

def factor : Sign → Int
  | minus => -1
  | _ => 1

end Sign

def digitChars (digits : List (Fin 10)) : List Char := digits.map fun (digit : Fin 10) => Nat.digitChar digit

structure Exponent where
  upper : Bool
  sign : Sign
  digits : List (Fin 10)
  digits_ne : digits ≠ []

namespace Exponent

def text (exponent : Exponent) : List Char :=
  (if exponent.upper then 'E' else 'e') :: (exponent.sign.text ++ digitChars exponent.digits)

def value (exponent : Exponent) : Int :=
  exponent.sign.factor * positional 10 (exponent.digits.map Fin.val)

end Exponent

structure Numeral where
  sign : Sign
  integer : List (Fin 10)
  fraction : Option (List (Fin 10))
  exponent : Option Exponent
  integer_ne : integer ≠ []

namespace Numeral

def mantissa (numeral : Numeral) : List Char :=
  numeral.sign.text ++ (digitChars numeral.integer ++
    numeral.fraction.elim [] fun fraction => '.' :: digitChars fraction)

def text (numeral : Numeral) : String :=
  String.ofList (numeral.mantissa ++ numeral.exponent.elim [] Exponent.text)

def digits (numeral : Numeral) : List Nat :=
  (numeral.integer ++ numeral.fraction.getD []).map Fin.val

def power (numeral : Numeral) : Int := numeral.exponent.elim 0 Exponent.value

def value (numeral : Numeral) : ℚ :=
  numeral.sign.factor * positional 10 numeral.digits *
    10 ^ (numeral.power - (numeral.fraction.getD []).length)

/-- The magnitude of the exponent plus the digit count stays inside `i64`. -/
def Fits (numeral : Numeral) : Prop := |numeral.power| + numeral.digits.length ≤ I64_MAX

end Numeral

/-! ### Characters of a numeral -/

lemma digitChar_facts (digit : Fin 10) :
    (Nat.digitChar digit).isDigit = true ∧ (Nat.digitChar digit).toNat - '0'.toNat = digit.val ∧
      Nat.digitChar digit ≠ '.' ∧ Nat.digitChar digit ≠ 'e' ∧ Nat.digitChar digit ≠ 'E' ∧
      Nat.digitChar digit ≠ '-' ∧ Nat.digitChar digit ≠ '+' := by
  revert digit
  decide

lemma all_isDigit_digitChars (digits : List (Fin 10)) :
    (digitChars digits).all Char.isDigit = true := by
  rw [List.all_eq_true]
  intro c hc
  obtain ⟨digit, -, rfl⟩ := List.mem_map.mp hc
  exact (digitChar_facts digit).1

variable {digits : List (Fin 10)}

lemma ne_of_mem_digitChars {c : Char} (hc : c ∈ digitChars digits) :
    c ≠ '.' ∧ c ≠ 'e' ∧ c ≠ 'E' ∧ c ≠ '-' ∧ c ≠ '+' := by
  obtain ⟨digit, -, rfl⟩ := List.mem_map.mp hc
  exact (digitChar_facts digit).2.2

lemma map_digitChars (digits : List (Fin 10)) :
    ((digitChars digits).map fun c => c.toNat - '0'.toNat) = digits.map Fin.val := by
  show (digits.map fun (digit : Fin 10) => Nat.digitChar digit).map _ = _
  rw [List.map_map]
  apply List.map_congr_left
  intro digit _
  exact (digitChar_facts digit).2.1

lemma digitsValue_digitChars (digits : List (Fin 10)) :
    Number.digitsValue (digitChars digits) = positional 10 (digits.map Fin.val) := by
  rw [← foldl_positional, ← map_digitChars, List.foldl_map]
  rfl

lemma stripSign_text (sign : Sign) (rest : List Char)
    (hne : digits ≠ []) :
    DecimalNumber.stripSign (sign.text ++ (digitChars digits ++ rest)) =
      digitChars digits ++ rest := by
  cases sign with
  | plus | minus => rfl
  | absent =>
    cases digits with
    | nil => exact absurd rfl hne
    | cons digit digits =>
      have h := ne_of_mem_digitChars (c := Nat.digitChar digit) (List.mem_map_of_mem
        (List.mem_cons_self (a := digit) (l := digits)))
      show DecimalNumber.stripSign (Nat.digitChar digit :: _) = _
      unfold DecimalNumber.stripSign
      split <;> simp_all [digitChars]

lemma head_text_eq_minus (sign : Sign) (rest : List Char)
    (hne : digits ≠ []) :
    (sign.text ++ (digitChars digits ++ rest)).head? = some '-' ↔ sign = .minus := by
  cases sign with
  | plus | minus => simp [Sign.text]
  | absent =>
    cases digits with
    | nil => exact absurd rfl hne
    | cons digit digits =>
      have h := ne_of_mem_digitChars (c := Nat.digitChar digit) (List.mem_map_of_mem
        (List.mem_cons_self (a := digit) (l := digits)))
      simp [Sign.text, digitChars, h.2.2.2.1]

lemma parseExponent_text {exponent : Exponent}
    (hmin : I64_MIN ≤ exponent.value) (hmax : exponent.value ≤ I64_MAX) :
    DecimalNumber.parseExponent (exponent.text.drop 1) = some exponent.value := by
  have hstrip := stripSign_text exponent.sign [] exponent.digits_ne
  have hhead := head_text_eq_minus exponent.sign [] exponent.digits_ne
  simp only [List.append_nil] at hstrip hhead
  have hempty : (digitChars exponent.digits).isEmpty = false := by
    simp [digitChars, exponent.digits_ne]
  have hvalue : (if (exponent.sign.text ++ digitChars exponent.digits).head? = some '-' then
      -(positional 10 (exponent.digits.map Fin.val) : Int) else
      (positional 10 (exponent.digits.map Fin.val) : Int)) = exponent.value := by
    unfold Exponent.value
    cases hsign : exponent.sign <;> simp_all [Sign.factor]
  show DecimalNumber.parseExponent (exponent.sign.text ++ digitChars exponent.digits) = _
  unfold DecimalNumber.parseExponent
  simp only [hstrip, hempty, all_isDigit_digitChars, digitsValue_digitChars, hvalue]
  simp [saturate, hmin, hmax]

namespace Numeral

lemma ne_of_mem_mantissa {numeral : Numeral} {c : Char} (hc : c ∈ numeral.mantissa) :
    c ≠ 'e' ∧ c ≠ 'E' := by
  rcases List.mem_append.mp hc with hsign | hc
  · cases h : numeral.sign <;> simp_all [Sign.text]
  rcases List.mem_append.mp hc with hint | hfract
  · exact ⟨(ne_of_mem_digitChars hint).2.1, (ne_of_mem_digitChars hint).2.2.1⟩
  · cases h : numeral.fraction with
    | none => simp [h] at hfract
    | some fraction =>
      rw [h] at hfract
      rcases List.mem_cons.mp hfract with rfl | hdigit
      · decide
      · exact ⟨(ne_of_mem_digitChars hdigit).2.1, (ne_of_mem_digitChars hdigit).2.2.1⟩

section

variable (numeral : Numeral)
include numeral

lemma takeWhile_text :
    (numeral.text.toList.takeWhile fun c => c != 'e' && c != 'E') = numeral.mantissa := by
  rw [text, String.toList_ofList, List.takeWhile_append_of_pos]
  · cases h : numeral.exponent with
    | none => simp
    | some exponent =>
      show numeral.mantissa ++ List.takeWhile _ (_ :: _) = _
      cases exponent.upper <;> simp
  · intro c hc
    simp [ne_of_mem_mantissa hc]

lemma drop_text :
    numeral.text.toList.drop numeral.mantissa.length = numeral.exponent.elim [] Exponent.text := by
  rw [text, String.toList_ofList, List.drop_left]

lemma stripSign_mantissa :
    DecimalNumber.stripSign numeral.mantissa = digitChars numeral.integer ++
      numeral.fraction.elim [] fun fraction => '.' :: digitChars fraction :=
  stripSign_text numeral.sign _ numeral.integer_ne

lemma takeWhile_unsigned :
    ((digitChars numeral.integer ++ numeral.fraction.elim [] fun fraction =>
      '.' :: digitChars fraction).takeWhile (· != '.')) = digitChars numeral.integer := by
  rw [List.takeWhile_append_of_pos]
  · cases numeral.fraction <;> simp
  · intro c hc
    simp [(ne_of_mem_digitChars hc).1]

lemma drop_unsigned :
    ((digitChars numeral.integer ++ numeral.fraction.elim [] fun fraction =>
      '.' :: digitChars fraction).drop (digitChars numeral.integer).length).drop 1 =
        digitChars (numeral.fraction.getD []) := by
  rw [List.drop_left]
  cases numeral.fraction <;> rfl

end

lemma parseExponent_drop {numeral : Numeral} (h : numeral.Fits) :
    (if (numeral.exponent.elim [] Exponent.text).isEmpty then some 0
      else DecimalNumber.parseExponent ((numeral.exponent.elim [] Exponent.text).drop 1)) =
        some numeral.power := by
  unfold Fits power I64_MAX at h
  unfold power
  cases hexpon : numeral.exponent with
  | none => rfl
  | some exponent =>
    rw [hexpon] at h
    have hbound : |exponent.value| ≤ 2 ^ 63 - 1 := by
      simp only [Option.elim_some] at h
      omega
    have habs := abs_le.mp hbound
    show DecimalNumber.parseExponent (exponent.text.drop 1) = _
    exact parseExponent_text (by unfold I64_MIN; omega) (by unfold I64_MAX; omega)

end Numeral

/-! ### Normal forms -/

namespace DecimalNumber

/-- The number that digits, a fraction length and an exponent give. -/
def normalize (negative : Bool) (digits : List Nat) (fraction : Nat) (exponent : Int) :
    DecimalNumber :=
  match digits.dropWhile (· == 0) with
  | [] => ⟨false, [0], 0⟩
  | digits =>
    let scale := saturate (saturate fraction - exponent)
    let (digits, scale) := trimZeros digits scale
    ⟨negative, digits, scale⟩

lemma parse_text {numeral : Numeral} (h : numeral.Fits) :
    parse numeral.text = some (normalize (numeral.sign == .minus) numeral.digits
      (numeral.fraction.getD []).length numeral.power) := by
  have hempty : (digitChars numeral.integer).isEmpty = false := by
    simp [digitChars, numeral.integer_ne]
  have hdigits : ((digitChars numeral.integer ++ digitChars (numeral.fraction.getD [])).map
      fun c => c.toNat - '0'.toNat) = numeral.digits := by
    rw [List.map_append, map_digitChars, map_digitChars, Numeral.digits, List.map_append]
  have hlen : (digitChars (numeral.fraction.getD [])).length =
      (numeral.fraction.getD []).length := by simp [digitChars]
  have hsign : (numeral.mantissa.head? == some '-') = (numeral.sign == .minus) := by
    rw [Bool.eq_iff_iff, beq_iff_eq, beq_iff_eq]
    exact head_text_eq_minus numeral.sign _ numeral.integer_ne
  unfold parse normalize
  simp only [Numeral.takeWhile_text, Numeral.drop_text, Numeral.parseExponent_drop h,
    Numeral.stripSign_mantissa, Numeral.takeWhile_unsigned, Numeral.drop_unsigned,
    Option.bind_some, hempty, all_isDigit_digitChars, hdigits, hlen, hsign]
  simp only [Bool.not_true, Bool.or_self, Bool.false_eq_true, if_false]
  cases numeral.digits.dropWhile (· == 0) <;> rfl

/-- The rational a parsed number stands for, without its sign. -/
def magnitude (number : DecimalNumber) : ℚ := positional 10 number.digits * 10 ^ (-number.scale)

def value (number : DecimalNumber) : ℚ :=
  if number.negative then -number.magnitude else number.magnitude

/-- The normal form of a nonzero number: a nonzero digit first and last, and a
scale no saturation touched. -/
structure Proper (number : DecimalNumber) : Prop where
  digit_lt : ∀ digit ∈ number.digits, digit < 10
  first : ∃ digit rest, number.digits = digit :: rest ∧ digit ≠ 0
  last : ∃ digit, number.digits.getLast? = some digit ∧ digit ≠ 0
  length_le : (number.digits.length : Int) ≤ I64_MAX
  scale_gt : I64_MIN < number.scale
  order_ge : I64_MIN ≤ number.digits.length - number.scale
  order_le : number.digits.length - number.scale ≤ I64_MAX

/-- What parsing yields: the one zero, or a nonzero number in normal form. -/
inductive Normal : DecimalNumber → Prop
  | zero : Normal ⟨false, [0], 0⟩
  | proper {number : DecimalNumber} (h : number.Proper) : Normal number

lemma saturate_of_mem {value : Int} (hmin : I64_MIN ≤ value) (hmax : value ≤ I64_MAX) :
    saturate value = value := by
  rw [saturate, min_eq_right hmax, max_eq_right hmin]

lemma trimZeros_spec (digits : List Nat) {scale : Int} (hmin : I64_MIN ≤ scale - digits.length)
    (hmax : scale ≤ I64_MAX) :
    ∃ kept count, trimZeros digits scale = (kept, scale - (count : Nat)) ∧
      digits = kept ++ List.replicate count 0 ∧ kept.getLast? ≠ some 0 := by
  induction digits with
  | nil => exact ⟨[], 0, by simp [trimZeros], rfl, by simp⟩
  | cons digit rest ih =>
    rw [List.length_cons] at hmin
    obtain ⟨kept, count, htrim, hrest, hlast⟩ := ih (by omega)
    have hcount : count ≤ rest.length := by
      rw [hrest, List.length_append, List.length_replicate]
      omega
    cases kept with
    | nil =>
      by_cases hdigit : digit = 0
      · refine ⟨[], count + 1, ?_, ?_, by simp⟩
        · rw [trimZeros, htrim]
          simp only [hdigit, if_true]
          rw [saturate_of_mem (by omega) (by omega)]
          push_cast
          rw [Int.sub_sub]
        · rw [hrest, hdigit]
          rfl
      · refine ⟨[digit], count, ?_, ?_, ?_⟩
        · rw [trimZeros, htrim]
          simp only [hdigit, if_false]
        · rw [hrest]
          rfl
        · simpa using hdigit
    | cons first kept =>
      refine ⟨digit :: first :: kept, count, ?_, ?_, ?_⟩
      · rw [trimZeros, htrim]
      · rw [hrest]
        rfl
      · rwa [List.getLast?_cons_cons]

lemma zpow_sub_natCast (scale : Int) (count : Nat) :
    (10 : ℚ) ^ (-(scale - count)) = 10 ^ count * 10 ^ (-scale) := by
  rw [← zpow_natCast, ← zpow_add₀ (by norm_num)]
  congr 1
  omega

lemma normalize_spec (negative : Bool) {digits : List Nat} {fraction : Nat} {exponent : Int}
    (hdigits : ∀ digit ∈ digits, digit < 10) (hfract : fraction ≤ digits.length)
    (hfits : |exponent| + digits.length ≤ I64_MAX) :
    (normalize negative digits fraction exponent).Normal ∧
      (normalize negative digits fraction exponent).value =
        (if negative then -1 else 1) * positional 10 digits * 10 ^ (exponent - fraction) := by
  have hexpon := abs_le.mp (le_refl |exponent|)
  have hdrop := @positional_dropWhile_zero 10 digits
  unfold normalize
  cases hkept : digits.dropWhile (· == 0) with
  | nil =>
    rw [hkept, positional_nil] at hdrop
    refine ⟨.zero, ?_⟩
    rw [← hdrop]
    simp [value, magnitude]
  | cons first rest =>
    have hsuffix : (first :: rest) <:+ digits := hkept ▸ List.dropWhile_suffix _
    have hlen := hsuffix.length_le
    have hfirst : first ≠ 0 := by
      have h := List.head?_dropWhile_not (· == 0) digits
      rw [hkept] at h
      simpa using h
    rw [hkept] at hdrop
    unfold I64_MAX at hfits
    have hinner : saturate (fraction : Int) = fraction :=
      saturate_of_mem (by unfold I64_MIN; omega) (by unfold I64_MAX; omega)
    have hscale : saturate (saturate fraction - exponent) = fraction - exponent := by
      rw [hinner]
      exact saturate_of_mem (by unfold I64_MIN; omega) (by unfold I64_MAX; omega)
    have hmin : I64_MIN ≤ (fraction - exponent : Int) - ((first :: rest).length : Nat) := by
      unfold I64_MIN
      omega
    obtain ⟨kept, count, htrim, hfull, hlast⟩ := trimZeros_spec (first :: rest) hmin
      (by unfold I64_MAX; omega)
    simp only [hscale, htrim]
    -- the first digit is no zero, so it is kept
    obtain ⟨tail, rfl⟩ : ∃ tail, kept = first :: tail := by
      cases kept with
      | nil =>
        have hmem : first ∈ List.replicate count 0 := by
          have : first ∈ first :: rest := List.mem_cons_self
          rwa [hfull, List.nil_append] at this
        exact absurd (List.eq_of_mem_replicate hmem) hfirst
      | cons head tail =>
        rw [List.cons_append, List.cons.injEq] at hfull
        exact ⟨tail, by rw [hfull.1]⟩
    have hcount : (first :: rest).length = (first :: tail).length + count := by
      rw [hfull, List.length_append, List.length_replicate]
    constructor
    · apply Normal.proper
      constructor
      · intro digit hmem
        apply hdigits digit
        apply hsuffix.subset
        rw [hfull]
        exact List.mem_append_left _ hmem
      · exact ⟨first, tail, rfl, hfirst⟩
      · cases h : (first :: tail).getLast? with
        | none => simp at h
        | some digit => exact ⟨digit, rfl, fun hzero => hlast (by rw [h, hzero])⟩
      all_goals
        simp only [I64_MIN, I64_MAX]
        omega
    · have hmagn : positional 10 (first :: tail) * 10 ^ (-((fraction : Int) - exponent - count))
          = (positional 10 digits : ℚ) * 10 ^ (exponent - fraction) := by
        rw [zpow_sub_natCast, ← hdrop, hfull, positional_append_zeros, neg_sub]
        push_cast
        ring
      show (if negative = true then -(_ * _) else _ * _) = _
      rw [hmagn]
      cases negative <;> simp

end DecimalNumber

end Antiburn
