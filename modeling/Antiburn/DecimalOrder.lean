/-
Comparing decimal numbers compares the rationals they stand for.

A nonzero normal form with leading digit at position `order` lies between two
powers of ten, so different positions decide; at one position the digits, padded
to one length, are the rationals at one scale.
-/
import Antiburn.DecimalValue
import Mathlib

namespace Antiburn

namespace DecimalNumber

/-! ### Digits -/

lemma compareDigits_eq {left right : List Nat} (hlen : left.length = right.length)
    (hleft : ∀ digit ∈ left, digit < 10) (hright : ∀ digit ∈ right, digit < 10) :
    compareDigits left right = compare (positional 10 left) (positional 10 right) := by
  induction left generalizing right with
  | nil =>
    obtain rfl := List.length_eq_zero_iff.mp hlen.symm
    rfl
  | cons a as ih =>
    cases right with
    | nil => simp at hlen
    | cons b bs =>
      have hrest : as.length = bs.length := by simpa using hlen
      have has : ∀ digit ∈ as, digit < 10 := fun d hd => hleft d (List.mem_cons_of_mem a hd)
      have hbs : ∀ digit ∈ bs, digit < 10 := fun d hd => hright d (List.mem_cons_of_mem b hd)
      show (compare a b).then (compareDigits as bs) = _
      rcases Nat.lt_trichotomy a b with hlt | heq | hgt
      · have hvalue := positional_cons_lt (by norm_num) hrest has hlt
        rw [compare_lt_iff_lt.mpr hlt, compare_lt_iff_lt.mpr hvalue]
        rfl
      · subst heq
        rw [compare_eq_iff_eq.mpr rfl, ih hrest has hbs, positional_cons, positional_cons, hrest]
        show compare _ _ = _
        rcases Nat.lt_trichotomy (positional 10 as) (positional 10 bs) with h | h | h
        · rw [compare_lt_iff_lt.mpr h, compare_lt_iff_lt.mpr (Nat.add_lt_add_left h _)]
        · rw [h, compare_eq_iff_eq.mpr rfl, compare_eq_iff_eq.mpr rfl]
        · rw [compare_gt_iff_gt.mpr h, compare_gt_iff_gt.mpr (Nat.add_lt_add_left h _)]
      · have hvalue := positional_cons_lt (by norm_num) hrest.symm hbs hgt
        rw [compare_gt_iff_gt.mpr hgt, compare_gt_iff_gt.mpr hvalue]
        rfl

lemma eq_of_compareDigits {left right : List Nat} (hlen : left.length = right.length)
    (h : compareDigits left right = .eq) : left = right := by
  induction left generalizing right with
  | nil => exact (List.length_eq_zero_iff.mp hlen.symm).symm
  | cons a as ih =>
    cases right with
    | nil => simp at hlen
    | cons b bs =>
      rw [compareDigits, Ordering.then_eq_eq, compare_eq_iff_eq] at h
      rw [h.1, ih (by simpa using hlen) h.2]

variable {left right number : DecimalNumber} {length : Nat}

lemma length_padded (h : number.digits.length ≤ length) :
    (number.padded length).length = length := by
  rw [padded, List.length_append, List.length_replicate]
  omega

lemma padded_lt (h : number.Proper) {digit : Nat}
    (hmem : digit ∈ number.padded length) : digit < 10 := by
  rcases List.mem_append.mp hmem with hdigit | hzero
  · exact h.digit_lt digit hdigit
  · rw [List.eq_of_mem_replicate hzero]
    norm_num

lemma eq_of_append_zeros {left right : List Nat} {m n : Nat}
    (h : left ++ List.replicate m 0 = right ++ List.replicate n 0)
    (hleft : left.getLast? ≠ some 0) (hright : right.getLast? ≠ some 0) : left = right := by
  rcases List.append_eq_append_iff.mp h with ⟨middle, hmiddle, hzeros⟩ | ⟨middle, hmiddle, hzeros⟩
  · have hall : ∀ digit ∈ middle, digit = 0 := fun digit hmem => List.eq_of_mem_replicate
      (by rw [hzeros]; exact List.mem_append_left _ hmem)
    cases hlast : middle.getLast? with
    | none => simp_all
    | some digit =>
      have hzero := hall digit (List.mem_of_getLast? hlast)
      rw [hmiddle, List.getLast?_append, hlast, hzero] at hright
      exact absurd rfl hright
  · have hall : ∀ digit ∈ middle, digit = 0 := fun digit hmem => List.eq_of_mem_replicate
      (by rw [hzeros]; exact List.mem_append_left _ hmem)
    cases hlast : middle.getLast? with
    | none => simp_all
    | some digit =>
      have hzero := hall digit (List.mem_of_getLast? hlast)
      rw [hmiddle, List.getLast?_append, hlast, hzero] at hleft
      exact absurd rfl hleft

/-! ### Magnitudes -/

section

variable (h : number.Proper)
include h

lemma Proper.order_eq :
    number.order = number.digits.length - number.scale := by
  have hlen : saturate (number.digits.length : Int) = number.digits.length :=
    saturate_of_mem (by unfold I64_MIN; omega) h.length_le
  rw [order, hlen, saturate_of_mem h.order_ge h.order_le]

lemma Proper.isZero : number.isZero = false := by
  obtain ⟨digit, rest, hdigits, hne⟩ := h.first
  rw [DecimalNumber.isZero, hdigits]
  simp [hne]

lemma Proper.magnitude_bounds :
    (10 : ℚ) ^ (number.order - 1) ≤ number.magnitude ∧ number.magnitude < 10 ^ number.order := by
  obtain ⟨digit, rest, hdigits, hne⟩ := h.first
  have hpos : (0 : ℚ) < 10 ^ (-number.scale) := by positivity
  rw [h.order_eq, magnitude]
  constructor
  · have hle : (10 : ℚ) ^ rest.length ≤ positional 10 number.digits := by
      rw [hdigits]
      exact_mod_cast @pow_le_positional 10 _ hne rest
    calc (10 : ℚ) ^ ((number.digits.length : Int) - number.scale - 1)
        = 10 ^ rest.length * 10 ^ (-number.scale) := by
          rw [← zpow_natCast, ← zpow_add₀ (by norm_num), hdigits, List.length_cons]
          congr 1
          omega
      _ ≤ _ := mul_le_mul_of_nonneg_right hle hpos.le
  · have hlt : (positional 10 number.digits : ℚ) < 10 ^ number.digits.length := by
      exact_mod_cast positional_lt (by norm_num) h.digit_lt
    calc (positional 10 number.digits : ℚ) * 10 ^ (-number.scale)
        < 10 ^ number.digits.length * 10 ^ (-number.scale) := mul_lt_mul_of_pos_right hlt hpos
      _ = 10 ^ ((number.digits.length : Int) - number.scale) := by
          rw [← zpow_natCast, ← zpow_add₀ (by norm_num)]
          congr 1

lemma Proper.magnitude_pos :
    0 < number.magnitude := by
  have hpow : (0 : ℚ) < 10 ^ (number.order - 1) := by positivity
  exact lt_of_lt_of_le hpow h.magnitude_bounds.1

lemma Proper.magnitude_padded (hlen : number.digits.length ≤ length) :
    number.magnitude = positional 10 (number.padded length) * 10 ^ (number.order - length) := by
  rw [h.order_eq, padded, positional_append_zeros, magnitude]
  push_cast
  rw [mul_assoc, ← zpow_natCast, ← zpow_add₀ (by norm_num)]
  congr 2
  omega

end

lemma compare_magnitude (hl : left.Proper) (hr : right.Proper) :
    (compare left.order right.order).then
      (compareDigits (left.padded (max left.digits.length right.digits.length))
        (right.padded (max left.digits.length right.digits.length))) =
      compare left.magnitude right.magnitude := by
  rcases lt_trichotomy left.order right.order with hlt | heq | hgt
  · have hpow : (10 : ℚ) ^ left.order ≤ 10 ^ (right.order - 1) :=
      zpow_le_zpow_right₀ (by norm_num) (by omega)
    have hmagn : left.magnitude < right.magnitude :=
      lt_of_lt_of_le hl.magnitude_bounds.2 (hpow.trans hr.magnitude_bounds.1)
    rw [compare_lt_iff_lt.mpr hlt, compare_lt_iff_lt.mpr hmagn]
    rfl
  · have hleft := hl.magnitude_padded (Nat.le_max_left left.digits.length right.digits.length)
    have hright := hr.magnitude_padded (Nat.le_max_right left.digits.length right.digits.length)
    have hdigits := compareDigits_eq
      ((length_padded (Nat.le_max_left left.digits.length right.digits.length)).trans
        (length_padded (Nat.le_max_right left.digits.length right.digits.length)).symm)
      (fun _ => padded_lt hl) (fun _ => padded_lt hr)
    rw [compare_eq_iff_eq.mpr heq, hdigits, hleft, hright, ← heq]
    generalize max left.digits.length right.digits.length = length
    have hpow : (0 : ℚ) < 10 ^ (left.order - length) := by positivity
    generalize positional 10 (left.padded length) = m
    generalize positional 10 (right.padded length) = n
    show compare m n = _
    rcases Nat.lt_trichotomy m n with h | h | h
    · have hmul := mul_lt_mul_of_pos_right (Nat.cast_lt (α := ℚ).mpr h) hpow
      rw [compare_lt_iff_lt.mpr h, compare_lt_iff_lt.mpr hmul]
    · rw [h, compare_eq_iff_eq.mpr rfl, compare_eq_iff_eq.mpr rfl]
    · have hmul := mul_lt_mul_of_pos_right (Nat.cast_lt (α := ℚ).mpr h) hpow
      rw [compare_gt_iff_gt.mpr h, compare_gt_iff_gt.mpr hmul]
  · have hpow : (10 : ℚ) ^ right.order ≤ 10 ^ (left.order - 1) :=
      zpow_le_zpow_right₀ (by norm_num) (by omega)
    have hmagn : right.magnitude < left.magnitude :=
      lt_of_lt_of_le hr.magnitude_bounds.2 (hpow.trans hl.magnitude_bounds.1)
    rw [compare_gt_iff_gt.mpr hgt, compare_gt_iff_gt.mpr hmagn]
    rfl

lemma eq_of_magnitude_eq (hl : left.Proper) (hr : right.Proper)
    (h : left.magnitude = right.magnitude) :
    left.digits = right.digits ∧ left.scale = right.scale := by
  have hcomp := compare_magnitude hl hr
  rw [h, compare_eq_iff_eq.mpr rfl, Ordering.then_eq_eq, compare_eq_iff_eq] at hcomp
  obtain ⟨horder, hdigits⟩ := hcomp
  have hleft := length_padded (Nat.le_max_left left.digits.length right.digits.length)
  have hright := length_padded (Nat.le_max_right left.digits.length right.digits.length)
  have hpadded := eq_of_compareDigits (hleft.trans hright.symm) hdigits
  obtain ⟨a, ha, hane⟩ := hl.last
  obtain ⟨b, hb, hbne⟩ := hr.last
  have heq : left.digits = right.digits :=
    eq_of_append_zeros hpadded (by simpa [ha] using hane) (by simpa [hb] using hbne)
  refine ⟨heq, ?_⟩
  rw [hl.order_eq, hr.order_eq, heq] at horder
  omega

/-! ### Order and equality -/

lemma Proper.value_eq (h : number.Proper) :
    number.value ≠ 0 ∧ (number.value < 0 ↔ number.negative = true) := by
  have hpos := h.magnitude_pos
  unfold DecimalNumber.value
  cases number.negative with
  | true =>
    constructor
    · simpa using hpos.ne'
    · simpa using hpos
  | false =>
    constructor
    · simpa using hpos.ne'
    · simpa using hpos.le

@[simp] lemma value_zero : (⟨false, [0], 0⟩ : DecimalNumber).value = 0 := by
  simp [value, magnitude]

lemma isZero_zero : (⟨false, [0], 0⟩ : DecimalNumber).isZero = true := rfl

lemma cmp_eq (hl : left.Normal) (hr : right.Normal) :
    left.cmp right = compare left.value right.value := by
  cases hl with
  | zero =>
    cases hr with
    | zero => rw [compare_eq_iff_eq.mpr rfl]; rfl
    | proper hr =>
      have hcmp : (⟨false, [0], 0⟩ : DecimalNumber).cmp right =
          if right.negative then .gt else .lt := by
        simp only [cmp, hr.isZero, isZero_zero]
      rw [hcmp, value_zero]
      symm
      split_ifs with hsign
      · exact compare_gt_iff_gt.mpr (hr.value_eq.2.mpr hsign)
      · exact compare_lt_iff_lt.mpr (lt_of_le_of_ne
          (not_lt.mp (mt hr.value_eq.2.mp hsign)) hr.value_eq.1.symm)
  | proper hl =>
    cases hr with
    | zero =>
      have hcmp : left.cmp ⟨false, [0], 0⟩ = if left.negative then .lt else .gt := by
        simp only [cmp, hl.isZero, isZero_zero]
      rw [hcmp, value_zero]
      symm
      split_ifs with hsign
      · exact compare_lt_iff_lt.mpr (hl.value_eq.2.mpr hsign)
      · exact compare_gt_iff_gt.mpr (lt_of_le_of_ne
          (not_lt.mp (mt hl.value_eq.2.mp hsign)) hl.value_eq.1.symm)
    | proper hr =>
      have hleft := hl.magnitude_pos
      have hright := hr.magnitude_pos
      have hmagn := compare_magnitude hl hr
      unfold cmp value
      simp only [hl.isZero, hr.isZero, hmagn]
      cases left.negative <;> cases right.negative
      · rfl
      · symm
        apply compare_gt_iff_gt.mpr
        show -right.magnitude < left.magnitude
        linarith
      · symm
        apply compare_lt_iff_lt.mpr
        show -left.magnitude < right.magnitude
        linarith
      · show (compare left.magnitude right.magnitude).swap =
          compare (-left.magnitude) (-right.magnitude)
        rcases lt_trichotomy left.magnitude right.magnitude with h | h | h
        · rw [compare_lt_iff_lt.mpr h, compare_gt_iff_gt.mpr (neg_lt_neg h)]
          rfl
        · rw [h, compare_eq_iff_eq.mpr rfl, compare_eq_iff_eq.mpr rfl]
          rfl
        · rw [compare_gt_iff_gt.mpr h, compare_lt_iff_lt.mpr (neg_lt_neg h)]
          rfl

lemma eq_iff_value_eq (hl : left.Normal) (hr : right.Normal) :
    left = right ↔ left.value = right.value := by
  refine ⟨fun h => by rw [h], fun h => ?_⟩
  cases hl with
  | zero =>
    cases hr with
    | zero => rfl
    | proper hr => exact absurd (h.symm.trans value_zero) hr.value_eq.1
  | proper hl =>
    cases hr with
    | zero => exact absurd (h.trans value_zero) hl.value_eq.1
    | proper hr =>
      have hsign : left.negative = right.negative := by
        rw [Bool.eq_iff_iff, ← hl.value_eq.2, ← hr.value_eq.2, h]
      have hmagn : left.magnitude = right.magnitude := by
        unfold value at h
        rw [hsign] at h
        cases hneg : right.negative with
        | true | false => simpa [hneg] using h
      obtain ⟨hdigits, hscale⟩ := eq_of_magnitude_eq hl hr hmagn
      cases left
      cases right
      simp_all

end DecimalNumber

/-! ### Indexes -/

namespace DecimalNumber

section

variable {number : DecimalNumber}

lemma Proper.magnitude_ne (h : number.Proper) (hscale : 0 < number.scale)
    (n : Nat) : number.magnitude ≠ n := by
  intro hn
  obtain ⟨last, hlast, hne⟩ := h.last
  have hlt := h.digit_lt last (List.mem_of_getLast? hlast)
  obtain ⟨k, hk⟩ : ∃ k : Nat, number.scale = k + 1 := ⟨(number.scale - 1).toNat, by omega⟩
  have hvalue : (positional 10 number.digits : ℚ) = n * 10 ^ (k + 1) := by
    rw [← hn, magnitude, hk, mul_assoc, ← zpow_natCast, ← zpow_add₀ (by norm_num)]
    simp
  have hnat : positional 10 number.digits = n * 10 ^ (k + 1) := by exact_mod_cast hvalue
  apply not_dvd_positional hlast hne hlt
  rw [hnat, pow_succ]
  exact Dvd.intro_left (n * 10 ^ k) (by ring)

lemma magnitude_eq_natCast (hscale : number.scale ≤ 0) :
    number.magnitude =
      (positional 10 number.digits * 10 ^ (-number.scale).toNat : Nat) := by
  rw [magnitude]
  push_cast
  rw [← zpow_natCast]
  congr 2
  omega

lemma Proper.usize_lt (h : number.Proper) {zeros : Nat}
    (hlen : 20 < number.digits.length + zeros) :
    USIZE_MAX < positional 10 number.digits * 10 ^ zeros := by
  obtain ⟨digit, rest, hdigits, hne⟩ := h.first
  rw [hdigits, List.length_cons] at hlen
  have hlead := Nat.mul_le_mul_right (10 ^ zeros) (@pow_le_positional 10 _ hne rest)
  have hpow : 10 ^ 20 ≤ 10 ^ rest.length * 10 ^ zeros := by
    rw [← pow_add]
    exact Nat.pow_le_pow_right (by norm_num) (by omega)
  rw [hdigits]
  unfold USIZE_MAX
  omega

end

end DecimalNumber

namespace Number

lemma length_USIZE_MAX : (toString USIZE_MAX).length = 20 := by decide

lemma integralIndex_eq_some_iff {number : Number} {value : DecimalNumber}
    (hdecimal : number.decimal = some value) (h : value.Normal) (n : Nat) :
    number.integralIndex = some n ↔ value.value = n ∧ n ≤ USIZE_MAX := by
  rw [integralIndex, hdecimal, Option.bind_some, length_USIZE_MAX]
  simp only [foldl_positional, positional_append_zeros]
  cases h with
  | zero =>
    have hvalue : ((0 : ℚ) = n) ↔ n = 0 := by
      rw [eq_comm]
      exact Nat.cast_eq_zero
    rw [DecimalNumber.value_zero, hvalue]
    simp only [I64_MIN, USIZE_MAX]
    simp
    omega
  | proper h =>
    by_cases hneg : value.negative = true
    · have hlt := h.value_eq.2.mpr hneg
      simp only [hneg, Bool.true_or, if_true]
      constructor
      · intro hnone
        exact absurd hnone (by simp)
      · rintro ⟨hn, -⟩
        have hnonneg : (0 : ℚ) ≤ n := Nat.cast_nonneg n
        linarith
    have hvalue : value.value = value.magnitude := by
      rw [DecimalNumber.value, if_neg hneg]
    rw [hvalue]
    by_cases hscale : 0 < value.scale
    · simp only [hscale, decide_true, Bool.or_true, if_true]
      constructor
      · intro hnone
        exact absurd hnone (by simp)
      · rintro ⟨hn, -⟩
        exact absurd hn (h.magnitude_ne hscale n)
    have hmin : value.scale ≠ I64_MIN := h.scale_gt.ne'
    rw [DecimalNumber.magnitude_eq_natCast (by omega), Nat.cast_inj]
    simp only [hneg, hscale, hmin, decide_false, Bool.or_false, Bool.false_eq_true, if_false]
    split_ifs with hlen hindex
    · constructor
      · intro hnone
        exact absurd hnone (by simp)
      · rintro ⟨hn, hle⟩
        have hlt := h.usize_lt hlen
        omega
    · constructor
      · intro hsome
        cases hsome
        exact ⟨rfl, hindex⟩
      · rintro ⟨hn, -⟩
        rw [hn]
    · constructor
      · intro hnone
        exact absurd hnone (by simp)
      · rintro ⟨hn, hle⟩
        omega

end Number

/-! ### Numerals -/

namespace Numeral

lemma digits_lt {numeral : Numeral} : ∀ digit ∈ numeral.digits, digit < 10 := by
  intro digit hmem
  obtain ⟨place, -, rfl⟩ := List.mem_map.mp hmem
  exact place.isLt

lemma parse_spec {numeral : Numeral} (h : numeral.Fits) :
    ∃ number, DecimalNumber.parse numeral.text = some number ∧ number.Normal ∧
      number.value = numeral.value := by
  have hfraction : (numeral.fraction.getD []).length ≤ numeral.digits.length := by
    rw [digits, List.length_map, List.length_append]
    omega
  obtain ⟨hnormal, hvalue⟩ := DecimalNumber.normalize_spec (numeral.sign == .minus)
    digits_lt hfraction h
  refine ⟨_, DecimalNumber.parse_text h, hnormal, ?_⟩
  rw [hvalue, Numeral.value]
  cases numeral.sign <;> simp [Sign.factor]

lemma value_of_zeros {numeral : Numeral} (h : ∀ digit ∈ numeral.digits, digit = 0) :
    numeral.value = 0 := by
  have hdigits : positional 10 numeral.digits = 0 := by
    rw [List.eq_replicate_of_mem h, positional_replicate_zero]
  rw [value, hdigits]
  simp

/-- **Comparing numerals is exact**: parsed numbers are equal and ordered as the
rationals the numerals denote, whatever their signs, zeros and exponents; the
order is total and consistent with equality; and a numeral is read as an index
exactly when it denotes a natural number that fits `usize`. -/
theorem comparison_is_exact (s t u : Numeral) (hs : s.Fits) (ht : t.Fits) (hu : u.Fits) :
    ∃ a b c, DecimalNumber.parse s.text = some a ∧ DecimalNumber.parse t.text = some b ∧
      DecimalNumber.parse u.text = some c ∧
      (a = b ↔ s.value = t.value) ∧ a.cmp b = compare s.value t.value ∧
      (a.cmp b = .eq ↔ a = b) ∧ b.cmp a = (a.cmp b).swap ∧
      (a.cmp b ≠ .gt → b.cmp c ≠ .gt → a.cmp c ≠ .gt) ∧
      ((∀ digit ∈ s.digits, digit = 0) → (∀ digit ∈ t.digits, digit = 0) → a = b) ∧
      ∀ n, (⟨s.text⟩ : Number).integralIndex = some n ↔ s.value = n ∧ n ≤ USIZE_MAX := by
  obtain ⟨a, hpa, hna, hva⟩ := parse_spec hs
  obtain ⟨b, hpb, hnb, hvb⟩ := parse_spec ht
  obtain ⟨c, hpc, hnc, hvc⟩ := parse_spec hu
  refine ⟨a, b, c, hpa, hpb, hpc, ?_, ?_, ?_, ?_, ?_, ?_, ?_⟩
  · rw [← hva, ← hvb]
    exact DecimalNumber.eq_iff_value_eq hna hnb
  · rw [← hva, ← hvb]
    exact DecimalNumber.cmp_eq hna hnb
  · rw [DecimalNumber.cmp_eq hna hnb, DecimalNumber.eq_iff_value_eq hna hnb, compare_eq_iff_eq]
  · rw [DecimalNumber.cmp_eq hna hnb, DecimalNumber.cmp_eq hnb hna]
    rcases lt_trichotomy a.value b.value with h | h | h
    · rw [compare_lt_iff_lt.mpr h, compare_gt_iff_gt.mpr h]
      rfl
    · rw [h, compare_eq_iff_eq.mpr rfl]
      rfl
    · rw [compare_lt_iff_lt.mpr h, compare_gt_iff_gt.mpr h]
      rfl
  · rw [DecimalNumber.cmp_eq hna hnb, DecimalNumber.cmp_eq hnb hnc, DecimalNumber.cmp_eq hna hnc,
      compare_le_iff_le, compare_le_iff_le, compare_le_iff_le]
    exact le_trans
  · intro hzeros hzeros'
    rw [DecimalNumber.eq_iff_value_eq hna hnb, hva, hvb, value_of_zeros hzeros,
      value_of_zeros hzeros']
  · intro n
    rw [← hva]
    exact Number.integralIndex_eq_some_iff hpa hna n

/-- The numeral `0.5`. -/
def half : Numeral := ⟨.absent, [0], some [5], none, by simp⟩

/-- The numeral `+50e-02`. -/
def fiftyHundredths : Numeral :=
  ⟨.plus, [5, 0], none, some ⟨false, .minus, [0, 2], by simp⟩, by simp⟩

/-- The numeral `15.00E2`. -/
def fifteenHundred : Numeral :=
  ⟨.absent, [1, 5], some [0, 0], some ⟨true, .absent, [2], by simp⟩, by simp⟩

theorem half_is_fifty_hundredths :
    (half.Fits ∧ fiftyHundredths.Fits ∧ fifteenHundred.Fits) ∧
      half.value = fiftyHundredths.value ∧
      (∃ number, DecimalNumber.parse half.text = some number ∧
        DecimalNumber.parse fiftyHundredths.text = some number) ∧
      (⟨fifteenHundred.text⟩ : Number).integralIndex = some 1500 := by
  have hhalf : half.Fits := by
    show |(0 : Int)| + (2 : Nat) ≤ I64_MAX
    decide
  have hfifty : fiftyHundredths.Fits := by
    show |(-1 * 2 : Int)| + (2 : Nat) ≤ I64_MAX
    decide
  have hfifteen : fifteenHundred.Fits := by
    show |(1 * 2 : Int)| + (4 : Nat) ≤ I64_MAX
    decide
  have hvalue : half.value = fiftyHundredths.value := by
    show (((1 : Int) : ℚ) * ((5 : Nat) : ℚ) * 10 ^ ((0 : Int) - (1 : Nat))) =
      ((1 : Int) : ℚ) * ((50 : Nat) : ℚ) * 10 ^ ((-1 * 2 : Int) - (0 : Nat))
    norm_num
  have hindex : fifteenHundred.value = (1500 : Nat) := by
    show (((1 : Int) : ℚ) * ((1500 : Nat) : ℚ) * 10 ^ ((1 * 2 : Int) - (2 : Nat))) = (1500 : Nat)
    norm_num
  obtain ⟨a, b, -, ha, hb, -, heq, -⟩ :=
    comparison_is_exact half fiftyHundredths half hhalf hfifty hhalf
  obtain ⟨-, -, -, -, -, -, -, -, -, -, -, -, hread⟩ :=
    comparison_is_exact fifteenHundred half half hfifteen hhalf hhalf
  refine ⟨⟨hhalf, hfifty, hfifteen⟩, hvalue, ⟨a, ha, ?_⟩, ?_⟩
  · rw [hb, heq.mpr hvalue]
  · exact (hread 1500).mpr ⟨hindex, by decide⟩

end Numeral

end Antiburn
