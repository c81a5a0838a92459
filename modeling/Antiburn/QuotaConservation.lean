/-
Meter shares are conserved.

A segment hands out its scaled rise to the turns in it, in proportion to their
dollars, or leaves it unexplained.  The scaled rises add up to the last reading, and
so do the shares; a period that is closed at 100 has no turn after its last reading.
-/
import Antiburn.QuotaShare
import Mathlib

namespace Antiburn

namespace Quota

/-! ### What each turn adds -/

section Contributions

variable (input : ShareInput)

def inputSegments : List Segment := (meterSegments input.readings).1

def share (turn : Turn) : Option ℚ :=
  turnShare input (inputSegments input) (segmentUsd input (inputSegments input)) turn

def contribution (turn : Turn) : ℚ := (share input turn).getD 0

def segmentAmount (i : Nat) : ℚ :=
  ((inputSegments input).map Segment.rise).getD i 0 * shareScale input (inputSegments input)

variable {input}

lemma foldl_addShare (share : Turn → Option ℚ) (bucket : List Turn) (total : ℚ) (priced : Bool) :
    bucket.foldl (addShare share) (total, priced) =
      (total + (bucket.map fun turn => (share turn).getD 0).sum,
        priced || bucket.any fun turn => (share turn).isSome) := by
  induction bucket generalizing total priced with
  | nil => simp
  | cons turn rest ih =>
    rw [List.foldl_cons, List.map_cons, List.sum_cons, List.any_cons]
    unfold addShare at ih ⊢
    cases share turn with
    | none =>
      rw [ih]
      simp
    | some percent =>
      rw [ih]
      simp [add_assoc]

lemma bucketShare_eq (share : Turn → Option ℚ) (bucket : List Turn) :
    bucketShare share bucket =
      if (bucket.any fun turn => (share turn).isSome) = true then
        some (bucket.map fun turn => (share turn).getD 0).sum
      else none := by
  unfold bucketShare
  rw [foldl_addShare, zero_add, Bool.false_or]

lemma bucketPercent_eq :
    (sharePeriod input).bucketPercent = input.buckets.map (bucketShare (share input)) := rfl

lemma unexplained_eq :
    (sharePeriod input).unexplained =
      unexplainedEntries input (inputSegments input) (segmentUsd input (inputSegments input)) := rfl

variable {buckets : List (List Turn)} {turn : Turn}

lemma share_outside (h : inPeriod input turn.tsMs = false) :
    share input turn = none := by
  unfold share turnShare
  rw [h]
  rfl

section

variable (hasc : input.readings.Pairwise fun earlier later => earlier.at_ < later.at_)
include hasc

lemma segmentIndex_lt (turn : Turn) :
    segmentIndex (inputSegments input) turn.tsMs < (inputSegments input).length ↔
      isMeasured input turn = true :=
  segmentIndex_lt_iff (meterSegments_measures hasc)

lemma contribution_measured
    (hin : inPeriod input turn.tsMs = true) (hmeas : isMeasured input turn = true)
    (hpaid : 0 ≤ turn.usd) :
    contribution input turn =
      segmentAmount input (segmentIndex (inputSegments input) turn.tsMs) * turn.usd /
        (segmentUsd input (inputSegments input)).getD
          (segmentIndex (inputSegments input) turn.tsMs) 0 := by
  have hindex := (segmentIndex_lt hasc turn).mpr hmeas
  unfold contribution share turnShare
  rw [hin]
  by_cases hfree : turn.usd ≤ 0
  · have hzero : turn.usd = 0 := le_antisymm hfree hpaid
    simp [hzero]
  · have hpriced : (!true || decide (turn.usd ≤ 0)) = false := by simp [hfree]
    rw [hpriced]
    dsimp only
    rw [List.getElem?_eq_getElem hindex]
    have hrise : ((inputSegments input).map Segment.rise).getD
        (segmentIndex (inputSegments input) turn.tsMs) 0 =
          ((inputSegments input)[segmentIndex (inputSegments input) turn.tsMs]).rise := by
      rw [List.getD_eq_getElem?_getD, List.getElem?_map, List.getElem?_eq_getElem hindex]
      rfl
    unfold segmentAmount
    rw [hrise]
    rfl

lemma share_later (hin : inPeriod input turn.tsMs = true) (hlater : isMeasured input turn = false)
    (hpriced : 0 < turn.usd) :
    share input turn = (factorPointAtOrEarliest input.points (turn.tsMs.tdiv 1000)).map
      fun point => turn.usd / point.usdPerPercent := by
  have hindex : (inputSegments input)[segmentIndex (inputSegments input) turn.tsMs]? = none := by
    rw [List.getElem?_eq_none_iff]
    by_contra hlt
    have hmeas := (segmentIndex_lt hasc turn).mp (not_le.mp hlt)
    rw [hlater] at hmeas
    cases hmeas
  unfold share turnShare
  have hgoes : (!inPeriod input turn.tsMs || decide (turn.usd ≤ 0)) = false := by
    simp [hin, hpriced]
  rw [hgoes]
  dsimp only
  rw [hindex]
  rfl

end

/-! ### Conservation -/

lemma lastPercent_nonneg : 0 ≤ lastPercent input := le_max_right _ _

section

variable (hasc : input.readings.Pairwise fun earlier later => earlier.at_ < later.at_)
include hasc

lemma rises_nonneg :
    0 ≤ ((inputSegments input).map Segment.rise).sum := by
  refine List.sum_nonneg fun rise hrise => ?_
  obtain ⟨seg, hseg, rfl⟩ := List.mem_map.mp hrise
  exact (meterSegments_measures hasc).rises seg hseg

lemma sum_segmentAmount :
    ∑ i ∈ Finset.range (inputSegments input).length, segmentAmount input i = lastPercent input := by
  have hlength : (inputSegments input).length = ((inputSegments input).map Segment.rise).length := by
    rw [List.length_map]
  unfold segmentAmount
  rw [← Finset.sum_mul, hlength, ProRata.sum_getD]
  unfold shareScale
  dsimp only
  split_ifs with hdown
  · have hpos : 0 < ((inputSegments input).map Segment.rise).sum :=
      lastPercent_nonneg.trans_lt hdown
    rw [mul_div_cancel₀ _ hpos.ne']
  · have hcovers : lastPercent input ≤ ((inputSegments input).map Segment.rise).sum :=
      max_le (meterSegments_measures hasc).covers (rises_nonneg hasc)
    rw [mul_one]
    exact le_antisymm (not_lt.mp hdown) hcovers

lemma shareScale_nonneg :
    0 ≤ shareScale input (inputSegments input) := by
  unfold shareScale
  dsimp only
  split_ifs
  · exact div_nonneg lastPercent_nonneg (rises_nonneg hasc)
  · exact zero_le_one

lemma sum_unexplained :
    ((sharePeriod input).unexplained.map Prod.snd).sum =
      ∑ i ∈ Finset.range (inputSegments input).length,
        if (segmentUsd input (inputSegments input)).getD i 0 = 0 then segmentAmount input i
        else 0 := by
  have hlength : (inputSegments input).length = (segmentUsd input (inputSegments input)).length :=
    length_segmentUsd.symm
  rw [unexplained_eq]
  unfold unexplainedEntries
  rw [List.map_map, ProRata.sum_filter_map]
  refine (ProRata.sum_zip (fun (seg : Segment) (usd : ℚ) =>
    if (decide (0 < seg.rise) && usd == 0) = true then
      seg.rise * shareScale input (inputSegments input) else 0) ⟨0, 0⟩ 0 hlength).trans ?_
  refine Finset.sum_congr rfl fun i hi => ?_
  have hi' := Finset.mem_range.mp hi
  have hrise : ((inputSegments input).map Segment.rise).getD i 0 =
      ((inputSegments input).getD i ⟨0, 0⟩).rise := by
    rw [List.getD_eq_getElem?_getD, List.getD_eq_getElem?_getD, List.getElem?_map,
      List.getElem?_eq_getElem hi']
    rfl
  have hmem : (inputSegments input).getD i ⟨0, 0⟩ ∈ inputSegments input := by
    rw [List.getD_eq_getElem?_getD, List.getElem?_eq_getElem hi']
    exact List.getElem_mem hi'
  have hnonneg := (meterSegments_measures hasc).rises _ hmem
  unfold segmentAmount
  rw [hrise]
  by_cases hfree : (segmentUsd input (inputSegments input)).getD i 0 = 0
  · rw [if_pos hfree]
    rcases hnonneg.eq_or_lt with hflat | hpos
    · rw [← hflat]
      simp
    · rw [if_pos (Bool.and_eq_true_iff.mpr ⟨decide_eq_true hpos, beq_iff_eq.mpr hfree⟩)]
  · rw [if_neg hfree, if_neg fun h => hfree (beq_iff_eq.mp (Bool.and_eq_true_iff.mp h).2)]

/-- **The measured turns and what is unexplained add up to the last reading.** -/
lemma measured_total (hpaid : ∀ turn ∈ input.buckets.flatten, 0 ≤ turn.usd) :
    ((input.buckets.flatten.filter (isMeasured input)).map (contribution input)).sum +
      ((sharePeriod input).unexplained.map Prod.snd).sum = lastPercent input := by
  let cls := fun turn : Turn => segmentIndex (inputSegments input) turn.tsMs
  let measured := (periodTurns input).filter (isMeasured input)
  have hdrop : ((input.buckets.flatten.filter (isMeasured input)).map (contribution input)).sum =
      (measured.map (contribution input)).sum := by
    have hsplit : measured = (input.buckets.flatten.filter (isMeasured input)).filter
        fun turn => inPeriod input turn.tsMs := by
      show ((input.buckets.flatten.filter _).filter _) = _
      rw [List.filter_filter, List.filter_filter]
      exact List.filter_congr fun _ _ => Bool.and_comm _ _
    rw [hsplit, ProRata.sum_filter_map (fun turn : Turn => inPeriod input turn.tsMs)]
    refine congrArg List.sum (List.map_congr_left fun turn _ => ?_)
    by_cases hin : inPeriod input turn.tsMs = true
    · rw [if_pos hin]
    · rw [if_neg hin]
      unfold contribution
      rw [share_outside (Bool.eq_false_iff.mpr hin)]
      rfl
  have hclass : ∀ turn ∈ measured, cls turn < (inputSegments input).length := by
    intro turn hturn
    exact (segmentIndex_lt hasc turn).mpr (List.mem_filter.mp hturn).2
  have hweight : ∀ i < (inputSegments input).length,
      (segmentUsd input (inputSegments input)).getD i 0 = ProRata.classSum cls Turn.usd measured i := by
    intro i hi
    rw [getD_segmentUsd hi]
    refine (ProRata.classSum_filter Turn.usd fun turn _ hturn => ?_).symm
    have hlt : segmentIndex (inputSegments input) turn.tsMs < (inputSegments input).length := by
      rw [hturn]
      exact hi
    exact (segmentIndex_lt hasc turn).mp hlt
  have hshares : (measured.map (contribution input)).sum =
      (measured.map fun turn => segmentAmount input (cls turn) * turn.usd /
        ProRata.classSum cls Turn.usd measured (cls turn)).sum := by
    refine congrArg List.sum (List.map_congr_left fun turn hturn => ?_)
    obtain ⟨hperiod, hmeas⟩ := List.mem_filter.mp hturn
    obtain ⟨hmem, hin⟩ := List.mem_filter.mp hperiod
    rw [contribution_measured hasc hin hmeas (hpaid turn hmem),
      ← hweight (cls turn) (hclass turn hturn)]
  rw [hdrop, hshares, ProRata.sum_share Turn.usd (segmentAmount input) hclass,
    sum_unexplained hasc, ← Finset.sum_add_distrib, ← sum_segmentAmount hasc]
  refine Finset.sum_congr rfl fun i hi => ?_
  rw [hweight i (Finset.mem_range.mp hi)]
  split_ifs
  · exact zero_add _
  · exact add_zero _

end

/-! ### Shares of any grouping -/

lemma sum_contributions (bucket : List Turn) :
    (bucketShare (share input) bucket).getD 0 = (bucket.map (contribution input)).sum := by
  rw [bucketShare_eq]
  by_cases hpriced : (bucket.any fun turn => (share input turn).isSome) = true
  · rw [if_pos hpriced]
    rfl
  · rw [if_neg hpriced]
    symm
    refine List.sum_eq_zero fun percent hpercent => ?_
    obtain ⟨turn, hturn, rfl⟩ := List.mem_map.mp hpercent
    have hnone : share input turn = none := by
      rw [Bool.not_eq_true, List.any_eq_false] at hpriced
      exact Option.not_isSome_iff_eq_none.mp (hpriced turn hturn)
    unfold contribution
    rw [hnone]
    rfl

lemma sum_bucketPercent :
    ((sharePeriod input).bucketPercent.map (·.getD 0)).sum =
      (input.buckets.flatten.map (contribution input)).sum := by
  rw [bucketPercent_eq, List.map_map, List.map_flatten, List.sum_flatten, List.map_map]
  exact congrArg List.sum (List.map_congr_left fun bucket _ => sum_contributions bucket)

def joinShares : Option ℚ → Option ℚ → Option ℚ
  | none, right => right
  | some left, none => some left
  | some left, some right => some (left + right)

lemma bucketShare_append (left right : List Turn) :
    bucketShare (share input) (left ++ right) =
      joinShares (bucketShare (share input) left) (bucketShare (share input) right) := by
  have hzero : ∀ bucket : List Turn, bucketShare (share input) bucket = none →
      (bucket.map (contribution input)).sum = 0 := by
    intro bucket hnone
    rw [← sum_contributions, hnone]
    rfl
  have hleft := hzero left
  have hright := hzero right
  rw [bucketShare_eq] at hleft hright
  simp only [bucketShare_eq, List.any_append, List.map_append, List.sum_append, Bool.or_eq_true]
  by_cases hl : (left.any fun turn => (share input turn).isSome) = true
  · by_cases hr : (right.any fun turn => (share input turn).isSome) = true
    · rw [if_pos (.inl hl), if_pos hl, if_pos hr]
      rfl
    · have hnil := hright (if_neg hr)
      unfold contribution at hnil
      rw [if_pos (.inl hl), if_pos hl, if_neg hr, hnil, add_zero]
      rfl
  · have hnil := hleft (if_neg hl)
    unfold contribution at hnil
    by_cases hr : (right.any fun turn => (share input turn).isSome) = true
    · rw [if_pos (.inr hr), if_neg hl, if_pos hr, hnil, zero_add]
      rfl
    · rw [if_neg (fun h => h.elim hl hr), if_neg hl, if_neg hr]
      rfl

lemma bucketShare_perm {bucket bucket' : List Turn} (h : bucket.Perm bucket') :
    bucketShare (share input) bucket = bucketShare (share input) bucket' := by
  rw [bucketShare_eq, bucketShare_eq, (h.map _).sum_eq, h.any_eq]

def regroup (input : ShareInput) (buckets : List (List Turn)) : ShareInput := { input with buckets }

section

variable (h : buckets.flatten.Perm input.buckets.flatten)
include h

lemma segmentUsd_regroup (segments : List Segment) :
    segmentUsd (regroup input buckets) segments = segmentUsd input segments := by
  have hlength : (segmentUsd (regroup input buckets) segments).length =
      (segmentUsd input segments).length := length_segmentUsd.trans length_segmentUsd.symm
  refine List.ext_getElem hlength fun i hi hi' => ?_
  have hi'' : i < segments.length := by rwa [length_segmentUsd] at hi'
  have hleft := @getD_segmentUsd (regroup input buckets) segments i hi''
  have hright := @getD_segmentUsd input segments i hi''
  have hperm : (periodTurns (regroup input buckets)).Perm (periodTurns input) := h.filter _
  rw [List.getD_eq_getElem?_getD, List.getElem?_eq_getElem hi, Option.getD_some] at hleft
  rw [List.getD_eq_getElem?_getD, List.getElem?_eq_getElem hi', Option.getD_some] at hright
  rw [hleft, hright]
  exact ((hperm.filter _).map _).sum_eq

lemma share_regroup :
    share (regroup input buckets) = share input := by
  funext turn
  unfold share
  show turnShare input (inputSegments input) (segmentUsd (regroup input buckets) _) turn = _
  rw [segmentUsd_regroup h]
  rfl

lemma unexplained_regroup :
    (sharePeriod (regroup input buckets)).unexplained = (sharePeriod input).unexplained := by
  rw [unexplained_eq, unexplained_eq]
  show unexplainedEntries input (inputSegments input) (segmentUsd (regroup input buckets) _) = _
  rw [segmentUsd_regroup h]
  rfl

end

/-! ### Nothing is negative -/

lemma mem_of_factorPoint {points : List FactorPoint} {epoch : Int} {point : FactorPoint}
    (h : factorPointAtOrEarliest points epoch = some point) : point ∈ points := by
  unfold factorPointAtOrEarliest at h
  dsimp only at h
  split_ifs at h
  · exact List.mem_of_head? h
  · exact List.mem_of_getElem? h

lemma segmentAmount_nonneg
    (hasc : input.readings.Pairwise fun earlier later => earlier.at_ < later.at_) (i : Nat) :
    0 ≤ segmentAmount input i := by
  refine mul_nonneg ?_ (shareScale_nonneg hasc)
  rw [List.getD_eq_getElem?_getD, List.getElem?_map]
  cases hseg : (inputSegments input)[i]? with
  | none => exact le_rfl
  | some seg =>
    exact (meterSegments_measures hasc).rises seg (List.mem_of_getElem? hseg)

lemma segmentUsd_nonneg (hpaid : ∀ turn ∈ input.buckets.flatten, 0 ≤ turn.usd) {i : Nat}
    (hi : i < (inputSegments input).length) :
    0 ≤ (segmentUsd input (inputSegments input)).getD i 0 := by
  rw [getD_segmentUsd hi]
  refine List.sum_nonneg fun usd husd => ?_
  obtain ⟨turn, hturn, rfl⟩ := List.mem_map.mp husd
  exact hpaid turn (List.mem_filter.mp (List.mem_filter.mp hturn).1).1

section

variable (hasc : input.readings.Pairwise fun earlier later => earlier.at_ < later.at_)
include hasc

lemma share_nonneg (hpaid : ∀ turn ∈ input.buckets.flatten, 0 ≤ turn.usd)
    (hpositive : ∀ point ∈ input.points, 0 < point.usdPerPercent) {turn : Turn}
    (hturn : turn ∈ input.buckets.flatten) : 0 ≤ contribution input turn := by
  by_cases hin : inPeriod input turn.tsMs = true
  · by_cases hmeas : isMeasured input turn = true
    · rw [contribution_measured hasc hin hmeas (hpaid turn hturn)]
      exact div_nonneg (mul_nonneg (segmentAmount_nonneg hasc _) (hpaid turn hturn))
        (segmentUsd_nonneg hpaid ((segmentIndex_lt hasc turn).mpr hmeas))
    · rcases (hpaid turn hturn).eq_or_lt with hfree | hpriced
      · unfold contribution share turnShare
        rw [← hfree]
        simp
      · unfold contribution
        rw [share_later hasc hin (Bool.eq_false_iff.mpr hmeas) hpriced]
        cases hpoint : factorPointAtOrEarliest input.points (turn.tsMs.tdiv 1000) with
        | none => exact le_rfl
        | some point =>
          exact div_nonneg hpriced.le (hpositive point (mem_of_factorPoint hpoint)).le
  · unfold contribution
    rw [share_outside (Bool.eq_false_iff.mpr hin)]
    exact le_rfl

lemma unexplained_nonneg :
    ∀ entry ∈ (sharePeriod input).unexplained, 0 ≤ entry.2 := by
  intro entry hentry
  rw [unexplained_eq] at hentry
  obtain ⟨⟨seg, usd⟩, hseg, rfl⟩ := List.mem_map.mp hentry
  have hmem := (List.of_mem_zip (List.mem_filter.mp hseg).1).1
  exact mul_nonneg ((meterSegments_measures hasc).rises seg hmem)
    (shareScale_nonneg hasc)

end

/-! ### Closing a period at 100 percent -/

/-- The input with the reading of 100 percent at the reset. -/
def closed (input : ShareInput) : ShareInput :=
  { input with readings := input.readings ++ [⟨input.reset, 100⟩] }

lemma closed_ascending (h : input.Valid) :
    (closed input).readings.Pairwise fun earlier later => earlier.at_ < later.at_ := by
  refine List.pairwise_append.mpr ⟨h.ascending, List.pairwise_singleton _ _, ?_⟩
  intro reading hread last hlast
  rw [List.mem_singleton.mp hlast]
  exact (h.inside reading hread).2

lemma closed_measured (hin : inPeriod (closed input) turn.tsMs = true) :
    isMeasured (closed input) turn = true := by
  unfold isMeasured closed
  rw [List.getLast?_concat]
  unfold inPeriod at hin
  rw [Bool.and_eq_true, decide_eq_true_eq, decide_eq_true_eq] at hin
  exact decide_eq_true hin.2.le

lemma closed_total (h : input.Valid) : (sharePeriod (closed input)).total = 100 := by
  have hpaid : ∀ turn ∈ (closed input).buckets.flatten, 0 ≤ turn.usd := by
    intro turn hturn
    obtain ⟨bucket, hbucket, hmem⟩ := List.mem_flatten.mp hturn
    exact h.paid bucket hbucket turn hmem
  have hlast : lastPercent (closed input) = 100 := by
    unfold lastPercent closed
    rw [List.getLast?_concat]
    exact max_eq_left (by norm_num)
  have hall : ((closed input).buckets.flatten.map (contribution (closed input))).sum =
      (((closed input).buckets.flatten.filter (isMeasured (closed input))).map
        (contribution (closed input))).sum := by
    rw [ProRata.sum_filter_map]
    refine congrArg List.sum (List.map_congr_left fun turn _ => ?_)
    by_cases hmeas : isMeasured (closed input) turn = true
    · rw [if_pos hmeas]
    · rw [if_neg hmeas]
      have hout : inPeriod (closed input) turn.tsMs = false :=
        Bool.eq_false_iff.mpr fun hin => hmeas (closed_measured hin)
      unfold contribution
      rw [share_outside hout]
      rfl
  unfold SharedPeriod.total
  rw [sum_bucketPercent, hall, measured_total (closed_ascending h) hpaid, hlast]

lemma sharePeriodCapped_eq (now : Int) :
    sharePeriodCapped input now =
      if now < input.reset ∨ (sharePeriod input).total ≤ 100 then sharePeriod input
      else { sharePeriod (closed input) with
        coverageUntil := (sharePeriod input).coverageUntil
        meterRegressions := (sharePeriod input).meterRegressions } := rfl

end Contributions

/-- **Meter shares are conserved.**  What the measured turns get and what is unexplained is the
last reading; a later turn gets its dollars by the factor of its time; nothing is negative; the
buckets only group; and a closed period that overshoots has exactly 100 percent. -/
theorem shares_conserved {input : ShareInput} (h : input.Valid) (now : Int) :
    (((input.buckets.flatten.filter (isMeasured input)).map (contribution input)).sum +
        ((sharePeriod input).unexplained.map Prod.snd).sum = lastPercent input) ∧
      (∀ turn, inPeriod input turn.tsMs = true → isMeasured input turn = false → 0 < turn.usd →
        share input turn = (factorPointAtOrEarliest input.points (turn.tsMs.tdiv 1000)).map
          fun point => turn.usd / point.usdPerPercent) ∧
      ((∀ turn ∈ input.buckets.flatten, 0 ≤ contribution input turn) ∧
        ∀ entry ∈ (sharePeriod input).unexplained, 0 ≤ entry.2) ∧
      ((∀ bucket, bucketShare (share input) bucket =
          if (bucket.any fun turn => (share input turn).isSome) = true then
            some (bucket.map (contribution input)).sum else none) ∧
        (∀ left right, bucketShare (share input) (left ++ right) =
          joinShares (bucketShare (share input) left) (bucketShare (share input) right)) ∧
        (∀ bucket bucket', bucket.Perm bucket' →
          bucketShare (share input) bucket = bucketShare (share input) bucket') ∧
        ∀ buckets, buckets.flatten.Perm input.buckets.flatten →
          (sharePeriod (regroup input buckets)).bucketPercent =
              buckets.map (bucketShare (share input)) ∧
            (sharePeriod (regroup input buckets)).unexplained =
              (sharePeriod input).unexplained) ∧
      (now < input.reset ∨ (sharePeriod input).total ≤ 100 →
        sharePeriodCapped input now = sharePeriod input) ∧
      (input.reset ≤ now → 100 < (sharePeriod input).total →
        (sharePeriodCapped input now).total = 100) := by
  have hpaid : ∀ turn ∈ input.buckets.flatten, 0 ≤ turn.usd := by
    intro turn hturn
    obtain ⟨bucket, hbucket, hmem⟩ := List.mem_flatten.mp hturn
    exact h.paid bucket hbucket turn hmem
  refine ⟨measured_total h.ascending hpaid, fun turn hin hlater hpriced =>
    share_later h.ascending hin hlater hpriced,
    ⟨fun turn hturn => share_nonneg h.ascending hpaid h.positive hturn,
      unexplained_nonneg h.ascending⟩,
    ⟨fun bucket => bucketShare_eq _ bucket, bucketShare_append, fun _ _ hperm =>
      bucketShare_perm hperm, fun buckets hperm => ⟨?_, unexplained_regroup hperm⟩⟩, ?_, ?_⟩
  · rw [bucketPercent_eq, share_regroup hperm]
    rfl
  · intro hopen
    rw [sharePeriodCapped_eq, if_pos hopen]
  · intro hreset hover
    rw [sharePeriodCapped_eq, if_neg (by
      rintro (hopen | hfits)
      · exact absurd hreset (not_le.mpr hopen)
      · exact absurd hover (not_lt.mpr hfits))]
    exact closed_total h

/-- A period read at eight percent, with later usage that its factor takes past the end. -/
def overshotPeriod : ShareInput where
  start := 0
  reset := 18000
  readings := [⟨100, 3⟩, ⟨200, 8⟩]
  buckets := [[⟨50000, 2⟩], [⟨250000, 300⟩]]
  points := [⟨0, 2⟩]

lemma overshotPeriod_valid : overshotPeriod.Valid where
  open_ := by decide
  ascending := by decide
  inside := by decide
  paid := by decide
  positive := by decide

/-- Once it is closed, the period has 100 percent. -/
theorem shares_conserved_overshot : (sharePeriodCapped overshotPeriod 18000).total = 100 := by
  obtain ⟨-, -, -, -, -, hcapped⟩ := shares_conserved overshotPeriod_valid 18000
  exact hcapped (by decide) (by decide +kernel)

end Quota

end Antiburn
