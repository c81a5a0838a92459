/-
Sharing the rise of a provider meter among the usage of a period.

Dollars and percents are exact rationals.  The readings of a period are merged into
segments; each turn takes a share of the rise of its segment, in proportion to its
dollars, and a turn after the last reading is estimated from a factor point.
-/
import Antiburn.ActiveTime
import Antiburn.Lib.ProRata
import Mathlib

namespace Antiburn

/-- A learned exchange rate, from the time it takes effect. -/
structure FactorPoint where
  effectiveAtEpoch : Int
  usdPerPercent : ℚ

def factorPointAtOrEarliest (points : List FactorPoint) (atEpoch : Int) : Option FactorPoint :=
  let split := (points.takeWhile fun point => point.effectiveAtEpoch ≤ atEpoch).length
  if split = 0 then points.head? else points[split - 1]?

namespace Quota

def MIN_SHARE_SEGMENT_PERCENT : ℚ := 2

def MAX_SHARE_SEGMENT_SECS : Int := 3 * 3600

structure Turn where
  tsMs : Int
  usd : ℚ

structure Reading where
  at_ : Int
  percent : ℚ

structure ShareInput where
  start : Int
  reset : Int
  readings : List Reading
  buckets : List (List Turn)
  points : List FactorPoint

/-- A stretch of the meter up to a time, with what it rose by. -/
structure Segment where
  toMs : Int
  rise : ℚ

structure SharedPeriod where
  bucketPercent : List (Option ℚ)
  unexplained : List (Int × ℚ)
  coverageUntil : Option Int
  meterRegressions : Nat

/-- `saturating_mul(1_000)`. -/
def millis (seconds : Int) : Int := saturateI64 (seconds * 1000)

/-! ### Segments -/

/-- The state of the pass over the readings: the segments so far, the regressions counted,
and the reading that the next segment starts from. -/
structure MeterWalk where
  segments : List Segment
  meterRegressions : Nat
  from_ : Reading

/-- `close_segment`, and the segment pushed. -/
def MeterWalk.close (walk : MeterWalk) (reading : Reading) : MeterWalk :=
  let rise := reading.percent - walk.from_.percent
  { segments := walk.segments ++ [⟨millis reading.at_, max rise 0⟩]
    meterRegressions := if rise < 0 then walk.meterRegressions + 1 else walk.meterRegressions
    from_ := reading }

/-- A reading ends a segment where the meter rose enough, or enough time went by. -/
def MeterWalk.read (walk : MeterWalk) (reading : Reading) : MeterWalk :=
  if MIN_SHARE_SEGMENT_PERCENT ≤ reading.percent - walk.from_.percent ∨
      MAX_SHARE_SEGMENT_SECS ≤ reading.at_ - walk.from_.at_ then walk.close reading
  else walk

/-- The last reading ends a segment, unless one ended there already. -/
def MeterWalk.finish (walk : MeterWalk) (last : Reading) : MeterWalk :=
  if walk.from_.at_ ≠ last.at_ then walk.close last else walk

def meterSegments : List Reading → List Segment × Nat
  | [] => ([], 0)
  | first :: rest =>
    let opened : MeterWalk := MeterWalk.close ⟨[], 0, ⟨first.at_, 0⟩⟩ first
    let walk := (rest.foldl MeterWalk.read opened).finish (rest.getLastD first)
    (walk.segments, walk.meterRegressions)

/-! ### Shares -/

section Share

variable (input : ShareInput)

def inPeriod (tsMs : Int) : Bool := millis input.start ≤ tsMs && tsMs < millis input.reset

/-- A turn at the time of a reading belongs to that reading, not to the tail. -/
def segmentIndex (segments : List Segment) (tsMs : Int) : Nat :=
  (segments.takeWhile fun segment => segment.toMs < tsMs).length

def chargeTurn (segments : List Segment) (usd : List ℚ) (turn : Turn) : List ℚ :=
  if inPeriod input turn.tsMs then usd.modify (segmentIndex segments turn.tsMs) (· + turn.usd)
  else usd

def segmentUsd (segments : List Segment) : List ℚ :=
  input.buckets.foldl (fun usd bucket => bucket.foldl (chargeTurn input segments) usd)
    (List.replicate segments.length 0)

def lastPercent : ℚ := max ((input.readings.getLast?).elim 0 Reading.percent) 0

/-- A correction of the meter downward reduces the allocated total as well. -/
def shareScale (segments : List Segment) : ℚ :=
  let measuredTotal := (segments.map Segment.rise).sum
  if lastPercent input < measuredTotal then lastPercent input / measuredTotal else 1

/-- What one turn adds to its bucket, if it is priced. -/
def turnShare (segments : List Segment) (usd : List ℚ) (turn : Turn) : Option ℚ :=
  if !inPeriod input turn.tsMs || turn.usd ≤ 0 then none
  else
    let index := segmentIndex segments turn.tsMs
    match segments[index]? with
    | some segment => some (segment.rise * shareScale input segments * turn.usd / usd.getD index 0)
    | none =>
      (factorPointAtOrEarliest input.points (turn.tsMs.tdiv 1000)).map fun point =>
        turn.usd / point.usdPerPercent

def addShare (share : Turn → Option ℚ) (bucket : ℚ × Bool) (turn : Turn) : ℚ × Bool :=
  match share turn with
  | some percent => (bucket.1 + percent, true)
  | none => bucket

/-- The percent of a bucket; none where nothing is priced. -/
def bucketShare (share : Turn → Option ℚ) (bucket : List Turn) : Option ℚ :=
  let (total, priced) := bucket.foldl (addShare share) (0, false)
  if priced then some total else none

def unexplainedEntries (segments : List Segment) (usd : List ℚ) : List (Int × ℚ) :=
  ((segments.zip usd).filter fun entry => decide (0 < entry.1.rise) && entry.2 == 0).map
    fun entry => (entry.1.toMs.tdiv 1000, entry.1.rise * shareScale input segments)

def sharePeriod : SharedPeriod :=
  let (segments, regressions) := meterSegments input.readings
  let usd := segmentUsd input segments
  { bucketPercent := input.buckets.map (bucketShare (turnShare input segments usd))
    unexplained := unexplainedEntries input segments usd
    coverageUntil := (input.readings.getLast?).map Reading.at_
    meterRegressions := regressions }

/-- All percents of a period, those of no bucket included. -/
def SharedPeriod.total (shared : SharedPeriod) : ℚ :=
  (shared.bucketPercent.map (·.getD 0)).sum + (shared.unexplained.map Prod.snd).sum

/-- Closes an overshooting historical estimate at 100 percent, and keeps open estimates. -/
def sharePeriodCapped (now : Int) : SharedPeriod :=
  let uncapped := sharePeriod input
  if now < input.reset ∨ uncapped.total ≤ 100 then uncapped
  else
    let capped := sharePeriod { input with readings := input.readings ++ [⟨input.reset, 100⟩] }
    { capped with
      coverageUntil := uncapped.coverageUntil
      meterRegressions := uncapped.meterRegressions }

end Share

/-! ### What the segments measure -/

structure ShareInput.Valid (input : ShareInput) : Prop where
  open_ : input.start < input.reset
  ascending : input.readings.Pairwise fun earlier later => earlier.at_ < later.at_
  inside : ∀ reading ∈ input.readings, input.start ≤ reading.at_ ∧ reading.at_ < input.reset
  paid : ∀ bucket ∈ input.buckets, ∀ turn ∈ bucket, 0 ≤ turn.usd
  positive : ∀ point ∈ input.points, 0 < point.usdPerPercent

lemma millis_mono {a b : Int} (h : a ≤ b) : millis a ≤ millis b :=
  saturateI64_mono (by omega)

structure MeterWalk.Sound (walk : MeterWalk) : Prop where
  ends : walk.segments.getLast?.map Segment.toMs = some (millis walk.from_.at_)
  sorted : ∀ segment ∈ walk.segments, segment.toMs ≤ millis walk.from_.at_
  rises : ∀ segment ∈ walk.segments, 0 ≤ segment.rise
  covers : walk.from_.percent ≤ (walk.segments.map Segment.rise).sum

variable {readings : List Reading} {walk : MeterWalk}

lemma MeterWalk.Sound.close {reading : Reading}
    (hsorted : ∀ seg ∈ walk.segments, seg.toMs ≤ millis walk.from_.at_)
    (hrises : ∀ seg ∈ walk.segments, 0 ≤ seg.rise)
    (hcovers : walk.from_.percent ≤ (walk.segments.map Segment.rise).sum)
    (hlater : walk.from_.at_ ≤ reading.at_) : (walk.close reading).Sound := by
  refine ⟨?_, ?_, ?_, ?_⟩
  · simp [MeterWalk.close]
  · intro seg hseg
    rcases List.mem_append.mp hseg with hold | hnew
    · exact (hsorted seg hold).trans (millis_mono hlater)
    · cases List.mem_singleton.mp hnew
      exact le_rfl
  · intro seg hseg
    rcases List.mem_append.mp hseg with hold | hnew
    · exact hrises seg hold
    · cases List.mem_singleton.mp hnew
      exact le_max_right _ _
  · show reading.percent ≤ ((walk.segments ++ [_]).map Segment.rise).sum
    rw [List.map_append, List.sum_append, List.map_singleton, List.sum_singleton]
    have hrise : reading.percent - walk.from_.percent ≤ max (reading.percent - walk.from_.percent) 0 :=
      le_max_left _ _
    linarith

lemma foldl_read_spec {rest : List Reading} (hsound : walk.Sound)
    (hasc : (walk.from_ :: rest).Pairwise fun earlier later => earlier.at_ < later.at_) :
    (rest.foldl MeterWalk.read walk).Sound ∧
      (rest.foldl MeterWalk.read walk).from_ ∈ walk.from_ :: rest := by
  induction rest generalizing walk with
  | nil => exact ⟨hsound, List.mem_cons_self⟩
  | cons reading rest ih =>
    obtain ⟨hhead, htail⟩ := List.pairwise_cons.mp hasc
    rw [List.foldl_cons]
    by_cases hread : MIN_SHARE_SEGMENT_PERCENT ≤ reading.percent - walk.from_.percent ∨
        MAX_SHARE_SEGMENT_SECS ≤ reading.at_ - walk.from_.at_
    · have hstep : walk.read reading = walk.close reading := if_pos hread
      rw [hstep]
      have hlater := (hhead reading List.mem_cons_self).le
      obtain ⟨hfinal, hmem⟩ := ih
        (MeterWalk.Sound.close hsound.sorted hsound.rises hsound.covers hlater) htail
      exact ⟨hfinal, List.mem_cons_of_mem _ hmem⟩
    · have hstep : walk.read reading = walk := if_neg hread
      rw [hstep]
      have hskip : (walk.from_ :: rest).Pairwise fun earlier later => earlier.at_ < later.at_ :=
        List.pairwise_cons.mpr ⟨fun other hother => hhead other (List.mem_cons_of_mem _ hother),
          (List.pairwise_cons.mp htail).2⟩
      obtain ⟨hfinal, hmem⟩ := ih hsound hskip
      refine ⟨hfinal, ?_⟩
      rcases List.mem_cons.mp hmem with hsame | hrest
      · exact List.mem_cons.mpr (.inl hsame)
      · exact List.mem_cons_of_mem _ (List.mem_cons_of_mem _ hrest)

structure Measures (segments : List Segment) (last : Option Reading) : Prop where
  ends : segments.getLast?.map Segment.toMs = last.map fun reading => millis reading.at_
  sorted : ∀ segment ∈ segments, ∀ reading ∈ last, segment.toMs ≤ millis reading.at_
  rises : ∀ segment ∈ segments, 0 ≤ segment.rise
  covers : last.elim 0 Reading.percent ≤ (segments.map Segment.rise).sum

section

variable (hasc : readings.Pairwise fun earlier later => earlier.at_ < later.at_)
include hasc

lemma eq_of_time
    {a b : Reading} (ha : a ∈ readings) (hb : b ∈ readings) (h : a.at_ = b.at_) : a = b := by
  have hnodup : (readings.map Reading.at_).Nodup :=
    (List.pairwise_map.mpr hasc).imp fun hlt => ne_of_lt hlt
  exact List.inj_on_of_nodup_map hnodup ha hb h

lemma time_le_last {last : Reading} (hlast : readings.getLast? = some last) {reading : Reading}
    (hreading : reading ∈ readings) : reading.at_ ≤ last.at_ := by
  obtain ⟨before, rfl⟩ := List.getLast?_eq_some_iff.mp hlast
  rcases List.mem_append.mp hreading with hbefore | hsame
  · exact ((List.pairwise_append.mp hasc).2.2 reading hbefore last
      List.mem_cons_self).le
  · rw [List.mem_singleton.mp hsame]

end

lemma finish_spec {last : Reading}
    (hasc : readings.Pairwise fun earlier later => earlier.at_ < later.at_)
    (hlast : readings.getLast? = some last) (hsound : walk.Sound) (hmem : walk.from_ ∈ readings) :
    (walk.finish last).Sound ∧ (walk.finish last).from_ = last := by
  unfold MeterWalk.finish
  split_ifs with hopen
  · exact ⟨MeterWalk.Sound.close hsound.sorted hsound.rises hsound.covers
      (time_le_last hasc hlast hmem), rfl⟩
  · exact ⟨hsound, eq_of_time hasc hmem (List.mem_of_getLast? hlast) (not_not.mp hopen)⟩

/-- **The segments of ascending readings measure the last of them.** -/
lemma meterSegments_measures
    (hasc : readings.Pairwise fun earlier later => earlier.at_ < later.at_) :
    Measures (meterSegments readings).1 readings.getLast? := by
  cases readings with
  | nil => exact {
      ends := rfl
      sorted := fun _ h => absurd h List.not_mem_nil
      rises := fun _ h => absurd h List.not_mem_nil
      covers := le_rfl }
  | cons first rest =>
    have hopened : (MeterWalk.close ⟨[], 0, ⟨first.at_, 0⟩⟩ first).Sound :=
      MeterWalk.Sound.close (fun _ h => absurd h List.not_mem_nil)
        (fun _ h => absurd h List.not_mem_nil) le_rfl le_rfl
    obtain ⟨hsound, hmem⟩ := foldl_read_spec hopened hasc
    have hlast : (first :: rest).getLast? = some (rest.getLastD first) := by
      rw [List.getLast?_cons, List.getLastD_eq_getLast?]
    obtain ⟨hends, hreading⟩ := finish_spec hasc hlast hsound hmem
    rw [hlast]
    refine ⟨?_, ?_, hends.rises, ?_⟩
    · have h := hends.ends
      rw [hreading] at h
      exact h
    · rintro seg hseg reading ⟨⟩
      have h := hends.sorted seg hseg
      rw [hreading] at h
      exact h
    · have h := hends.covers
      rw [hreading] at h
      exact h

/-! ### The turns of a segment -/

section Segments

variable (input : ShareInput)

def isMeasured (turn : Turn) : Bool :=
  input.readings.getLast?.any fun reading => turn.tsMs ≤ millis reading.at_

def periodTurns : List Turn := input.buckets.flatten.filter fun turn => inPeriod input turn.tsMs

variable {input} {segments : List Segment}

lemma segmentIndex_lt_iff {last : Option Reading} (h : Measures segments last) {tsMs : Int} :
    segmentIndex segments tsMs < segments.length ↔
      (last.any fun reading => tsMs ≤ millis reading.at_) = true := by
  unfold segmentIndex
  constructor
  · intro hlt
    have hfound : ∃ seg ∈ segments, ¬seg.toMs < tsMs := by
      by_contra hnone
      push Not at hnone
      have hall : segments.takeWhile (fun seg => decide (seg.toMs < tsMs)) = segments :=
        List.takeWhile_eq_self_iff.mpr fun seg hseg => decide_eq_true (hnone seg hseg)
      rw [hall] at hlt
      exact lt_irrefl _ hlt
    obtain ⟨seg, hseg, hnot⟩ := hfound
    cases last with
    | none =>
      have hends := h.ends
      rw [Option.map_none, Option.map_eq_none_iff, List.getLast?_eq_none_iff] at hends
      rw [hends] at hseg
      cases hseg
    | some reading =>
      have hle := h.sorted seg hseg reading rfl
      show decide (tsMs ≤ millis reading.at_) = true
      exact decide_eq_true (by omega)
  · intro hlast
    obtain ⟨reading, hreading, hle⟩ := (Option.any_eq_true _ _).mp hlast
    rw [decide_eq_true_eq] at hle
    have hends := h.ends
    rw [hreading, Option.map_some, Option.map_eq_some_iff] at hends
    obtain ⟨seg, hseg, hto⟩ := hends
    by_contra hnot
    have hlen := (List.takeWhile_prefix (fun seg => decide (seg.toMs < tsMs))
      (l := segments)).length_le
    have hall : segments.takeWhile (fun seg => decide (seg.toMs < tsMs)) = segments :=
      (List.takeWhile_prefix _).eq_of_length (by omega)
    have hlt := List.takeWhile_eq_self_iff.mp hall seg (List.mem_of_getLast? hseg)
    have := of_decide_eq_true hlt
    omega

lemma length_chargeTurn (usd : List ℚ) (turn : Turn) :
    (chargeTurn input segments usd turn).length = usd.length := by
  unfold chargeTurn
  split_ifs
  · exact List.length_modify _ _ _
  · rfl

lemma getD_chargeTurn (usd : List ℚ) (turn : Turn) {i : Nat} (hi : i < usd.length) :
    (chargeTurn input segments usd turn).getD i 0 = usd.getD i 0 +
      if inPeriod input turn.tsMs = true ∧ segmentIndex segments turn.tsMs = i then turn.usd
      else 0 := by
  unfold chargeTurn
  by_cases hin : inPeriod input turn.tsMs = true
  · rw [if_pos hin]
    by_cases hsame : segmentIndex segments turn.tsMs = i
    · rw [if_pos ⟨hin, hsame⟩, hsame, List.getD_eq_getElem?_getD, List.getD_eq_getElem?_getD,
        List.getElem?_modify_eq, List.getElem?_eq_getElem hi]
      rfl
    · rw [if_neg (fun h => hsame h.2), add_zero, List.getD_eq_getElem?_getD,
        List.getD_eq_getElem?_getD, List.getElem?_modify_ne _ _ hsame]
  · rw [if_neg hin, if_neg (fun h => hin h.1), add_zero]

lemma foldl_chargeTurn (turns : List Turn) (usd : List ℚ) :
    (turns.foldl (chargeTurn input segments) usd).length = usd.length ∧
      ∀ i < usd.length, (turns.foldl (chargeTurn input segments) usd).getD i 0 = usd.getD i 0 +
        ProRata.classSum (fun turn => segmentIndex segments turn.tsMs) Turn.usd
          (turns.filter fun turn => inPeriod input turn.tsMs) i := by
  induction turns generalizing usd with
  | nil => exact ⟨rfl, fun i _ => (add_zero _).symm⟩
  | cons turn rest ih =>
    obtain ⟨hlen, hsum⟩ := ih (chargeTurn input segments usd turn)
    rw [length_chargeTurn] at hlen hsum
    refine ⟨hlen, fun i hi => ?_⟩
    rw [List.foldl_cons, hsum i hi, getD_chargeTurn usd turn hi, add_assoc]
    congr 1
    by_cases hin : inPeriod input turn.tsMs = true
    · rw [List.filter_cons, if_pos hin, ProRata.classSum_cons]
      simp only [hin, true_and]
    · rw [List.filter_cons, if_neg hin, if_neg (fun h => hin h.1), zero_add]

lemma segmentUsd_eq_foldl :
    segmentUsd input segments =
      input.buckets.flatten.foldl (chargeTurn input segments) (List.replicate segments.length 0) := by
  unfold segmentUsd
  rw [List.foldl_flatten]

lemma length_segmentUsd : (segmentUsd input segments).length = segments.length := by
  rw [segmentUsd_eq_foldl, (foldl_chargeTurn _ _).1, List.length_replicate]

lemma getD_segmentUsd {i : Nat} (hi : i < segments.length) :
    (segmentUsd input segments).getD i 0 =
      ProRata.classSum (fun turn => segmentIndex segments turn.tsMs) Turn.usd (periodTurns input)
        i := by
  have hi' : i < (List.replicate segments.length (0 : ℚ)).length := by rwa [List.length_replicate]
  rw [segmentUsd_eq_foldl, (foldl_chargeTurn _ _).2 i hi', List.getD_eq_getElem?_getD,
    List.getElem?_replicate_of_lt hi, Option.getD_some, zero_add]
  rfl

end Segments

end Quota

end Antiburn
