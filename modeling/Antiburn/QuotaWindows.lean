/-
The quota windows that a lane ran through a time range.

A provider states the start and the reset of a window now and then.  Between those
statements the windows of a weekly lane are extrapolated by whole weeks from its
latest reset, and those of a five-hour lane are inferred from the turns.  Times are
in seconds, away from the limits of their machine type.
-/
import Mathlib

namespace Antiburn

namespace Quota

def LANE_FIVE_HOUR : String := "fiveHour"

def LANE_WEEKLY : String := "weekly"

def MODEL_LANE_PREFIX : String := "model:"

def RESET_JITTER_SECS : Int := 5

/-- Five-hour windows inferred from turn gaps, per call. -/
def MAX_INFERRED_WINDOWS : Nat := 400

def isWeeklyLike (lane : String) : Bool :=
  lane == LANE_WEEKLY || MODEL_LANE_PREFIX.toList.isPrefixOf lane.toList

def laneDurationSeconds (lane : String) : Int := if isWeeklyLike lane then 604800 else 18000

inductive BoundarySource where
  | reported | derived | cadence | turnGap | truncated

/-- One quota window: a span with a source for each end.  Only a window backed by an
observed row has an id. -/
structure QuotaPeriod where
  periodId : Option Int
  startsAtEpoch : Int
  resetsAtEpoch : Int
  startSource : BoundarySource
  resetSource : BoundarySource

structure ProviderUsagePeriod where
  id : Int
  startsAtEpoch : Option Int
  resetsAtEpoch : Option Int

/-! ### Observed windows -/

def windowStartEpoch (period : ProviderUsagePeriod) (lane : String) : Option Int :=
  period.startsAtEpoch.or (period.resetsAtEpoch.map (· - laneDurationSeconds lane))

/-- A boundary that is not stated is derived from the other one. -/
def resolveObserved (period : ProviderUsagePeriod) (lane : String) : Option QuotaPeriod :=
  (windowStartEpoch period lane).map fun start =>
    { periodId := some period.id
      startsAtEpoch := start
      resetsAtEpoch := period.resetsAtEpoch.getD (start + laneDurationSeconds lane)
      startSource := if period.startsAtEpoch.isSome then .reported else .derived
      resetSource := if period.resetsAtEpoch.isSome then .reported else .derived }

def mergeReading (merged : List QuotaPeriod) (period : QuotaPeriod) : List QuotaPeriod :=
  match merged.getLast? with
  | some last =>
    if |period.startsAtEpoch - last.startsAtEpoch| ≤ RESET_JITTER_SECS then
      if last.resetsAtEpoch < period.resetsAtEpoch then merged.dropLast ++ [period] else merged
    else merged ++ [period]
  | none => merged ++ [period]

def truncateWindows : List QuotaPeriod → List QuotaPeriod
  | [] => []
  | [last] => [last]
  | period :: next :: rest =>
    (if next.startsAtEpoch < period.resetsAtEpoch then
      { period with resetsAtEpoch := next.startsAtEpoch, resetSource := .truncated }
      else period) :: truncateWindows (next :: rest)

/-- The order of the readings: their starts, then their resets. -/
def startsBefore (a b : QuotaPeriod) : Bool :=
  a.startsAtEpoch < b.startsAtEpoch ||
    (a.startsAtEpoch == b.startsAtEpoch && a.resetsAtEpoch ≤ b.resetsAtEpoch)

def clipTruncatedWeeklyWindows (periods : List QuotaPeriod) : List QuotaPeriod :=
  (truncateWindows ((periods.mergeSort startsBefore).foldl mergeReading [])).filter fun period =>
    period.startsAtEpoch < period.resetsAtEpoch

def resolvedWindows (lane : String) (observed : List ProviderUsagePeriod) : List QuotaPeriod :=
  let resolved := observed.filterMap fun period => resolveObserved period lane
  if isWeeklyLike lane then clipTruncatedWeeklyWindows resolved else resolved

def inRangeOrOpen (rangeStart rangeEnd now : Int) (period : QuotaPeriod) : Bool :=
  (period.startsAtEpoch < rangeEnd && rangeStart < period.resetsAtEpoch) ||
    (period.startsAtEpoch ≤ now && now < period.resetsAtEpoch)

/-! ### Cadence -/

def overlapSeconds (left right : QuotaPeriod) : Int :=
  max (min left.resetsAtEpoch right.resetsAtEpoch - max left.startsAtEpoch right.startsAtEpoch) 0

def overlapsAnyByMoreThanJitter (slot : QuotaPeriod) (observed : List QuotaPeriod) : Bool :=
  observed.any fun period => RESET_JITTER_SECS < overlapSeconds slot period

/-- Floor division, as `/` and `%` give it where they truncate. -/
def divFloor (numerator denominator : Int) : Int :=
  let quotient := numerator.tdiv denominator
  let remainder := numerator.tmod denominator
  if remainder ≠ 0 ∧ decide (remainder < 0) ≠ decide (denominator < 0) then quotient - 1
  else quotient

def cadenceSlot (anchorReset laneDuration k : Int) : QuotaPeriod where
  periodId := none
  startsAtEpoch := anchorReset + k * laneDuration - laneDuration
  resetsAtEpoch := anchorReset + k * laneDuration
  startSource := .cadence
  resetSource := .cadence

/-- The integers from one to another. -/
def stepsBetween (kMin kMax : Int) : List Int :=
  (List.range (kMax + 1 - kMin).toNat).map fun step : Nat => kMin + (step : Int)

def weeklyCadenceSlots (anchorReset laneDuration rangeStart rangeEnd now : Int) :
    List QuotaPeriod :=
  let windowStart := min rangeStart now - laneDuration
  let windowEnd := max rangeEnd now + laneDuration
  let kMin := divFloor (windowStart - anchorReset) laneDuration
  let kMax := divFloor (windowEnd - anchorReset) laneDuration + 1
  ((stepsBetween kMin kMax).map (cadenceSlot anchorReset laneDuration)).filter
    (inRangeOrOpen rangeStart rangeEnd now)

/-! ### Turn gaps -/

def turnWindow (observed : List QuotaPeriod) (turnEpoch : Int) : QuotaPeriod :=
  let naturalReset := turnEpoch + laneDurationSeconds LANE_FIVE_HOUR
  { periodId := none
    startsAtEpoch := turnEpoch
    resetsAtEpoch := (((observed.map QuotaPeriod.startsAtEpoch).filter fun start =>
      turnEpoch < start && start < naturalReset).min?).getD naturalReset
    startSource := .turnGap
    resetSource := .turnGap }

def isObserved (observed : List QuotaPeriod) (turnEpoch : Int) : Bool :=
  observed.any fun period =>
    period.startsAtEpoch ≤ turnEpoch && turnEpoch < period.resetsAtEpoch

def inferFrom (observed : List QuotaPeriod) :
    List QuotaPeriod → Option Int → List Int → List QuotaPeriod
  | inferred, _, [] => inferred
  | inferred, openUntil, turnEpoch :: rest =>
    if MAX_INFERRED_WINDOWS ≤ inferred.length then inferred
    else if (openUntil.any fun limit => turnEpoch < limit) || isObserved observed turnEpoch then
      inferFrom observed inferred openUntil rest
    else
      let window := turnWindow observed turnEpoch
      inferFrom observed (inferred ++ [window]) (some window.resetsAtEpoch) rest

def inferFiveHourWindows (observed : List QuotaPeriod) (turnEpochs : List Int) :
    List QuotaPeriod :=
  inferFrom observed [] none turnEpochs

/-! ### All windows -/

def anchorReset? (resolved : List QuotaPeriod) : Option Int :=
  (resolved.map QuotaPeriod.resetsAtEpoch).max?

def resolvePeriods (lane : String) (laneDuration : Int) (observed : List ProviderUsagePeriod)
    (turnEpochs : List Int) (rangeStart rangeEnd now : Int) : List QuotaPeriod :=
  let resolved := resolvedWindows lane observed
  let shown := inRangeOrOpen rangeStart rangeEnd now
  let further :=
    if lane = LANE_FIVE_HOUR then (inferFiveHourWindows resolved turnEpochs).filter shown
    else
      match (anchorReset? resolved).filter fun _ => isWeeklyLike lane with
      | some anchor =>
        (weeklyCadenceSlots anchor laneDuration rangeStart rangeEnd now).filter fun slot =>
          !overlapsAnyByMoreThanJitter slot resolved
      | none => []
  (resolved.filter shown ++ further).mergeSort fun a b => a.startsAtEpoch ≤ b.startsAtEpoch

end Quota

end Antiburn
