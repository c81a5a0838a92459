/-
Resolved quota windows tile without overlap.

Observed windows of a weekly lane are sorted and end where the next one starts, so
that they are apart; cadence slots are apart as multiples of one length, and all of
them that can matter are among the slots counted.  A five-hour window is opened at a
turn that no window holds, and the last window opened reaches furthest.
-/
import Antiburn.QuotaWindows
import Mathlib

namespace Antiburn

namespace Quota

/-- The times in a window. -/
def QuotaPeriod.span (period : QuotaPeriod) : Set Int :=
  Set.Ico period.startsAtEpoch period.resetsAtEpoch

/-- Two windows have no time in common. -/
def Apart (a b : QuotaPeriod) : Prop := Disjoint a.span b.span

variable {anchorReset laneDuration : Int} {observed inferred : List QuotaPeriod}
  {openUntil : Option Int} {a b window : QuotaPeriod}

lemma Apart.symm (h : Apart a b) : Apart b a := Disjoint.symm h

lemma apart_of_le (h : a.resetsAtEpoch ≤ b.startsAtEpoch) : Apart a b :=
  Set.disjoint_left.mpr fun _ ha hb => absurd (ha.2.trans_le h) (not_lt.mpr hb.1)

lemma Apart.pairwise_perm {l l' : List QuotaPeriod} (h : l.Perm l') (hl : l.Pairwise Apart) :
    l'.Pairwise Apart := (h.pairwise_iff fun hab => hab.symm).mp hl

/-! ### Observed windows of a weekly lane -/

lemma mergeReading_sublist (merged : List QuotaPeriod) (period : QuotaPeriod) :
    (mergeReading merged period).Sublist (merged ++ [period]) := by
  unfold mergeReading
  cases hlast : merged.getLast? with
  | none => exact List.Sublist.refl _
  | some last =>
    dsimp only
    split_ifs
    · exact (List.dropLast_sublist merged).append_right [period]
    · exact List.sublist_append_left merged [period]
    · exact List.Sublist.refl _

lemma foldl_mergeReading_sublist (periods merged : List QuotaPeriod) :
    (periods.foldl mergeReading merged).Sublist (merged ++ periods) := by
  induction periods generalizing merged with
  | nil =>
    rw [List.append_nil]
    exact List.Sublist.refl _
  | cons period rest ih =>
    rw [List.foldl_cons, List.append_cons]
    exact (ih _).trans ((mergeReading_sublist merged period).append_right rest)

lemma startsBefore_trans (a b c : QuotaPeriod) (hab : startsBefore a b = true)
    (hbc : startsBefore b c = true) : startsBefore a c = true := by
  simp only [startsBefore, Bool.or_eq_true, Bool.and_eq_true, decide_eq_true_eq, beq_iff_eq] at *
  omega

lemma startsBefore_total (a b : QuotaPeriod) :
    (startsBefore a b || startsBefore b a) = true := by
  simp only [startsBefore, Bool.or_eq_true, Bool.and_eq_true, decide_eq_true_eq, beq_iff_eq]
  omega

lemma startsBefore_le (h : startsBefore a b = true) :
    a.startsAtEpoch ≤ b.startsAtEpoch := by
  simp only [startsBefore, Bool.or_eq_true, Bool.and_eq_true, decide_eq_true_eq, beq_iff_eq] at h
  omega

lemma truncateWindows_cons (period : QuotaPeriod) (rest : List QuotaPeriod) :
    ∃ cut, truncateWindows (period :: rest) = cut :: truncateWindows rest ∧
      cut.startsAtEpoch = period.startsAtEpoch ∧ cut.periodId = period.periodId ∧
      ∀ next ∈ rest.head?, cut.resetsAtEpoch ≤ next.startsAtEpoch := by
  cases rest with
  | nil => exact ⟨period, rfl, rfl, rfl, fun _ h => nomatch h⟩
  | cons next rest =>
    by_cases hcut : next.startsAtEpoch < period.resetsAtEpoch
    · refine ⟨{ period with resetsAtEpoch := next.startsAtEpoch, resetSource := .truncated },
        ?_, rfl, rfl, ?_⟩
      · rw [truncateWindows, if_pos hcut]
      · rintro other ⟨⟩
        exact le_rfl
    · refine ⟨period, ?_, rfl, rfl, ?_⟩
      · rw [truncateWindows, if_neg hcut]
      · rintro other ⟨⟩
        exact not_lt.mp hcut

variable {k rangeStart rangeEnd now turnEpoch : Int} {rest : List Int} {periods : List QuotaPeriod}
  {lane : String}

lemma mem_truncateWindows
    (h : window ∈ truncateWindows periods) :
    ∃ period ∈ periods, window.startsAtEpoch = period.startsAtEpoch ∧
      window.periodId = period.periodId := by
  induction periods with
  | nil => cases h
  | cons period rest ih =>
    obtain ⟨cut, heq, hstart, hid, -⟩ := truncateWindows_cons period rest
    rw [heq] at h
    rcases List.mem_cons.mp h with rfl | hrest
    · exact ⟨period, List.mem_cons_self, hstart, hid⟩
    · obtain ⟨other, hother, hsame⟩ := ih hrest
      exact ⟨other, List.mem_cons_of_mem _ hother, hsame⟩

lemma truncateWindows_apart
    (h : periods.Pairwise fun a b => a.startsAtEpoch ≤ b.startsAtEpoch) :
    (truncateWindows periods).Pairwise Apart := by
  induction periods with
  | nil => exact .nil
  | cons period rest ih =>
    obtain ⟨hhead, hrest⟩ := List.pairwise_cons.mp h
    obtain ⟨cut, heq, -, -, hnext⟩ := truncateWindows_cons period rest
    rw [heq, List.pairwise_cons]
    refine ⟨fun window hwindow => apart_of_le ?_, ih hrest⟩
    obtain ⟨other, hother, hstart, -⟩ := mem_truncateWindows hwindow
    cases rest with
    | nil => cases hother
    | cons next rest =>
      have hle : next.startsAtEpoch ≤ other.startsAtEpoch := by
        rcases List.mem_cons.mp hother with rfl | hlater
        · exact le_rfl
        · exact (List.pairwise_cons.mp hrest).1 other hlater
      rw [hstart]
      exact (hnext next rfl).trans hle

/-- **The observed windows of a weekly lane are apart, and each has its row.** -/
lemma clipTruncated_spec (periods : List QuotaPeriod) :
    (clipTruncatedWeeklyWindows periods).Pairwise Apart ∧
      ∀ window ∈ clipTruncatedWeeklyWindows periods, ∃ period ∈ periods,
        window.periodId = period.periodId := by
  have hsorted := (List.pairwise_mergeSort startsBefore_trans startsBefore_total periods).imp
    fun h => startsBefore_le h
  have hmerged := foldl_mergeReading_sublist (periods.mergeSort startsBefore) []
  rw [List.nil_append] at hmerged
  refine ⟨(truncateWindows_apart (hsorted.sublist hmerged)).sublist List.filter_sublist, ?_⟩
  intro window hwindow
  obtain ⟨period, hperiod, -, hid⟩ := mem_truncateWindows (List.mem_filter.mp hwindow).1
  exact ⟨period, (List.mergeSort_perm _ _).mem_iff.mp (hmerged.subset hperiod), hid⟩

lemma resolveObserved_id {period : ProviderUsagePeriod}
    (h : resolveObserved period lane = some window) : window.periodId = some period.id := by
  obtain ⟨start, -, rfl⟩ := Option.map_eq_some_iff.mp h
  rfl

lemma resolvedWindows_id {observed : List ProviderUsagePeriod}
    (h : window ∈ resolvedWindows lane observed) :
    window.periodId.isSome = true := by
  have hrow : ∀ period ∈ observed.filterMap fun period => resolveObserved period lane,
      period.periodId.isSome = true := by
    intro period hperiod
    obtain ⟨row, -, hrow⟩ := List.mem_filterMap.mp hperiod
    rw [resolveObserved_id hrow]
    rfl
  unfold resolvedWindows at h
  dsimp only at h
  split_ifs at h
  · obtain ⟨period, hperiod, hid⟩ := (clipTruncated_spec _).2 window h
    rw [hid]
    exact hrow period hperiod
  · exact hrow window h

/-! ### Cadence slots -/

lemma divFloor_eq {numerator denominator : Int} (h : 0 < denominator) :
    divFloor numerator denominator = numerator / denominator := by
  unfold divFloor
  dsimp only
  have hmul := Int.mul_tdiv_add_tmod numerator denominator
  have hmod := Int.tmod_lt_of_pos numerator h
  have hlow : -denominator < numerator.tmod denominator := Int.lt_tmod_of_pos numerator h
  have hdiv := Int.mul_ediv_add_emod numerator denominator
  have hnonneg := Int.emod_nonneg numerator h.ne'
  have hlt := Int.emod_lt_of_pos numerator h
  have hunique : ∀ q r : Int, denominator * q + r = numerator → 0 ≤ r → r < denominator →
      q = numerator / denominator := by
    intro q r heq hr hr'
    rw [← heq, Int.mul_add_ediv_left _ _ h.ne', Int.ediv_eq_zero_of_lt hr hr', add_zero]
  split_ifs with hdown
  · have hneg : numerator.tmod denominator < 0 := by
      obtain ⟨hne, hsign⟩ := hdown
      have hden : decide (denominator < 0) = false := decide_eq_false h.not_gt
      rw [hden] at hsign
      exact of_decide_eq_true (by simpa using hsign)
    refine hunique _ (numerator.tmod denominator + denominator) ?_ (by omega) (by omega)
    rw [mul_sub, mul_one]
    omega
  · refine hunique _ (numerator.tmod denominator) hmul ?_ hmod
    by_contra hneg
    rw [not_le] at hneg
    refine hdown ⟨hneg.ne, ?_⟩
    rw [decide_eq_true hneg, decide_eq_false h.not_gt]
    decide

lemma mem_stepsBetween {kMin kMax : Int} :
    k ∈ stepsBetween kMin kMax ↔ kMin ≤ k ∧ k ≤ kMax := by
  unfold stepsBetween
  rw [List.mem_map]
  constructor
  · rintro ⟨step, hstep, rfl⟩
    rw [List.mem_range] at hstep
    omega
  · rintro ⟨hlow, hhigh⟩
    refine ⟨(k - kMin).toNat, List.mem_range.mpr (by omega), by omega⟩

lemma stepsBetween_strict (kMin kMax : Int) : (stepsBetween kMin kMax).Pairwise (· < ·) := by
  unfold stepsBetween
  rw [List.pairwise_map]
  exact List.pairwise_lt_range.imp fun h => by omega

/-- **All slots that meet the range or are open are among those counted.** -/
lemma mem_weeklyCadenceSlots
    (hdur : 0 < laneDuration) (k : Int)
    (hshown : inRangeOrOpen rangeStart rangeEnd now (cadenceSlot anchorReset laneDuration k) = true) :
    cadenceSlot anchorReset laneDuration k ∈
      weeklyCadenceSlots anchorReset laneDuration rangeStart rangeEnd now := by
  unfold weeklyCadenceSlots
  refine List.mem_filter.mpr ⟨List.mem_map_of_mem (mem_stepsBetween.mpr ?_), hshown⟩
  have hshown : anchorReset + k * laneDuration - laneDuration < rangeEnd ∧
      rangeStart < anchorReset + k * laneDuration ∨
        anchorReset + k * laneDuration - laneDuration ≤ now ∧
          now < anchorReset + k * laneDuration := by
    unfold inRangeOrOpen at hshown
    rw [Bool.or_eq_true, Bool.and_eq_true, Bool.and_eq_true, decide_eq_true_iff,
      decide_eq_true_iff, decide_eq_true_iff, decide_eq_true_iff] at hshown
    exact hshown
  rw [divFloor_eq hdur, divFloor_eq hdur]
  have hlow : min rangeStart now - laneDuration - anchorReset ≤ k * laneDuration := by omega
  have hhigh : k * laneDuration ≤ max rangeEnd now + laneDuration - anchorReset := by omega
  constructor
  · have := Int.ediv_le_ediv hdur hlow
    rwa [Int.mul_ediv_cancel _ hdur.ne'] at this
  · have := Int.ediv_le_ediv hdur hhigh
    rw [Int.mul_ediv_cancel _ hdur.ne'] at this
    omega

lemma cadenceSlot_apart (hdur : 0 < laneDuration)
    {j : Int} (h : j < k) :
    Apart (cadenceSlot anchorReset laneDuration j) (cadenceSlot anchorReset laneDuration k) := by
  refine apart_of_le ?_
  show anchorReset + j * laneDuration ≤ anchorReset + k * laneDuration - laneDuration
  have hstep : (j + 1) * laneDuration ≤ k * laneDuration :=
    Int.mul_le_mul_of_nonneg_right (by omega) hdur.le
  rw [add_mul, one_mul] at hstep
  omega

lemma weeklyCadenceSlots_apart (hdur : 0 < laneDuration)
    (rangeStart rangeEnd now : Int) :
    (weeklyCadenceSlots anchorReset laneDuration rangeStart rangeEnd now).Pairwise Apart := by
  unfold weeklyCadenceSlots
  refine List.Pairwise.sublist List.filter_sublist ?_
  rw [List.pairwise_map]
  exact (stepsBetween_strict _ _).imp fun h => cadenceSlot_apart hdur h

lemma cadence_id {slot : QuotaPeriod}
    (h : slot ∈ weeklyCadenceSlots anchorReset laneDuration rangeStart rangeEnd now) :
    slot.periodId = none ∧ inRangeOrOpen rangeStart rangeEnd now slot = true := by
  obtain ⟨hmem, hshown⟩ := List.mem_filter.mp h
  obtain ⟨k, -, rfl⟩ := List.mem_map.mp hmem
  exact ⟨rfl, hshown⟩

/-! ### Five-hour windows -/

lemma isObserved_iff :
    isObserved observed turnEpoch = true ↔ ∃ window ∈ observed, turnEpoch ∈ window.span := by
  unfold isObserved
  rw [List.any_eq_true]
  simp only [Bool.and_eq_true, decide_eq_true_eq]
  rfl

lemma turnWindow_spec (observed : List QuotaPeriod) (turnEpoch : Int) :
    turnEpoch < (turnWindow observed turnEpoch).resetsAtEpoch ∧
      ∀ window ∈ observed, turnEpoch < window.startsAtEpoch →
        (turnWindow observed turnEpoch).resetsAtEpoch ≤ window.startsAtEpoch := by
  have hdur : laneDurationSeconds LANE_FIVE_HOUR = 18000 := by decide
  unfold turnWindow
  rw [hdur]
  dsimp only
  cases hmin : ((observed.map QuotaPeriod.startsAtEpoch).filter fun start =>
      turnEpoch < start && start < turnEpoch + 18000).min? with
  | none =>
    refine ⟨by rw [Option.getD_none]; omega, fun window hwindow hlater => ?_⟩
    rw [Option.getD_none]
    by_contra hinside
    rw [not_le] at hinside
    have hmem : window.startsAtEpoch ∈ (observed.map QuotaPeriod.startsAtEpoch).filter fun start =>
        turnEpoch < start && start < turnEpoch + 18000 :=
      List.mem_filter.mpr ⟨List.mem_map_of_mem hwindow, by simp [hlater, hinside]⟩
    rw [List.min?_eq_none_iff.mp hmin] at hmem
    cases hmem
  | some least =>
    obtain ⟨hmem, hleast⟩ := List.min?_eq_some_iff.mp hmin
    have hbounds := (List.mem_filter.mp hmem).2
    rw [Bool.and_eq_true, decide_eq_true_eq, decide_eq_true_eq] at hbounds
    refine ⟨hbounds.1, fun window hwindow hlater => ?_⟩
    rw [Option.getD_some]
    by_cases hinside : window.startsAtEpoch < turnEpoch + 18000
    · exact hleast _ (List.mem_filter.mpr
        ⟨List.mem_map_of_mem hwindow, by simp [hlater, hinside]⟩)
    · omega

lemma turnWindow_apart
    (hfree : isObserved observed turnEpoch = false) :
    ∀ window ∈ observed, Apart (turnWindow observed turnEpoch) window := by
  intro window hwindow
  rcases lt_or_ge turnEpoch window.startsAtEpoch with hlater | hearlier
  · exact apart_of_le ((turnWindow_spec observed turnEpoch).2 window hwindow hlater)
  · refine (apart_of_le ?_ : Apart window _).symm
    by_contra hinside
    rw [not_le] at hinside
    have hheld : isObserved observed turnEpoch = true :=
      isObserved_iff.mpr ⟨window, hwindow, hearlier, hinside⟩
    rw [hfree] at hheld
    cases hheld

structure Opened (observed inferred : List QuotaPeriod) (openUntil : Option Int)
    (turns : List Int) : Prop where
  apart : inferred.Pairwise Apart
  observedApart : ∀ window ∈ inferred, ∀ other ∈ observed, Apart window other
  unbacked : ∀ window ∈ inferred, window.periodId = none
  few : inferred.length ≤ MAX_INFERRED_WINDOWS
  /-- No window reaches further than the end that is remembered. -/
  ends : ∀ window ∈ inferred, ∃ limit ∈ openUntil, window.resetsAtEpoch ≤ limit
  /-- The end that is remembered is that of a window which started before all that is left. -/
  last : ∀ limit ∈ openUntil, ∃ window ∈ inferred, window.resetsAtEpoch = limit ∧
    ∀ turn ∈ turns, window.startsAtEpoch ≤ turn

section

variable {turn : Int} (h : Opened observed inferred openUntil (turn :: rest))
include h

lemma Opened.skip :
    Opened observed inferred openUntil rest :=
  { h with
    last := fun limit hlimit => by
      obtain ⟨window, hwindow, hreset, hbefore⟩ := h.last limit hlimit
      exact ⟨window, hwindow, hreset, fun other hother =>
        hbefore other (List.mem_cons_of_mem _ hother)⟩ }

lemma Opened.push (hroom : inferred.length < MAX_INFERRED_WINDOWS)
    (hlate : ∀ limit ∈ openUntil, limit ≤ turn) (hfree : isObserved observed turn = false)
    (hrest : ∀ other ∈ rest, turn ≤ other) :
    Opened observed (inferred ++ [turnWindow observed turn])
      (some (turnWindow observed turn).resetsAtEpoch) rest where
  apart := by
    refine List.pairwise_append.mpr ⟨h.apart, List.pairwise_singleton _ _, ?_⟩
    intro window hwindow other hother
    rw [List.mem_singleton.mp hother]
    obtain ⟨limit, hlimit, hle⟩ := h.ends window hwindow
    exact apart_of_le (hle.trans (hlate limit hlimit))
  observedApart := by
    intro window hwindow other hother
    rcases List.mem_append.mp hwindow with hold | hnew
    · exact h.observedApart window hold other hother
    · rw [List.mem_singleton.mp hnew]
      exact turnWindow_apart hfree other hother
  unbacked := by
    intro window hwindow
    rcases List.mem_append.mp hwindow with hold | hnew
    · exact h.unbacked window hold
    · rw [List.mem_singleton.mp hnew]
      rfl
  few := by
    rw [List.length_append, List.length_singleton]
    exact hroom
  ends := by
    intro window hwindow
    refine ⟨_, rfl, ?_⟩
    rcases List.mem_append.mp hwindow with hold | hnew
    · obtain ⟨limit, hlimit, hle⟩ := h.ends window hold
      exact (hle.trans (hlate limit hlimit)).trans (turnWindow_spec observed turn).1.le
    · rw [List.mem_singleton.mp hnew]
  last := by
    rintro limit ⟨⟩
    exact ⟨_, List.mem_append_right _ List.mem_cons_self, rfl, hrest⟩

end

/-- **The windows that are inferred are apart, and hold every turn unless there are too many.** -/
lemma inferFrom_spec {turns : List Int}
    (hturns : turns.Pairwise (· ≤ ·))
    (h : Opened observed inferred openUntil turns) :
    let all := inferFrom observed inferred openUntil turns
    (∃ limit, Opened observed all limit []) ∧ inferred ⊆ all ∧
      (all.length = MAX_INFERRED_WINDOWS ∨
        ∀ turn ∈ turns, ∃ window ∈ observed ++ all, turn ∈ window.span) := by
  induction turns generalizing inferred openUntil with
  | nil => exact ⟨⟨openUntil, h⟩, List.Subset.refl _, .inr fun _ hturn => nomatch hturn⟩
  | cons turn rest ih =>
    obtain ⟨hhead, hrest⟩ := List.pairwise_cons.mp hturns
    have hcovered : ∀ {all : List QuotaPeriod}, (∃ window ∈ observed ++ all, turn ∈ window.span) →
        (all.length = MAX_INFERRED_WINDOWS ∨
          ∀ other ∈ rest, ∃ window ∈ observed ++ all, other ∈ window.span) →
        (all.length = MAX_INFERRED_WINDOWS ∨
          ∀ other ∈ turn :: rest, ∃ window ∈ observed ++ all, other ∈ window.span) := by
      intro all hturn hothers
      refine hothers.imp_right fun hothers other hother => ?_
      rcases List.mem_cons.mp hother with rfl | hother
      · exact hturn
      · exact hothers other hother
    dsimp only
    rw [inferFrom]
    by_cases hfull : MAX_INFERRED_WINDOWS ≤ inferred.length
    · rw [if_pos hfull]
      have hnone : Opened observed inferred openUntil [] :=
        { h with
          last := fun limit hlimit => by
            obtain ⟨window, hwindow, hreset, -⟩ := h.last limit hlimit
            exact ⟨window, hwindow, hreset, fun _ hother => nomatch hother⟩ }
      exact ⟨⟨openUntil, hnone⟩, List.Subset.refl _, .inl (le_antisymm h.few hfull)⟩
    · rw [if_neg hfull]
      by_cases hheld : ((openUntil.any fun limit => decide (turn < limit)) ||
          isObserved observed turn) = true
      · rw [if_pos hheld]
        obtain ⟨hopened, hsub, hrests⟩ := ih hrest h.skip
        refine ⟨hopened, hsub, hcovered ?_ hrests⟩
        rcases Bool.or_eq_true_iff.mp hheld with hopen | hobs
        · cases openUntil with
          | none => cases hopen
          | some limit =>
            obtain ⟨window, hwindow, hreset, hbefore⟩ := h.last limit rfl
            have hlt : turn < limit := of_decide_eq_true hopen
            exact ⟨window, List.mem_append_right _ (hsub hwindow),
              hbefore turn List.mem_cons_self, hreset.symm ▸ hlt⟩
        · obtain ⟨window, hwindow, hspan⟩ := isObserved_iff.mp hobs
          exact ⟨window, List.mem_append_left _ hwindow, hspan⟩
      · rw [if_neg hheld]
        rw [Bool.not_eq_true, Bool.or_eq_false_iff] at hheld
        have hlate : ∀ limit ∈ openUntil, limit ≤ turn := by
          rintro limit hlimit
          rw [Option.mem_def] at hlimit
          have hnot := hheld.1
          rw [hlimit] at hnot
          exact not_lt.mp (of_decide_eq_false hnot)
        obtain ⟨hopened, hsub, hrests⟩ :=
          ih hrest (h.push (not_le.mp hfull) hlate hheld.2 hhead)
        refine ⟨hopened, fun window hwindow => hsub (List.mem_append_left _ hwindow),
          hcovered ?_ hrests⟩
        exact ⟨turnWindow observed turn, List.mem_append_right _ (hsub
          (List.mem_append_right _ List.mem_cons_self)), le_rfl,
          (turnWindow_spec observed turn).1⟩

lemma inferFiveHourWindows_spec {turns : List Int}
    (hturns : turns.Pairwise (· ≤ ·)) :
    let inferred := inferFiveHourWindows observed turns
    (∃ limit, Opened observed inferred limit []) ∧
      (inferred.length = MAX_INFERRED_WINDOWS ∨
        ∀ turn ∈ turns, ∃ window ∈ observed ++ inferred, turn ∈ window.span) := by
  have hempty : Opened observed [] none turns :=
    { apart := .nil
      observedApart := fun _ h => absurd h List.not_mem_nil
      unbacked := fun _ h => absurd h List.not_mem_nil
      few := Nat.zero_le _
      ends := fun _ h => absurd h List.not_mem_nil
      last := fun _ h => nomatch h }
  obtain ⟨hopened, -, hcovered⟩ := inferFrom_spec hturns hempty
  exact ⟨hopened, hcovered⟩

/-! ### All windows -/

def furtherWindows (lane : String) (laneDuration : Int) (resolved : List QuotaPeriod)
    (turnEpochs : List Int) (rangeStart rangeEnd now : Int) : List QuotaPeriod :=
  if lane = LANE_FIVE_HOUR then
    (inferFiveHourWindows resolved turnEpochs).filter (inRangeOrOpen rangeStart rangeEnd now)
  else
    match (anchorReset? resolved).filter fun _ => isWeeklyLike lane with
    | some anchor =>
      (weeklyCadenceSlots anchor laneDuration rangeStart rangeEnd now).filter fun slot =>
        !overlapsAnyByMoreThanJitter slot resolved
    | none => []

section Resolved

variable {lane : String} {laneDuration : Int} {observed : List ProviderUsagePeriod}
  {turnEpochs : List Int} {rangeStart rangeEnd now : Int}

lemma resolvePeriods_perm :
    (resolvePeriods lane laneDuration observed turnEpochs rangeStart rangeEnd now).Perm
      ((resolvedWindows lane observed).filter (inRangeOrOpen rangeStart rangeEnd now) ++
        furtherWindows lane laneDuration (resolvedWindows lane observed) turnEpochs rangeStart
          rangeEnd now) := List.mergeSort_perm _ _

lemma resolvePeriods_sorted :
    (resolvePeriods lane laneDuration observed turnEpochs rangeStart rangeEnd now).Pairwise
      fun a b => a.startsAtEpoch ≤ b.startsAtEpoch := by
  refine (List.pairwise_mergeSort (fun a b c hab hbc => ?_) (fun a b => ?_) _).imp
    fun h => of_decide_eq_true h
  · exact decide_eq_true ((of_decide_eq_true hab).trans (of_decide_eq_true hbc))
  · rw [Bool.or_eq_true, decide_eq_true_eq, decide_eq_true_eq]
    exact le_total _ _

lemma further_spec {window : QuotaPeriod} (hturns : turnEpochs.Pairwise (· ≤ ·))
    (h : window ∈ furtherWindows lane laneDuration (resolvedWindows lane observed) turnEpochs
      rangeStart rangeEnd now) :
    window.periodId = none ∧ inRangeOrOpen rangeStart rangeEnd now window = true := by
  unfold furtherWindows at h
  split_ifs at h
  · obtain ⟨hmem, hshown⟩ := List.mem_filter.mp h
    obtain ⟨⟨limit, hopened⟩, -⟩ := inferFiveHourWindows_spec hturns
    exact ⟨hopened.unbacked window hmem, hshown⟩
  · cases hanchor : (anchorReset? (resolvedWindows lane observed)).filter fun _ =>
        isWeeklyLike lane with
    | none =>
      rw [hanchor] at h
      cases h
    | some anchor =>
      rw [hanchor] at h
      exact cadence_id (List.mem_filter.mp h).1

lemma filter_resolvePeriods (hturns : turnEpochs.Pairwise (· ≤ ·)) :
    ((resolvePeriods lane laneDuration observed turnEpochs rangeStart rangeEnd now).filter
        fun window => window.periodId.isSome).Perm
      ((resolvedWindows lane observed).filter (inRangeOrOpen rangeStart rangeEnd now)) ∧
    ((resolvePeriods lane laneDuration observed turnEpochs rangeStart rangeEnd now).filter
        fun window => window.periodId.isNone).Perm
      (furtherWindows lane laneDuration (resolvedWindows lane observed) turnEpochs rangeStart
        rangeEnd now) := by
  have hbacked : ∀ window ∈ (resolvedWindows lane observed).filter
      (inRangeOrOpen rangeStart rangeEnd now), window.periodId.isSome = true :=
    fun window hwindow => resolvedWindows_id (List.mem_filter.mp hwindow).1
  have hfurther : ∀ window ∈ furtherWindows lane laneDuration (resolvedWindows lane observed)
      turnEpochs rangeStart rangeEnd now, window.periodId = none :=
    fun window hwindow => (further_spec hturns hwindow).1
  have hnoRow : ∀ window ∈ furtherWindows lane laneDuration (resolvedWindows lane observed)
      turnEpochs rangeStart rangeEnd now, ¬window.periodId.isSome = true := by
    intro window hwindow
    rw [hfurther window hwindow]
    exact Bool.false_ne_true
  have hrow : ∀ window ∈ (resolvedWindows lane observed).filter
      (inRangeOrOpen rangeStart rangeEnd now), ¬window.periodId.isNone = true := by
    intro window hwindow
    rw [Option.isNone_iff_eq_none]
    exact Option.isSome_iff_ne_none.mp (hbacked window hwindow)
  have hnone : ∀ window ∈ furtherWindows lane laneDuration (resolvedWindows lane observed)
      turnEpochs rangeStart rangeEnd now, window.periodId.isNone = true := by
    intro window hwindow
    rw [hfurther window hwindow]
    rfl
  constructor
  · refine (resolvePeriods_perm.filter _).trans ?_
    rw [List.filter_append, List.filter_eq_self.mpr hbacked, List.filter_eq_nil_iff.mpr hnoRow,
      List.append_nil]
  · refine (resolvePeriods_perm.filter _).trans ?_
    rw [List.filter_append, List.filter_eq_self.mpr hnone, List.filter_eq_nil_iff.mpr hrow,
      List.nil_append]

lemma laneDuration_pos (lane : String) : 0 < laneDurationSeconds lane := by
  unfold laneDurationSeconds
  split_ifs <;> decide

lemma fiveHour_not_weekly : isWeeklyLike LANE_FIVE_HOUR = false := by decide

/-- **Resolved quota windows tile without overlap.**  A window with a row is observed, and one
without a row is a cadence slot of a weekly lane or inferred for the five-hour lane. -/
theorem resolved_windows_tile {observed : List ProviderUsagePeriod}
    (hturns : turnEpochs.Pairwise (· ≤ ·)) :
    let resolved := resolvedWindows lane observed
    let periods := resolvePeriods lane (laneDurationSeconds lane) observed turnEpochs rangeStart
      rangeEnd now
    (periods.Pairwise fun a b => a.startsAtEpoch ≤ b.startsAtEpoch) ∧
      (∀ window ∈ periods, inRangeOrOpen rangeStart rangeEnd now window = true) ∧
      (isWeeklyLike lane = true →
        (periods.filter fun window => window.periodId.isSome).Pairwise Apart ∧
          (periods.filter fun window => window.periodId.isNone).Pairwise Apart ∧
          (∀ slot ∈ periods, slot.periodId = none → ∀ window ∈ resolved,
            overlapSeconds slot window ≤ RESET_JITTER_SECS) ∧
          ∀ anchor ∈ anchorReset? resolved, ∀ k,
            inRangeOrOpen rangeStart rangeEnd now
                (cadenceSlot anchor (laneDurationSeconds lane) k) = true →
              (∀ window ∈ resolved, overlapSeconds
                (cadenceSlot anchor (laneDurationSeconds lane) k) window ≤ RESET_JITTER_SECS) →
              cadenceSlot anchor (laneDurationSeconds lane) k ∈ periods) ∧
      (lane = LANE_FIVE_HOUR →
        (periods.filter fun window => window.periodId.isNone).Pairwise Apart ∧
          (∀ window ∈ periods, window.periodId = none → ∀ other ∈ resolved, Apart window other) ∧
          ((inferFiveHourWindows resolved turnEpochs).length = MAX_INFERRED_WINDOWS ∨
            ∀ turn ∈ turnEpochs, ∃ window ∈ resolved ++ inferFiveHourWindows resolved turnEpochs,
              turn ∈ window.span)) := by
  dsimp only
  have hperm := @resolvePeriods_perm lane (laneDurationSeconds lane) observed turnEpochs rangeStart
    rangeEnd now
  obtain ⟨hbacked, hunbacked⟩ := @filter_resolvePeriods lane (laneDurationSeconds lane) observed
    turnEpochs rangeStart rangeEnd now hturns
  have hfurther : ∀ window ∈ resolvePeriods lane (laneDurationSeconds lane) observed turnEpochs
      rangeStart rangeEnd now, window.periodId = none →
        window ∈ furtherWindows lane (laneDurationSeconds lane) (resolvedWindows lane observed)
          turnEpochs rangeStart rangeEnd now :=
    fun window hwindow hnone => hunbacked.mem_iff.mp
      (List.mem_filter.mpr ⟨hwindow, by rw [hnone]; rfl⟩)
  refine ⟨resolvePeriods_sorted, fun window hwindow => ?_, fun hweekly => ?_, ?_⟩
  · rcases List.mem_append.mp (hperm.mem_iff.mp hwindow) with hresolved | hnew
    · exact (List.mem_filter.mp hresolved).2
    · exact (further_spec hturns hnew).2
  · have hlane : lane ≠ LANE_FIVE_HOUR := by
      rintro rfl
      rw [fiveHour_not_weekly] at hweekly
      cases hweekly
    have hslots : ∀ anchor ∈ anchorReset? (resolvedWindows lane observed),
        furtherWindows lane (laneDurationSeconds lane) (resolvedWindows lane observed) turnEpochs
          rangeStart rangeEnd now =
          (weeklyCadenceSlots anchor (laneDurationSeconds lane) rangeStart rangeEnd now).filter
            fun slot => !overlapsAnyByMoreThanJitter slot (resolvedWindows lane observed) := by
      intro anchor hanchor
      unfold furtherWindows
      rw [if_neg hlane, Option.mem_def.mp hanchor, Option.filter_some, if_pos hweekly]
    have hjitter : ∀ slot : QuotaPeriod,
        overlapsAnyByMoreThanJitter slot (resolvedWindows lane observed) = false ↔
          ∀ window ∈ resolvedWindows lane observed,
            overlapSeconds slot window ≤ RESET_JITTER_SECS := by
      intro slot
      unfold overlapsAnyByMoreThanJitter
      rw [List.any_eq_false]
      simp only [decide_eq_true_eq, not_lt]
    have hnone : anchorReset? (resolvedWindows lane observed) = none →
        furtherWindows lane (laneDurationSeconds lane) (resolvedWindows lane observed) turnEpochs
          rangeStart rangeEnd now = [] := by
      intro hanchor
      unfold furtherWindows
      rw [if_neg hlane, hanchor]
      rfl
    refine ⟨?_, ?_, ?_, ?_⟩
    · refine Apart.pairwise_perm hbacked.symm (List.Pairwise.sublist List.filter_sublist ?_)
      unfold resolvedWindows
      rw [if_pos hweekly]
      exact (clipTruncated_spec _).1
    · refine Apart.pairwise_perm hunbacked.symm ?_
      cases hanchor : anchorReset? (resolvedWindows lane observed) with
      | none =>
        rw [hnone hanchor]
        exact .nil
      | some anchor =>
        rw [hslots anchor hanchor]
        exact (weeklyCadenceSlots_apart (laneDuration_pos lane) _ _ _).sublist List.filter_sublist
    · intro slot hslot hid
      have hmem := hfurther slot hslot hid
      cases hanchor : anchorReset? (resolvedWindows lane observed) with
      | none =>
        rw [hnone hanchor] at hmem
        cases hmem
      | some anchor =>
        rw [hslots anchor hanchor] at hmem
        exact (hjitter slot).mp (Bool.not_eq_true' _ |>.mp (List.mem_filter.mp hmem).2)
    · intro anchor hanchor k hshown hfree
      refine hperm.mem_iff.mpr (List.mem_append_right _ ?_)
      rw [hslots anchor hanchor]
      refine List.mem_filter.mpr ⟨mem_weeklyCadenceSlots (laneDuration_pos lane) k hshown, ?_⟩
      rw [(hjitter _).mpr hfree]
      rfl
  · rintro rfl
    obtain ⟨⟨limit, hopened⟩, hcovered⟩ :=
      @inferFiveHourWindows_spec (resolvedWindows LANE_FIVE_HOUR observed) turnEpochs hturns
    have hinferred : furtherWindows LANE_FIVE_HOUR (laneDurationSeconds LANE_FIVE_HOUR)
        (resolvedWindows LANE_FIVE_HOUR observed) turnEpochs rangeStart rangeEnd now =
          (inferFiveHourWindows (resolvedWindows LANE_FIVE_HOUR observed) turnEpochs).filter
            (inRangeOrOpen rangeStart rangeEnd now) := if_pos rfl
    refine ⟨?_, fun window hwindow hid other hother => ?_, hcovered⟩
    · refine Apart.pairwise_perm hunbacked.symm ?_
      rw [hinferred]
      exact hopened.apart.sublist List.filter_sublist
    · have hmem := hfurther window hwindow hid
      rw [hinferred] at hmem
      exact hopened.observedApart window (List.mem_filter.mp hmem).1 other hother

end Resolved

/-- Turns of a lane for which the provider stated nothing. -/
theorem resolved_windows_tile_unstated :
    ∃ window ∈ inferFiveHourWindows [] [0, 100, 20000], 20000 ∈ window.span := by
  have hnone : resolvedWindows LANE_FIVE_HOUR [] = [] := rfl
  obtain ⟨-, -, -, hfive⟩ :=
    @resolved_windows_tile LANE_FIVE_HOUR [0, 100, 20000] 0 30000 25000 [] (by decide)
  rw [hnone] at hfive
  obtain ⟨-, -, hfull | hcovered⟩ := hfive rfl
  · exact absurd hfull (by decide)
  · exact hcovered 20000 (by decide)

end Quota

end Antiburn
