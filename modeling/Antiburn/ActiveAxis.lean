/-
Positions on the active-time axis.

Through the prefix sums or through the fold over all segments, the position of a
timestamp is the active time of all segments up to it (`cumulativeMs_eq`).  That
is monotone.  The total, however, leaves out the idle gap behind the last
timestamp, and the position of a timestamp inside a compacted last segment is
interpolated over its whole span: `axis_monotone_iff` says when the position of
the millisecond before the last timestamp still lies within the total.
-/
import Antiburn.ActiveTime

namespace Antiburn

/-! ### Measuring -/

namespace ActiveSegment

variable {segment : ActiveSegment}

lemma measureTo_of_le {t : Int} (h : t ≤ segment.start) : segment.measureTo t = 0 := by
  unfold measureTo
  rw [if_pos h]

section

variable (hsized : Sized segment)
include hsized

lemma Sized.measureTo_of_ge {t : Int} (h : segment.stop ≤ t) :
    segment.measureTo t = segment.activeMs := by
  have := hsized.start_lt
  unfold measureTo
  rw [if_neg (by omega), if_pos h]

lemma Sized.spanMs_pos : 0 < segment.spanMs := by
  have := hsized.gap_le
  have := hsized.le_span
  unfold IDLE_GAP_MS at *
  omega

lemma Sized.measureTo_inside {t : Int} (h : segment.start < t)
    (h' : t < segment.stop) :
    segment.measureTo t =
      saturateI64 (segment.activeMs * saturateI64 (t - segment.start)) / segment.spanMs := by
  have hspan := hsized.spanMs_pos
  have hactive := hsized.activeMs_nonneg
  have helaps : 0 ≤ saturateI64 (t - segment.start) := saturateI64_nonneg (by omega)
  unfold measureTo
  rw [if_neg (by omega), if_neg (by omega), if_neg (by omega)]
  exact Int.tdiv_eq_ediv_of_nonneg (saturateI64_nonneg (Int.mul_nonneg hactive helaps))

lemma Sized.measureTo_nonneg (t : Int) : 0 ≤ segment.measureTo t := by
  rcases le_or_gt t segment.start with h | h
  · rw [measureTo_of_le h]
  · rcases le_or_gt segment.stop t with h' | h'
    · rw [hsized.measureTo_of_ge h']
      exact hsized.activeMs_nonneg
    · rw [hsized.measureTo_inside h h']
      refine Int.ediv_nonneg ?_ hsized.spanMs_pos.le
      have helaps : 0 ≤ saturateI64 (t - segment.start) := saturateI64_nonneg (by omega)
      exact saturateI64_nonneg (Int.mul_nonneg hsized.activeMs_nonneg helaps)

lemma Sized.measureTo_mono {s t : Int} (h : s ≤ t) :
    segment.measureTo s ≤ segment.measureTo t := by
  have hlt := hsized.start_lt
  rcases le_or_gt s segment.start with hs | hs
  · rw [measureTo_of_le hs]
    exact hsized.measureTo_nonneg t
  rcases le_or_gt segment.stop t with ht | ht
  · rw [hsized.measureTo_of_ge ht]
    rcases le_or_gt segment.stop s with hs' | hs'
    · rw [hsized.measureTo_of_ge hs']
    · -- a part of the span holds at most the active time of all of it
      rw [hsized.measureTo_inside hs hs']
      have helaps : saturateI64 (s - segment.start) ≤ segment.spanMs := by
        rw [spanMs_eq hlt.le]
        unfold saturateI64 AXIS_MAX
        omega
      have hle : saturateI64 (segment.activeMs * saturateI64 (s - segment.start)) ≤
          segment.activeMs * segment.spanMs := by
        refine le_trans ?_ (Int.mul_le_mul_of_nonneg_left helaps hsized.activeMs_nonneg)
        have helaps' : 0 ≤ saturateI64 (s - segment.start) := saturateI64_nonneg (by omega)
        have hproduct := Int.mul_nonneg hsized.activeMs_nonneg helaps'
        rw [saturateI64_of_nonneg hproduct]
        exact min_le_left _ _
      calc saturateI64 (segment.activeMs * saturateI64 (s - segment.start)) / segment.spanMs
          ≤ segment.activeMs * segment.spanMs / segment.spanMs :=
            Int.ediv_le_ediv hsized.spanMs_pos hle
        _ = segment.activeMs := Int.mul_ediv_cancel _ hsized.spanMs_pos.ne'
  · rw [hsized.measureTo_inside hs (by omega), hsized.measureTo_inside (by omega) ht]
    refine Int.ediv_le_ediv hsized.spanMs_pos (saturateI64_mono ?_)
    refine Int.mul_le_mul_of_nonneg_left (saturateI64_mono ?_) hsized.activeMs_nonneg
    omega

lemma Sized.measureTo_le (t : Int) :
    segment.measureTo t ≤ segment.activeMs := by
  rw [← hsized.measureTo_of_ge (le_max_right t segment.stop)]
  exact hsized.measureTo_mono (le_max_left t segment.stop)

end

end ActiveSegment

namespace ActiveSegments

open ActiveSegment

def totalActive (segments : List ActiveSegment) : Int :=
  (segments.map ActiveSegment.activeMs).sum

def totalTo (segments : List ActiveSegment) (t : Int) : Int :=
  (segments.map fun segment => segment.measureTo t).sum

variable {segments : List ActiveSegment}

section

variable (h : ∀ s ∈ segments, Sized s)
include h

lemma totalTo_nonneg (t : Int) :
    0 ≤ totalTo segments t :=
  List.sum_nonneg (by simpa using fun s hs => (h s hs).measureTo_nonneg t)

lemma totalTo_mono {s t : Int}
    (hst : s ≤ t) : totalTo segments s ≤ totalTo segments t :=
  List.sum_le_sum fun segment hs => (h segment hs).measureTo_mono hst

lemma totalTo_le (t : Int) :
    totalTo segments t ≤ totalActive segments :=
  List.sum_le_sum fun segment hs => (h segment hs).measureTo_le t

end

lemma totalTo_of_le {t : Int} (h : ∀ s ∈ segments, t ≤ s.start) :
    totalTo segments t = 0 := by
  refine List.sum_eq_zero fun x hx => ?_
  obtain ⟨segment, hs, rfl⟩ := List.mem_map.mp hx
  exact measureTo_of_le (h segment hs)

lemma totalTo_of_ge (hsized : ∀ s ∈ segments, Sized s) {t : Int}
    (h : ∀ s ∈ segments, s.stop ≤ t) : totalTo segments t = totalActive segments := by
  refine congrArg List.sum (List.map_congr_left fun segment hs => ?_)
  exact (hsized segment hs).measureTo_of_ge (h segment hs)

lemma totalTo_append (left right : List ActiveSegment) (t : Int) :
    totalTo (left ++ right) t = totalTo left t + totalTo right t := by
  rw [totalTo, List.map_append, List.sum_append]
  rfl

lemma totalActive_append (left right : List ActiveSegment) :
    totalActive (left ++ right) = totalActive left + totalActive right := by
  rw [totalActive, List.map_append, List.sum_append]
  rfl

lemma totalActive_nonneg (h : ∀ s ∈ segments, Sized s) :
    0 ≤ totalActive segments :=
  List.sum_nonneg (by simpa using fun s hs => (h s hs).activeMs_nonneg)

end ActiveSegments

/-! ### The two ways to measure -/

namespace CachedSegments

open ActiveSegment ActiveSegments

/-- A cache that is marked valid holds the sums of the present segments. -/
def PrefixCurrent (cached : CachedSegments) : Prop :=
  cached.prefixValid = true → cached.prefixSums = sumsFrom 0 cached.active.segments

variable {cached : CachedSegments} {segments : List ActiveSegment}

lemma getD_sumsFrom (hsized : ∀ s ∈ segments, Sized s)
    {total : Int} (htotal : 0 ≤ total) (hmax : total + totalActive segments ≤ AXIS_MAX)
    {index : Nat} (hindex : index < segments.length) :
    (sumsFrom total segments).getD index 0 = total + totalActive (segments.take index) := by
  induction segments generalizing total index with
  | nil => cases hindex
  | cons segment rest ih =>
    have hrest_sized : ∀ s ∈ rest, Sized s := fun s hs => hsized s (List.mem_cons_of_mem _ hs)
    have hhead := (hsized segment List.mem_cons_self).activeMs_nonneg
    have hrest := totalActive_nonneg hrest_sized
    have hsplit : totalActive (segment :: rest) = segment.activeMs + totalActive rest := rfl
    cases index with
    | zero =>
      have hnone : totalActive ((segment :: rest).take 0) = 0 := rfl
      rw [hnone, sumsFrom, List.getD_cons_zero]
      omega
    | succ index =>
      have htake : totalActive ((segment :: rest).take (index + 1)) =
          segment.activeMs + totalActive (rest.take index) := rfl
      rw [sumsFrom, List.getD_cons_succ, saturateI64_of_le (by omega) (by omega),
        ih hrest_sized (by omega) (by omega) (Nat.lt_of_succ_lt_succ hindex), htake]
      omega

lemma totalTo_eq_takeWhile (htidy : Tidy segments) (t : Int) :
    totalTo segments t =
      match (segments.takeWhile fun segment => segment.start < t).getLast? with
      | none => 0
      | some last =>
        totalActive (segments.takeWhile fun segment => segment.start < t).dropLast +
          last.measureTo t := by
  have hbehind : ∀ s ∈ segments.dropWhile (fun segment => segment.start < t), t ≤ s.start := by
    intro s hs
    have htest := @not_of_mem_dropWhile (fun segment => segment.start < t) _
      (List.Pairwise.imp_of_mem (fun {a b} ha _ hab hb => by
        have := (htidy.sized a ha).start_lt
        simp only [decide_eq_true_eq] at hb ⊢
        omega) htidy.apart) s hs
    simpa using htest
  have hsplit : segments.takeWhile (fun segment => segment.start < t) ++
      segments.dropWhile (fun segment => segment.start < t) = segments :=
    List.takeWhile_append_dropWhile
  have htotal : totalTo segments t =
      totalTo (segments.takeWhile fun segment => segment.start < t) t := by
    rw [← hsplit, totalTo_append, totalTo_of_le hbehind, hsplit]
    omega
  rw [htotal]
  cases hlast : (segments.takeWhile fun segment => segment.start < t).getLast? with
  | none =>
    rw [List.getLast?_eq_none_iff.mp hlast]
    rfl
  | some last =>
    obtain ⟨front, hfront⟩ := List.getLast?_eq_some_iff.mp hlast
    have hfront_sub : (front ++ [last]).Sublist segments := by
      rw [← hfront]
      exact List.takeWhile_sublist _
    have hlast_lt : last.start < t := by
      have htest := List.mem_takeWhile_imp (show last ∈ segments.takeWhile _ by
        rw [hfront]
        exact List.mem_append_right _ List.mem_cons_self)
      exact of_decide_eq_true htest
    have hfront_stop : ∀ s ∈ front, s.stop ≤ t := by
      intro s hs
      have := (List.pairwise_append.mp (htidy.apart.sublist hfront_sub)).2.2 s hs last
        List.mem_cons_self
      omega
    have hfront_sized : ∀ s ∈ front, Sized s := fun s hs =>
      htidy.sized s (hfront_sub.subset (List.mem_append_left _ hs))
    rw [hfront, totalTo_append, totalTo_of_ge hfront_sized hfront_stop, List.dropLast_concat]
    simp [totalTo]

lemma measureTo_eq (htidy : Tidy cached.active.segments)
    (hmax : totalActive cached.active.segments ≤ AXIS_MAX)
    (hcur : cached.prefixSums = sumsFrom 0 cached.active.segments) (t : Int) :
    cached.measureTo t = totalTo cached.active.segments t := by
  have hle := totalTo_le htidy.sized t
  have hnonneg := totalTo_nonneg htidy.sized t
  rw [totalTo_eq_takeWhile htidy] at hle hnonneg ⊢
  unfold measureTo
  dsimp only
  cases hlast : (cached.active.segments.takeWhile fun segment => segment.start < t).getLast? with
  | none => rfl
  | some last =>
    rw [hlast] at hle hnonneg
    obtain ⟨front, hfront⟩ := List.getLast?_eq_some_iff.mp hlast
    obtain ⟨behind, hbehind⟩ : ∃ behind, cached.active.segments = front ++ [last] ++ behind := by
      refine ⟨cached.active.segments.dropWhile fun segment => segment.start < t, ?_⟩
      rw [← hfront, List.takeWhile_append_dropWhile]
    have hindex : front.length < cached.active.segments.length := by
      rw [hbehind]
      simp
    have htake : cached.active.segments.take front.length = front := by
      rw [hbehind, List.append_assoc, List.take_left]
    rw [hfront, List.dropLast_concat] at hle hnonneg ⊢
    dsimp only at hle hnonneg ⊢
    rw [hcur, List.length_append, List.length_singleton, Nat.add_sub_cancel,
      getD_sumsFrom htidy.sized (le_refl 0) (by omega) hindex, htake, Int.zero_add,
      saturateI64_of_le hnonneg (by omega)]

lemma foldl_measure_eq (hsized : ∀ s ∈ segments, Sized s)
    {first t : Int} (hfirst : ∀ s ∈ segments, first ≤ s.start) {total : Int} (htotal : 0 ≤ total)
    (hmax : total + totalTo segments t ≤ AXIS_MAX) :
    segments.foldl (fun total segment =>
        saturateI64 (total + saturateI64 (segment.measureTo t - segment.measureTo first))) total =
      total + totalTo segments t := by
  induction segments generalizing total with
  | nil => simp [totalTo]
  | cons segment rest ih =>
    have hrest_sized : ∀ s ∈ rest, Sized s := fun s hs => hsized s (List.mem_cons_of_mem _ hs)
    have hseg := hsized segment List.mem_cons_self
    have hnonneg := hseg.measureTo_nonneg t
    have hrest := totalTo_nonneg hrest_sized t
    have hsplit : totalTo (segment :: rest) t = segment.measureTo t + totalTo rest t := rfl
    have hzero : segment.measureTo first = 0 := measureTo_of_le (hfirst segment List.mem_cons_self)
    rw [List.foldl_cons, hzero, Int.sub_zero, saturateI64_of_le hnonneg (by omega),
      saturateI64_of_le (by omega) (by omega),
      ih hrest_sized (fun s hs => hfirst s (List.mem_cons_of_mem _ hs)) (by omega) (by omega)]
    omega

structure Holds (timestamps : List Int) (cached : CachedSegments) : Prop where
  traces : Traces timestamps cached.active
  current : cached.PrefixCurrent

variable {timestamps : List Int}

lemma Holds.le_start
    (h : Holds timestamps cached) {first : Int} (hfirst : cached.active.firstTs = some first) :
    ∀ s ∈ cached.active.segments, first ≤ s.start := by
  intro s hs
  obtain ⟨m, hm, hstart⟩ := h.traces.coarse.start_mem s hs
  obtain ⟨t, ht, rfl⟩ := List.mem_map.mp hm
  have hleast := h.traces.range.least
  rw [hfirst] at hleast
  rw [← hstart]
  exact hleast.2 t ht

lemma Holds.cumulativeMs_eq {cached : CachedSegments}
    (h : Holds timestamps cached) (hmax : totalActive cached.active.segments ≤ AXIS_MAX)
    {first last t : Int} (hfirst : cached.active.firstTs = some first)
    (hlast : cached.active.lastTs = some last) :
    cached.cumulativeMs t =
      if t ≤ first then 0
      else if t ≥ last then cached.activeMs
      else totalTo cached.active.segments t := by
  have hle_start := h.le_start hfirst
  have htidy := h.traces.tidy
  have hle := totalTo_le htidy.sized t
  have hnonneg := totalTo_nonneg htidy.sized t
  unfold cumulativeMs
  rw [hfirst, hlast]
  dsimp only
  split
  · rfl
  split
  · rfl
  unfold measureBetween
  rw [if_neg (by omega)]
  split
  · rename_i hvalid
    rw [measureTo_eq htidy hmax (h.current hvalid), measureTo_eq htidy hmax (h.current hvalid),
      totalTo_of_le hle_start, Int.sub_zero, saturateI64_of_le hnonneg (by omega)]
  · rw [foldl_measure_eq htidy.sized hle_start (le_refl 0) (by omega)]
    omega

lemma activeMs_eq
    (h : Holds timestamps cached) (hmax : totalActive cached.active.segments ≤ AXIS_MAX)
    {first last : Int} (hfirst : cached.active.firstTs = some first)
    (hlast : cached.active.lastTs = some last) :
    cached.activeMs = totalActive cached.active.segments - IDLE_GAP_MS := by
  have hsized := h.traces.tidy.sized
  have hne : cached.active.segments ≠ [] := by
    intro hempty
    have hleast := h.traces.range.least
    rw [hfirst] at hleast
    obtain ⟨s, hs, -⟩ := h.traces.coarse.holds _ (List.mem_map_of_mem hleast.1)
    rw [hempty] at hs
    cases hs
  have hgap : IDLE_GAP_MS ≤ totalActive cached.active.segments := by
    obtain ⟨segment, hseg⟩ := List.exists_mem_of_ne_nil _ hne
    have hsingle : segment.activeMs ≤ totalActive cached.active.segments :=
      List.single_le_sum (by simpa using fun s hs => (hsized s hs).activeMs_nonneg) _
        (List.mem_map_of_mem hseg)
    exact (hsized segment hseg).gap_le.trans hsingle
  unfold activeMs ActiveSegments.activeMs
  rw [hfirst, hlast]
  dsimp only
  rw [sumActive_eq fun s hs => (hsized s hs).activeMs_nonneg]
  show max (saturateI64 (min (totalActive _) AXIS_MAX - IDLE_GAP_MS)) 0 = _
  rw [min_eq_left hmax, saturateI64_of_le (by omega) (by unfold IDLE_GAP_MS at *; omega)]
  omega

end CachedSegments

lemma ActiveHistory.holds (history : ActiveHistory)
    (h : ∀ t ∈ history.timestamps, ActiveSegments.InRange t) :
    history.run.Holds history.timestamps := by
  refine ⟨history.traces h, ?_⟩
  clear h
  induction history with
  | fresh | observe history t ih =>
    intro hvalid
    cases hvalid
  | merge history other ih ih' =>
    intro hvalid
    have hboth : history.run.prefixValid = true ∧ other.run.active.segments.isEmpty = true :=
      Bool.and_eq_true_iff.mp hvalid
    have hempty := List.isEmpty_iff.mp hboth.2
    have hsegs : (history.run.merge other.run).active.segments = history.run.active.segments := by
      unfold CachedSegments.merge ActiveSegments.merge
      dsimp only
      rw [hempty]
      rfl
    show history.run.prefixSums = _
    rw [ActiveHistory.run, hsegs]
    exact ih hboth.1
  | rebuildPrefix history ih => exact fun _ => rfl
  | restore history ih =>
    intro hvalid
    cases hvalid

/-! ### The axis -/

namespace CachedSegments

open ActiveSegment ActiveSegments

/-- The position of every timestamp lies within the total, and later timestamps
have no earlier positions. -/
def AxisMonotone (cached : CachedSegments) : Prop :=
  ∀ s t, s ≤ t → 0 ≤ cached.cumulativeMs s ∧ cached.cumulativeMs s ≤ cached.cumulativeMs t ∧
    cached.cumulativeMs t ≤ cached.activeMs

/-- The last segment, with its active time spread evenly, leaves an idle gap of
active time behind the last timestamp. -/
def TailFits (active : ActiveSegments) : Prop :=
  ∀ segment, active.segments.getLast? = some segment → ∀ last, active.lastTs = some last →
    segment.start < last - 1 →
      saturateI64 (segment.activeMs * saturateI64 (last - 1 - segment.start)) / segment.spanMs ≤
        segment.activeMs - IDLE_GAP_MS

section

variable {timestamps : List Int} {cached : CachedSegments} (h : Holds timestamps cached)
include h

lemma Holds.last_stop {front : List ActiveSegment} {segment : ActiveSegment}
    (hsegs : cached.active.segments = front ++ [segment]) {last : Int}
    (hlast : cached.active.lastTs = some last) : segment.stop = last + IDLE_GAP_MS := by
  have hgreat := h.traces.range.greatest
  rw [hlast] at hgreat
  obtain ⟨hmem, hle⟩ := hgreat
  have hsegment_mem : segment ∈ cached.active.segments := by
    rw [hsegs]
    exact List.mem_append_right _ List.mem_cons_self
  obtain ⟨m, hm, hstop⟩ := h.traces.coarse.stop_mem segment hsegment_mem
  obtain ⟨t, ht, rfl⟩ := List.mem_map.mp hm
  obtain ⟨s, hs, -, hhold⟩ := h.traces.coarse.holds _ (List.mem_map_of_mem hmem)
  -- the last timestamp ends in the last segment
  have hs_stop : s.stop ≤ segment.stop := by
    rw [hsegs] at hs
    rcases List.mem_append.mp hs with hs' | hs'
    · have hapart := h.traces.tidy.apart
      unfold Apart at hapart
      rw [hsegs] at hapart
      have := (List.pairwise_append.mp hapart).2.2 s hs' segment List.mem_cons_self
      have := (h.traces.tidy.sized segment hsegment_mem).start_lt
      omega
    · rw [List.mem_singleton.mp hs']
  have hle_t := hle t ht
  change t + IDLE_GAP_MS = segment.stop at hstop
  change last + IDLE_GAP_MS ≤ s.stop at hhold
  omega

lemma axisMonotone_iff_tailFits (hmax : totalActive cached.active.segments ≤ AXIS_MAX) :
    cached.AxisMonotone ↔ TailFits cached.active := by
  have hsized := h.traces.tidy.sized
  cases hfirst : cached.active.firstTs with
  | none =>
    have hleast := h.traces.range.least
    rw [hfirst] at hleast
    obtain rfl : timestamps = [] := hleast
    have hempty : cached.active.segments = [] := by
      refine List.eq_nil_iff_forall_not_mem.mpr fun s hs => ?_
      obtain ⟨f, hf, -⟩ := h.traces.coarse.start_mem s hs
      cases hf
    refine iff_of_true ?_ ?_
    · intro s t _
      simp [cumulativeMs, activeMs, ActiveSegments.activeMs, hfirst]
    · intro segment hseg
      rw [hempty] at hseg
      cases hseg
  | some first =>
    have hleast := h.traces.range.least
    rw [hfirst] at hleast
    obtain ⟨last, hlast⟩ : ∃ last, cached.active.lastTs = some last := by
      cases hlast : cached.active.lastTs with
      | none =>
        have hgreat := h.traces.range.greatest
        rw [hlast] at hgreat
        rw [show timestamps = [] from hgreat] at hleast
        cases hleast.1
      | some last => exact ⟨last, rfl⟩
    obtain ⟨front, segment, hsegs⟩ :
        ∃ front segment, cached.active.segments = front ++ [segment] := by
      obtain ⟨s, hs, -⟩ := h.traces.coarse.holds _ (List.mem_map_of_mem hleast.1)
      exact (List.eq_nil_or_concat' _).resolve_left (List.ne_nil_of_mem hs)
    have hseg : Sized segment := hsized segment (by rw [hsegs]; simp)
    have hstop := h.last_stop hsegs hlast
    have hfirst_le : first ≤ segment.start := h.le_start hfirst segment (by rw [hsegs]; simp)
    have hfront_sized : ∀ s ∈ front, Sized s := fun s hs => hsized s (by rw [hsegs]; simp [hs])
    have hfront_stop : ∀ s ∈ front, s.stop < segment.start := by
      have hapart := h.traces.tidy.apart
      unfold Apart at hapart
      rw [hsegs] at hapart
      exact fun s hs => (List.pairwise_append.mp hapart).2.2 s hs segment List.mem_cons_self
    have hcumul := fun t => @Holds.cumulativeMs_eq _ _ h hmax first last t hfirst hlast
    have hactive := activeMs_eq h hmax hfirst hlast
    have htotal : totalActive cached.active.segments = totalActive front + segment.activeMs := by
      rw [hsegs, totalActive_append]
      simp [totalActive]
    have hto : ∀ t, totalTo cached.active.segments t = totalTo front t + segment.measureTo t := by
      intro t
      rw [hsegs, totalTo_append]
      simp [totalTo]
    have hgap : 0 < IDLE_GAP_MS := by decide
    constructor
    · intro hmono segment' hsegment' last' hlast' hlt
      obtain rfl : segment = segment' := by
        rw [hsegs, List.getLast?_append_of_ne_nil _ (List.cons_ne_nil _ _)] at hsegment'
        exact Option.some.inj hsegment'
      obtain rfl : last = last' := Option.some.inj (hlast.symm.trans hlast')
      -- the millisecond before the last timestamp is the critical one
      have hwithin := (hmono (last - 1) (last - 1) (le_refl _)).2.2
      rw [hcumul, if_neg (by omega), if_neg (by omega), hactive, hto,
        totalTo_of_ge hfront_sized (fun s hs => by have := hfront_stop s hs; omega), htotal,
        hseg.measureTo_inside hlt (by omega)] at hwithin
      omega
    · intro hfits
      have hcritical : segment.measureTo (last - 1) ≤ segment.activeMs - IDLE_GAP_MS := by
        rcases le_or_gt (last - 1) segment.start with hle | hlt
        · rw [measureTo_of_le hle]
          have := hseg.gap_le
          omega
        · rw [hseg.measureTo_inside hlt (by omega)]
          exact hfits segment (by rw [hsegs]; simp) last hlast hlt
      have hwithin : ∀ t, t < last → totalTo cached.active.segments t ≤ cached.activeMs := by
        intro t ht
        have hbefore := totalTo_mono hsized (show t ≤ last - 1 by omega)
        have hfront := totalTo_le hfront_sized (last - 1)
        rw [hto (last - 1)] at hbefore
        rw [hactive, htotal]
        omega
      have hactive_nonneg : 0 ≤ cached.activeMs := by
        rw [hactive, htotal]
        have := totalActive_nonneg hfront_sized
        have := hseg.gap_le
        omega
      intro s t hst
      have hs := totalTo_nonneg hsized s
      have ht := totalTo_nonneg hsized t
      have hmono := totalTo_mono hsized hst
      rw [hcumul s, hcumul t]
      refine ⟨?_, ?_, ?_⟩
      · split
        · omega
        · split <;> omega
      · split
        · split
          · omega
          · split <;> omega
        · rw [if_neg (show ¬t ≤ first by omega)]
          split
          · rw [if_pos (by omega)]
          · split
            · exact hwithin s (by omega)
            · exact hmono
      · split
        · omega
        · split
          · omega
          · exact hwithin t (by omega)

end

end CachedSegments

open ActiveSegments CachedSegments in
/-- In every history of timestamps that leave room for the idle gap, and whose
active time is an `i64`, the axis is monotone exactly if the last segment fits. -/
theorem axis_monotone_iff (history : ActiveHistory) (hrange : ∀ t ∈ history.timestamps, InRange t)
    (hmax : totalActive history.run.active.segments ≤ AXIS_MAX) :
    history.run.AxisMonotone ↔ TailFits history.run.active :=
  axisMonotone_iff_tailFits (history.holds hrange) hmax

/-- Two timestamps in one segment. -/
theorem axis_monotone_iff_close :
    (ActiveHistory.fresh.observe 5000 |>.observe 10000).run.AxisMonotone := by
  refine (axis_monotone_iff _ ?_ (by decide)).mpr ?_
  · intro t ht
    simp only [ActiveHistory.timestamps, List.mem_cons, List.not_mem_nil, or_false] at ht
    rcases ht with rfl | rfl <;> exact ⟨by decide, by decide⟩
  · intro segment hsegment last hlast _
    obtain rfl : (⟨5000, 310000, 305000⟩ : ActiveSegment) = segment := Option.some.inj hsegment
    obtain rfl : (10000 : Int) = last := Option.some.inj hlast
    decide

/-! ### A compacted last segment -/

namespace ActiveSegments

open ActiveSegment

lemma insertSegment_behind {active : ActiveSegments} {incoming : ActiveSegment}
    (h : ∀ s ∈ active.segments, s.stop < incoming.start) :
    active.insertSegment incoming =
      if active.segments.length = MAX_ACTIVE_SEGMENTS then
        { active with
          segments := mergeOverflowSegment active.segments [] incoming
          segmentsMerged := saturatingAdd active.segmentsMerged 1 }
      else { active with segments := active.segments ++ [incoming] } := by
  have hleft : active.segments.takeWhile (fun segment => segment.stop < incoming.start) =
      active.segments := List.takeWhile_eq_self_iff.mpr fun s hs => decide_eq_true (h s hs)
  have hbehind : active.segments.dropWhile (fun segment => segment.stop < incoming.start) = [] :=
    List.dropWhile_eq_nil_iff.mpr fun s hs => decide_eq_true (h s hs)
  unfold insertSegment
  simp only [hleft, hbehind, List.takeWhile_nil, List.dropWhile_nil, List.head?_nil]

end ActiveSegments

def isolatedHistory : Nat → ActiveHistory
  | 0 => .fresh
  | n + 1 => (isolatedHistory n).observe (n * (2 * IDLE_GAP_MS))

namespace ActiveSegments

def isolatedTime (n : Nat) : Int := n * (2 * IDLE_GAP_MS)

def isolatedMarks (n : Nat) : List ActiveSegment :=
  (List.range n).map fun k => mark (isolatedTime k)

/-- The segments after the isolated timestamps up to the `n`-th. -/
def isolatedSegments (n : Nat) : ActiveSegments :=
  { segments := isolatedMarks (n + 1)
    firstTs := some 0
    lastTs := some (isolatedTime n)
    segmentsMerged := 0 }

lemma isolatedMarks_succ (n : Nat) :
    isolatedMarks (n + 1) = isolatedMarks n ++ [mark (isolatedTime n)] := by
  unfold isolatedMarks
  rw [List.range_succ, List.map_append]
  rfl

lemma isolated_behind (n : Nat) :
    ∀ s ∈ isolatedMarks n, s.stop < (mark (isolatedTime n)).start := by
  intro s hs
  obtain ⟨k, hk, rfl⟩ := List.mem_map.mp hs
  have := List.mem_range.mp hk
  unfold mark isolatedTime IDLE_GAP_MS
  dsimp only
  omega

lemma isolated_inRange {n : Nat} (h : n ≤ MAX_ACTIVE_SEGMENTS) : InRange (isolatedTime n) := by
  unfold InRange AXIS_MAX isolatedTime IDLE_GAP_MS
  unfold MAX_ACTIVE_SEGMENTS at h
  omega

lemma totalActive_marks (l : List Nat) (f : Nat → Int) :
    totalActive (l.map fun k => mark (f k)) = l.length * IDLE_GAP_MS := by
  induction l with
  | nil => rfl
  | cons k rest ih =>
    have hsplit : totalActive ((k :: rest).map fun k => mark (f k)) =
        IDLE_GAP_MS + totalActive (rest.map fun k => mark (f k)) := rfl
    rw [hsplit, ih, List.length_cons]
    unfold IDLE_GAP_MS
    omega

lemma observe_isolated {n : Nat} (h : n + 1 ≤ MAX_ACTIVE_SEGMENTS) :
    (isolatedSegments n).observe (isolatedTime (n + 1)) =
      if n + 1 = MAX_ACTIVE_SEGMENTS then
        { isolatedSegments (n + 1) with
          segments :=
            mergeOverflowSegment (isolatedMarks (n + 1)) [] (mark (isolatedTime (n + 1)))
          segmentsMerged := 1 }
      else isolatedSegments (n + 1) := by
  have hmin : min (isolatedTime (n + 1)) 0 = 0 := by
    unfold isolatedTime IDLE_GAP_MS
    omega
  have hmax : max (isolatedTime (n + 1)) (isolatedTime n) = isolatedTime (n + 1) := by
    unfold isolatedTime IDLE_GAP_MS
    omega
  have hlen : (isolatedMarks (n + 1)).length = n + 1 := by
    rw [isolatedMarks, List.length_map, List.length_range]
  rw [observe_eq _ (isolated_inRange h), insertSegment_behind (isolated_behind (n + 1))]
  unfold observeBase isolatedSegments
  simp only [Option.map_some, Option.getD_some, hmin, hmax, hlen, isolatedMarks_succ (n + 1)]
  rfl

lemma isolatedHistory_run {n : Nat} (h : n < MAX_ACTIVE_SEGMENTS) :
    (isolatedHistory (n + 1)).run.active = isolatedSegments n := by
  induction n with
  | zero => rfl
  | succ n ih =>
    show (isolatedHistory (n + 1)).run.active.observe (isolatedTime (n + 1)) = _
    rw [ih (Nat.lt_of_succ_lt h), observe_isolated h.le, if_neg (Nat.ne_of_lt h)]

lemma isolatedHistory_inRange {n : Nat} (h : n ≤ MAX_ACTIVE_SEGMENTS + 1) :
    ∀ t ∈ (isolatedHistory n).timestamps, InRange t := by
  induction n with
  | zero =>
    intro t ht
    cases ht
  | succ n ih =>
    intro t ht
    rcases List.mem_cons.mp ht with rfl | ht
    · exact isolated_inRange (by omega)
    · exact ih (by omega) t ht

lemma cappedHistory_run {n : Nat} (h : n + 1 = MAX_ACTIVE_SEGMENTS) :
    (isolatedHistory (n + 2)).run.active =
      { segments := ((List.range n).map fun k : Nat => mark (k * (2 * IDLE_GAP_MS))) ++
          [ActiveSegment.extend (mark (n * (2 * IDLE_GAP_MS)))
            (mark ((n + 1 : Nat) * (2 * IDLE_GAP_MS)))]
        firstTs := some 0
        lastTs := some ((n + 1 : Nat) * (2 * IDLE_GAP_MS))
        segmentsMerged := 1 } := by
  show (isolatedHistory (n + 1)).run.active.observe (isolatedTime (n + 1)) = _
  rw [isolatedHistory_run (by omega), observe_isolated h.le, if_pos h, isolatedMarks_succ]
  unfold mergeOverflowSegment
  simp only [List.getLast?_append, List.getLast?_singleton, Option.some_or, List.dropLast_concat]
  rfl

end ActiveSegments

open ActiveSegments CachedSegments in
/-- A timestamp beyond the cap: the position of the millisecond before the last
timestamp lies behind the end of the axis. -/
theorem capped_axis_not_monotone :
    ¬ (isolatedHistory (MAX_ACTIVE_SEGMENTS + 1)).run.AxisMonotone := by
  have hrun := @cappedHistory_run 1023 rfl
  have hholds := (isolatedHistory (1023 + 2)).holds (isolatedHistory_inRange (by decide))
  intro hmono
  have hfits := (axisMonotone_iff_tailFits hholds ?_).mp hmono
  · unfold TailFits at hfits
    rw [hrun] at hfits
    have htail := hfits _ (List.getLast?_concat ..) _ rfl (by decide)
    exact absurd htail (by decide)
  · rw [hrun, totalActive_append]
    have hsum : totalActive ((List.range 1023).map fun k : Nat => mark (k * (2 * IDLE_GAP_MS))) =
        1023 * IDLE_GAP_MS := by
      rw [totalActive_marks, List.length_range]
      rfl
    rw [hsum]
    decide

end Antiburn
