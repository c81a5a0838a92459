/-
Active time against its definition.

By definition the active time of some timestamps is the sum of the gaps between
neighbours, each at most `IDLE_GAP_MS`.  The timestamps cover that much time and
one more gap behind the last one, whatever their order; so the segments are
compared with the covered milliseconds.
-/
import Antiburn.ActiveAxis
import Antiburn.Lib.Cover

namespace Antiburn

namespace ActiveSegments

open ActiveSegment

/-! ### The definition -/

/-- Active time of some timestamps: the gaps between neighbours, each at most the
idle gap. -/
def exactActive (timestamps : List Int) : Int :=
  Cover.clampedGaps IDLE_GAP_MS (timestamps.insertionSort (· ≤ ·))

noncomputable def activeSet (timestamps : List Int) : Finset Int := Cover.cover IDLE_GAP_MS timestamps

variable {timestamps : List Int}

lemma card_activeSet (hne : timestamps ≠ []) :
    ((activeSet timestamps).card : Int) = exactActive timestamps + IDLE_GAP_MS := by
  have hmem : ∀ t, t ∈ timestamps ↔ t ∈ timestamps.insertionSort (· ≤ ·) :=
    fun t => (List.perm_insertionSort _ _).mem_iff.symm
  unfold activeSet exactActive
  rw [Cover.cover_congr hmem]
  refine Cover.card_cover (by decide) (List.pairwise_insertionSort _ timestamps) ?_
  intro hnil
  exact hne ((List.perm_insertionSort _ _).symm.trans (List.Perm.of_eq hnil)).eq_nil

lemma card_activeSet_below {t : Int} (ht : t ∈ timestamps) :
    (((activeSet timestamps).filter (· < t)).card : Int) =
      exactActive (timestamps.filter (· ≤ t)) := by
  refine Cover.card_cover_below (by decide) ht (List.pairwise_insertionSort _ _) fun x => ?_
  rw [(List.perm_insertionSort _ _).mem_iff, List.mem_filter]
  simp

/-! ### What a segment covers -/

def within (S : Finset Int) (segment : ActiveSegment) : Finset Int :=
  S.filter fun x => segment.start ≤ x ∧ x < segment.stop

lemma within_subset {S : Finset Int} {inner outer : ActiveSegment}
    (h : outer.start ≤ inner.start) (h' : inner.stop ≤ outer.stop) :
    within S inner ⊆ within S outer := by
  intro x hx
  obtain ⟨hS, hlo, hhi⟩ := Finset.mem_filter.mp hx
  exact Finset.mem_filter.mpr ⟨hS, by omega, by omega⟩

def Full (S : Finset Int) (segment : ActiveSegment) : Prop :=
  ∀ x, segment.start ≤ x → x < segment.stop → x ∈ S

lemma Full.card {S : Finset Int} {segment : ActiveSegment} (h : Full S segment)
    (hlt : segment.start < segment.stop) :
    ((within S segment).card : Int) = segment.stop - segment.start := by
  have heq : within S segment = Finset.Ico segment.start segment.stop := by
    ext x
    simp only [within, Finset.mem_filter, Finset.mem_Ico]
    exact ⟨fun hx => hx.2, fun hx => ⟨h x hx.1 hx.2, hx⟩⟩
  rw [heq, Int.card_Ico]
  omega

lemma Full.join {S : Finset Int} {existing : List ActiveSegment}
    {first last incoming : ActiveSegment} (hfirst : Full S first) (hlast : Full S last)
    (hinc : Full S incoming) (hfirst_touch : incoming.start ≤ first.stop)
    (hlast_touch : last.start ≤ incoming.stop) :
    Full S (ActiveSegment.join existing first last incoming) := by
  intro x hlo hhi
  change min incoming.start first.start ≤ x at hlo
  change x < max incoming.stop last.stop at hhi
  rcases lt_or_ge x incoming.start with h | h
  · exact hfirst x (by omega) (by omega)
  · rcases lt_or_ge x incoming.stop with h' | h'
    · exact hinc x h h'
    · exact hlast x (by omega) (by omega)

/-! ### Below the cap -/

/-- Every segment is covered throughout and carries its span. -/
def AllExact (S : Finset Int) (segments : List ActiveSegment) : Prop :=
  ∀ s ∈ segments, Full S s ∧ s.activeMs = s.spanMs

lemma saturatingAdd_eq_zero {a b : Nat} (h : saturatingAdd a b = 0) : a = 0 ∧ b = 0 := by
  unfold saturatingAdd U64_MAX at h
  omega

lemma insertSegment_allExact {S : Finset Int} {active : ActiveSegments}
    {incoming : ActiveSegment} (htidy : Tidy active.segments)
    (hinc : Full S incoming ∧ incoming.activeMs = incoming.spanMs)
    (h : active.segmentsMerged = 0 → AllExact S active.segments)
    (hmerged : (active.insertSegment incoming).segmentsMerged = 0) :
    active.segmentsMerged = 0 ∧ AllExact S (active.insertSegment incoming).segments := by
  obtain ⟨left, absorbed, right, result, compacted, hall, habsor, -, -, hinsert⟩ :=
    @insertSegment_spec active incoming htidy.apart fun s hs => (htidy.sized s hs).start_lt
  rw [hinsert] at hmerged ⊢
  dsimp only at hmerged ⊢
  cases compacted with
  | true =>
    rw [if_pos rfl] at hmerged
    exact absurd (saturatingAdd_eq_zero hmerged).2 Nat.one_ne_zero
  | false =>
    rw [if_neg Bool.false_ne_true] at hmerged
    have hexact := h hmerged
    refine ⟨hmerged, ?_⟩
    have habsorbed : ∀ s ∈ absorbed, Full S s ∧ s.activeMs = s.spanMs := fun s hs =>
      hexact s (by rw [hall]; simp [hs])
    have hresult : Full S result ∧ result.activeMs = result.spanMs := by
      cases habsor with
      | @join _ first last hfirst hlast htouch =>
        have hfirst_mem : first ∈ absorbed := List.mem_of_mem_head? hfirst
        have hlast_mem : last ∈ absorbed := List.mem_of_getLast? hlast
        refine ⟨Full.join (habsorbed first hfirst_mem).1 (habsorbed last hlast_mem).1 hinc.1
          (htouch first hfirst_mem).1 (htouch last hlast_mem).2, ?_⟩
        have hspan : (absorbed.all fun segment => segment.activeMs == segment.spanMs) = true :=
          List.all_eq_true.mpr fun s hs => beq_iff_eq.mpr (habsorbed s hs).2
        show ite _ _ _ = _
        rw [if_pos hspan]
        rfl
      | fresh => exact hinc
    intro s hs
    rcases List.mem_append.mp hs with hs | hs
    · exact hexact s (by rw [hall]; simp [hs])
    · rcases List.mem_cons.mp hs with rfl | hs
      · exact hresult
      · exact hexact s (by rw [hall]; simp [hs])

lemma insertAll_allExact {S : Finset Int} {incoming : List ActiveSegment}
    (hsized : ∀ s ∈ incoming, Sized s) (hinc : AllExact S incoming)
    {active : ActiveSegments} (htidy : Tidy active.segments)
    (h : active.segmentsMerged = 0 → AllExact S active.segments)
    (hmerged : (incoming.foldl insertSegment active).segmentsMerged = 0) :
    active.segmentsMerged = 0 ∧ AllExact S (incoming.foldl insertSegment active).segments := by
  induction incoming generalizing active with
  | nil => exact ⟨hmerged, h hmerged⟩
  | cons segment rest ih =>
    have hhead := hinc segment List.mem_cons_self
    obtain ⟨htidy', -⟩ := insertSegment_tidy htidy (hsized segment List.mem_cons_self)
    have hstep : (active.insertSegment segment).segmentsMerged = 0 →
        AllExact S (active.insertSegment segment).segments := fun hzero =>
      (insertSegment_allExact htidy hhead h hzero).2
    obtain ⟨hzero, hrest⟩ := ih (fun s hs => hsized s (List.mem_cons_of_mem _ hs))
      (fun s hs => hinc s (List.mem_cons_of_mem _ hs)) htidy' hstep hmerged
    exact ⟨(insertSegment_allExact htidy hhead h hzero).1, hrest⟩

lemma AllExact.mono {S S' : Finset Int} (hsub : S ⊆ S') {segments : List ActiveSegment}
    (h : AllExact S segments) : AllExact S' segments := by
  intro s hs
  exact ⟨fun x hlo hhi => hsub ((h s hs).1 x hlo hhi), (h s hs).2⟩

lemma activeSet_subset {others : List Int} (h : timestamps ⊆ others) :
    activeSet timestamps ⊆ activeSet others := Cover.cover_subset h

lemma full_mark {t : Int} (ht : t ∈ timestamps) :
    Full (activeSet timestamps) (mark t) := by
  intro x hlo hhi
  exact Cover.mem_cover.mpr ⟨t, ht, hlo, hhi⟩

lemma mark_exact (t : Int) : (mark t).activeMs = (mark t).spanMs := by
  rw [spanMs_eq (mark_sized t).start_lt.le]
  unfold mark AXIS_MAX IDLE_GAP_MS
  dsimp only
  omega

end ActiveSegments

open ActiveSegments in
lemma ActiveHistory.allExact (history : ActiveHistory)
    (h : ∀ t ∈ history.timestamps, InRange t) (hmerged : history.run.active.segmentsMerged = 0) :
    AllExact (activeSet history.timestamps) history.run.active.segments := by
  induction history with
  | fresh =>
    intro s hs
    cases hs
  | observe history t ih =>
    have hrange : ∀ u ∈ history.timestamps, InRange u := fun u hu =>
      h u (List.mem_cons_of_mem _ hu)
    have hsub : activeSet history.timestamps ⊆ activeSet (t :: history.timestamps) :=
      activeSet_subset (List.subset_cons_self _ _)
    change (history.run.active.observe t).segmentsMerged = 0 at hmerged
    show AllExact _ (history.run.active.observe t).segments
    rw [observe_eq _ (h t List.mem_cons_self)] at hmerged ⊢
    exact (@insertSegment_allExact _ (history.run.active.observeBase t) _
      (history.traces hrange).tidy ⟨full_mark List.mem_cons_self, mark_exact t⟩
      (fun hzero => (ih hrange hzero).mono hsub) hmerged).2
  | merge history other ih ih' =>
    have hrange : ∀ u ∈ history.timestamps, InRange u := fun u hu =>
      h u (List.mem_append_left _ hu)
    have hrange' : ∀ u ∈ other.timestamps, InRange u := fun u hu =>
      h u (List.mem_append_right _ hu)
    change (history.run.active.merge other.run.active).segmentsMerged = 0 at hmerged
    show AllExact _ (history.run.active.merge other.run.active).segments
    rw [merge_eq] at hmerged ⊢
    obtain ⟨hfold, hother⟩ := saturatingAdd_eq_zero hmerged
    exact (@insertAll_allExact _ _ (other.traces hrange').tidy.sized
      ((ih' hrange' hother).mono (activeSet_subset (List.subset_append_right _ _)))
      (history.run.active.mergeBase other.run.active) (history.traces hrange).tidy
      (fun hzero => (ih hrange hzero).mono (activeSet_subset (List.subset_append_left _ _)))
      hfold).2
  | rebuildPrefix history ih => exact ih h hmerged
  | restore history ih => exact ih h hmerged

/-! ### The value below the cap -/

namespace CachedSegments

open ActiveSegment ActiveSegments

variable {active : ActiveSegments} {cached : CachedSegments} {timestamps : List Int}

section

variable (h : Traces timestamps active) (hexact : AllExact (activeSet timestamps) active.segments)
include h hexact

lemma card_below_eq (t : Int) :
    (((activeSet timestamps).filter (· < t)).card : Int) =
      (active.segments.map fun s => max s.start (min s.stop t) - s.start).sum := by
  have hlt : ∀ s ∈ active.segments, s.start < s.stop := fun s hs => (h.tidy.sized s hs).start_lt
  apply le_antisymm
  · refine Cover.card_le_sum (fun s _ => le_max_left _ _) _ fun x hx => ?_
    obtain ⟨hcover, hxt⟩ := Finset.mem_filter.mp hx
    obtain ⟨u, hu, hlo, hhi⟩ := Cover.mem_cover.mp hcover
    obtain ⟨s, hs, hstart, hstop⟩ := h.coarse.holds _ (List.mem_map_of_mem hu)
    change s.start ≤ u at hstart
    change u + IDLE_GAP_MS ≤ s.stop at hstop
    exact ⟨s, hs, by omega, by omega⟩
  · refine @Cover.sum_le_card _ ActiveSegment.start (fun s => max s.start (min s.stop t)) _ _
      (h.tidy.apart.imp_of_mem fun {a b} ha hb hab => ?_) _ fun s hs => ?_
    · have := hlt a ha
      omega
    · have hsub : Finset.Ico s.start (max s.start (min s.stop t)) ⊆
          ((activeSet timestamps).filter (· < t)).filter fun x =>
            s.start ≤ x ∧ x < max s.start (min s.stop t) := by
        intro x hx
        obtain ⟨hlo, hhi⟩ := Finset.mem_Ico.mp hx
        refine Finset.mem_filter.mpr ⟨Finset.mem_filter.mpr ⟨?_, by omega⟩, hlo, hhi⟩
        exact (hexact s hs).1 x hlo (by omega)
      have hcard := Finset.card_le_card hsub
      rw [Int.card_Ico] at hcard
      omega

lemma card_eq :
    ((activeSet timestamps).card : Int) = (active.segments.map fun s => s.stop - s.start).sum := by
  have hlt : ∀ s ∈ active.segments, s.start < s.stop := fun s hs => (h.tidy.sized s hs).start_lt
  apply le_antisymm
  · refine Cover.card_le_sum (fun s hs => (hlt s hs).le) _ fun x hx => ?_
    obtain ⟨u, hu, hlo, hhi⟩ := Cover.mem_cover.mp hx
    obtain ⟨s, hs, hstart, hstop⟩ := h.coarse.holds _ (List.mem_map_of_mem hu)
    change s.start ≤ u at hstart
    change u + IDLE_GAP_MS ≤ s.stop at hstop
    exact ⟨s, hs, by omega, by omega⟩
  · refine @Cover.sum_le_card _ ActiveSegment.start ActiveSegment.stop _ _
      (h.tidy.apart.imp fun hab => le_of_lt hab) _ fun s hs => ?_
    exact ((hexact s hs).1.card (hlt s hs)).ge

lemma activeMs_eq_length (hcard : (activeSet timestamps).card ≤ AXIS_MAX) :
    ∀ s ∈ active.segments, s.activeMs = s.stop - s.start := by
  intro s hs
  have hlt := (h.tidy.sized s hs).start_lt
  have hfull := (hexact s hs).1.card hlt
  have hle : ((within (activeSet timestamps) s).card : Int) ≤ (activeSet timestamps).card :=
    Int.ofNat_le.mpr (Finset.card_le_card (Finset.filter_subset _ _))
  rw [(hexact s hs).2, spanMs_eq hlt.le]
  omega

lemma totalActive_eq_card (hcard : (activeSet timestamps).card ≤ AXIS_MAX) :
    totalActive active.segments = (activeSet timestamps).card := by
  rw [card_eq h hexact]
  exact congrArg List.sum (List.map_congr_left (activeMs_eq_length h hexact hcard))

end

lemma Holds.ends
    (h : Holds timestamps cached) (hne : timestamps ≠ []) :
    ∃ first last, cached.active.firstTs = some first ∧ cached.active.lastTs = some last := by
  obtain ⟨hleast, hgreat⟩ := h.traces.range
  cases hfirst : cached.active.firstTs with
  | none =>
    rw [hfirst] at hleast
    exact absurd hleast hne
  | some first =>
    cases hlast : cached.active.lastTs with
    | none =>
      rw [hlast] at hgreat
      exact absurd hgreat hne
    | some last => exact ⟨first, last, rfl, rfl⟩

lemma activeMs_eq_exact_iff
    (h : Holds timestamps cached)
    (hexact : AllExact (activeSet timestamps) cached.active.segments) (hne : timestamps ≠ []) :
    cached.activeMs = exactActive timestamps ↔
      exactActive timestamps + IDLE_GAP_MS ≤ AXIS_MAX := by
  obtain ⟨first, last, hfirst, hlast⟩ := h.ends hne
  have hcard := card_activeSet hne
  constructor
  · intro heq
    have hnonneg : ∀ s ∈ cached.active.segments, 0 ≤ s.activeMs := fun s hs =>
      (h.traces.tidy.sized s hs).activeMs_nonneg
    have hsum := sumActive_eq hnonneg
    have hle : cached.activeMs ≤ max (AXIS_MAX - IDLE_GAP_MS) 0 := by
      unfold activeMs ActiveSegments.activeMs
      rw [hfirst, hlast]
      dsimp only
      unfold saturateI64 AXIS_MAX at *
      unfold IDLE_GAP_MS
      omega
    unfold AXIS_MAX IDLE_GAP_MS at *
    omega
  · intro hmax
    rw [← hcard] at hmax
    have htotal := totalActive_eq_card h.traces hexact hmax
    rw [activeMs_eq h (by omega) hfirst hlast, htotal]
    omega

lemma measureTo_le_length {segment : ActiveSegment} (hsized : Sized segment)
    (hlen : segment.activeMs = segment.stop - segment.start)
    (hmax : segment.activeMs ≤ AXIS_MAX) (t : Int) :
    segment.measureTo t ≤ max segment.start (min segment.stop t) - segment.start ∧
      (segment.measureTo t = max segment.start (min segment.stop t) - segment.start ↔
        (segment.start < t → t < segment.stop →
          (segment.stop - segment.start) * (t - segment.start) ≤ AXIS_MAX)) := by
  have hlt := hsized.start_lt
  rcases le_or_gt t segment.start with hle | hgt
  · rw [measureTo_of_le hle]
    exact ⟨by omega, iff_of_true (by omega) fun h => by omega⟩
  rcases le_or_gt segment.stop t with hge | hlt'
  · rw [hsized.measureTo_of_ge hge]
    exact ⟨by omega, iff_of_true (by omega) fun _ h => by omega⟩
  · have helapsed : saturateI64 (t - segment.start) = t - segment.start :=
      saturateI64_of_le (by omega) (by omega)
    have hpos : 0 < segment.stop - segment.start := by omega
    have hproduct : 0 ≤ (segment.stop - segment.start) * (t - segment.start) :=
      Int.mul_nonneg hpos.le (by omega)
    have hvalue : max segment.start (min segment.stop t) - segment.start = t - segment.start := by
      omega
    rw [hsized.measureTo_inside hgt hlt', spanMs_eq hlt.le, helapsed, hvalue, hlen,
      min_eq_left (by omega), saturateI64_of_nonneg hproduct]
    rcases le_or_gt ((segment.stop - segment.start) * (t - segment.start)) AXIS_MAX with h | h
    · rw [min_eq_left h, Int.mul_ediv_cancel_left _ hpos.ne']
      exact ⟨le_refl _, iff_of_true rfl fun _ _ => h⟩
    · have hless : AXIS_MAX / (segment.stop - segment.start) < t - segment.start := by
        refine (Int.ediv_lt_iff_lt_mul hpos).mpr ?_
        rw [Int.mul_comm]
        exact h
      rw [min_eq_right h.le]
      refine ⟨hless.le, iff_of_false hless.ne ?_⟩
      intro hfits
      exact absurd (hfits hgt hlt') (not_le.mpr h)

lemma sum_eq_sum_iff {l : List ActiveSegment} {f g : ActiveSegment → Int}
    (hle : ∀ s ∈ l, f s ≤ g s) : (l.map f).sum = (l.map g).sum ↔ ∀ s ∈ l, f s = g s := by
  induction l with
  | nil => exact iff_of_true rfl fun s hs => by cases hs
  | cons s l ih =>
    have hrest := List.sum_le_sum fun t ht => hle t (List.mem_cons_of_mem _ ht)
    have hhead := hle s List.mem_cons_self
    have hih := ih fun t ht => hle t (List.mem_cons_of_mem _ ht)
    rw [List.map_cons, List.map_cons, List.sum_cons, List.sum_cons, List.forall_mem_cons, ← hih]
    omega

/-- The product that interpolates the position of a timestamp is an `i64`; the
last timestamp is not interpolated. -/
def PositionFits (active : ActiveSegments) (t : Int) : Prop :=
  ∀ s ∈ active.segments, s.start < t → t < s.stop → active.lastTs ≠ some t →
    (s.stop - s.start) * (t - s.start) ≤ AXIS_MAX

lemma cumulativeMs_eq_exact_iff
    (h : Holds timestamps cached)
    (hexact : AllExact (activeSet timestamps) cached.active.segments)
    (hcard : (activeSet timestamps).card ≤ AXIS_MAX) {t : Int} (ht : t ∈ timestamps) :
    cached.cumulativeMs t = exactActive (timestamps.filter (· ≤ t)) ↔
      PositionFits cached.active t := by
  have hne : timestamps ≠ [] := List.ne_nil_of_mem ht
  obtain ⟨first, last, hfirst, hlast⟩ := h.ends hne
  have htotal := totalActive_eq_card h.traces hexact hcard
  obtain ⟨hleast, hgreat⟩ := h.traces.range
  rw [hfirst] at hleast
  rw [hlast] at hgreat
  have hfirst_le := hleast.2 t ht
  have hle_last := hgreat.2 t ht
  rw [h.cumulativeMs_eq (by omega) hfirst hlast]
  split
  · -- nothing is active before the first timestamp
    rename_i hle
    have hzero : exactActive (timestamps.filter (· ≤ t)) = 0 := by
      rw [← card_activeSet_below ht, card_below_eq h.traces hexact]
      refine List.sum_eq_zero fun x hx => ?_
      obtain ⟨s, hs, rfl⟩ := List.mem_map.mp hx
      have := h.le_start hfirst s hs
      omega
    refine iff_of_true hzero.symm ?_
    intro s hs hlt
    have := h.le_start hfirst s hs
    omega
  split
  · -- the last timestamp has the total
    rename_i hge
    obtain rfl : t = last := le_antisymm hle_last hge
    have hall : timestamps.filter (· ≤ t) = timestamps :=
      List.filter_eq_self.mpr fun u hu => decide_eq_true (hgreat.2 u hu)
    refine iff_of_true ?_ ?_
    · rw [hall]
      refine (activeMs_eq_exact_iff h hexact hne).mpr ?_
      rw [← card_activeSet hne]
      exact hcard
    · intro s _ _ _ hnot
      exact absurd hlast hnot
  · rename_i hnot_last
    have hlen := activeMs_eq_length h.traces hexact hcard
    have hmsr : ∀ s ∈ cached.active.segments, _ := fun s hs =>
      measureTo_le_length (h.traces.tidy.sized s hs) (hlen s hs)
        ((List.single_le_sum (by simpa using fun s hs => (h.traces.tidy.sized s hs).activeMs_nonneg)
          _ (List.mem_map_of_mem hs)).trans (htotal.le.trans hcard)) t
    have hlast_ne : cached.active.lastTs ≠ some t := by
      rw [hlast]
      intro heq
      have := Option.some.inj heq
      omega
    rw [← card_activeSet_below ht, card_below_eq h.traces hexact, totalTo,
      sum_eq_sum_iff fun s hs => (hmsr s hs).1]
    constructor
    · intro heq s hs hgt hlt _
      exact (hmsr s hs).2.mp (heq s hs) hgt hlt
    · intro hfits s hs
      exact (hmsr s hs).2.mpr fun hgt hlt => hfits s hs hgt hlt hlast_ne

end CachedSegments

/-! ### Beyond the cap -/

namespace ActiveSegments

open ActiveSegment

/-- The segment carries at most what is covered in it. -/
def Measured (S : Finset Int) (segment : ActiveSegment) : Prop :=
  segment.activeMs ≤ (within S segment).card

variable {segment incoming : ActiveSegment} {lo hi : Int}

section

variable {S : Finset Int}

lemma Measured.full_or_max (h : Measured S segment) (hlt : segment.start < segment.stop)
    (hexact : segment.activeMs = segment.spanMs) :
    Full S segment ∨ AXIS_MAX ≤ (within S segment).card := by
  unfold Measured at h
  rw [hexact, spanMs_eq hlt.le] at h
  rcases le_or_gt (segment.stop - segment.start) AXIS_MAX with hle | hgt
  · left
    rw [min_eq_left hle] at h
    have hsub : within S segment ⊆ Finset.Ico segment.start segment.stop := fun x hx =>
      Finset.mem_Ico.mpr (Finset.mem_filter.mp hx).2
    have heq := Finset.eq_of_subset_of_card_le hsub (by
      rw [Int.card_Ico]
      omega)
    intro x hlo hhi
    have hx : x ∈ within S segment := by
      rw [heq]
      exact Finset.mem_Ico.mpr ⟨hlo, hhi⟩
    exact (Finset.mem_filter.mp hx).1
  · right
    rw [min_eq_right hgt.le] at h
    exact h

lemma card_within_le {inner outer : ActiveSegment}
    (h : outer.start ≤ inner.start) (h' : inner.stop ≤ outer.stop) :
    ((within S inner).card : Int) ≤ (within S outer).card :=
  Int.ofNat_le.mpr (Finset.card_le_card (within_subset h h'))

lemma sum_le_within {parts : List ActiveSegment} {outer : ActiveSegment}
    (hapart : parts.Pairwise fun a b => a.stop ≤ b.start) (hmeas : ∀ s ∈ parts, Measured S s)
    (hinside : ∀ s ∈ parts, outer.start ≤ s.start ∧ s.stop ≤ outer.stop) :
    totalActive parts ≤ (within S outer).card := by
  refine Cover.sum_le_card hapart _ fun s hs => (hmeas s hs).trans ?_
  refine Int.ofNat_le.mpr (Finset.card_le_card fun x hx => ?_)
  obtain ⟨hS, hlo, hhi⟩ := Finset.mem_filter.mp hx
  have := hinside s hs
  exact Finset.mem_filter.mpr ⟨Finset.mem_filter.mpr ⟨hS, by omega, by omega⟩, hlo, hhi⟩

lemma measured_part (hfull : Full S incoming)
    (hlo : incoming.start ≤ lo) (hhi : hi ≤ incoming.stop) (hle : lo ≤ hi) :
    Measured S ⟨lo, hi, hi - lo⟩ := by
  have hsub : Finset.Ico lo hi ⊆ within S ⟨lo, hi, hi - lo⟩ := by
    intro x hx
    obtain ⟨hx, hx'⟩ := Finset.mem_Ico.mp hx
    exact Finset.mem_filter.mpr ⟨hfull x (by omega) (by omega), hx, hx'⟩
  have hcard := Finset.card_le_card hsub
  rw [Int.card_Ico] at hcard
  unfold Measured
  dsimp only
  omega

lemma measured_empty (h : lo = hi) :
    Measured S ⟨lo, hi, hi - lo⟩ := by
  unfold Measured
  dsimp only
  omega

lemma Measured.absorb {result : ActiveSegment}
    {absorbed : List ActiveSegment} {compacted : Bool}
    (h : Absorbs incoming absorbed result compacted) (hapart : Apart absorbed)
    (hsized : ∀ s ∈ absorbed, Sized s) (hmeas : ∀ s ∈ absorbed, Measured S s)
    (hinc : Sized incoming) (hincoming_measured : Measured S incoming)
    (hjoin : compacted = false → absorbed ≠ [] → incoming.activeMs = incoming.spanMs) :
    Measured S result := by
  have hlt : ∀ s ∈ absorbed, s.start < s.stop := fun s hs => (hsized s hs).start_lt
  obtain ⟨hends, -, -⟩ := h.ends hapart hlt
  have hresult := (h.sized hapart hsized hinc).le_span
  have hinside : ∀ s ∈ incoming :: absorbed,
      ((within S s).card : Int) ≤ (within S result).card := fun s hs =>
    card_within_le (hends s hs).1 (hends s hs).2
  -- a part that covers all that an `i64` can count covers what the result carries
  have hmax : ∀ s ∈ incoming :: absorbed, AXIS_MAX ≤ (within S s).card → Measured S result := by
    intro s hs hcard
    have hspan : result.spanMs ≤ AXIS_MAX := by
      unfold spanMs
      have := saturateI64_le_max (result.stop - result.start)
      have : 0 ≤ AXIS_MAX := by decide
      omega
    exact hresult.trans (hspan.trans (hcard.trans (hinside s hs)))
  cases h with
  | @join _ first last hfirst hlast htouch =>
    have hfirst_mem : first ∈ absorbed := List.mem_of_mem_head? hfirst
    have hlast_mem : last ∈ absorbed := List.mem_of_getLast? hlast
    have hfirst_touch := htouch first hfirst_mem
    have hlast_touch := htouch last hlast_mem
    have hexact := hjoin rfl (List.ne_nil_of_mem hfirst_mem)
    rcases hincoming_measured.full_or_max hinc.start_lt hexact with hfull | hcard
    swap
    · exact hmax incoming List.mem_cons_self hcard
    by_cases hall : (absorbed.all fun segment => segment.activeMs == segment.spanMs) = true
    · -- segments without idle time inside: the join has none either
      have hspan : ∀ s ∈ absorbed, s.activeMs = s.spanMs := fun s hs =>
        beq_iff_eq.mp (List.all_eq_true.mp hall s hs)
      rcases (hmeas first hfirst_mem).full_or_max (hlt first hfirst_mem)
        (hspan first hfirst_mem) with hfirst_full | hcard
      swap
      · exact hmax first (List.mem_cons_of_mem _ hfirst_mem) hcard
      rcases (hmeas last hlast_mem).full_or_max (hlt last hlast_mem)
        (hspan last hlast_mem) with hlast_full | hcard
      swap
      · exact hmax last (List.mem_cons_of_mem _ hlast_mem) hcard
      have hresult_lt : (join absorbed first last incoming).start <
          (join absorbed first last incoming).stop := by
        have := hends incoming List.mem_cons_self
        have := hinc.start_lt
        omega
      have hresult_full := @Full.join _ absorbed _ _ _ hfirst_full hlast_full hfull
        hfirst_touch.1 hlast_touch.2
      unfold Measured
      rw [hresult_full.card hresult_lt]
      rw [spanMs_eq hresult_lt.le] at hresult
      omega
    · -- the parts of the incoming segment outside, beside the absorbed ones
      let before : ActiveSegment := ⟨min incoming.start first.start, first.start,
        first.start - min incoming.start first.start⟩
      let behind : ActiveSegment := ⟨last.stop, max incoming.stop last.stop,
        max incoming.stop last.stop - last.stop⟩
      have hfirst_le := hapart.first_le hlt hfirst
      have hlast_le := hapart.le_last hlt hlast
      have hbefore : Measured S before := by
        rcases le_or_gt incoming.start first.start with hle | hgt
        · exact measured_part hfull (by omega) hfirst_touch.2 (by omega)
        · exact measured_empty (by omega)
      have hbehind : Measured S behind := by
        rcases le_or_gt last.stop incoming.stop with hle | hgt
        · exact measured_part hfull hlast_touch.1 (by omega) (by omega)
        · exact measured_empty (by omega)
      have hparts : totalActive (before :: (absorbed ++ [behind])) ≤
          (within S (join absorbed first last incoming)).card := by
        refine sum_le_within ?_ ?_ ?_
        · refine List.pairwise_cons.mpr ⟨?_, List.pairwise_append.mpr
            ⟨hapart.imp fun hab => le_of_lt hab, List.pairwise_singleton _ _, ?_⟩⟩
          · intro s hs
            rcases List.mem_append.mp hs with hs | hs
            · exact hfirst_le s hs
            · rw [List.mem_singleton.mp hs]
              have := hlast_le first hfirst_mem
              have := hlt first hfirst_mem
              show first.start ≤ last.stop
              omega
          · intro s hs t ht
            rw [List.mem_singleton.mp ht]
            exact hlast_le s hs
        · intro s hs
          rcases List.mem_cons.mp hs with rfl | hs
          · exact hbefore
          · rcases List.mem_append.mp hs with hs | hs
            · exact hmeas s hs
            · rw [List.mem_singleton.mp hs]
              exact hbehind
        · intro s hs
          have hfirst_ends := hends first (List.mem_cons_of_mem _ hfirst_mem)
          have hlast_ends := hends last (List.mem_cons_of_mem _ hlast_mem)
          have := hlt first hfirst_mem
          have := hlt last hlast_mem
          rcases List.mem_cons.mp hs with rfl | hs
          · exact ⟨le_refl _, by show first.start ≤ _; omega⟩
          · rcases List.mem_append.mp hs with hs | hs
            · exact hends s (List.mem_cons_of_mem _ hs)
            · rw [List.mem_singleton.mp hs]
              exact ⟨by show _ ≤ last.stop; omega, le_refl _⟩
      have hsum : totalActive (before :: (absorbed ++ [behind])) =
          before.activeMs + (totalActive absorbed + behind.activeMs) := by
        rw [totalActive, List.map_cons, List.sum_cons, ← totalActive, totalActive_append]
        simp [totalActive]
      have hsum_active := sumActive_eq fun s hs => (hsized s hs).activeMs_nonneg
      have hnonneg := totalActive_nonneg hsized
      refine le_trans ?_ hparts
      rw [hsum]
      show ite _ _ _ ≤ (first.start - min incoming.start first.start) +
        (totalActive absorbed + (max incoming.stop last.stop - last.stop))
      rw [if_neg hall]
      change sumActive absorbed = min (totalActive absorbed) AXIS_MAX at hsum_active
      refine (min_le_left _ _).trans ?_
      rw [hsum_active]
      unfold saturateI64 AXIS_MAX
      omega
  | fresh => exact hincoming_measured
  | @compact current happart =>
    have hcur := hmeas current List.mem_cons_self
    have hcurrent_nonneg := (hsized current List.mem_cons_self).activeMs_nonneg
    have hincoming_nonneg := hinc.activeMs_nonneg
    have hcurrent_ends := hends current (List.mem_cons_of_mem _ List.mem_cons_self)
    have hincoming_ends := hends incoming List.mem_cons_self
    have hboth : current.activeMs + incoming.activeMs ≤
        (within S (extend current incoming)).card := by
      rcases happart with hle | hle
      · have hpair := @sum_le_within S [current, incoming] (extend current incoming)
          (by simpa using hle.le)
          (by simpa using ⟨hcur, hincoming_measured⟩)
          (by simpa using ⟨hcurrent_ends, hincoming_ends⟩)
        simpa [totalActive] using hpair
      · have hpair := @sum_le_within S [incoming, current] (extend current incoming)
          (by simpa using hle.le)
          (by simpa using ⟨hincoming_measured, hcur⟩)
          (by simpa using ⟨hincoming_ends, hcurrent_ends⟩)
        simpa [totalActive, add_comm] using hpair
    refine le_trans ?_ hboth
    show saturateI64 (current.activeMs + incoming.activeMs) ≤ _
    rw [saturateI64_of_nonneg (by omega)]
    exact min_le_left _ _

end

def JoinsExact : ActiveSegments → List ActiveSegment → Prop
  | _, [] => True
  | active, incoming :: rest =>
    (incoming.activeMs = incoming.spanMs ∨
      ∀ s ∈ active.segments, s.stop < incoming.start ∨ incoming.stop < s.start) ∧
    JoinsExact (active.insertSegment incoming) rest

lemma insertSegment_measured {S : Finset Int} {active : ActiveSegments}
    {incoming : ActiveSegment} (htidy : Tidy active.segments)
    (h : ∀ s ∈ active.segments, Measured S s) (hsized : Sized incoming)
    (hinc : Measured S incoming)
    (hjoin : incoming.activeMs = incoming.spanMs ∨
      ∀ s ∈ active.segments, s.stop < incoming.start ∨ incoming.stop < s.start) :
    ∀ s ∈ (active.insertSegment incoming).segments, Measured S s := by
  obtain ⟨left, absorbed, right, result, compacted, hall, habsor, -, -, hinsert⟩ :=
    @insertSegment_spec active incoming htidy.apart fun s hs => (htidy.sized s hs).start_lt
  have hmem : ∀ s ∈ absorbed, s ∈ active.segments := fun s hs => by
    rw [hall]
    simp [hs]
  have habsorbed_apart : Apart absorbed := by
    refine htidy.apart.sublist ?_
    rw [hall]
    exact (List.sublist_append_left _ _).trans (List.sublist_append_right _ _)
  have hresult : Measured S result := by
    refine Measured.absorb habsor habsorbed_apart (fun s hs => htidy.sized s (hmem s hs))
      (fun s hs => h s (hmem s hs)) hsized hinc ?_
    intro hcomp hne
    refine hjoin.resolve_right fun huntouched => ?_
    cases habsor with
    | @join _ first last hfirst _ htouch =>
      have hfirst_mem := List.mem_of_mem_head? hfirst
      have := htouch first hfirst_mem
      have := huntouched first (hmem first hfirst_mem)
      omega
    | fresh => exact hne rfl
    | compact => cases hcomp
  rw [hinsert]
  intro s hs
  rcases List.mem_append.mp hs with hs | hs
  · exact h s (by rw [hall]; simp [hs])
  · rcases List.mem_cons.mp hs with rfl | hs
    · exact hresult
    · exact h s (by rw [hall]; simp [hs])

lemma insertAll_measured {S : Finset Int} {incoming : List ActiveSegment}
    (hsized : ∀ s ∈ incoming, Sized s) (hinc : ∀ s ∈ incoming, Measured S s)
    {active : ActiveSegments} (htidy : Tidy active.segments)
    (h : ∀ s ∈ active.segments, Measured S s) (hjoins : JoinsExact active incoming) :
    ∀ s ∈ (incoming.foldl insertSegment active).segments, Measured S s := by
  induction incoming generalizing active with
  | nil => exact h
  | cons segment rest ih =>
    have hseg := hsized segment List.mem_cons_self
    exact ih (fun s hs => hsized s (List.mem_cons_of_mem _ hs))
      (fun s hs => hinc s (List.mem_cons_of_mem _ hs)) (insertSegment_tidy htidy hseg).1
      (insertSegment_measured htidy h hseg (hinc segment List.mem_cons_self) hjoins.1)
      hjoins.2

lemma Measured.mono {S S' : Finset Int} (hsub : S ⊆ S')
    (h : Measured S segment) : Measured S' segment :=
  h.trans (Int.ofNat_le.mpr (Finset.card_le_card (Finset.filter_subset_filter _ hsub)))

lemma measured_mark {timestamps : List Int} {t : Int} (ht : t ∈ timestamps) :
    Measured (activeSet timestamps) (mark t) := by
  unfold Measured
  rw [(full_mark ht).card (mark_sized t).start_lt]
  unfold mark
  dsimp only
  omega

end ActiveSegments

namespace ActiveHistory

open ActiveSegments

def JoinsExact : ActiveHistory → Prop
  | fresh => True
  | observe history _ => history.JoinsExact
  | merge history other =>
    history.JoinsExact ∧ other.JoinsExact ∧
      ActiveSegments.JoinsExact (history.run.active.mergeBase other.run.active)
        other.run.active.segments
  | rebuildPrefix history => history.JoinsExact
  | restore history => history.JoinsExact

section

variable (history : ActiveHistory) (h : ∀ t ∈ history.timestamps, InRange t)
  (hjoins : history.JoinsExact)
include history h hjoins

lemma measured :
    ∀ s ∈ history.run.active.segments, Measured (activeSet history.timestamps) s := by
  induction history with
  | fresh =>
    intro s hs
    cases hs
  | observe history t ih =>
    have hrange : ∀ u ∈ history.timestamps, InRange u := fun u hu =>
      h u (List.mem_cons_of_mem _ hu)
    have hsub : activeSet history.timestamps ⊆ activeSet (t :: history.timestamps) :=
      activeSet_subset (List.subset_cons_self _ _)
    show ∀ s ∈ (history.run.active.observe t).segments, _
    rw [observe_eq _ (h t List.mem_cons_self)]
    exact @insertSegment_measured _ (history.run.active.observeBase t) _
      (history.traces hrange).tidy (fun s hs => (ih hrange hjoins s hs).mono hsub) (mark_sized t)
      (measured_mark List.mem_cons_self) (.inl (mark_exact t))
  | merge history other ih ih' =>
    have hrange : ∀ u ∈ history.timestamps, InRange u := fun u hu =>
      h u (List.mem_append_left _ hu)
    have hrange' : ∀ u ∈ other.timestamps, InRange u := fun u hu =>
      h u (List.mem_append_right _ hu)
    obtain ⟨hjoins_left, hjoins_right, hjoins_merge⟩ := hjoins
    show ∀ s ∈ (history.run.active.merge other.run.active).segments, _
    rw [merge_eq]
    exact insertAll_measured (other.traces hrange').tidy.sized
      (fun s hs => (ih' hrange' hjoins_right s hs).mono
        (activeSet_subset (List.subset_append_right _ _)))
      (history.traces hrange).tidy
      (fun s hs => (ih hrange hjoins_left s hs).mono
        (activeSet_subset (List.subset_append_left _ _))) hjoins_merge
  | rebuildPrefix history ih => exact ih h hjoins
  | restore history ih => exact ih h hjoins

lemma activeMs_le_exact : history.run.activeMs ≤ exactActive history.timestamps := by
  have hholds := history.holds h
  have hsized := hholds.traces.tidy.sized
  by_cases hne : history.timestamps = []
  · have hleast := hholds.traces.range.least
    have hnone : history.run.active.firstTs = none := by
      cases hfirst : history.run.active.firstTs with
      | none => rfl
      | some first =>
        rw [hfirst, hne] at hleast
        cases hleast.1
    have hzero : exactActive [] = 0 := by
      rfl
    unfold CachedSegments.activeMs ActiveSegments.activeMs
    rw [hnone, hne, hzero]
  · have hcard := card_activeSet hne
    have hsum := sumActive_eq fun s hs => (hsized s hs).activeMs_nonneg
    have hnonneg := totalActive_nonneg hsized
    have hle : totalActive history.run.active.segments ≤
        (activeSet history.timestamps).card :=
      @Cover.sum_le_card _ ActiveSegment.start ActiveSegment.stop _ _
        (hholds.traces.tidy.apart.imp fun hab => le_of_lt hab) _ (history.measured h hjoins)
    obtain ⟨first, last, hfirst, hlast⟩ := hholds.ends hne
    have hgaps : 0 ≤ exactActive history.timestamps := by
      obtain ⟨t, ht⟩ := List.exists_mem_of_ne_nil _ hne
      have hmark := (full_mark ht).card (mark_sized t).start_lt
      have hsub := Finset.card_le_card
        (Finset.filter_subset (fun x => (mark t).start ≤ x ∧ x < (mark t).stop)
          (activeSet history.timestamps))
      change ((within _ (mark t)).card : Int) = t + IDLE_GAP_MS - t at hmark
      change (within _ (mark t)).card ≤ _ at hsub
      omega
    unfold CachedSegments.activeMs ActiveSegments.activeMs
    rw [hfirst, hlast]
    dsimp only
    rw [hsum]
    change max (saturateI64 (min (totalActive _) AXIS_MAX - IDLE_GAP_MS)) 0 ≤ _
    unfold saturateI64 AXIS_MAX
    unfold IDLE_GAP_MS at *
    omega

end

end ActiveHistory

/-! ### The definition and the accumulator -/

open ActiveSegments CachedSegments in
/-- Every history below the cap has the defined active time, if it is an `i64`
with the idle gap behind it, and a timestamp the defined position exactly if its
product is an `i64`, with valid prefix sums or without; and beyond the cap the
total is at most the defined one, if no merge joins compacted segments. -/
theorem active_time_exact (history : ActiveHistory)
    (hrange : ∀ t ∈ history.timestamps, InRange t) :
    (history.run.active.segmentsMerged = 0 → history.timestamps ≠ [] →
      (history.run.activeMs = exactActive history.timestamps ↔
        exactActive history.timestamps + IDLE_GAP_MS ≤ AXIS_MAX) ∧
      (exactActive history.timestamps + IDLE_GAP_MS ≤ AXIS_MAX → ∀ t ∈ history.timestamps,
        (history.run.cumulativeMs t = exactActive (history.timestamps.filter (· ≤ t)) ↔
          PositionFits history.run.active t))) ∧
    (history.JoinsExact → history.run.activeMs ≤ exactActive history.timestamps) := by
  have hholds := history.holds hrange
  refine ⟨?_, history.activeMs_le_exact hrange⟩
  intro hmerged hne
  have hexact := history.allExact hrange hmerged
  refine ⟨activeMs_eq_exact_iff hholds hexact hne, ?_⟩
  intro hmax t ht
  rw [← card_activeSet hne] at hmax
  exact cumulativeMs_eq_exact_iff hholds hexact hmax ht

/-- Two timestamps within an idle gap of each other and one apart from them. -/
def shortHistory : ActiveHistory :=
  (ActiveHistory.fresh.observe 10000 |>.observe 1000000).merge
    (ActiveHistory.fresh.observe 5000).rebuildPrefix

open ActiveSegments in
theorem active_time_exact_short :
    shortHistory.run.activeMs = exactActive [1000000, 10000, 5000] := by
  have hrange : ∀ t ∈ shortHistory.timestamps, InRange t := by
    intro t ht
    simp only [shortHistory, ActiveHistory.timestamps, List.cons_append, List.nil_append,
      List.mem_cons, List.not_mem_nil, or_false] at ht
    rcases ht with rfl | rfl | rfl <;> exact ⟨by decide, by decide⟩
  refine ((active_time_exact shortHistory hrange).1 ?_ ?_).1.mpr ?_
  · rfl
  · exact List.cons_ne_nil _ _
  · decide

/-! ### A long time without an idle gap -/

def unbrokenHistory : Nat → ActiveHistory
  | 0 => .fresh
  | n + 1 => (unbrokenHistory n).observe (n * IDLE_GAP_MS)

namespace ActiveSegments

/-- A length for which the interpolated product exceeds an `i64`: about 35 days. -/
def UNBROKEN : Nat := 10126

lemma unbroken_inRange {n : Nat} (h : n ≤ UNBROKEN) : InRange (n * IDLE_GAP_MS) := by
  unfold InRange AXIS_MAX IDLE_GAP_MS
  unfold UNBROKEN at h
  omega

lemma unbrokenHistory_inRange {n : Nat} (h : n ≤ UNBROKEN) :
    ∀ t ∈ (unbrokenHistory n).timestamps, InRange t := by
  induction n with
  | zero =>
    intro t ht
    cases ht
  | succ n ih =>
    intro t ht
    rcases List.mem_cons.mp ht with rfl | ht
    · exact unbroken_inRange (by omega)
    · exact ih (by omega) t ht

lemma mem_unbrokenHistory {n k : Nat} (h : k < n) :
    (k * IDLE_GAP_MS : Int) ∈ (unbrokenHistory n).timestamps := by
  induction n with
  | zero => cases h
  | succ n ih =>
    rcases Nat.lt_succ_iff_lt_or_eq.mp h with h | rfl
    · exact List.mem_cons_of_mem _ (ih h)
    · exact List.mem_cons_self

lemma insertSegment_touching {active : ActiveSegments} {segment incoming : ActiveSegment}
    (hsegs : active.segments = [segment]) (hexact : segment.activeMs = segment.spanMs)
    (hstart : segment.start ≤ incoming.start) (htouch : incoming.start ≤ segment.stop)
    (hstop : segment.stop ≤ incoming.stop) (hlt : incoming.start ≤ incoming.stop) :
    active.insertSegment incoming =
      { active with
        segments := [⟨segment.start, incoming.stop,
          (ActiveSegment.mk segment.start incoming.stop 0).spanMs⟩] } := by
  have hnot : ¬segment.stop < incoming.start := by omega
  have hbegin : segment.start ≤ incoming.stop := by omega
  unfold insertSegment
  simp [hsegs, hnot, hbegin, hexact, min_eq_right hstart, max_eq_left hstop]

lemma unbrokenHistory_run {n : Nat} (h : n < UNBROKEN) :
    (unbrokenHistory (n + 1)).run.active =
      { segments := [⟨0, (n + 1 : Nat) * IDLE_GAP_MS, (n + 1 : Nat) * IDLE_GAP_MS⟩]
        firstTs := some 0
        lastTs := some (n * IDLE_GAP_MS)
        segmentsMerged := 0 } := by
  induction n with
  | zero => rfl
  | succ n ih =>
    unfold UNBROKEN at h
    have hmin : min ((n + 1 : Nat) * IDLE_GAP_MS) 0 = (0 : Int) := by
      unfold IDLE_GAP_MS
      omega
    have hmax : max ((n + 1 : Nat) * IDLE_GAP_MS) (n * IDLE_GAP_MS) =
        ((n + 1 : Nat) * IDLE_GAP_MS : Int) := by
      unfold IDLE_GAP_MS
      omega
    show (unbrokenHistory (n + 1)).run.active.observe ((n + 1 : Nat) * IDLE_GAP_MS) = _
    rw [ih (Nat.lt_of_succ_lt h), observe_eq _ (unbroken_inRange (Nat.le_of_lt h))]
    unfold observeBase
    simp only [Option.map_some, Option.getD_some, hmin, hmax]
    have hsegment_span : ((n + 1 : Nat) * IDLE_GAP_MS : Int) =
        (ActiveSegment.mk 0 ((n + 1 : Nat) * IDLE_GAP_MS) ((n + 1 : Nat) * IDLE_GAP_MS)).spanMs := by
      unfold ActiveSegment.spanMs saturateI64 IDLE_GAP_MS
      dsimp only
      omega
    have hnext_span : ((n + 1 + 1 : Nat) * IDLE_GAP_MS : Int) =
        (ActiveSegment.mk 0 ((n + 1 + 1 : Nat) * IDLE_GAP_MS) 0).spanMs := by
      unfold ActiveSegment.spanMs saturateI64 IDLE_GAP_MS
      dsimp only
      omega
    have hnext : (mark ((n + 1 : Nat) * IDLE_GAP_MS)).stop = (n + 1 + 1 : Nat) * IDLE_GAP_MS := by
      unfold mark IDLE_GAP_MS
      dsimp only
      omega
    rw [insertSegment_touching rfl hsegment_span (by unfold mark IDLE_GAP_MS; dsimp only; omega)
      (le_refl _) (by unfold mark IDLE_GAP_MS; dsimp only; omega)
      (by unfold mark IDLE_GAP_MS; dsimp only; omega), hnext, ← hnext_span]

end ActiveSegments

open ActiveSegments CachedSegments in
/-- Timestamps each 300000 milliseconds after the one before, below the cap: the
position of the last but one is not the sum of the gaps up to it. -/
theorem unbroken_position_not_exact :
    (∀ t ∈ (unbrokenHistory UNBROKEN).timestamps, InRange t) ∧
      (unbrokenHistory UNBROKEN).run.active.segmentsMerged = 0 ∧
      (10124 * IDLE_GAP_MS : Int) ∈ (unbrokenHistory UNBROKEN).timestamps ∧
      (unbrokenHistory UNBROKEN).run.cumulativeMs (10124 * IDLE_GAP_MS) ≠
        exactActive ((unbrokenHistory UNBROKEN).timestamps.filter (· ≤ 10124 * IDLE_GAP_MS)) := by
  have hrange := unbrokenHistory_inRange (le_refl UNBROKEN)
  have hrun := @unbrokenHistory_run 10125 (Nat.lt_succ_self _)
  have hmerged : (unbrokenHistory UNBROKEN).run.active.segmentsMerged = 0 :=
    congrArg ActiveSegments.segmentsMerged hrun
  have hmem := @mem_unbrokenHistory UNBROKEN 10124 (by decide)
  have hholds := (unbrokenHistory UNBROKEN).holds hrange
  have hexact := (unbrokenHistory UNBROKEN).allExact hrange hmerged
  have hcard : ((activeSet (unbrokenHistory UNBROKEN).timestamps).card : Int) ≤ AXIS_MAX := by
    rw [card_eq hholds.traces hexact]
    show ((unbrokenHistory (10125 + 1)).run.active.segments.map fun s => s.stop - s.start).sum ≤ _
    rw [hrun]
    decide
  refine ⟨hrange, hmerged, hmem, ?_⟩
  intro heq
  have hfits := (cumulativeMs_eq_exact_iff hholds hexact hcard hmem).mp heq
  unfold PositionFits at hfits
  rw [show (unbrokenHistory UNBROKEN).run.active = _ from hrun] at hfits
  have hproduct := hfits _ List.mem_cons_self (by decide) (by decide) (by decide)
  exact absurd hproduct (by decide)

end Antiburn
