/-
The active-time axis.

Every observed timestamp is active for `IDLE_GAP_MS`, and the accumulator keeps
the union of these intervals as sorted segments.  Beyond the cap a segment is
stretched over a distant one and carries less active time than it spans.
-/
import Antiburn.Metrics
import Mathlib

namespace Antiburn

/-! ### The accumulator -/

structure CachedSegments where
  active : ActiveSegments := {}
  /-- Sums before each segment, rebuilt by `rebuildPrefix`. -/
  prefixSums : List Int := []
  prefixValid : Bool := false

namespace ActiveSegments

def merge (active other : ActiveSegments) : ActiveSegments :=
  let active :=
    { active with
      firstTs :=
        match other.firstTs with
        | some first => some ((active.firstTs.map (min first)).getD first)
        | none => active.firstTs
      lastTs :=
        match other.lastTs with
        | some last => some ((active.lastTs.map (max last)).getD last)
        | none => active.lastTs }
  let active := other.segments.foldl insertSegment active
  { active with segmentsMerged := saturatingAdd active.segmentsMerged other.segmentsMerged }

end ActiveSegments

namespace CachedSegments

def observe (cached : CachedSegments) (timestamp : Int) : CachedSegments :=
  { cached with active := cached.active.observe timestamp, prefixValid := false }

/-- Every inserted segment makes the sums stale; nothing else does. -/
def merge (cached other : CachedSegments) : CachedSegments :=
  { cached with
    active := cached.active.merge other.active
    prefixValid := cached.prefixValid && other.active.segments.isEmpty }

def sumsFrom (total : Int) : List ActiveSegment → List Int
  | [] => []
  | seg :: rest => total :: sumsFrom (saturateI64 (total + seg.activeMs)) rest

def rebuildPrefix (cached : CachedSegments) : CachedSegments :=
  { cached with prefixSums := sumsFrom 0 cached.active.segments, prefixValid := true }

/-- A restored accumulator has the stored fields and no sums. -/
def restore (cached : CachedSegments) : CachedSegments :=
  { active := cached.active }

def activeMs (cached : CachedSegments) : Int := cached.active.activeMs

/-- Active time up to a timestamp through the prefix sums.  A valid cache has a
sum for every segment. -/
def measureTo (cached : CachedSegments) (timestamp : Int) : Int :=
  let before := cached.active.segments.takeWhile fun seg => seg.start < timestamp
  match before.getLast? with
  | none => 0
  | some seg =>
    saturateI64 (cached.prefixSums.getD (before.length - 1) 0 + seg.measureTo timestamp)

def measureBetween (cached : CachedSegments) (start stop : Int) : Int :=
  if stop ≤ start then 0
  else if cached.prefixValid then
    saturateI64 (cached.measureTo stop - cached.measureTo start)
  else
    cached.active.segments.foldl (fun total seg =>
      saturateI64 (total + saturateI64 (seg.measureTo stop - seg.measureTo start))) 0

def cumulativeMs (cached : CachedSegments) (timestamp : Int) : Int :=
  match cached.active.firstTs, cached.active.lastTs with
  | some first, some last =>
    if timestamp ≤ first then 0
    else if timestamp ≥ last then cached.activeMs
    else cached.measureBetween first timestamp
  | _, _ => 0

end CachedSegments

/-- How an accumulator came about. -/
inductive ActiveHistory where
  | fresh
  | observe (history : ActiveHistory) (timestamp : Int)
  | merge (history other : ActiveHistory)
  | rebuildPrefix (history : ActiveHistory)
  | restore (history : ActiveHistory)

namespace ActiveHistory

def run : ActiveHistory → CachedSegments
  | fresh => {}
  | observe history timestamp => history.run.observe timestamp
  | merge history other => history.run.merge other.run
  | rebuildPrefix history => history.run.rebuildPrefix
  | restore history => history.run.restore

def timestamps : ActiveHistory → List Int
  | fresh => []
  | observe history timestamp => timestamp :: history.timestamps
  | merge history other => history.timestamps ++ other.timestamps
  | rebuildPrefix history => history.timestamps
  | restore history => history.timestamps

end ActiveHistory

/-! ### Saturation -/

/-- The greatest `i64`. -/
def AXIS_MAX : Int := 2 ^ 63 - 1

lemma saturateI64_le_max (value : Int) : saturateI64 value ≤ AXIS_MAX := by
  unfold saturateI64 AXIS_MAX
  omega

lemma saturateI64_mono {a b : Int} (h : a ≤ b) : saturateI64 a ≤ saturateI64 b := by
  unfold saturateI64
  omega

section

variable {value : Int} (h : 0 ≤ value)
include h

lemma saturateI64_nonneg : 0 ≤ saturateI64 value := by
  unfold saturateI64
  omega

lemma saturateI64_of_nonneg :
    saturateI64 value = min value AXIS_MAX := by
  unfold saturateI64 AXIS_MAX
  omega

lemma saturateI64_of_le (hmax : value ≤ AXIS_MAX) :
    saturateI64 value = value := by
  rw [saturateI64_of_nonneg h]
  omega

end

namespace ActiveSegments

section

variable {segs : List ActiveSegment} (h : ∀ s ∈ segs, 0 ≤ s.activeMs)
include h

lemma foldl_sumActive {total : Int} (htotal : 0 ≤ total) (hmax : total ≤ AXIS_MAX) :
    segs.foldl (fun total seg => saturateI64 (total + seg.activeMs)) total =
      min (total + (segs.map ActiveSegment.activeMs).sum) AXIS_MAX := by
  induction segs generalizing total with
  | nil =>
    rw [List.foldl_nil, List.map_nil, List.sum_nil]
    omega
  | cons seg rest ih =>
    have hrest : 0 ≤ (rest.map ActiveSegment.activeMs).sum :=
      List.sum_nonneg (by simpa using fun s hs => h s (List.mem_cons_of_mem _ hs))
    have hhead := h seg List.mem_cons_self
    rw [List.foldl_cons, List.map_cons, List.sum_cons, saturateI64_of_nonneg (by omega),
      ih (fun s hs => h s (List.mem_cons_of_mem _ hs)) (by unfold AXIS_MAX at *; omega) (by omega)]
    omega

lemma sumActive_eq :
    sumActive segs = min (segs.map ActiveSegment.activeMs).sum AXIS_MAX := by
  rw [sumActive, foldl_sumActive h (le_refl 0) (by decide)]
  simp

end

end ActiveSegments

/-! ### One insertion -/

namespace ActiveSegment

structure Sized (segment : ActiveSegment) : Prop where
  start_lt : segment.start < segment.stop
  gap_le : IDLE_GAP_MS ≤ segment.activeMs
  le_span : segment.activeMs ≤ segment.spanMs

def join (existing : List ActiveSegment) (first last incoming : ActiveSegment) : ActiveSegment :=
  let start := min incoming.start first.start
  let stop := max incoming.stop last.stop
  let span := (ActiveSegment.mk start stop 0).spanMs
  let activeMs :=
    if existing.all fun seg => seg.activeMs == seg.spanMs then span
    else
      let outsideLeft := max (saturateI64 (first.start - incoming.start)) 0
      let outsideRight := max (saturateI64 (incoming.stop - last.stop)) 0
      min (saturateI64 (saturateI64 (ActiveSegments.sumActive existing + outsideLeft) +
        outsideRight)) span
  ⟨start, stop, activeMs⟩

def extend (current incoming : ActiveSegment) : ActiveSegment :=
  ⟨min current.start incoming.start, max current.stop incoming.stop,
    saturateI64 (current.activeMs + incoming.activeMs)⟩

/-- The three ways to take in a segment, the segments it replaces, what stands in
their place, and whether this compacts. -/
inductive Absorbs (incoming : ActiveSegment) :
    List ActiveSegment → ActiveSegment → Bool → Prop
  | join {existing first last} (hfirst : existing.head? = some first)
      (hlast : existing.getLast? = some last)
      (htouch : ∀ s ∈ existing, incoming.start ≤ s.stop ∧ s.start ≤ incoming.stop) :
      Absorbs incoming existing (join existing first last incoming) false
  | fresh : Absorbs incoming [] incoming false
  | compact {current} (happart : current.stop < incoming.start ∨ incoming.stop < current.start) :
      Absorbs incoming [current] (extend current incoming) true

end ActiveSegment

namespace ActiveSegments

open ActiveSegment

def Apart (segments : List ActiveSegment) : Prop :=
  segments.Pairwise fun a b => a.stop < b.start

section

variable {segs : List ActiveSegment} (h : Apart segs) (hsized : ∀ s ∈ segs, s.start < s.stop)
include h hsized

lemma Apart.first_le {first : ActiveSegment}
    (hfirst : segs.head? = some first) : ∀ s ∈ segs, first.start ≤ s.start := by
  obtain ⟨rest, rfl⟩ := List.head?_eq_some_iff.mp hfirst
  intro s hs
  rcases List.mem_cons.mp hs with rfl | hs
  · exact le_refl _
  · have := (List.pairwise_cons.mp h).1 s hs
    have := hsized first List.mem_cons_self
    omega

lemma Apart.le_last {last : ActiveSegment}
    (hlast : segs.getLast? = some last) : ∀ s ∈ segs, s.stop ≤ last.stop := by
  obtain ⟨front, rfl⟩ := List.getLast?_eq_some_iff.mp hlast
  intro s hs
  rcases List.mem_append.mp hs with hs | hs
  · have := (List.pairwise_append.mp h).2.2 s hs last List.mem_cons_self
    have := hsized last (List.mem_append_right _ List.mem_cons_self)
    omega
  · rw [List.mem_singleton.mp hs]

end

lemma mergeOverflowSegment_spec {left right : List ActiveSegment} {incoming : ActiveSegment}
    (hne : left ++ right ≠ []) :
    ∃ left' current right', left ++ right = left' ++ current :: right' ∧
      mergeOverflowSegment left right incoming = left' ++ extend current incoming :: right' ∧
      (left = left' ++ [current] ∧ right = right' ∨ left = left' ∧ right = current :: right') := by
  unfold mergeOverflowSegment
  cases hleft : left.getLast? with
  | none =>
    obtain rfl := List.getLast?_eq_none_iff.mp hleft
    cases right with
    | nil => exact absurd rfl hne
    | cons current rest => exact ⟨[], current, rest, rfl, rfl, .inr ⟨rfl, rfl⟩⟩
  | some before =>
    obtain ⟨front, rfl⟩ := List.getLast?_eq_some_iff.mp hleft
    cases right with
    | nil =>
      refine ⟨front, before, [], by simp, ?_, .inl ⟨rfl, rfl⟩⟩
      simp [extend]
    | cons after rest =>
      dsimp only
      split
      · refine ⟨front, before, after :: rest, by simp, ?_, .inl ⟨rfl, rfl⟩⟩
        simp [extend]
      · exact ⟨front ++ [before], after, rest, rfl, rfl, .inr ⟨rfl, rfl⟩⟩

lemma not_of_mem_dropWhile {test : ActiveSegment → Bool} {segs : List ActiveSegment}
    (hearly : segs.Pairwise fun a b => test b = true → test a = true) :
    ∀ s ∈ segs.dropWhile test, test s = false := by
  induction segs with
  | nil =>
    intro s hs
    cases hs
  | cons seg rest ih =>
    obtain ⟨hseg, hrest⟩ := List.pairwise_cons.mp hearly
    cases htest : test seg with
    | true =>
      rw [List.dropWhile_cons_of_pos htest]
      exact ih hrest
    | false =>
      rw [List.dropWhile_cons_of_neg (by simp [htest])]
      intro s hs
      rcases List.mem_cons.mp hs with rfl | hs
      · exact htest
      · refine Bool.eq_false_iff.mpr fun hs' => ?_
        rw [hseg s hs hs'] at htest
        cases htest

lemma insertSegment_spec {active : ActiveSegments} {incoming : ActiveSegment}
    (hapart : Apart active.segments) (hsized : ∀ s ∈ active.segments, s.start < s.stop) :
    ∃ left absorbed right result compacted,
      active.segments = left ++ (absorbed ++ right) ∧
      Absorbs incoming absorbed result compacted ∧
      (∀ s ∈ left, s.stop < incoming.start) ∧ (∀ s ∈ right, incoming.stop < s.start) ∧
      active.insertSegment incoming =
        { active with
          segments := left ++ result :: right
          segmentsMerged :=
            if compacted then saturatingAdd active.segmentsMerged 1 else active.segmentsMerged } := by
  let left := active.segments.takeWhile fun seg => seg.stop < incoming.start
  let behind := active.segments.dropWhile fun seg => seg.stop < incoming.start
  let existing := behind.takeWhile fun seg => seg.start ≤ incoming.stop
  let right := behind.dropWhile fun seg => seg.start ≤ incoming.stop
  have hbehind : existing ++ right = behind := List.takeWhile_append_dropWhile
  have hall : active.segments = left ++ (existing ++ right) := by
    rw [hbehind]
    exact List.takeWhile_append_dropWhile.symm
  have hleft : ∀ s ∈ left, s.stop < incoming.start := by
    intro s hs
    have htest := List.mem_takeWhile_imp hs
    exact of_decide_eq_true htest
  have hbehind_stop : ∀ s ∈ behind, incoming.start ≤ s.stop := by
    intro s hs
    have htest := @not_of_mem_dropWhile (fun seg => seg.stop < incoming.start) _
      (List.Pairwise.imp_of_mem (fun {a b} ha hb hab hb' => by
        have := hsized b hb
        simp only [decide_eq_true_eq] at hb' ⊢
        omega) hapart) s hs
    simpa using htest
  have hexisting : ∀ s ∈ existing, incoming.start ≤ s.stop ∧ s.start ≤ incoming.stop := by
    intro s hs
    have htest := List.mem_takeWhile_imp hs
    refine ⟨hbehind_stop s ?_, of_decide_eq_true htest⟩
    rw [← hbehind]
    exact List.mem_append_left _ hs
  have hbehind_sub : behind.Sublist active.segments := List.dropWhile_sublist _
  have hright : ∀ s ∈ right, incoming.stop < s.start := by
    intro s hs
    have htest := @not_of_mem_dropWhile (fun seg => seg.start ≤ incoming.stop) _
      (List.Pairwise.imp_of_mem (fun {a b} ha _ hab hb' => by
        have := hsized a (hbehind_sub.subset ha)
        simp only [decide_eq_true_eq] at hb' ⊢
        omega) (hapart.sublist hbehind_sub)) s hs
    simpa using htest
  have hexisting_eq : (List.takeWhile (fun seg => decide (seg.start ≤ incoming.stop))
      (List.dropWhile (fun seg => decide (seg.stop < incoming.start)) active.segments)) =
        existing := rfl
  cases hfirst : existing.head? with
  | some first =>
    cases hlast : existing.getLast? with
    | none =>
      rw [List.getLast?_eq_none_iff.mp hlast] at hfirst
      cases hfirst
    | some last =>
      refine ⟨left, existing, right, join existing first last incoming, false, hall,
        .join hfirst hlast hexisting, hleft, hright, ?_⟩
      unfold insertSegment
      simp only [hexisting_eq, hfirst, hlast]
      rfl
  | none =>
    have hnil : existing = [] := List.head?_eq_none_iff.mp hfirst
    have hall' : active.segments = left ++ right := by
      rw [hall, hnil, List.nil_append]
    by_cases hcap : active.segments.length = MAX_ACTIVE_SEGMENTS
    · have hne : left ++ right ≠ [] := by
        rw [← hall']
        intro hempty
        rw [hempty] at hcap
        exact absurd hcap (by decide)
      obtain ⟨left', current, right', hsplit, hmerge, hsides⟩ :=
        @mergeOverflowSegment_spec left right incoming hne
      refine ⟨left', [current], right', extend current incoming, true, ?_, .compact ?_, ?_, ?_, ?_⟩
      · rw [hall', hsplit]
        rfl
      · rcases hsides with ⟨hl, -⟩ | ⟨-, hr⟩
        · exact .inl (hleft _ (by rw [hl]; simp))
        · exact .inr (hright _ (by rw [hr]; simp))
      · intro s hs
        rcases hsides with ⟨hl, -⟩ | ⟨hl, -⟩
        · exact hleft _ (by rw [hl]; exact List.mem_append_left _ hs)
        · exact hleft _ (by rw [hl]; exact hs)
      · intro s hs
        rcases hsides with ⟨-, hr⟩ | ⟨-, hr⟩
        · exact hright _ (by rw [hr]; exact hs)
        · exact hright _ (by rw [hr]; exact List.mem_cons_of_mem _ hs)
      · unfold insertSegment
        simp only [hexisting_eq, hfirst, hcap, if_true]
        rw [← hmerge]
    · refine ⟨left, [], right, incoming, false, ?_, .fresh, hleft, hright, ?_⟩
      · rw [hall']
        rfl
      · unfold insertSegment
        simp only [hexisting_eq, hfirst, hcap, if_false]
        rfl

end ActiveSegments

namespace ActiveSegment

open ActiveSegments

variable {seg incoming : ActiveSegment} {compacted : Bool} {absorbed : List ActiveSegment}

lemma Sized.activeMs_nonneg (h : Sized seg) :
    0 ≤ seg.activeMs := by
  have := h.gap_le
  unfold IDLE_GAP_MS at this
  omega

lemma spanMs_eq (h : seg.start ≤ seg.stop) :
    seg.spanMs = min (seg.stop - seg.start) AXIS_MAX := by
  unfold spanMs
  rw [saturateI64_of_nonneg (by omega)]
  unfold AXIS_MAX
  omega

section

variable {result : ActiveSegment} (h : Absorbs incoming absorbed result compacted)
  (hapart : Apart absorbed)
include h hapart

lemma Absorbs.ends (hsized : ∀ s ∈ absorbed, s.start < s.stop) :
    (∀ s ∈ incoming :: absorbed, result.start ≤ s.start ∧ s.stop ≤ result.stop) ∧
      (∃ s ∈ incoming :: absorbed, s.start = result.start) ∧
      ∃ s ∈ incoming :: absorbed, s.stop = result.stop := by
  cases h with
  | @join _ first last hfirst hlast htouch =>
    have hfirst_mem : first ∈ absorbed := List.mem_of_mem_head? hfirst
    have hlast_mem : last ∈ absorbed := List.mem_of_getLast? hlast
    have hfirst_le := hapart.first_le hsized hfirst
    have hlast_le := hapart.le_last hsized hlast
    refine ⟨?_, ?_, ?_⟩
    · intro s hs
      show min incoming.start first.start ≤ s.start ∧ s.stop ≤ max incoming.stop last.stop
      rcases List.mem_cons.mp hs with rfl | hs
      · exact ⟨min_le_left _ _, le_max_left _ _⟩
      · exact ⟨(min_le_right _ _).trans (hfirst_le s hs), (hlast_le s hs).trans (le_max_right _ _)⟩
    · rcases min_choice incoming.start first.start with h | h
      · exact ⟨incoming, List.mem_cons_self, h.symm⟩
      · exact ⟨first, List.mem_cons_of_mem _ hfirst_mem, h.symm⟩
    · rcases max_choice incoming.stop last.stop with h | h
      · exact ⟨incoming, List.mem_cons_self, h.symm⟩
      · exact ⟨last, List.mem_cons_of_mem _ hlast_mem, h.symm⟩
  | fresh =>
    refine ⟨?_, ⟨incoming, List.mem_cons_self, rfl⟩, ⟨incoming, List.mem_cons_self, rfl⟩⟩
    intro s hs
    rw [List.mem_singleton.mp hs]
    exact ⟨le_refl _, le_refl _⟩
  | @compact current happart =>
    refine ⟨?_, ?_, ?_⟩
    · intro s hs
      show min current.start incoming.start ≤ s.start ∧ s.stop ≤ max current.stop incoming.stop
      rcases List.mem_cons.mp hs with rfl | hs
      · exact ⟨min_le_right _ _, le_max_right _ _⟩
      · rw [List.mem_singleton.mp hs]
        exact ⟨min_le_left _ _, le_max_left _ _⟩
    · rcases min_choice current.start incoming.start with h | h
      · exact ⟨current, by simp, h.symm⟩
      · exact ⟨incoming, List.mem_cons_self, h.symm⟩
    · rcases max_choice current.stop incoming.stop with h | h
      · exact ⟨current, by simp, h.symm⟩
      · exact ⟨incoming, List.mem_cons_self, h.symm⟩

lemma Absorbs.sized (hsized : ∀ s ∈ absorbed, Sized s) (hinc : Sized incoming) :
    Sized result := by
  obtain ⟨hends, -, -⟩ := h.ends hapart fun s hs => (hsized s hs).start_lt
  obtain ⟨hstart, hstop⟩ := hends incoming List.mem_cons_self
  have hlt := hinc.start_lt
  have hspan : incoming.spanMs ≤ result.spanMs := by
    rw [spanMs_eq (by omega), spanMs_eq (by omega)]
    omega
  have hgap := hinc.gap_le
  have hle := hinc.le_span
  refine ⟨by omega, ?_, ?_⟩
  · cases h with
    | @join _ first last hfirst hlast htouch =>
      have hfirst_mem : first ∈ absorbed := List.mem_of_mem_head? hfirst
      have hsum : IDLE_GAP_MS ≤ sumActive absorbed := by
        have hnonneg : ∀ s ∈ absorbed, 0 ≤ s.activeMs := fun s hs => (hsized s hs).activeMs_nonneg
        have hle_sum : first.activeMs ≤ (absorbed.map activeMs).sum :=
          List.single_le_sum (by simpa using hnonneg) _ (List.mem_map_of_mem hfirst_mem)
        have := (hsized first hfirst_mem).gap_le
        rw [sumActive_eq hnonneg]
        unfold AXIS_MAX IDLE_GAP_MS at *
        omega
      show IDLE_GAP_MS ≤ ite _ _ _
      split
      · exact hgap.trans (hle.trans hspan)
      · refine le_min ?_ (hgap.trans (hle.trans hspan))
        unfold saturateI64 IDLE_GAP_MS at *
        omega
    | fresh => exact hgap
    | @compact current happart =>
      have hcur := hsized current List.mem_cons_self
      have := hcur.activeMs_nonneg
      show IDLE_GAP_MS ≤ saturateI64 (current.activeMs + incoming.activeMs)
      unfold saturateI64 IDLE_GAP_MS at *
      omega
  · cases h with
    | @join _ first last hfirst hlast htouch =>
      show ite _ _ _ ≤ (_ : Int)
      split
      · exact le_refl _
      · exact min_le_right _ _
    | fresh => exact hle
    | @compact current happart =>
      have hcur := hsized current List.mem_cons_self
      have hcurrent_lt := hcur.start_lt
      have hcurrent_le := hcur.le_span
      have hnonneg := hcur.activeMs_nonneg
      rw [spanMs_eq (by omega)] at hle hcurrent_le
      rw [spanMs_eq (show (extend current incoming).start ≤ (extend current incoming).stop by omega)]
      show saturateI64 (current.activeMs + incoming.activeMs) ≤
        min (max current.stop incoming.stop - min current.start incoming.start) AXIS_MAX
      unfold IDLE_GAP_MS at hgap
      rw [saturateI64_of_nonneg (by omega)]
      omega

end

end ActiveSegment

/-! ### Runs -/

namespace ActiveSegments

open ActiveSegment

structure Tidy (segments : List ActiveSegment) : Prop where
  apart : Apart segments
  sized : ∀ s ∈ segments, Sized s

structure Coarsens (fine coarse : List ActiveSegment) : Prop where
  start_mem : ∀ c ∈ coarse, ∃ f ∈ fine, f.start = c.start
  stop_mem : ∀ c ∈ coarse, ∃ f ∈ fine, f.stop = c.stop
  holds : ∀ f ∈ fine, ∃ c ∈ coarse, c.start ≤ f.start ∧ f.stop ≤ c.stop

lemma Coarsens.refl (segs : List ActiveSegment) : Coarsens segs segs where
  start_mem := fun c hc => ⟨c, hc, rfl⟩
  stop_mem := fun c hc => ⟨c, hc, rfl⟩
  holds := fun c hc => ⟨c, hc, le_refl _, le_refl _⟩

lemma Coarsens.trans {a b c : List ActiveSegment} (h₁ : Coarsens a b) (h₂ : Coarsens b c) :
    Coarsens a c where
  start_mem := by
    intro s hs
    obtain ⟨f, hf, hfs⟩ := h₂.start_mem s hs
    obtain ⟨g, hg, hgf⟩ := h₁.start_mem f hf
    exact ⟨g, hg, hgf.trans hfs⟩
  stop_mem := by
    intro s hs
    obtain ⟨f, hf, hfs⟩ := h₂.stop_mem s hs
    obtain ⟨g, hg, hgf⟩ := h₁.stop_mem f hf
    exact ⟨g, hg, hgf.trans hfs⟩
  holds := by
    intro s hs
    obtain ⟨f, hf, hstart, hstop⟩ := h₁.holds s hs
    obtain ⟨g, hg, hstart', hstop'⟩ := h₂.holds f hf
    exact ⟨g, hg, hstart'.trans hstart, hstop.trans hstop'⟩

lemma Coarsens.append {a a' b b' : List ActiveSegment} (h : Coarsens a a')
    (h' : Coarsens b b') : Coarsens (a ++ b) (a' ++ b') where
  start_mem := by
    intro s hs
    rcases List.mem_append.mp hs with hs | hs
    · obtain ⟨f, hf, heq⟩ := h.start_mem s hs
      exact ⟨f, List.mem_append_left _ hf, heq⟩
    · obtain ⟨f, hf, heq⟩ := h'.start_mem s hs
      exact ⟨f, List.mem_append_right _ hf, heq⟩
  stop_mem := by
    intro s hs
    rcases List.mem_append.mp hs with hs | hs
    · obtain ⟨f, hf, heq⟩ := h.stop_mem s hs
      exact ⟨f, List.mem_append_left _ hf, heq⟩
    · obtain ⟨f, hf, heq⟩ := h'.stop_mem s hs
      exact ⟨f, List.mem_append_right _ hf, heq⟩
  holds := by
    intro s hs
    rcases List.mem_append.mp hs with hs | hs
    · obtain ⟨c, hc, hin⟩ := h.holds s hs
      exact ⟨c, List.mem_append_left _ hc, hin⟩
    · obtain ⟨c, hc, hin⟩ := h'.holds s hs
      exact ⟨c, List.mem_append_right _ hc, hin⟩

lemma Coarsens.of_mem {a a' b : List ActiveSegment} (hmem : ∀ s, s ∈ a ↔ s ∈ a')
    (h : Coarsens a b) : Coarsens a' b where
  start_mem := by simpa only [hmem] using h.start_mem
  stop_mem := by simpa only [hmem] using h.stop_mem
  holds := by simpa only [hmem] using h.holds

lemma insertSegment_tidy {active : ActiveSegments} {incoming : ActiveSegment}
    (h : Tidy active.segments) (hinc : Sized incoming) :
    Tidy (active.insertSegment incoming).segments ∧
      Coarsens (incoming :: active.segments) (active.insertSegment incoming).segments ∧
      (active.insertSegment incoming).firstTs = active.firstTs ∧
      (active.insertSegment incoming).lastTs = active.lastTs := by
  obtain ⟨left, absorbed, right, result, compacted, hall, habsorbs, hleft, hright, hinsert⟩ :=
    @insertSegment_spec active incoming h.apart fun s hs => (h.sized s hs).start_lt
  have hapart := h.apart
  unfold Apart at hapart
  rw [hall, List.pairwise_append] at hapart
  obtain ⟨hleft_apart, hrest, hleft_rest⟩ := hapart
  obtain ⟨habsorbed_apart, hright_apart, habsorbed_right⟩ := List.pairwise_append.mp hrest
  have habsorbed_sized : ∀ s ∈ absorbed, Sized s := fun s hs =>
    h.sized s (by rw [hall]; simp [hs])
  obtain ⟨hends, hstart_mem, hstop_mem⟩ := habsorbs.ends habsorbed_apart fun s hs =>
    (habsorbed_sized s hs).start_lt
  have hresult := habsorbs.sized habsorbed_apart habsorbed_sized hinc
  have hleft_result : ∀ s ∈ left, s.stop < result.start := by
    intro s hs
    obtain ⟨t, ht, heq⟩ := hstart_mem
    rw [← heq]
    rcases List.mem_cons.mp ht with rfl | ht
    · exact hleft s hs
    · exact hleft_rest s hs t (List.mem_append_left _ ht)
  have hresult_right : ∀ s ∈ right, result.stop < s.start := by
    intro s hs
    obtain ⟨t, ht, heq⟩ := hstop_mem
    rw [← heq]
    rcases List.mem_cons.mp ht with rfl | ht
    · exact hright s hs
    · exact habsorbed_right t ht s hs
  have hmem : ∀ s, s ∈ incoming :: active.segments ↔
      s ∈ left ∨ s ∈ incoming :: absorbed ∨ s ∈ right := by
    intro s
    rw [hall]
    simp only [List.mem_cons, List.mem_append]
    tauto
  rw [hinsert]
  refine ⟨⟨?_, ?_⟩, ⟨?_, ?_, ?_⟩, rfl, rfl⟩
  · refine List.pairwise_append.mpr ⟨hleft_apart, List.pairwise_cons.mpr
      ⟨hresult_right, hright_apart⟩, ?_⟩
    intro s hs t ht
    rcases List.mem_cons.mp ht with rfl | ht
    · exact hleft_result s hs
    · exact hleft_rest s hs t (List.mem_append_right _ ht)
  · intro s hs
    rcases List.mem_append.mp hs with hs | hs
    · exact h.sized s (by rw [hall]; simp [hs])
    · rcases List.mem_cons.mp hs with rfl | hs
      · exact hresult
      · exact h.sized s (by rw [hall]; simp [hs])
  · intro s hs
    rcases List.mem_append.mp hs with hs | hs
    · exact ⟨s, (hmem s).mpr (.inl hs), rfl⟩
    · rcases List.mem_cons.mp hs with rfl | hs
      · obtain ⟨t, ht, heq⟩ := hstart_mem
        exact ⟨t, (hmem t).mpr (.inr (.inl ht)), heq⟩
      · exact ⟨s, (hmem s).mpr (.inr (.inr hs)), rfl⟩
  · intro s hs
    rcases List.mem_append.mp hs with hs | hs
    · exact ⟨s, (hmem s).mpr (.inl hs), rfl⟩
    · rcases List.mem_cons.mp hs with rfl | hs
      · obtain ⟨t, ht, heq⟩ := hstop_mem
        exact ⟨t, (hmem t).mpr (.inr (.inl ht)), heq⟩
      · exact ⟨s, (hmem s).mpr (.inr (.inr hs)), rfl⟩
  · intro s hs
    rcases (hmem s).mp hs with hs | hs | hs
    · exact ⟨s, List.mem_append_left _ hs, le_refl _, le_refl _⟩
    · exact ⟨result, List.mem_append_right _ List.mem_cons_self, (hends s hs).1, (hends s hs).2⟩
    · exact ⟨s, List.mem_append_right _ (List.mem_cons_of_mem _ hs), le_refl _, le_refl _⟩

lemma insertAll_tidy {incoming : List ActiveSegment} (hinc : ∀ s ∈ incoming, Sized s)
    {active : ActiveSegments} (h : Tidy active.segments) :
    Tidy (incoming.foldl insertSegment active).segments ∧
      Coarsens (incoming ++ active.segments) (incoming.foldl insertSegment active).segments ∧
      (incoming.foldl insertSegment active).firstTs = active.firstTs ∧
      (incoming.foldl insertSegment active).lastTs = active.lastTs := by
  induction incoming generalizing active with
  | nil => exact ⟨h, .refl _, rfl, rfl⟩
  | cons seg rest ih =>
    obtain ⟨htidy, hcoarse, hfirst, hlast⟩ :=
      insertSegment_tidy h (hinc seg List.mem_cons_self)
    obtain ⟨htidy', hcoarse', hfirst', hlast'⟩ :=
      ih (fun s hs => hinc s (List.mem_cons_of_mem _ hs)) htidy
    refine ⟨htidy', ?_, hfirst'.trans hfirst, hlast'.trans hlast⟩
    -- the segments still to come meet what the first insertion left
    have hboth := ((Coarsens.refl rest).append hcoarse).trans hcoarse'
    exact hboth.of_mem fun s => List.perm_middle.mem_iff

def mark (timestamp : Int) : ActiveSegment :=
  ⟨timestamp, timestamp + IDLE_GAP_MS, IDLE_GAP_MS⟩

lemma mark_sized (timestamp : Int) : Sized (mark timestamp) := by
  refine ⟨?_, le_refl _, ?_⟩
  · unfold mark IDLE_GAP_MS
    dsimp only
    omega
  · rw [spanMs_eq (by unfold mark IDLE_GAP_MS; dsimp only; omega)]
    unfold mark AXIS_MAX IDLE_GAP_MS
    dsimp only
    omega

/-- An `i64` timestamp whose active time ends below the greatest `i64`. -/
def InRange (timestamp : Int) : Prop :=
  -(2 ^ 63) ≤ timestamp ∧ timestamp + IDLE_GAP_MS ≤ AXIS_MAX

lemma exact_eq_mark {timestamp : Int} (h : InRange timestamp) :
    ActiveSegment.exact timestamp (saturateI64 (timestamp + IDLE_GAP_MS)) = mark timestamp := by
  obtain ⟨hmin, hmax⟩ := h
  have hstop : saturateI64 (timestamp + IDLE_GAP_MS) = timestamp + IDLE_GAP_MS := by
    unfold saturateI64 AXIS_MAX IDLE_GAP_MS at *
    omega
  unfold ActiveSegment.exact mark
  rw [hstop]
  congr 1
  unfold saturateI64 IDLE_GAP_MS
  omega

def Extreme (le : Int → Int → Prop) (timestamps : List Int) : Option Int → Prop
  | none => timestamps = []
  | some t => t ∈ timestamps ∧ ∀ u ∈ timestamps, le t u

/-- The pick of two timestamps, of which either may be missing. -/
def pickBoth (pick : Int → Int → Int) (t : Option Int) : Option Int → Option Int
  | some u => some ((t.map (pick u)).getD u)
  | none => t

lemma Extreme.append {le : Int → Int → Prop} {pick : Int → Int → Int}
    (htrans : ∀ a b c, le a b → le b c → le a c)
    (hpick : ∀ a b, (pick a b = a ∨ pick a b = b) ∧ le (pick a b) a ∧ le (pick a b) b)
    {timestamps others : List Int} {t u : Option Int} (h : Extreme le timestamps t)
    (h' : Extreme le others u) :
    Extreme le (timestamps ++ others) (pickBoth pick t u) := by
  cases u with
  | none =>
    obtain rfl : others = [] := h'
    rw [List.append_nil]
    exact h
  | some u =>
    obtain ⟨hu, hleast⟩ := h'
    cases t with
    | none =>
      obtain rfl : timestamps = [] := h
      exact ⟨hu, hleast⟩
    | some t =>
      obtain ⟨ht, hleast'⟩ := h
      obtain ⟨hchoice, hpu, hpt⟩ := hpick u t
      refine ⟨?_, ?_⟩
      · show pick u t ∈ _
        rcases hchoice with heq | heq <;> rw [heq]
        · exact List.mem_append_right _ hu
        · exact List.mem_append_left _ ht
      · intro s hs
        show le (pick u t) s
        rcases List.mem_append.mp hs with hs | hs
        · exact htrans _ _ _ hpt (hleast' s hs)
        · exact htrans _ _ _ hpu (hleast s hs)

structure Range (timestamps : List Int) (first last : Option Int) : Prop where
  least : Extreme (· ≤ ·) timestamps first
  greatest : Extreme (fun a b => b ≤ a) timestamps last

variable {timestamps others : List Int}

variable {first last : Option Int}

lemma Range.merge {first' last' : Option Int}
    (h : Range timestamps first last) (h' : Range others first' last') :
    Range (timestamps ++ others) (pickBoth min first first') (pickBoth max last last') where
  least := @Extreme.append (· ≤ ·) min (fun _ _ _ => le_trans)
    (fun a b => ⟨min_choice a b, min_le_left a b, min_le_right a b⟩) _ _ _ _ h.least h'.least
  greatest := @Extreme.append (fun a b => b ≤ a) max (fun _ _ _ hab hbc => hbc.trans hab)
    (fun a b => ⟨max_choice a b, le_max_left a b, le_max_right a b⟩) _ _ _ _ h.greatest
    h'.greatest

lemma Range.of_mem
    (hmem : ∀ t, t ∈ timestamps ↔ t ∈ others) (h : Range timestamps first last) :
    Range others first last := by
  have hempty : timestamps = [] ↔ others = [] := by
    simp only [List.eq_nil_iff_forall_not_mem, hmem]
  obtain ⟨hleast, hgreat⟩ := h
  constructor
  · cases first with
    | none => exact hempty.mp hleast
    | some f => exact ⟨(hmem f).mp hleast.1, fun t ht => hleast.2 t ((hmem t).mpr ht)⟩
  · cases last with
    | none => exact hempty.mp hgreat
    | some l => exact ⟨(hmem l).mp hgreat.1, fun t ht => hgreat.2 t ((hmem t).mpr ht)⟩

lemma Range.observe
    (h : Range timestamps first last) (t : Int) :
    Range (t :: timestamps) (some ((first.map (min t)).getD t))
      (some ((last.map (max t)).getD t)) := by
  have hone : Range [t] (some t) (some t) := by
    constructor <;> exact ⟨List.mem_cons_self, fun u hu => (List.mem_singleton.mp hu) ▸ le_refl _⟩
  exact (h.merge hone).of_mem fun u => by simp [or_comm]

/-- The invariant of every accumulator: tidy segments that hold the active time
of all its timestamps and end at ends of it. -/
structure Traces (timestamps : List Int) (active : ActiveSegments) : Prop where
  tidy : Tidy active.segments
  coarse : Coarsens (timestamps.map mark) active.segments
  range : Range timestamps active.firstTs active.lastTs

def observeBase (active : ActiveSegments) (t : Int) : ActiveSegments :=
  { active with
    firstTs := some ((active.firstTs.map (min t)).getD t)
    lastTs := some ((active.lastTs.map (max t)).getD t) }

lemma observe_eq (active : ActiveSegments) {t : Int} (ht : InRange t) :
    active.observe t = (active.observeBase t).insertSegment (mark t) := by
  unfold ActiveSegments.observe
  rw [exact_eq_mark ht]
  rfl

lemma Traces.observe {active : ActiveSegments}
    (h : Traces timestamps active) {t : Int} (ht : InRange t) :
    Traces (t :: timestamps) (active.observe t) := by
  obtain ⟨htidy, hcoarse, hfirst, hlast⟩ :=
    @insertSegment_tidy (active.observeBase t) _ h.tidy (mark_sized t)
  rw [observe_eq active ht]
  refine ⟨htidy, ?_, ?_⟩
  · exact ((Coarsens.refl [mark t]).append h.coarse).trans hcoarse
  · rw [hfirst, hlast]
    exact h.range.observe t

def mergeBase (active other : ActiveSegments) : ActiveSegments :=
  { active with
    firstTs := pickBoth min active.firstTs other.firstTs
    lastTs := pickBoth max active.lastTs other.lastTs }

lemma merge_eq (active other : ActiveSegments) :
    active.merge other =
      let merged := other.segments.foldl insertSegment (active.mergeBase other)
      { merged with
        segmentsMerged := saturatingAdd merged.segmentsMerged other.segmentsMerged } := rfl

lemma Traces.merge {active other : ActiveSegments}
    (h : Traces timestamps active) (h' : Traces others other) :
    Traces (timestamps ++ others) (active.merge other) := by
  obtain ⟨htidy, hcoarse, hfirst, hlast⟩ :=
    @insertAll_tidy other.segments h'.tidy.sized (active.mergeBase other) h.tidy
  rw [merge_eq]
  refine ⟨htidy, ?_, ?_⟩
  · have hboth := (h'.coarse.append h.coarse).trans hcoarse
    refine hboth.of_mem fun s => ?_
    rw [List.map_append]
    exact List.perm_append_comm.mem_iff
  · dsimp only
    rw [hfirst, hlast]
    exact h.range.merge h'.range

end ActiveSegments

lemma ActiveHistory.traces (history : ActiveHistory)
    (h : ∀ t ∈ history.timestamps, ActiveSegments.InRange t) :
    ActiveSegments.Traces history.timestamps history.run.active := by
  induction history with
  | fresh =>
    refine ⟨⟨List.Pairwise.nil, ?_⟩, ⟨?_, ?_, ?_⟩, ⟨rfl, rfl⟩⟩ <;>
    · intro s hs
      cases hs
  | observe history t ih =>
    exact (ih fun u hu => h u (List.mem_cons_of_mem _ hu)).observe (h t List.mem_cons_self)
  | merge history other ih ih' =>
    exact (ih fun u hu => h u (List.mem_append_left _ hu)).merge
      (ih' fun u hu => h u (List.mem_append_right _ hu))
  | rebuildPrefix history ih => exact ih h
  | restore history ih => exact ih h

end Antiburn
