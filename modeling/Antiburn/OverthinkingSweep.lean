/-
The comparison of turns above an effort cap with turns of lower effort.

`overthinkingGroupTokens` sorts both kinds of turns by output and sweeps: the
lower-effort turns with less output than the present one are `active`, the one
with most output for each context.  It looks at one neighbour on each side of the
present context.
-/
import Antiburn.Lib.Checked
import Antiburn.Lib.Saturating
import Mathlib

namespace Antiburn

/-- Greatest 128-bit counter. -/
def U128_MAX : Nat := 2 ^ 128 - 1

/-- A sum of token counts that a `u128` can hold. -/
def FitsU128 (tokens : Nat) : Prop := tokens ≤ U128_MAX

instance : DecidablePred FitsU128 := fun tokens => Nat.decLe tokens U128_MAX

lemma fitsU128_downClosed : Checked.DownClosed FitsU128 :=
  fun a b h => (Nat.le_add_right a b).trans h

/-- `total?.checked_add(value?)`. -/
def checkedAccumulate (total value : Option Nat) : Option Nat := Checked.add FitsU128 total value

structure ComparisonCandidate where
  contextTokens : Nat
  outputTokens : Nat
  assumedTokens : Nat
  context_le : contextTokens ≤ U128_MAX
  output_le : outputTokens ≤ U64_MAX

/-- Rounded up. -/
def percentageOfTokens (tokens percentage : Nat) : Option Nat :=
  if tokens * percentage ≤ U128_MAX ∧ tokens * percentage + 99 ≤ U128_MAX then
    some ((tokens * percentage + 99) / 100)
  else none

/-- What a turn is assumed to burn when there is nothing to compare it with. -/
def assumedForEffort (aboveCap : Bool) (effort : String) (outputTokens : Nat) : Option Nat :=
  if aboveCap then
    if effort = "xhigh" then percentageOfTokens outputTokens 20
    else if effort = "max" ∨ effort = "ultra" then percentageOfTokens outputTokens 35
    else percentageOfTokens outputTokens 10
  else some 0

/-- The candidate that `observe` retains. -/
def ComparisonCandidate.ofTurn (contextTokens outputTokens : Nat) (aboveCap : Bool)
    (effort : String) (context_le : contextTokens ≤ U128_MAX) (output_le : outputTokens ≤ U64_MAX) :
    ComparisonCandidate :=
  ⟨contextTokens, outputTokens, (assumedForEffort aboveCap effort outputTokens).getD 0, context_le,
    output_le⟩

structure ComparisonGroup where
  lowerEffort : List ComparisonCandidate := []
  aboveCap : List ComparisonCandidate := []

/-- What `retain_comparison` does in the group of a turn. -/
def ComparisonGroup.retain (group : ComparisonGroup) (turn : ComparisonCandidate × Bool) :
    ComparisonGroup :=
  if turn.2 then { group with aboveCap := group.aboveCap ++ [turn.1] }
  else { group with lowerEffort := group.lowerEffort ++ [turn.1] }

def ComparisonGroup.ofRetained (turns : List (ComparisonCandidate × Bool)) : ComparisonGroup :=
  turns.foldl retain {}

namespace ComparisonCandidate

def lowerKey (turn : ComparisonCandidate) : Nat ×ₗ Nat :=
  toLex (turn.outputTokens, turn.contextTokens)

def aboveKey (turn : ComparisonCandidate) : Nat ×ₗ Nat ×ₗ Nat :=
  toLex (turn.outputTokens, toLex (turn.contextTokens, turn.assumedTokens))

/-- `u128::abs_diff` of the contexts. -/
def difference (turn candidate : ComparisonCandidate) : Nat :=
  (turn.contextTokens - candidate.contextTokens) + (candidate.contextTokens - turn.contextTokens)

/-- Nearest context, then most output, then least context. -/
def matchKey (turn candidate : ComparisonCandidate) : Nat ×ₗ Nat ×ₗ Nat :=
  toLex (turn.difference candidate,
    toLex (U64_MAX - candidate.outputTokens, candidate.contextTokens))

end ComparisonCandidate

/-- The active turns, by context: `active.entry(..).and_modify(..).or_insert(..)`. -/
def enterActive (candidate : ComparisonCandidate) :
    List ComparisonCandidate → List ComparisonCandidate
  | [] => [candidate]
  | current :: rest =>
    if candidate.contextTokens < current.contextTokens then candidate :: current :: rest
    else if candidate.contextTokens = current.contextTokens then
      (if candidate.outputTokens > current.outputTokens then candidate else current) :: rest
    else current :: enterActive candidate rest

/-- `active.range(low..=high)`. -/
def activeRange (active : List ComparisonCandidate) (low high : Nat) : List ComparisonCandidate :=
  active.filter fun candidate => low ≤ candidate.contextTokens ∧ candidate.contextTokens ≤ high

def observedTokens (active : List ComparisonCandidate) (turn : ComparisonCandidate) :
    Option Nat :=
  let lowerBound := turn.contextTokens - turn.contextTokens / 5
  let upperBound := min (turn.contextTokens + turn.contextTokens / 4) U128_MAX
  let left := (activeRange active lowerBound turn.contextTokens).getLast?
  let right := (activeRange active turn.contextTokens upperBound).head?
  (List.argmin turn.matchKey ([left, right].filterMap id)).map fun candidate =>
    turn.outputTokens - candidate.outputTokens

structure OverthinkingGroupEstimate where
  tokens : Option Nat
  operations : Nat

/-- The sweep between two turns above the cap. -/
structure SweepState where
  active : List ComparisonCandidate := []
  /-- The lower-effort turns from `lower_index` on. -/
  pending : List ComparisonCandidate
  total : Option Nat := some 0
  operations : Nat := 0

def sweepTurn (state : SweepState) (turn : ComparisonCandidate) : SweepState :=
  let lower := fun candidate : ComparisonCandidate =>
    decide (candidate.outputTokens < turn.outputTokens)
  let passed := state.pending.takeWhile lower
  let active := passed.foldl (fun active candidate => enterActive candidate active) state.active
  { active
    pending := state.pending.dropWhile lower
    total := checkedAccumulate state.total
      ((observedTokens active turn).or (some turn.assumedTokens))
    operations := state.operations + passed.length + 2 }

def overthinkingGroupTokens (group : ComparisonGroup) : OverthinkingGroupEstimate :=
  let lowerEffort := group.lowerEffort.insertionSort fun a b => a.lowerKey ≤ b.lowerKey
  let aboveCap := group.aboveCap.insertionSort fun a b => a.aboveKey ≤ b.aboveKey
  let swept := aboveCap.foldl sweepTurn { pending := lowerEffort }
  ⟨swept.total, swept.operations⟩

/-! ### The nearest match -/

namespace ComparisonCandidate

/-- Less output in a context between four fifths and five fourths of the turn's. -/
structure Comparable (turn candidate : ComparisonCandidate) : Prop where
  output_lt : candidate.outputTokens < turn.outputTokens
  ge_low : 4 * turn.contextTokens ≤ 5 * candidate.contextTokens
  le_high : 4 * candidate.contextTokens ≤ 5 * turn.contextTokens

/-- Nearer in context; then more output; then less context. -/
def Prefers (turn best other : ComparisonCandidate) : Prop :=
  turn.difference best < turn.difference other ∨
    turn.difference best = turn.difference other ∧
      (other.outputTokens < best.outputTokens ∨
        best.outputTokens = other.outputTokens ∧ best.contextTokens ≤ other.contextTokens)

lemma matchKey_le_iff {turn best other : ComparisonCandidate} :
    turn.matchKey best ≤ turn.matchKey other ↔ turn.Prefers best other := by
  have hbest := best.output_le
  have hother := other.output_le
  unfold matchKey Prefers
  rw [Prod.Lex.toLex_le_toLex, Prod.Lex.toLex_le_toLex]
  dsimp only
  omega

lemma Prefers.antisymm {turn a b : ComparisonCandidate} (h : turn.Prefers a b)
    (h' : turn.Prefers b a) : a.outputTokens = b.outputTokens := by
  unfold Prefers at h h'
  omega

structure Nearest (lower : List ComparisonCandidate) (turn best : ComparisonCandidate) : Prop where
  mem : best ∈ lower
  comparable : turn.Comparable best
  prefers : ∀ other ∈ lower, turn.Comparable other → turn.Prefers best other

inductive Saves (lower : List ComparisonCandidate) (turn : ComparisonCandidate) : Nat → Prop
  | observed {best : ComparisonCandidate} (h : Nearest lower turn best) :
      Saves lower turn (turn.outputTokens - best.outputTokens)
  | assumed (h : ∀ candidate ∈ lower, ¬turn.Comparable candidate) :
      Saves lower turn turn.assumedTokens

lemma Saves.unique {lower : List ComparisonCandidate} {turn : ComparisonCandidate} {m n : Nat}
    (h : Saves lower turn m) (h' : Saves lower turn n) : m = n := by
  cases h with
  | observed h =>
    cases h' with
    | observed h' =>
      rw [(h.prefers _ h'.mem h'.comparable).antisymm (h'.prefers _ h.mem h.comparable)]
    | assumed h' => exact absurd h.comparable (h' _ h.mem)
  | assumed h =>
    cases h' with
    | observed h' => exact absurd h'.comparable (h _ h'.mem)
    | assumed h' => rfl

lemma Saves.of_mem {lower lower' : List ComparisonCandidate} {turn : ComparisonCandidate}
    {n : Nat} (h : Saves lower turn n)
    (hmem : ∀ candidate, candidate.outputTokens < turn.outputTokens →
      (candidate ∈ lower ↔ candidate ∈ lower')) : Saves lower' turn n := by
  cases h with
  | observed h =>
    refine .observed ⟨(hmem _ h.comparable.output_lt).mp h.mem, h.comparable, ?_⟩
    exact fun other hother hcmp =>
      h.prefers other ((hmem _ hcmp.output_lt).mpr hother) hcmp
  | assumed h =>
    refine .assumed fun candidate hcand hcmp => ?_
    exact h candidate ((hmem _ hcmp.output_lt).mpr hcand) hcmp

end ComparisonCandidate

/-! ### What is active -/

open ComparisonCandidate

/-- The active turns stand in order of their contexts, were all entered, and for
every entered turn there is one of its context with no less output. -/
structure ActiveFor (entered active : List ComparisonCandidate) : Prop where
  sorted : active.Pairwise fun a b => a.contextTokens < b.contextTokens
  mem : ∀ candidate ∈ active, candidate ∈ entered
  dominates : ∀ candidate ∈ entered, ∃ best ∈ active,
    best.contextTokens = candidate.contextTokens ∧ candidate.outputTokens ≤ best.outputTokens

variable {candidate : ComparisonCandidate} {active entered : List ComparisonCandidate}
  {low high : Nat}

lemma enterActive_cons (candidate current : ComparisonCandidate)
    (rest : List ComparisonCandidate) :
    enterActive candidate (current :: rest) =
      if candidate.contextTokens < current.contextTokens then candidate :: current :: rest
      else if candidate.contextTokens = current.contextTokens then
        (if candidate.outputTokens > current.outputTokens then candidate else current) :: rest
      else current :: enterActive candidate rest := rfl

lemma mem_enter {other : ComparisonCandidate}
    (h : other ∈ enterActive candidate active) : other = candidate ∨ other ∈ active := by
  induction active with
  | nil => exact .inl (List.mem_singleton.mp h)
  | cons current rest ih =>
    rw [enterActive_cons] at h
    split_ifs at h with hlt heq hmore
    · exact (List.mem_cons.mp h)
    · rcases List.mem_cons.mp h with rfl | h
      · exact .inl rfl
      · exact .inr (List.mem_cons_of_mem _ h)
    · exact .inr h
    · rcases List.mem_cons.mp h with rfl | h
      · exact .inr List.mem_cons_self
      · exact (ih h).imp id (List.mem_cons_of_mem _)

lemma enter_sorted
    (h : active.Pairwise fun a b => a.contextTokens < b.contextTokens) :
    (enterActive candidate active).Pairwise fun a b => a.contextTokens < b.contextTokens := by
  induction active with
  | nil => exact List.pairwise_singleton _ _
  | cons current rest ih =>
    obtain ⟨hcur, hrest⟩ := List.pairwise_cons.mp h
    rw [enterActive_cons]
    split_ifs with hlt heq hmore
    · refine List.pairwise_cons.mpr ⟨fun other hmem => ?_, h⟩
      rcases List.mem_cons.mp hmem with rfl | hmem
      · exact hlt
      · exact hlt.trans (hcur other hmem)
    · exact List.pairwise_cons.mpr ⟨fun other hmem => heq ▸ hcur other hmem, hrest⟩
    · exact h
    · refine List.pairwise_cons.mpr ⟨fun other hmem => ?_, ih hrest⟩
      rcases mem_enter hmem with rfl | hmem
      · omega
      · exact hcur other hmem

lemma enter_dominates (candidate : ComparisonCandidate) (active : List ComparisonCandidate) :
    ∀ other ∈ candidate :: active, ∃ best ∈ enterActive candidate active,
      best.contextTokens = other.contextTokens ∧ other.outputTokens ≤ best.outputTokens := by
  induction active with
  | nil => exact fun other hmem => ⟨other, hmem, rfl, le_refl _⟩
  | cons current rest ih =>
    intro other hmem
    rw [enterActive_cons]
    split_ifs with hlt heq hmore
    · exact ⟨other, hmem, rfl, le_refl _⟩
    · rcases List.mem_cons.mp hmem with rfl | hmem
      · exact ⟨_, List.mem_cons_self, rfl, le_refl _⟩
      · rcases List.mem_cons.mp hmem with rfl | hmem
        · exact ⟨_, List.mem_cons_self, heq, hmore.le⟩
        · exact ⟨other, List.mem_cons_of_mem _ hmem, rfl, le_refl _⟩
    · rcases List.mem_cons.mp hmem with rfl | hmem
      · exact ⟨_, List.mem_cons_self, heq.symm, not_lt.mp hmore⟩
      · exact ⟨other, hmem, rfl, le_refl _⟩
    · rcases List.mem_cons.mp hmem with rfl | hmem
      · obtain ⟨best, hbest, hkeeps⟩ := ih other List.mem_cons_self
        exact ⟨best, List.mem_cons_of_mem _ hbest, hkeeps⟩
      · rcases List.mem_cons.mp hmem with rfl | hmem
        · exact ⟨_, List.mem_cons_self, rfl, le_refl _⟩
        · obtain ⟨best, hbest, hkeeps⟩ := ih other (List.mem_cons_of_mem _ hmem)
          exact ⟨best, List.mem_cons_of_mem _ hbest, hkeeps⟩

lemma ActiveFor.enter (h : ActiveFor entered active)
    (candidate : ComparisonCandidate) :
    ActiveFor (entered ++ [candidate]) (enterActive candidate active) where
  sorted := enter_sorted h.sorted
  mem := by
    intro other hmem
    rcases mem_enter hmem with rfl | hmem
    · exact List.mem_append_right _ List.mem_cons_self
    · exact List.mem_append_left _ (h.mem other hmem)
  dominates := by
    intro other hmem
    rcases List.mem_append.mp hmem with hmem | hmem
    · obtain ⟨best, hbest, hctx, houtput⟩ := h.dominates other hmem
      obtain ⟨best', hbest', hcontext', houtput'⟩ :=
        enter_dominates candidate active best (List.mem_cons_of_mem _ hbest)
      exact ⟨best', hbest', hcontext'.trans hctx, houtput.trans houtput'⟩
    · rw [List.mem_singleton.mp hmem]
      exact enter_dominates candidate active candidate List.mem_cons_self

lemma ActiveFor.foldl_enter
    (h : ActiveFor entered active) (passed : List ComparisonCandidate) :
    ActiveFor (entered ++ passed)
      (passed.foldl (fun active candidate => enterActive candidate active) active) := by
  induction passed generalizing entered active with
  | nil => simpa using h
  | cons candidate rest ih => simpa using ih (h.enter candidate)

/-! ### The two neighbours -/

lemma mem_activeRange :
    candidate ∈ activeRange active low high ↔
      candidate ∈ active ∧ low ≤ candidate.contextTokens ∧ candidate.contextTokens ≤ high := by
  simp [activeRange]

section

variable (h : ActiveFor entered active)
include h

lemma ActiveFor.range_sorted (low high : Nat) :
    (activeRange active low high).Pairwise fun a b => a.contextTokens < b.contextTokens :=
  h.sorted.sublist List.filter_sublist

lemma ActiveFor.le_left {left : ComparisonCandidate}
    (hleft : (activeRange active low high).getLast? = some left) :
    ∀ other ∈ activeRange active low high,
      other.contextTokens < left.contextTokens ∨ other = left := by
  obtain ⟨front, hsplit⟩ := List.getLast?_eq_some_iff.mp hleft
  have hpairs := h.range_sorted low high
  rw [hsplit] at hpairs
  intro other hmem
  rw [hsplit] at hmem
  rcases List.mem_append.mp hmem with hmem | hmem
  · exact .inl ((List.pairwise_append.mp hpairs).2.2 other hmem left List.mem_cons_self)
  · exact .inr (List.mem_singleton.mp hmem)

lemma ActiveFor.right_le {right : ComparisonCandidate}
    (hright : (activeRange active low high).head? = some right) :
    ∀ other ∈ activeRange active low high,
      right.contextTokens < other.contextTokens ∨ other = right := by
  obtain ⟨rest, hsplit⟩ := List.head?_eq_some_iff.mp hright
  have hpairs := h.range_sorted low high
  rw [hsplit] at hpairs
  intro other hmem
  rw [hsplit] at hmem
  rcases List.mem_cons.mp hmem with rfl | hmem
  · exact .inr rfl
  · exact .inl ((List.pairwise_cons.mp hpairs).1 other hmem)

end

lemma within_bounds_iff (turn candidate : ComparisonCandidate) :
    4 * turn.contextTokens ≤ 5 * candidate.contextTokens ∧
        4 * candidate.contextTokens ≤ 5 * turn.contextTokens ↔
      turn.contextTokens - turn.contextTokens / 5 ≤ candidate.contextTokens ∧
        candidate.contextTokens ≤ min (turn.contextTokens + turn.contextTokens / 4) U128_MAX := by
  have := candidate.context_le
  omega

lemma ActiveFor.observedTokens_spec
    (h : ActiveFor entered active) {turn : ComparisonCandidate}
    (houtput : ∀ candidate ∈ entered, candidate.outputTokens < turn.outputTokens) :
    Saves entered turn (((observedTokens active turn).or (some turn.assumedTokens)).getD 0) := by
  unfold observedTokens
  dsimp only
  generalize hlow : turn.contextTokens - turn.contextTokens / 5 = low
  generalize hhigh : min (turn.contextTokens + turn.contextTokens / 4) U128_MAX = high
  generalize hleft : (activeRange active low turn.contextTokens).getLast? = left
  generalize hright : (activeRange active turn.contextTokens high).head? = right
  have hbounds := within_bounds_iff turn
  rw [hlow, hhigh] at hbounds
  have hlow_le : low ≤ turn.contextTokens := by omega
  have hle_high : turn.contextTokens ≤ high := by
    have := turn.context_le
    omega
  have hneigh : ∀ candidate ∈ [left, right].filterMap id,
      candidate ∈ entered ∧ turn.Comparable candidate := by
    intro candidate hmem
    have hin : candidate ∈ active ∧ low ≤ candidate.contextTokens ∧
        candidate.contextTokens ≤ high := by
      simp only [List.mem_filterMap, List.mem_cons, List.not_mem_nil, or_false, id_eq] at hmem
      obtain ⟨_, rfl | rfl, hsome⟩ := hmem
      · have hmem := mem_activeRange.mp (List.mem_of_getLast? (hleft.trans hsome))
        exact ⟨hmem.1, hmem.2.1, hmem.2.2.trans hle_high⟩
      · have hmem := mem_activeRange.mp (List.mem_of_head? (hright.trans hsome))
        exact ⟨hmem.1, hlow_le.trans hmem.2.1, hmem.2.2⟩
    have hent := h.mem candidate hin.1
    obtain ⟨hge, hle⟩ := (hbounds candidate).mpr hin.2
    exact ⟨hent, houtput candidate hent, hge, hle⟩
  -- each comparable turn is on one side, and the neighbour there is preferred to it
  have hpref : ∀ other ∈ entered, turn.Comparable other →
      ∃ neighbour ∈ [left, right].filterMap id, turn.Prefers neighbour other := by
    intro other hother hcmp
    obtain ⟨best, hbest, hctx, hmore⟩ := h.dominates other hother
    obtain ⟨hge, hle⟩ := (hbounds other).mp ⟨hcmp.ge_low, hcmp.le_high⟩
    rcases le_total other.contextTokens turn.contextTokens with hside | hside
    · have hmem : best ∈ activeRange active low turn.contextTokens :=
        mem_activeRange.mpr ⟨hbest, by omega, by omega⟩
      cases hleft_some : left with
      | none =>
        rw [hleft_some, List.getLast?_eq_none_iff] at hleft
        rw [hleft] at hmem
        cases hmem
      | some neighbour =>
        rw [hleft_some] at hleft
        have hin := mem_activeRange.mp (List.mem_of_getLast? hleft)
        refine ⟨neighbour, by simp, ?_⟩
        unfold Prefers difference
        rcases h.le_left hleft best hmem with hlt | rfl <;> omega
    · have hmem : best ∈ activeRange active turn.contextTokens high :=
        mem_activeRange.mpr ⟨hbest, by omega, by omega⟩
      cases hright_some : right with
      | none =>
        rw [hright_some, List.head?_eq_none_iff] at hright
        rw [hright] at hmem
        cases hmem
      | some neighbour =>
        rw [hright_some] at hright
        have hin := mem_activeRange.mp (List.mem_of_head? hright)
        refine ⟨neighbour, by cases left <;> simp, ?_⟩
        unfold Prefers difference
        rcases h.right_le hright best hmem with hlt | rfl <;> omega
  cases hbest : List.argmin turn.matchKey ([left, right].filterMap id) with
  | none =>
    rw [List.argmin_eq_none] at hbest
    refine .assumed fun candidate hmem hcmp => ?_
    obtain ⟨neighbour, hneighbour_mem, -⟩ := hpref candidate hmem hcmp
    rw [hbest] at hneighbour_mem
    cases hneighbour_mem
  | some best =>
    have hmem := List.argmin_mem hbest
    refine .observed ⟨(hneigh best hmem).1, (hneigh best hmem).2, ?_⟩
    intro other hother hcmp
    obtain ⟨neighbour, hneighbour_mem, hprefers⟩ := hpref other hother hcmp
    have hle := List.le_of_mem_argmin hneighbour_mem hbest
    exact matchKey_le_iff.mp (hle.trans (matchKey_le_iff.mpr hprefers))

/-! ### The sweep -/

lemma percentageOfTokens_isSome {tokens percentage : Nat} (htokens : tokens ≤ U64_MAX)
    (hperc : percentage ≤ 100) : (percentageOfTokens tokens percentage).isSome = true := by
  have hle : tokens * percentage ≤ U64_MAX * 100 := Nat.mul_le_mul htokens hperc
  unfold percentageOfTokens
  rw [if_pos (by unfold U128_MAX; unfold U64_MAX at hle; omega)]
  rfl

lemma assumedForEffort_isSome (aboveCap : Bool) (effort : String) {outputTokens : Nat}
    (h : outputTokens ≤ U64_MAX) : (assumedForEffort aboveCap effort outputTokens).isSome = true := by
  unfold assumedForEffort
  split_ifs
  · exact percentageOfTokens_isSome h (by decide)
  · exact percentageOfTokens_isSome h (by decide)
  · exact percentageOfTokens_isSome h (by decide)
  · rfl

/-- Between two turns: the lower-effort turns are those entered and those
pending, in order of output. -/
structure Swept (lower entered : List ComparisonCandidate) (state : SweepState) : Prop where
  active : ActiveFor entered state.active
  split : lower = entered ++ state.pending
  sorted : state.pending.Pairwise fun a b => a.outputTokens ≤ b.outputTokens

section

variable {lower : List ComparisonCandidate} {state : SweepState} (h : Swept lower entered state)
include h

lemma Swept.turn {turn : ComparisonCandidate}
    (hent : ∀ candidate ∈ entered, candidate.outputTokens < turn.outputTokens) :
    ∃ passed, Swept lower (entered ++ passed) (sweepTurn state turn) ∧
      (∀ candidate ∈ passed, candidate.outputTokens < turn.outputTokens) ∧
      ∀ saved, Saves lower turn saved →
        (sweepTurn state turn).total = checkedAccumulate state.total (some saved) := by
  obtain ⟨hactive, hsplit, hsorted⟩ := h
  let isLower := fun candidate : ComparisonCandidate =>
    decide (candidate.outputTokens < turn.outputTokens)
  have hpassed : ∀ candidate ∈ state.pending.takeWhile isLower,
      candidate.outputTokens < turn.outputTokens := fun candidate hmem => by
    have htest := List.mem_takeWhile_imp hmem
    exact of_decide_eq_true htest
  have hpend : ∀ candidate ∈ state.pending.dropWhile isLower,
      turn.outputTokens ≤ candidate.outputTokens := by
    intro candidate hmem
    cases hdrop : state.pending.dropWhile isLower with
    | nil =>
      rw [hdrop] at hmem
      cases hmem
    | cons head rest =>
      -- the first pending turn has no less output, nor have those behind it
      have hhead : isLower head = false := by
        have hnot := List.head?_dropWhile_not isLower state.pending
        simpa [hdrop] using hnot
      have hle : turn.outputTokens ≤ head.outputTokens := by simpa [isLower] using hhead
      have hrest := hsorted.sublist (List.dropWhile_sublist isLower)
      rw [hdrop] at hmem hrest
      rcases List.mem_cons.mp hmem with rfl | hmem
      · exact hle
      · exact hle.trans ((List.pairwise_cons.mp hrest).1 candidate hmem)
  have hnext := hactive.foldl_enter (state.pending.takeWhile isLower)
  have hsplit' : lower = (entered ++ state.pending.takeWhile isLower) ++
      state.pending.dropWhile isLower := by
    rw [List.append_assoc, List.takeWhile_append_dropWhile, hsplit]
  refine ⟨state.pending.takeWhile isLower, ⟨hnext, hsplit', ?_⟩, hpassed, ?_⟩
  · exact hsorted.sublist (List.dropWhile_sublist isLower)
  · intro saved hsaved
    have hlower : ∀ candidate ∈ entered ++ state.pending.takeWhile isLower,
        candidate.outputTokens < turn.outputTokens :=
      List.forall_mem_append.mpr ⟨hent, hpassed⟩
    have hspec := hnext.observedTokens_spec hlower
    have hsaved' : Saves (entered ++ state.pending.takeWhile isLower) turn saved := by
      refine hsaved.of_mem fun candidate hlt => ?_
      rw [hsplit', List.mem_append]
      exact or_iff_left fun hmem => absurd hlt (not_lt.mpr (hpend candidate hmem))
    have hvalue := hspec.unique hsaved'
    show checkedAccumulate state.total ((observedTokens _ turn).or (some turn.assumedTokens)) = _
    rw [← hvalue]
    cases observedTokens ((state.pending.takeWhile isLower).foldl
      (fun active candidate => enterActive candidate active) state.active) turn <;> rfl

lemma Swept.foldl {turns : List ComparisonCandidate}
    (hsorted : turns.Pairwise fun a b => a.outputTokens ≤ b.outputTokens)
    (hent : ∀ turn ∈ turns, ∀ candidate ∈ entered,
      candidate.outputTokens < turn.outputTokens)
    {savings : ComparisonCandidate → Nat}
    (hsavings : ∀ turn ∈ turns, Saves lower turn (savings turn)) :
    (turns.foldl sweepTurn state).total =
      (turns.map savings).foldl (fun total saved => Checked.add FitsU128 total (some saved))
        state.total := by
  induction turns generalizing entered state with
  | nil => rfl
  | cons turn rest ih =>
    obtain ⟨hturn, hrest⟩ := List.pairwise_cons.mp hsorted
    obtain ⟨passed, hnext, hpassed, htotal⟩ := h.turn (hent turn List.mem_cons_self)
    rw [List.foldl_cons, List.map_cons, List.foldl_cons,
      ih hnext hrest ?_ fun other hmem => hsavings other (List.mem_cons_of_mem _ hmem),
      htotal _ (hsavings turn List.mem_cons_self)]
    · rfl
    · intro other hmem candidate hcand
      rcases List.mem_append.mp hcand with hcand | hcand
      · exact hent other (List.mem_cons_of_mem _ hmem) candidate hcand
      · exact (hpassed candidate hcand).trans_le (hturn other hmem)

end

lemma exists_saves (lower : List ComparisonCandidate) (turn : ComparisonCandidate) :
    ∃ saved, Saves lower turn saved := by
  classical
  cases hbest : List.argmin turn.matchKey (lower.filter fun other => turn.Comparable other) with
  | none =>
    rw [List.argmin_eq_none, List.filter_eq_nil_iff] at hbest
    exact ⟨_, .assumed fun candidate hmem => by simpa using hbest candidate hmem⟩
  | some best =>
    have hmem := List.mem_filter.mp (List.argmin_mem hbest)
    refine ⟨_, .observed ⟨hmem.1, by simpa using hmem.2, fun other hother hcmp => ?_⟩⟩
    refine matchKey_le_iff.mp (List.le_of_mem_argmin (List.mem_filter.mpr ⟨hother, ?_⟩) hbest)
    simpa using hcmp

lemma lowerKey_le_output {a b : ComparisonCandidate} (h : a.lowerKey ≤ b.lowerKey) :
    a.outputTokens ≤ b.outputTokens := by
  unfold lowerKey at h
  rw [Prod.Lex.toLex_le_toLex] at h
  dsimp only at h
  omega

lemma aboveKey_le_output {a b : ComparisonCandidate} (h : a.aboveKey ≤ b.aboveKey) :
    a.outputTokens ≤ b.outputTokens := by
  unfold aboveKey at h
  rw [Prod.Lex.toLex_le_toLex] at h
  dsimp only at h
  omega

lemma pairwise_insertionSort_key {κ : Type*} [LinearOrder κ]
    (key : ComparisonCandidate → κ) (turns : List ComparisonCandidate) :
    (turns.insertionSort fun a b => key a ≤ key b).Pairwise fun a b => key a ≤ key b := by
  have htotal : Std.Total fun a b => key a ≤ key b := ⟨fun a b => le_total (key a) (key b)⟩
  have htrans : IsTrans ComparisonCandidate fun a b => key a ≤ key b :=
    ⟨fun _ _ _ => le_trans⟩
  exact List.pairwise_insertionSort _ turns

lemma overthinkingGroupTokens_eq (group : ComparisonGroup)
    {savings : ComparisonCandidate → Nat}
    (hsavings : ∀ turn ∈ group.aboveCap, Saves group.lowerEffort turn (savings turn)) :
    (overthinkingGroupTokens group).tokens =
      Checked.cap FitsU128 (group.aboveCap.map savings).sum := by
  unfold overthinkingGroupTokens
  dsimp only
  generalize hlower : group.lowerEffort.insertionSort (fun a b => a.lowerKey ≤ b.lowerKey) = lower
  generalize habove : group.aboveCap.insertionSort (fun a b => a.aboveKey ≤ b.aboveKey) = above
  have hlower_perm : lower.Perm group.lowerEffort := hlower ▸ List.perm_insertionSort _ _
  have habove_perm : above.Perm group.aboveCap := habove ▸ List.perm_insertionSort _ _
  have hlower_sorted : lower.Pairwise fun a b => a.outputTokens ≤ b.outputTokens :=
    hlower ▸ (pairwise_insertionSort_key lowerKey _).imp lowerKey_le_output
  have habove_sorted : above.Pairwise fun a b => a.outputTokens ≤ b.outputTokens :=
    habove ▸ (pairwise_insertionSort_key aboveKey _).imp aboveKey_le_output
  have hstart : Swept lower [] { pending := lower } := by
    refine ⟨⟨.nil, ?_, ?_⟩, rfl, hlower_sorted⟩ <;>
    · intro candidate hmem
      cases hmem
  rw [hstart.foldl habove_sorted (fun _ _ _ hmem => by cases hmem) fun turn hmem =>
    (hsavings turn (habove_perm.mem_iff.mp hmem)).of_mem fun _ _ => hlower_perm.mem_iff.symm]
  have hzero : (some 0 : Option Nat) = Checked.cap FitsU128 0 := rfl
  rw [hzero, Checked.foldl_add fitsU128_downClosed, zero_add, (habove_perm.map savings).sum_eq]

lemma ofRetained_eq (turns : List (ComparisonCandidate × Bool)) :
    ComparisonGroup.ofRetained turns =
      ⟨(turns.filter fun turn => !turn.2).map Prod.fst,
        (turns.filter fun turn => turn.2).map Prod.fst⟩ := by
  have hfold : ∀ group : ComparisonGroup, turns.foldl ComparisonGroup.retain group =
      ⟨group.lowerEffort ++ (turns.filter fun turn => !turn.2).map Prod.fst,
        group.aboveCap ++ (turns.filter fun turn => turn.2).map Prod.fst⟩ := by
    induction turns with
    | nil => simp
    | cons turn rest ih =>
      intro group
      rw [List.foldl_cons, ih]
      obtain ⟨candidate, aboveCap⟩ := turn
      cases aboveCap <;> simp [ComparisonGroup.retain]
  exact hfold {}

/-- **The sweep finds the nearest match.**  The tokens of a group are the sum of
what its turns above the cap save, if a `u128` holds it; no assumed value is ever
missing; and the order in which the turns were retained does not show. -/
theorem overthinking_sweep (group : ComparisonGroup) :
    (∃ savings : ComparisonCandidate → Nat,
      (∀ turn ∈ group.aboveCap, Saves group.lowerEffort turn (savings turn)) ∧
      (overthinkingGroupTokens group).tokens =
        Checked.cap FitsU128 (group.aboveCap.map savings).sum) ∧
    (∀ turn m n, Saves group.lowerEffort turn m → Saves group.lowerEffort turn n → m = n) ∧
    (∀ aboveCap effort outputTokens, outputTokens ≤ U64_MAX →
      (assumedForEffort aboveCap effort outputTokens).isSome = true) ∧
    ∀ turns turns', turns.Perm turns' → group = ComparisonGroup.ofRetained turns →
      (overthinkingGroupTokens (ComparisonGroup.ofRetained turns')).tokens =
        (overthinkingGroupTokens group).tokens := by
  choose savings hsavings using exists_saves group.lowerEffort
  have htokens := overthinkingGroupTokens_eq group fun turn _ => hsavings turn
  refine ⟨⟨savings, fun turn _ => hsavings turn, htokens⟩, fun _ _ _ h h' => h.unique h',
    fun aboveCap effort outputTokens h => assumedForEffort_isSome aboveCap effort h, ?_⟩
  intro turns turns' hperm hgroup
  have hlower : group.lowerEffort.Perm (ComparisonGroup.ofRetained turns').lowerEffort := by
    rw [hgroup, ofRetained_eq, ofRetained_eq]
    exact (hperm.filter _).map _
  have habove : group.aboveCap.Perm (ComparisonGroup.ofRetained turns').aboveCap := by
    rw [hgroup, ofRetained_eq, ofRetained_eq]
    exact (hperm.filter _).map _
  rw [htokens, overthinkingGroupTokens_eq (ComparisonGroup.ofRetained turns') fun turn _ =>
    (hsavings turn).of_mem fun _ _ => hlower.mem_iff, (habove.map savings).sum_eq]

end Antiburn
