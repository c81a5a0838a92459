/-
Token accounting of native sources.

A source knows the tokens of its session in one figure, the aggregate, and step
by step, the retained sum.  `tokenReconciliation` compares the two.  When an
inclusive total combines sources, `checkedMerge` combines the comparisons, not
the totals: a source that retained too much must not make up for one that
retained too little.
-/
import Antiburn.Json
import Antiburn.Lib.Checked
import Antiburn.Metrics

namespace Antiburn

/-! ### Token classes -/

/-- `u64::checked_add`. -/
def checkedAddU64 (a b : Nat) : Option Nat := if a + b ≤ U64_MAX then some (a + b) else none

/-- `u64::checked_sub`. -/
def checkedSubU64 (a b : Nat) : Option Nat := if b ≤ a then some (a - b) else none

@[ext] structure TokenClasses where
  inputTokens : Nat := 0
  visibleOutputTokens : Nat := 0
  reasoningTokens : Nat := 0
  cacheReadTokens : Nat := 0
  cacheWriteTokens : Nat := 0
  deriving DecidableEq

namespace TokenClasses

/-- Shared output includes reasoning once because both use the output rate. -/
def normalizedUsage (tokens : TokenClasses) : Option Usage := do
  let outputTokens ← checkedAddU64 tokens.visibleOutputTokens tokens.reasoningTokens
  return {
    inputTokens := tokens.inputTokens
    outputTokens
    cacheReadTokens := tokens.cacheReadTokens
    cacheCreationTokens := tokens.cacheWriteTokens
    cacheCreation1hTokens := 0 }

/-- The greatest `i64`. -/
def I64_COUNT_MAX : Nat := 2 ^ 63 - 1

def parse (value : Json) : Option TokenClasses := do
  let asU64 : Json → Option Nat := fun
    | .number number => number.asU64
    | _ => none
  let tokens : TokenClasses := {
    inputTokens := ← asU64 (← value.get? "input")
    visibleOutputTokens := ← asU64 (← value.get? "output")
    reasoningTokens := ← asU64 (← value.get? "reasoning")
    cacheReadTokens := ← asU64 (← (← value.get? "cache").get? "read")
    cacheWriteTokens := ← asU64 (← (← value.get? "cache").get? "write") }
  let usage ← tokens.normalizedUsage
  if [usage.inputTokens, usage.outputTokens, usage.cacheReadTokens, usage.cacheCreationTokens].all
      fun count => count ≤ I64_COUNT_MAX
  then some tokens
  else none

def checkedAdd (tokens other : TokenClasses) : Option TokenClasses := do
  let sum : TokenClasses := {
    inputTokens := ← checkedAddU64 tokens.inputTokens other.inputTokens
    visibleOutputTokens := ← checkedAddU64 tokens.visibleOutputTokens other.visibleOutputTokens
    reasoningTokens := ← checkedAddU64 tokens.reasoningTokens other.reasoningTokens
    cacheReadTokens := ← checkedAddU64 tokens.cacheReadTokens other.cacheReadTokens
    cacheWriteTokens := ← checkedAddU64 tokens.cacheWriteTokens other.cacheWriteTokens }
  let _ ← sum.normalizedUsage
  return sum

def checkedSub (tokens other : TokenClasses) : Option TokenClasses := do
  return {
    inputTokens := ← checkedSubU64 tokens.inputTokens other.inputTokens
    visibleOutputTokens := ← checkedSubU64 tokens.visibleOutputTokens other.visibleOutputTokens
    reasoningTokens := ← checkedSubU64 tokens.reasoningTokens other.reasoningTokens
    cacheReadTokens := ← checkedSubU64 tokens.cacheReadTokens other.cacheReadTokens
    cacheWriteTokens := ← checkedSubU64 tokens.cacheWriteTokens other.cacheWriteTokens }

end TokenClasses

/-! ### Calculated costs -/

/-- What the accounting does with dollar amounts. -/
class UsdArithmetic (Usd : Type) where
  zero : Usd
  add : Usd → Usd → Usd
  sub : Usd → Usd → Usd
  /-- Finite and at least 0. -/
  accepted : Usd → Bool
  /-- At most a billionth of a dollar, either way. -/
  negligible : Usd → Bool

variable {Usd : Type} [UsdArithmetic Usd]

/-- A recorded zero does not establish available rates or free work. -/
def producerCalculated (usd : Usd) : Option Usd :=
  if UsdArithmetic.accepted usd then some usd else none

def checkedAddCost (cost other : Usd) : Option Usd := producerCalculated (UsdArithmetic.add cost other)

/-! ### Reconciliation -/

inductive UsageReconciliation (τ : Type) where
  | unknown
  | matched
  | unallocated (remainder : τ)
  | inconsistent
  deriving DecidableEq

/-- Source defects cannot cancel when inclusive totals combine sources. -/
def UsageReconciliation.checkedMerge {τ : Type} (a b : UsageReconciliation τ)
    (add : τ → τ → Option τ) : UsageReconciliation τ :=
  match a, b with
  | .inconsistent, _ | _, .inconsistent => .inconsistent
  | .unknown, _ | _, .unknown => .unknown
  | .matched, result | result, .matched => result
  | .unallocated a, .unallocated b => ((add a b).map .unallocated).getD .unknown

structure StepAccounting (Usd : Type) where
  nativeVariant : Option String
  tokenClasses : Option TokenClasses
  calculatedCost : Option Usd

structure SourceAccounting (Usd : Type) where
  aggregateTokens : Option TokenClasses
  /-- Sum of known retained counts.  Overflow makes the sum unknown. -/
  retainedTokens : Option TokenClasses
  aggregateCalculatedCost : Option Usd
  retainedCalculatedCost : Option Usd
  /-- Source states merge before totals, so opposite differences cannot cancel. -/
  sourceTokenReconciliation : Option (UsageReconciliation TokenClasses)
  sourceCostReconciliation : Option (UsageReconciliation Usd)

namespace SourceAccounting

def default : SourceAccounting Usd where
  aggregateTokens := none
  retainedTokens := some {}
  aggregateCalculatedCost := none
  retainedCalculatedCost := producerCalculated UsdArithmetic.zero
  sourceTokenReconciliation := none
  sourceCostReconciliation := none

omit [UsdArithmetic Usd] in
def tokenReconciliation (accounting : SourceAccounting Usd) : UsageReconciliation TokenClasses :=
  match accounting.sourceTokenReconciliation with
  | some reconciliation => reconciliation
  | none =>
    match accounting.aggregateTokens, accounting.retainedTokens with
    | some aggregate, some retained =>
      match aggregate.checkedSub retained with
      | none => .inconsistent
      | some remainder => if remainder = {} then .matched else .unallocated remainder
    | _, _ => .unknown

def costReconciliation (accounting : SourceAccounting Usd) : UsageReconciliation Usd :=
  match accounting.sourceCostReconciliation with
  | some reconciliation => reconciliation
  | none =>
    match accounting.aggregateCalculatedCost, accounting.retainedCalculatedCost with
    | some aggregate, some retained =>
      if !UsdArithmetic.accepted aggregate || !UsdArithmetic.accepted retained then .inconsistent
      else
        let difference := UsdArithmetic.sub aggregate retained
        if UsdArithmetic.negligible difference then .matched
        else ((producerCalculated difference).map .unallocated).getD .inconsistent
    | _, _ => .unknown

def observe (accounting : SourceAccounting Usd) (step : StepAccounting Usd) :
    SourceAccounting Usd where
  aggregateTokens := accounting.aggregateTokens
  retainedTokens :=
    match step.tokenClasses with
    | some tokens => accounting.retainedTokens.bind fun sum => sum.checkedAdd tokens
    | none => accounting.retainedTokens
  aggregateCalculatedCost := accounting.aggregateCalculatedCost
  retainedCalculatedCost :=
    match step.calculatedCost with
    | some cost => accounting.retainedCalculatedCost.bind fun sum => checkedAddCost sum cost
    | none => accounting.retainedCalculatedCost
  sourceTokenReconciliation := accounting.sourceTokenReconciliation
  sourceCostReconciliation := accounting.sourceCostReconciliation

/-- Inclusive values sum separate sources and keep their reconciliation states. -/
def checkedMerge (accounting other : SourceAccounting Usd) : SourceAccounting Usd where
  sourceTokenReconciliation :=
    some (accounting.tokenReconciliation.checkedMerge other.tokenReconciliation
      TokenClasses.checkedAdd)
  sourceCostReconciliation :=
    some (accounting.costReconciliation.checkedMerge other.costReconciliation checkedAddCost)
  aggregateTokens := do (← accounting.aggregateTokens).checkedAdd (← other.aggregateTokens)
  retainedTokens := do (← accounting.retainedTokens).checkedAdd (← other.retainedTokens)
  aggregateCalculatedCost := do
    checkedAddCost (← accounting.aggregateCalculatedCost) (← other.aggregateCalculatedCost)
  retainedCalculatedCost := do
    checkedAddCost (← accounting.retainedCalculatedCost) (← other.retainedCalculatedCost)

end SourceAccounting

structure SourceReading (Usd : Type) where
  steps : List (StepAccounting Usd)
  tokens : Option Json
  calculatedCost : Option Usd

/-- The steps are observed; `reconcile` adds the figures that parse. -/
def SourceReading.accounting (reading : SourceReading Usd) : SourceAccounting Usd :=
  let observed := reading.steps.foldl SourceAccounting.observe .default
  { observed with
    aggregateTokens := reading.tokens.bind TokenClasses.parse
    aggregateCalculatedCost := reading.calculatedCost.bind producerCalculated }

inductive MergeTree (Usd : Type) where
  | source (reading : SourceReading Usd)
  | merge (left right : MergeTree Usd)

namespace MergeTree

def run : MergeTree Usd → SourceAccounting Usd
  | source reading => reading.accounting
  | merge left right => left.run.checkedMerge right.run

omit [UsdArithmetic Usd] in
def sources : MergeTree Usd → List (SourceReading Usd)
  | source reading => [reading]
  | merge left right => left.sources ++ right.sources

end MergeTree

/-! ### Tokens add up -/

namespace TokenClasses

instance : Zero TokenClasses := ⟨{}⟩

instance : Add TokenClasses :=
  ⟨fun a b => ⟨a.inputTokens + b.inputTokens, a.visibleOutputTokens + b.visibleOutputTokens,
    a.reasoningTokens + b.reasoningTokens, a.cacheReadTokens + b.cacheReadTokens,
    a.cacheWriteTokens + b.cacheWriteTokens⟩⟩

lemma add_def (a b : TokenClasses) :
    a + b = ⟨a.inputTokens + b.inputTokens, a.visibleOutputTokens + b.visibleOutputTokens,
      a.reasoningTokens + b.reasoningTokens, a.cacheReadTokens + b.cacheReadTokens,
      a.cacheWriteTokens + b.cacheWriteTokens⟩ := rfl

lemma zero_def : (0 : TokenClasses) = {} := rfl

instance : AddCommMonoid TokenClasses where
  add_assoc a b c := by simp only [add_def, Nat.add_assoc]
  zero_add a := by simp only [add_def, zero_def, Nat.zero_add]
  add_zero a := by simp only [add_def, zero_def, Nat.add_zero]
  add_comm a b := by simp only [add_def, Nat.add_comm]
  nsmul := nsmulRec

/-- Each class is a `u64`, and so is the output that pricing sees. -/
structure Fits (tokens : TokenClasses) : Prop where
  input : tokens.inputTokens ≤ U64_MAX
  output : tokens.visibleOutputTokens + tokens.reasoningTokens ≤ U64_MAX
  cacheRead : tokens.cacheReadTokens ≤ U64_MAX
  cacheWrite : tokens.cacheWriteTokens ≤ U64_MAX

lemma fits_iff (tokens : TokenClasses) :
    tokens.Fits ↔ tokens.inputTokens ≤ U64_MAX ∧
      tokens.visibleOutputTokens + tokens.reasoningTokens ≤ U64_MAX ∧
      tokens.cacheReadTokens ≤ U64_MAX ∧ tokens.cacheWriteTokens ≤ U64_MAX :=
  ⟨fun h => ⟨h.input, h.output, h.cacheRead, h.cacheWrite⟩,
    fun ⟨input, output, cacheRead, cacheWrite⟩ => ⟨input, output, cacheRead, cacheWrite⟩⟩

instance : DecidablePred Fits := fun tokens => decidable_of_iff _ (fits_iff tokens).symm

lemma fits_downClosed : Checked.DownClosed Fits := by
  intro a b h
  rw [fits_iff] at h ⊢
  rw [add_def] at h
  dsimp only at h
  omega

lemma zero_fits : Fits 0 := by decide

lemma add_eq_zero {a b : TokenClasses} : a + b = 0 ↔ a = 0 ∧ b = 0 := by
  rw [add_def, zero_def, TokenClasses.ext_iff, TokenClasses.ext_iff, TokenClasses.ext_iff]
  dsimp only
  omega

lemma checkedAdd_eq (a b : TokenClasses) : a.checkedAdd b = Checked.cap Fits (a + b) := by
  refine Option.ext fun sum => ?_
  rw [Checked.cap_eq_some, fits_iff, add_def]
  unfold checkedAdd normalizedUsage checkedAddU64
  simp only [Option.bind_eq_bind, Option.bind_eq_some_iff, Option.ite_none_right_eq_some,
    Option.some.injEq, Option.pure_def]
  constructor
  · rintro ⟨_, ⟨hinput, rfl⟩, _, ⟨-, rfl⟩, _, ⟨-, rfl⟩, _, ⟨hread, rfl⟩, _, ⟨hwrite, rfl⟩, _,
      ⟨_, ⟨houtput, -⟩, -⟩, rfl⟩
    exact ⟨⟨hinput, houtput, hread, hwrite⟩, rfl⟩
  · rintro ⟨⟨hinput, houtput, hread, hwrite⟩, rfl⟩
    -- each of the two output classes fits because their sum does
    exact ⟨_, ⟨hinput, rfl⟩, _, ⟨by omega, rfl⟩, _, ⟨by omega, rfl⟩, _, ⟨hread, rfl⟩, _,
      ⟨hwrite, rfl⟩, _, ⟨_, ⟨houtput, rfl⟩, rfl⟩, rfl⟩

lemma bind_checkedAdd (a b : Option TokenClasses) :
    (do (← a).checkedAdd (← b)) = Checked.add Fits a b := by
  cases a with
  | none => rfl
  | some a =>
    cases b with
    | none => rfl
    | some b => exact checkedAdd_eq a b

lemma checkedSub_fits {a b remainder : TokenClasses} (h : a.checkedSub b = some remainder)
    (ha : a.Fits) : remainder.Fits := by
  unfold checkedSub checkedSubU64 at h
  simp only [Option.bind_eq_bind, Option.bind_eq_some_iff, Option.ite_none_right_eq_some,
    Option.some.injEq, Option.pure_def] at h
  obtain ⟨_, ⟨-, rfl⟩, _, ⟨-, rfl⟩, _, ⟨-, rfl⟩, _, ⟨-, rfl⟩, _, ⟨-, rfl⟩, rfl⟩ := h
  rw [fits_iff] at ha ⊢
  dsimp only
  omega

lemma parse_fits {value : Json} {tokens : TokenClasses} (h : parse value = some tokens) :
    tokens.Fits := by
  unfold parse at h
  simp only [Option.bind_eq_bind, Option.bind_eq_some_iff, Option.ite_none_right_eq_some,
    Option.some.injEq] at h
  obtain ⟨_, -, _, -, _, -, _, -, _, -, _, -, _, -, _, -, _, -, _, -, _, -, _, -, usage, husage,
    hcounts, rfl⟩ := h
  unfold normalizedUsage checkedAddU64 at husage
  simp only [Option.bind_eq_bind, Option.bind_eq_some_iff, Option.ite_none_right_eq_some,
    Option.some.injEq, Option.pure_def] at husage
  obtain ⟨_, ⟨houtput, -⟩, rfl⟩ := husage
  simp only [List.all_cons, List.all_nil, Bool.and_true, Bool.and_eq_true, decide_eq_true_eq] at hcounts
  rw [fits_iff]
  unfold I64_COUNT_MAX U64_MAX at *
  dsimp only at *
  omega

end TokenClasses

/-! ### Comparisons combine -/

namespace UsageReconciliation

def remainder : UsageReconciliation TokenClasses → TokenClasses
  | unallocated remainder => remainder
  | _ => 0

def remainders (states : List (UsageReconciliation TokenClasses)) : TokenClasses :=
  (states.map remainder).sum

/-- The comparison of an inclusive total: the worst state of any source, and the
sum of all remainders where every source is known. -/
def combined (states : List (UsageReconciliation TokenClasses)) :
    UsageReconciliation TokenClasses :=
  if inconsistent ∈ states then inconsistent
  else if unknown ∈ states ∨ ¬(remainders states).Fits then unknown
  else if ∀ state ∈ states, state = matched then matched
  else unallocated (remainders states)

/-- A remainder is one: not nothing, and within the counters. -/
def Sound (state : UsageReconciliation TokenClasses) : Prop :=
  ∀ tokens, state = unallocated tokens → tokens.Fits ∧ tokens ≠ 0

lemma remainders_append (states others : List (UsageReconciliation TokenClasses)) :
    remainders (states ++ others) = remainders states + remainders others := by
  unfold remainders
  rw [List.map_append, List.sum_append]

variable {states : List (UsageReconciliation TokenClasses)}

lemma remainders_eq_zero
    (hsound : ∀ state ∈ states, state.Sound) (hcons : inconsistent ∉ states)
    (hknown : unknown ∉ states) :
    remainders states = 0 ↔ ∀ state ∈ states, state = matched := by
  induction states with
  | nil => simp [remainders]
  | cons state rest ih =>
    rw [List.mem_cons, not_or] at hcons hknown
    have hrest := ih (fun other hmem => hsound other (List.mem_cons_of_mem _ hmem))
      hcons.2 hknown.2
    have hstate : state.remainder = 0 ↔ state = matched := by
      cases state with
      | unknown => exact absurd rfl hknown.1
      | inconsistent => exact absurd rfl hcons.1
      | matched => simp [remainder]
      | unallocated tokens =>
        have hne := (hsound _ List.mem_cons_self tokens rfl).2
        simp [remainder, hne]
    have hsplit : remainders (state :: rest) = state.remainder + remainders rest := rfl
    rw [hsplit, TokenClasses.add_eq_zero, hstate, hrest, List.forall_mem_cons]

lemma combined_singleton {state : UsageReconciliation TokenClasses} (h : state.Sound) :
    combined [state] = state := by
  have hsum : remainders [state] = state.remainder := by
    unfold remainders
    simp
  unfold combined
  rw [hsum]
  cases state with
  | unknown | inconsistent => simp
  | matched => simp [remainder, TokenClasses.zero_fits]
  | unallocated tokens => simp [remainder, (h tokens rfl).1]

lemma combined_cases
    (hsound : ∀ state ∈ states, state.Sound) :
    (inconsistent ∈ states ∧ combined states = inconsistent) ∨
    (inconsistent ∉ states ∧ (unknown ∈ states ∨ ¬(remainders states).Fits) ∧
      combined states = unknown) ∨
    (inconsistent ∉ states ∧ unknown ∉ states ∧ remainders states = 0 ∧
      combined states = matched) ∨
    (inconsistent ∉ states ∧ unknown ∉ states ∧ (remainders states).Fits ∧
      remainders states ≠ 0 ∧ combined states = unallocated (remainders states)) := by
  unfold combined
  split_ifs with hincon hunk hmat
  · exact .inl ⟨hincon, rfl⟩
  · exact .inr (.inl ⟨hincon, hunk, rfl⟩)
  · rw [not_or, not_not] at hunk
    refine .inr (.inr (.inl ⟨hincon, hunk.1, ?_, rfl⟩))
    exact (remainders_eq_zero hsound hincon hunk.1).mpr hmat
  · rw [not_or, not_not] at hunk
    refine .inr (.inr (.inr ⟨hincon, hunk.1, hunk.2, ?_, rfl⟩))
    exact fun hzero => hmat ((remainders_eq_zero hsound hincon hunk.1).mp hzero)

lemma combined_eq_inconsistent
    (h : inconsistent ∈ states) : combined states = inconsistent := if_pos h

lemma combined_eq_unknown
    (hcons : inconsistent ∉ states)
    (h : unknown ∈ states ∨ ¬(remainders states).Fits) : combined states = unknown := by
  unfold combined
  rw [if_neg hcons, if_pos h]

lemma combined_eq_known
    (hsound : ∀ state ∈ states, state.Sound) (hcons : inconsistent ∉ states)
    (hknown : unknown ∉ states) (hfits : (remainders states).Fits) :
    combined states =
      if remainders states = 0 then matched else unallocated (remainders states) := by
  unfold combined
  rw [if_neg hcons, if_neg (by simp [hknown, hfits])]
  exact if_congr (remainders_eq_zero hsound hcons hknown).symm rfl rfl

variable {others : List (UsageReconciliation TokenClasses)}

lemma checkedMerge_combined
    (hstates : ∀ state ∈ states, state.Sound) (hothers : ∀ state ∈ others, state.Sound) :
    (combined states).checkedMerge (combined others) TokenClasses.checkedAdd =
      combined (states ++ others) := by
  have hsound : ∀ state ∈ states ++ others, state.Sound :=
    List.forall_mem_append.mpr ⟨hstates, hothers⟩
  have hoverf : ∀ {sum : TokenClasses}, sum = remainders (states ++ others) →
      ¬(remainders states).Fits ∨ ¬(remainders others).Fits → ¬sum.Fits := by
    rintro sum rfl hpart hfits
    rw [remainders_append] at hfits
    rcases hpart with hpart | hpart
    · exact hpart (TokenClasses.fits_downClosed _ _ hfits)
    · exact hpart (TokenClasses.fits_downClosed _ _ (add_comm (remainders states) _ ▸ hfits))
  rcases combined_cases hstates with ⟨hs, es⟩ | ⟨hs, us, es⟩ | ⟨hs, us, zs, es⟩ | ⟨hs, us, fs, zs, es⟩
  · rw [es, combined_eq_inconsistent (List.mem_append_left _ hs)]
    cases combined others <;> rfl
  · rcases combined_cases hothers with ⟨ho, eo⟩ | ⟨ho, uo, eo⟩ | ⟨ho, uo, zo, eo⟩ |
      ⟨ho, uo, fo, zo, eo⟩
    · rw [es, eo, combined_eq_inconsistent (List.mem_append_right _ ho)]
      rfl
    all_goals
      rw [es, eo, combined_eq_unknown (by simp [hs, ho]) ?_]
      · rfl
      · rcases us with us | us
        · exact .inl (List.mem_append_left _ us)
        · exact .inr (hoverf rfl (.inl us))
  all_goals
    rcases combined_cases hothers with ⟨ho, eo⟩ | ⟨ho, uo, eo⟩ | ⟨ho, uo, zo, eo⟩ |
      ⟨ho, uo, fo, zo, eo⟩
    · rw [es, eo, combined_eq_inconsistent (List.mem_append_right _ ho)]
      rfl
    · rw [es, eo, combined_eq_unknown (by simp [hs, ho]) ?_]
      · rfl
      · rcases uo with uo | uo
        · exact .inl (List.mem_append_right _ uo)
        · exact .inr (hoverf rfl (.inr uo))
  · -- both match
    have hsum : remainders (states ++ others) = 0 := by rw [remainders_append, zs, zo, add_zero]
    rw [es, eo, combined_eq_known hsound (by simp [hs, ho]) (by simp [us, uo])
      (hsum ▸ TokenClasses.zero_fits), if_pos hsum]
    rfl
  · -- only the second has a remainder
    have hsum : remainders (states ++ others) = remainders others := by
      rw [remainders_append, zs, zero_add]
    rw [es, eo, combined_eq_known hsound (by simp [hs, ho]) (by simp [us, uo]) (hsum ▸ fo), hsum,
      if_neg zo]
    rfl
  · -- only the first has one
    have hsum : remainders (states ++ others) = remainders states := by
      rw [remainders_append, zo, add_zero]
    rw [es, eo, combined_eq_known hsound (by simp [hs, ho]) (by simp [us, uo]) (hsum ▸ fs), hsum,
      if_neg zs]
    rfl
  · -- the remainders add up, if they can
    rw [es, eo]
    show ((TokenClasses.checkedAdd _ _).map unallocated).getD unknown = _
    rw [TokenClasses.checkedAdd_eq, ← remainders_append]
    by_cases hfits : (remainders (states ++ others)).Fits
    · have hne : remainders (states ++ others) ≠ 0 := by
        rw [remainders_append]
        exact fun hzero => zs (TokenClasses.add_eq_zero.mp hzero).1
      rw [Checked.cap_of_fits hfits, combined_eq_known hsound (by simp [hs, ho])
        (by simp [us, uo]) hfits, if_neg hne]
      rfl
    · rw [Checked.cap_eq_none.mpr hfits, combined_eq_unknown (by simp [hs, ho]) (.inr hfits)]
      rfl

lemma combined_perm
    (h : states.Perm others) : combined states = combined others := by
  have hsum : remainders states = remainders others := (h.map remainder).sum_eq
  unfold combined
  simp only [h.mem_iff, hsum]

end UsageReconciliation

/-! ### Sources and their merges -/

structure SourceReading.Sound (reading : SourceReading Usd) : Prop where
  retained : ∀ tokens, reading.accounting.retainedTokens = some tokens → tokens.Fits
  aggregate : ∀ tokens, reading.accounting.aggregateTokens = some tokens → tokens.Fits
  reconciliation : reading.accounting.tokenReconciliation.Sound

lemma SourceAccounting.foldl_observe (steps : List (StepAccounting Usd))
    (accounting : SourceAccounting Usd) :
    let observed := steps.foldl SourceAccounting.observe accounting
    observed.sourceTokenReconciliation = accounting.sourceTokenReconciliation ∧
      ((∀ tokens, accounting.retainedTokens = some tokens → tokens.Fits) →
        ∀ tokens, observed.retainedTokens = some tokens → tokens.Fits) := by
  induction steps generalizing accounting with
  | nil => exact ⟨rfl, id⟩
  | cons step rest ih =>
    obtain ⟨hsource, hfits⟩ := ih (accounting.observe step)
    refine ⟨hsource, fun h => hfits fun tokens htokens => ?_⟩
    unfold SourceAccounting.observe at htokens
    cases hstep : step.tokenClasses with
    | none =>
      simp only [hstep] at htokens
      exact h tokens htokens
    | some classes =>
      simp only [hstep, Option.bind_eq_some_iff] at htokens
      obtain ⟨sum, -, hsum⟩ := htokens
      rw [TokenClasses.checkedAdd_eq, Checked.cap_eq_some] at hsum
      exact hsum.2 ▸ hsum.1

lemma SourceReading.sound (reading : SourceReading Usd) : reading.Sound := by
  obtain ⟨hsource, hretained⟩ := SourceAccounting.foldl_observe reading.steps .default
  have haggregate : ∀ tokens, reading.accounting.aggregateTokens = some tokens →
      tokens.Fits := by
    intro tokens htokens
    obtain ⟨value, -, hparse⟩ := Option.bind_eq_some_iff.mp htokens
    exact TokenClasses.parse_fits hparse
  refine ⟨hretained fun tokens htokens => ?_, haggregate, fun tokens htokens => ?_⟩
  · rw [← Option.some.inj htokens]
    exact TokenClasses.zero_fits
  · unfold SourceAccounting.tokenReconciliation at htokens
    rw [show reading.accounting.sourceTokenReconciliation = none from hsource] at htokens
    cases hagg : reading.accounting.aggregateTokens with
    | none => simp [hagg] at htokens
    | some aggregate =>
      cases hret : reading.accounting.retainedTokens with
      | none => simp [hagg, hret] at htokens
      | some retained =>
        cases hsub : aggregate.checkedSub retained with
        | none => simp [hagg, hret, hsub] at htokens
        | some remainder =>
          simp only [hagg, hret, hsub] at htokens
          split_ifs at htokens with hzero
          obtain rfl := UsageReconciliation.unallocated.inj htokens
          exact ⟨TokenClasses.checkedSub_fits hsub (haggregate _ hagg), hzero⟩

namespace MergeTree

/-- The comparisons of the sources. -/
def states (tree : MergeTree Usd) : List (UsageReconciliation TokenClasses) :=
  tree.sources.map fun reading => reading.accounting.tokenReconciliation

lemma states_sound (tree : MergeTree Usd) : ∀ state ∈ tree.states, state.Sound := by
  intro state hmem
  obtain ⟨reading, -, rfl⟩ := List.mem_map.mp hmem
  exact reading.sound.reconciliation

lemma tokenReconciliation_run (tree : MergeTree Usd) :
    tree.run.tokenReconciliation = .combined tree.states := by
  induction tree with
  | source reading =>
    exact (UsageReconciliation.combined_singleton reading.sound.reconciliation).symm
  | merge left right ihl ihr =>
    have hstates : (merge left right).states = left.states ++ right.states := List.map_append
    rw [hstates, ← UsageReconciliation.checkedMerge_combined left.states_sound right.states_sound,
      ← ihl, ← ihr]
    rfl

lemma total_run (field : SourceAccounting Usd → Option TokenClasses)
    (hfits : ∀ reading : SourceReading Usd, ∀ tokens, field reading.accounting = some tokens →
      tokens.Fits)
    (hmerge : ∀ a b : SourceAccounting Usd,
      field (a.checkedMerge b) = Checked.add TokenClasses.Fits (field a) (field b))
    (tree : MergeTree Usd) :
    field tree.run =
      Checked.total TokenClasses.Fits (tree.sources.map fun reading => field reading.accounting) := by
  induction tree with
  | source reading => exact (Checked.total_singleton (hfits reading)).symm
  | merge left right ihl ihr =>
    rw [run, hmerge, ihl, ihr, sources, List.map_append,
      Checked.total_append TokenClasses.fits_downClosed]

end MergeTree

/-- **Source defects never cancel.**  Whatever the tree of merges, the comparison
is the one `combined` gives for the sources, both totals are the checked sums of
theirs, and a tree over the same sources in another order gives the same. -/
theorem merged_accounting (tree : MergeTree Usd) :
    (tree.run.tokenReconciliation = .combined tree.states ∧
      tree.run.retainedTokens = Checked.total TokenClasses.Fits
        (tree.sources.map fun reading => reading.accounting.retainedTokens) ∧
      tree.run.aggregateTokens = Checked.total TokenClasses.Fits
        (tree.sources.map fun reading => reading.accounting.aggregateTokens)) ∧
    ∀ other : MergeTree Usd, other.sources.Perm tree.sources →
      other.run.tokenReconciliation = tree.run.tokenReconciliation ∧
      other.run.retainedTokens = tree.run.retainedTokens ∧
      other.run.aggregateTokens = tree.run.aggregateTokens := by
  have hretained := @MergeTree.total_run Usd _ SourceAccounting.retainedTokens
    (fun reading => reading.sound.retained) fun _ _ => TokenClasses.bind_checkedAdd _ _
  have haggregate := @MergeTree.total_run Usd _ SourceAccounting.aggregateTokens
    (fun reading => reading.sound.aggregate) fun _ _ => TokenClasses.bind_checkedAdd _ _
  refine ⟨⟨tree.tokenReconciliation_run, hretained tree, haggregate tree⟩, fun other hperm => ?_⟩
  refine ⟨?_, ?_, ?_⟩
  · rw [other.tokenReconciliation_run, tree.tokenReconciliation_run]
    exact UsageReconciliation.combined_perm (hperm.map _)
  · rw [hretained, hretained]
    exact Checked.total_perm (hperm.map _)
  · rw [haggregate, haggregate]
    exact Checked.total_perm (hperm.map _)

end Antiburn
