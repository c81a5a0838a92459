/-
Usage is counted once for each attempt.

What the calls come to is a sum over the attempts with a known usage, each at the
first one it received.  The ledger never looks at an attempt again: the row of the
attempt says whether it was counted, and the totals of a ledger, however they are
spread over aggregates and the overflow bucket, grow by one call at a time.
-/
import Antiburn.Lib.Table
import Antiburn.Usage
import Mathlib

namespace Antiburn

/-! ### Attempt ids -/

lemma hexByte_injective : Function.Injective hexByte := by
  have hdigit : ∀ a b : Fin 16, Nat.digitChar a = Nat.digitChar b → a = b := by decide
  intro a b h
  have hhigh : a.toNat / 16 < 16 := Nat.div_lt_of_lt_mul a.toNat_lt
  have hhigh' : b.toNat / 16 < 16 := Nat.div_lt_of_lt_mul b.toNat_lt
  have hlow : a.toNat % 16 < 16 := Nat.mod_lt _ (by decide)
  have hlow' : b.toNat % 16 < 16 := Nat.mod_lt _ (by decide)
  simp only [hexByte, List.cons.injEq, and_true] at h
  have hdiv : a.toNat / 16 = b.toNat / 16 := congrArg Fin.val (hdigit ⟨_, hhigh⟩ ⟨_, hhigh'⟩ h.1)
  have hmod : a.toNat % 16 = b.toNat % 16 := congrArg Fin.val (hdigit ⟨_, hlow⟩ ⟨_, hlow'⟩ h.2)
  apply UInt8.toNat_inj.mp
  omega

lemma flatMap_hexByte_injective {as bs : List UInt8} (h : as.flatMap hexByte = bs.flatMap hexByte) :
    as = bs := by
  induction as generalizing bs with
  | nil =>
    cases bs with
    | nil => rfl
    | cons b bs => simp [hexByte] at h
  | cons a as ih =>
    cases bs with
    | nil => simp [hexByte] at h
    | cons b bs =>
      rw [List.flatMap_cons, List.flatMap_cons] at h
      obtain ⟨hbyte, hrest⟩ := List.append_inj h rfl
      rw [hexByte_injective hbyte, ih hrest]

lemma length_flatMap_hexByte (cand : CandidateId) :
    (cand.toList.flatMap hexByte).length = 64 := by
  rw [List.length_flatMap]
  have hlen : ∀ byte, (hexByte byte).length = 2 := fun _ => rfl
  simp only [hlen, List.map_const', List.sum_replicate, Vector.length_toList]
  rfl

lemma append_separator_inj {l l' r r' : List Char} {c : Char} (hl : c ∉ l) (hl' : c ∉ l')
    (h : l ++ c :: r = l' ++ c :: r') : l = l' ∧ r = r' := by
  induction l generalizing l' with
  | nil =>
    cases l' with
    | nil =>
      cases h
      exact ⟨rfl, rfl⟩
    | cons d l' =>
      cases h
      exact absurd List.mem_cons_self hl'
  | cons d l ih =>
    cases l' with
    | nil =>
      cases h
      exact absurd List.mem_cons_self hl
    | cons d' l' =>
      rw [List.cons_append, List.cons_append, List.cons.injEq] at h
      obtain ⟨rfl, h⟩ := h
      have htail := ih (fun hmem => hl (List.mem_cons_of_mem _ hmem))
        (fun hmem => hl' (List.mem_cons_of_mem _ hmem)) h
      exact ⟨by rw [htail.1], htail.2⟩

lemma separator_not_mem_toString (n : Nat) : ':' ∉ (toString n).toList := by
  intro hmem
  exact absurd (JsonCodec.isDigit_of_mem_toString hmem) (by decide)

lemma separator_not_mem_identifier {value : String} (h : isIdentifier value = true) :
    ':' ∉ value.toList := by
  unfold isIdentifier at h
  intro hmem
  cases hchars : value.toList with
  | nil =>
    rw [hchars] at hmem
    exact List.not_mem_nil hmem
  | cons first rest =>
    rw [hchars] at h hmem
    simp only [Bool.and_eq_true, List.all_eq_true] at h
    rcases List.mem_cons.mp hmem with rfl | hmem
    · exact absurd h.1 (by decide)
    · exact absurd (h.2 _ hmem) (by decide)

lemma toList_attemptId (cand : CandidateId) (attempt : DecisionAttempt) :
    (attemptId cand attempt).toList = "burn-check-decision-v1:32:".toList ++
      (cand.toList.flatMap hexByte ++ ':' ::
        ((toString attempt.decision.utf8ByteSize).toList ++ ':' ::
          (attempt.decision.toList ++ ':' :: '1' :: ':' :: (toString attempt.number).toList))) := by
  have hcolon : ":".toList = [':'] := rfl
  have hone : ":1:".toList = [':', '1', ':'] := rfl
  unfold attemptId
  simp only [String.toList_append, String.toList_ofList, hcolon, hone, List.append_assoc,
    List.cons_append, List.nil_append]

/-- **The id of an attempt is its own.** -/
lemma attemptId_inj {cand candidate' : CandidateId} {attempt attempt' : DecisionAttempt}
    (hvalid : attempt.validate = .ok ()) (hvalid' : attempt'.validate = .ok ())
    (h : attemptId cand attempt = attemptId candidate' attempt') :
    cand = candidate' ∧ attempt = attempt' := by
  obtain ⟨hident, hnumber⟩ := DecisionAttempt.validate_ok_iff.mp hvalid
  obtain ⟨hident', hnumber'⟩ := DecisionAttempt.validate_ok_iff.mp hvalid'
  have hchars := congrArg String.toList h
  rw [toList_attemptId, toList_attemptId] at hchars
  have hbody := List.append_cancel_left hchars
  have hlen : (cand.toList.flatMap hexByte).length =
      (candidate'.toList.flatMap hexByte).length := by
    rw [length_flatMap_hexByte, length_flatMap_hexByte]
  obtain ⟨hcand, hrest⟩ := List.append_inj hbody hlen
  -- the length of the name, the name and the number are between separators
  rw [List.cons.injEq] at hrest
  obtain ⟨-, hrest⟩ := append_separator_inj (separator_not_mem_toString _)
    (separator_not_mem_toString _) hrest.2
  obtain ⟨hname, hrest⟩ := append_separator_inj (separator_not_mem_identifier hident)
    (separator_not_mem_identifier hident') hrest
  simp only [List.cons.injEq, true_and] at hrest
  have hnums : attempt.number = attempt'.number := by
    have hne : (toString 1).toList ≠ (toString 2).toList := by decide
    rcases hnumber with hnumber | hnumber <;> rcases hnumber' with hnumber' | hnumber' <;>
      rw [hnumber, hnumber'] at hrest ⊢
    · exact absurd hrest hne
    · exact absurd hrest.symm hne
  refine ⟨Vector.toList_inj.mp (flatMap_hexByte_injective hcand), ?_⟩
  obtain ⟨name, number⟩ := attempt
  obtain ⟨name', number'⟩ := attempt'
  dsimp only at hname hnums
  rw [hnums, String.toList_inj.mp hname]

/-! ### What the calls come to -/

/-- Whether a model has a known price: local models are free. -/
def UsageIdentity.priced (identity : UsageIdentity) : Bool :=
  identity.provider == "ollama-systemone" || identity.priceVersion.isSome

/-- The exact price of a call in nanodollars, zero where none is known. -/
def UsageIdentity.price (identity : UsageIdentity) (inputTokens : Nat) : Nat :=
  if identity.provider = "ollama-systemone" then 0
  else if identity.priceVersion.isSome then inputTokens * INPUT_NANODOLLARS_PER_TOKEN
  else 0

abbrev UsageAttempt := CandidateId × DecisionAttempt

structure SettledCall where
  attempt : UsageAttempt
  identity : UsageIdentity
  usage : Option JevUsage

namespace SettledCall

def inputTokens (call : SettledCall) : Nat := call.usage.elim 0 JevUsage.inputTokens

def outputTokens (call : SettledCall) : Nat := call.usage.elim 0 JevUsage.outputTokens

def priced (call : SettledCall) : Bool := call.identity.priced

/-- The exact price in nanodollars, zero where none is known. -/
def price (call : SettledCall) : Nat := call.identity.price call.inputTokens

end SettledCall

section Calls

variable (calls : List SettledCall)

def confirmedAttempts : Finset UsageAttempt :=
  ((calls.filter (·.usage.isSome)).map SettledCall.attempt).toFinset

def unknownAttempts : Finset UsageAttempt :=
  (calls.map SettledCall.attempt).toFinset \ confirmedAttempts calls

def firstKnown (attempt : UsageAttempt) : Option SettledCall :=
  calls.find? fun call => call.attempt == attempt && call.usage.isSome

/-- A sum over the attempts of the first known usage each received. -/
def sumConfirmed (amount : SettledCall → Nat) : Nat :=
  ∑ attempt ∈ confirmedAttempts calls, (firstKnown calls attempt).elim 0 amount

end Calls

section Sums

variable {calls : List SettledCall} {call : SettledCall} {attempt : UsageAttempt}

lemma mem_confirmedAttempts : attempt ∈ confirmedAttempts calls ↔
    ∃ call ∈ calls, call.usage.isSome = true ∧ call.attempt = attempt := by
  simp only [confirmedAttempts, List.mem_toFinset, List.mem_map, List.mem_filter, and_assoc]

lemma mem_unknownAttempts : attempt ∈ unknownAttempts calls ↔
    (∃ call ∈ calls, call.attempt = attempt) ∧ attempt ∉ confirmedAttempts calls := by
  simp only [unknownAttempts, Finset.mem_sdiff, List.mem_toFinset, List.mem_map]

lemma confirmedAttempts_unknown (h : call.usage = none) :
    confirmedAttempts (calls ++ [call]) = confirmedAttempts calls := by
  ext attempt
  simp only [mem_confirmedAttempts, List.mem_append, List.mem_singleton, or_and_right, exists_or,
    exists_eq_left, h, Option.isSome_none, Bool.false_eq_true, false_and, or_false]

lemma confirmedAttempts_known (h : call.usage.isSome = true) :
    confirmedAttempts (calls ++ [call]) = insert call.attempt (confirmedAttempts calls) := by
  ext attempt
  simp only [mem_confirmedAttempts, List.mem_append, List.mem_singleton, or_and_right, exists_or,
    exists_eq_left, h, true_and, Finset.mem_insert]
  rw [or_comm, eq_comm (a := attempt)]

lemma firstKnown_isSome : (firstKnown calls attempt).isSome = true ↔
    attempt ∈ confirmedAttempts calls := by
  unfold firstKnown
  rw [List.find?_isSome, mem_confirmedAttempts]
  simp only [Bool.and_eq_true, beq_iff_eq, and_comm]

lemma firstKnown_append (h : attempt ∈ confirmedAttempts calls) (calls' : List SettledCall) :
    firstKnown (calls ++ calls') attempt = firstKnown calls attempt := by
  have hsome := firstKnown_isSome.mpr h
  unfold firstKnown at hsome ⊢
  rw [List.find?_append, Option.or_of_isSome hsome]

lemma firstKnown_new (h : call.usage.isSome = true)
    (hnew : call.attempt ∉ confirmedAttempts calls) :
    firstKnown (calls ++ [call]) call.attempt = some call := by
  have hnone : firstKnown calls call.attempt = none := by
    rw [← Option.not_isSome_iff_eq_none, firstKnown_isSome]
    exact hnew
  unfold firstKnown at hnone ⊢
  rw [List.find?_append, hnone, Option.none_or, List.find?_singleton, h, beq_self_eq_true]
  rfl

lemma sumConfirmed_same (amount : SettledCall → Nat)
    (h : call.usage = none ∨ call.attempt ∈ confirmedAttempts calls) :
    confirmedAttempts (calls ++ [call]) = confirmedAttempts calls ∧
      sumConfirmed (calls ++ [call]) amount = sumConfirmed calls amount := by
  have hsame : confirmedAttempts (calls ++ [call]) = confirmedAttempts calls := by
    cases husage : call.usage with
    | none => exact confirmedAttempts_unknown husage
    | some usage =>
      have hmem : call.attempt ∈ confirmedAttempts calls := by
        rcases h with h | h
        · rw [husage] at h
          cases h
        · exact h
      rw [confirmedAttempts_known (by rw [husage]; rfl), Finset.insert_eq_of_mem hmem]
  refine ⟨hsame, ?_⟩
  unfold sumConfirmed
  rw [hsame]
  apply Finset.sum_congr rfl
  intro attempt hmem
  rw [firstKnown_append hmem]

lemma sumConfirmed_new (amount : SettledCall → Nat) (h : call.usage.isSome = true)
    (hnew : call.attempt ∉ confirmedAttempts calls) :
    sumConfirmed (calls ++ [call]) amount = sumConfirmed calls amount + amount call := by
  unfold sumConfirmed
  rw [confirmedAttempts_known h, Finset.sum_insert hnew, firstKnown_new h hnew, add_comm]
  congr 1
  apply Finset.sum_congr rfl
  intro attempt hmem
  rw [firstKnown_append hmem]

lemma sumConfirmed_le (amount : SettledCall → Nat) :
    sumConfirmed calls amount ≤ sumConfirmed (calls ++ [call]) amount := by
  by_cases h : call.usage = none ∨ call.attempt ∈ confirmedAttempts calls
  · exact Nat.le_of_eq (sumConfirmed_same amount h).2.symm
  · rw [not_or, ← ne_eq, Option.ne_none_iff_isSome] at h
    rw [sumConfirmed_new amount h.1 h.2]
    exact Nat.le_add_right _ _

lemma sumConfirmed_one : sumConfirmed calls (fun _ => 1) = (confirmedAttempts calls).card := by
  unfold sumConfirmed
  rw [Finset.card_eq_sum_ones]
  apply Finset.sum_congr rfl
  intro attempt hmem
  obtain ⟨call, hcall⟩ := Option.isSome_iff_exists.mp (firstKnown_isSome.mpr hmem)
  rw [hcall]
  rfl

lemma settled_append : (∃ other ∈ calls ++ [call], other.attempt = attempt) ↔
    (∃ other ∈ calls, other.attempt = attempt) ∨ call.attempt = attempt := by
  simp only [List.mem_append, List.mem_singleton, or_and_right, exists_or, exists_eq_left]

lemma unknownAttempts_unknown (h : call.usage = none)
    (hconfirmed : call.attempt ∉ confirmedAttempts calls) :
    unknownAttempts (calls ++ [call]) = insert call.attempt (unknownAttempts calls) := by
  ext attempt
  rw [Finset.mem_insert, mem_unknownAttempts, mem_unknownAttempts, confirmedAttempts_unknown h,
    settled_append]
  constructor
  · rintro ⟨hseen | rfl, hnot⟩
    · exact .inr ⟨hseen, hnot⟩
    · exact .inl rfl
  · rintro (rfl | ⟨hseen, hnot⟩)
    · exact ⟨.inr rfl, hconfirmed⟩
    · exact ⟨.inl hseen, hnot⟩

lemma unknownAttempts_known (h : call.usage.isSome = true) :
    unknownAttempts (calls ++ [call]) = (unknownAttempts calls).erase call.attempt := by
  ext attempt
  rw [Finset.mem_erase, mem_unknownAttempts, mem_unknownAttempts, confirmedAttempts_known h,
    Finset.mem_insert, not_or, settled_append]
  constructor
  · rintro ⟨hseen | rfl, hne, hnot⟩
    · exact ⟨hne, hseen, hnot⟩
    · exact absurd rfl hne
  · rintro ⟨hne, hseen, hnot⟩
    exact ⟨.inl hseen, hne, hnot⟩

lemma unknownAttempts_same (h : call.attempt ∈ confirmedAttempts calls ∨
    call.usage = none ∧ call.attempt ∈ unknownAttempts calls) :
    unknownAttempts (calls ++ [call]) = unknownAttempts calls := by
  rcases h with h | ⟨husage, h⟩
  · have hnot : call.attempt ∉ unknownAttempts calls :=
      fun hmem => (mem_unknownAttempts.mp hmem).2 h
    cases husage : call.usage with
    | some usage => rw [unknownAttempts_known (by rw [husage]; rfl), Finset.erase_eq_of_notMem hnot]
    | none =>
      ext attempt
      rw [mem_unknownAttempts, mem_unknownAttempts, confirmedAttempts_unknown husage,
        settled_append]
      constructor
      · rintro ⟨hseen | rfl, hnot⟩
        · exact ⟨hseen, hnot⟩
        · exact absurd h hnot
      · rintro ⟨hseen, hnot⟩
        exact ⟨.inl hseen, hnot⟩
  · rw [unknownAttempts_unknown husage (mem_unknownAttempts.mp h).2, Finset.insert_eq_of_mem h]

end Sums

/-! ### Totals of a ledger -/

namespace UsageLedgerSummary

variable (ledger : UsageLedgerSummary)

def totalOf (amount : ModelUsageAggregate → Nat) : Nat := (ledger.aggregates.map amount).sum

def calls : Nat := ledger.overflowConfirmedCalls + ledger.totalOf ModelUsageAggregate.confirmedCalls

def inputs : Nat := ledger.overflowInputTokens + ledger.totalOf ModelUsageAggregate.inputTokens

def outputs : Nat := ledger.overflowOutputTokens + ledger.totalOf ModelUsageAggregate.outputTokens

def costs : Nat := ledger.totalOf fun aggregate => aggregate.estimatedCostNanos.getD 0

/-- The aggregates of priced models have a cost, and no others. -/
def WellPriced : Prop := ∀ aggregate ∈ ledger.aggregates,
  aggregate.estimatedCostNanos.isSome =
    UsageIdentity.priced ⟨aggregate.provider, aggregate.checkId, aggregate.model⟩

structure Grows (before : UsageLedgerSummary) (identity : UsageIdentity)
    (inputTokens outputTokens : Nat) (after : UsageLedgerSummary) : Prop where
  wellPriced : after.WellPriced
  calls : after.calls = before.calls + 1
  inputs : after.inputs = before.inputs + inputTokens
  outputs : after.outputs = before.outputs + outputTokens
  unknown : after.unknownOutcomes = before.unknownOutcomes
  costs : after.unpricedUsage = false → before.unpricedUsage = false ∧ identity.priced = true ∧
    after.costs = before.costs + identity.price inputTokens

structure Fits (identity : UsageIdentity) (inputTokens outputTokens : Nat) : Prop where
  calls : ledger.calls + 1 ≤ U64_MAX
  inputs : ledger.inputs + inputTokens ≤ U64_MAX
  outputs : ledger.outputs + outputTokens ≤ U64_MAX
  costs : ledger.unpricedUsage = false →
    ledger.costs + identity.price inputTokens ≤ U64_MAX

end UsageLedgerSummary

lemma sum_around {α : Type} {l : List α} {i : Nat} {a : α} (h : l[i]? = some a) (f : α → Nat) :
    ∃ others, (l.map f).sum = others + f a ∧ ∀ b, ((l.set i b).map f).sum = others + f b := by
  obtain ⟨before, after, hl, hset, -⟩ := List.around_getElem? h
  refine ⟨(before.map f).sum + (after.map f).sum, ?_, fun b => ?_⟩
  · rw [hl, List.map_append, List.map_cons, List.sum_append, List.sum_cons]
    omega
  · rw [hset, List.map_append, List.map_cons, List.sum_append, List.sum_cons]
    omega

lemma UsageIdentity.isSome_cost (identity : UsageIdentity) (inputTokens : Nat) :
    (identity.cost inputTokens).isSome = identity.priced := by
  unfold cost priced
  by_cases hlocal : identity.provider = "ollama-systemone"
  · rw [if_pos hlocal, hlocal]
    rfl
  · rw [if_neg hlocal, Option.isSome_map, beq_eq_false_iff_ne.mpr hlocal, Bool.false_or]

lemma UsageIdentity.cost_eq {identity : UsageIdentity} {inputTokens cost : Nat}
    (h : identity.cost inputTokens = some cost) (hfits : identity.price inputTokens ≤ U64_MAX) :
    cost = identity.price inputTokens := by
  unfold UsageIdentity.cost at h
  unfold price at hfits ⊢
  by_cases hlocal : identity.provider = "ollama-systemone"
  · rw [if_pos hlocal] at h ⊢
    cases h
    rfl
  · rw [if_neg hlocal] at h hfits ⊢
    cases hver : identity.priceVersion with
    | none =>
      rw [hver] at h
      cases h
    | some version =>
      rw [hver, if_pos (Option.isSome_some)] at hfits
      rw [hver] at h
      rw [if_pos Option.isSome_some]
      cases h
      exact saturatingMul_of_le hfits

namespace UsageLedgerSummary

variable {ledger : UsageLedgerSummary} {identity : UsageIdentity} {inputTokens outputTokens : Nat}

lemma add_fields (aggregate : ModelUsageAggregate) (cost : Option Nat)
    (inputTokens outputTokens : Nat) (atEpoch : Int) :
    let added := (aggregate.add cost inputTokens outputTokens atEpoch).1
    added.confirmedCalls = saturatingAdd aggregate.confirmedCalls 1 ∧
      added.inputTokens = saturatingAdd aggregate.inputTokens inputTokens ∧
      added.outputTokens = saturatingAdd aggregate.outputTokens outputTokens ∧
      added.provider = aggregate.provider ∧ added.checkId = aggregate.checkId ∧
      added.model = aggregate.model ∧
      added.estimatedCostNanos.isSome = aggregate.estimatedCostNanos.isSome := by
  unfold ModelUsageAggregate.add
  dsimp only
  split
  · rename_i total cost htotal
    rw [htotal]
    exact ⟨rfl, rfl, rfl, rfl, rfl, rfl, rfl⟩
  · exact ⟨rfl, rfl, rfl, rfl, rfl, rfl, rfl⟩

lemma add_priced {aggregate : ModelUsageAggregate} {cost : Option Nat}
    {inputTokens outputTokens : Nat} {atEpoch : Int}
    (h : (aggregate.add cost inputTokens outputTokens atEpoch).2 = true) :
    ∃ total known, aggregate.estimatedCostNanos = some total ∧ cost = some known ∧
      (aggregate.add cost inputTokens outputTokens atEpoch).1.estimatedCostNanos =
        some (saturatingAdd total known) := by
  unfold ModelUsageAggregate.add at h ⊢
  dsimp only at h ⊢
  split at h
  · rename_i total known htotal
    rw [htotal]
    exact ⟨total, known, rfl, rfl, rfl⟩
  · cases h

lemma grows_addAt {index : Nat} {aggregate : ModelUsageAggregate}
    (hwell : ledger.WellPriced) (hindex : ledger.aggregates[index]? = some aggregate)
    (hsame : UsageIdentity.priced ⟨aggregate.provider, aggregate.checkId, aggregate.model⟩ =
      identity.priced)
    (hfits : ledger.Fits identity inputTokens outputTokens) (atEpoch : Int) :
    ledger.Grows identity inputTokens outputTokens (ledger.addAt index aggregate
      (identity.cost inputTokens) inputTokens outputTokens atEpoch) := by
  obtain ⟨hcalls, hinputs, houtputs, hcosts⟩ := hfits
  obtain ⟨hadded, haddedInput, haddedOutput, hprov, hcheck, hmodel, hisSome⟩ :=
    add_fields aggregate (identity.cost inputTokens) inputTokens outputTokens atEpoch
  -- the other aggregates keep their part of every total
  obtain ⟨callsElse, hcallsSum, hcallsSet⟩ := sum_around hindex ModelUsageAggregate.confirmedCalls
  obtain ⟨inputsElse, hinputsSum, hinputsSet⟩ := sum_around hindex ModelUsageAggregate.inputTokens
  obtain ⟨outputsElse, houtputsSum, houtputsSet⟩ :=
    sum_around hindex ModelUsageAggregate.outputTokens
  obtain ⟨costsElse, hcostsSum, hcostsSet⟩ :=
    sum_around hindex fun aggregate => aggregate.estimatedCostNanos.getD 0
  have haggr := (hwell aggregate (List.mem_of_getElem? hindex)).trans hsame
  unfold calls totalOf at hcalls
  unfold inputs totalOf at hinputs
  unfold outputs totalOf at houtputs
  refine ⟨?_, ?_, ?_, ?_, rfl, ?_⟩
  · intro other hother
    change other ∈ ledger.aggregates.set index
      (aggregate.add (identity.cost inputTokens) inputTokens outputTokens atEpoch).1 at hother
    rcases List.mem_or_eq_of_mem_set hother with hother | hother
    · exact hwell other hother
    · rw [hother, hisSome, hprov, hcheck, hmodel]
      exact haggr.trans hsame.symm
  · show ledger.overflowConfirmedCalls + ((ledger.aggregates.set index _).map _).sum = _
    unfold calls totalOf
    rw [hcallsSet, hcallsSum, hadded, saturatingAdd_of_le (by omega)]
    omega
  · show ledger.overflowInputTokens + ((ledger.aggregates.set index _).map _).sum = _
    unfold inputs totalOf
    rw [hinputsSet, hinputsSum, haddedInput, saturatingAdd_of_le (by omega)]
    omega
  · show ledger.overflowOutputTokens + ((ledger.aggregates.set index _).map _).sum = _
    unfold outputs totalOf
    rw [houtputsSet, houtputsSum, haddedOutput, saturatingAdd_of_le (by omega)]
    omega
  · intro hafter
    obtain ⟨hbefore, hpriced⟩ : ledger.unpricedUsage = false ∧ (aggregate.add
        (identity.cost inputTokens) inputTokens outputTokens atEpoch).2 = true := by
      simpa [addAt] using hafter
    obtain ⟨total, known, htotal, hknown, hcost⟩ := add_priced hpriced
    have hbound := hcosts hbefore
    unfold costs totalOf at hbound
    rw [hcostsSum, htotal, Option.getD_some] at hbound
    have hexact : known = identity.price inputTokens := UsageIdentity.cost_eq hknown (by omega)
    refine ⟨hbefore, ?_, ?_⟩
    · rw [← identity.isSome_cost inputTokens, hknown]
      rfl
    · show ((ledger.aggregates.set index _).map _).sum = _
      unfold costs totalOf
      rw [hcostsSet, hcostsSum, hcost, htotal, Option.getD_some, Option.getD_some, hexact,
        saturatingAdd_of_le (by omega)]
      omega

lemma grows_addOverflow (hwell : ledger.WellPriced)
    (hfits : ledger.Fits identity inputTokens outputTokens) :
    ledger.Grows identity inputTokens outputTokens
      (ledger.addOverflow inputTokens outputTokens) := by
  obtain ⟨hcalls, hinputs, houtputs, -⟩ := hfits
  unfold calls at hcalls
  unfold inputs at hinputs
  unfold outputs at houtputs
  refine ⟨hwell, ?_, ?_, ?_, rfl, fun hafter => by cases hafter⟩
  · show saturatingAdd ledger.overflowConfirmedCalls 1 + ledger.totalOf _ = _
    unfold calls
    rw [saturatingAdd_of_le (by omega)]
    omega
  · show saturatingAdd ledger.overflowInputTokens inputTokens + ledger.totalOf _ = _
    unfold inputs
    rw [saturatingAdd_of_le (by omega)]
    omega
  · show saturatingAdd ledger.overflowOutputTokens outputTokens + ledger.totalOf _ = _
    unfold outputs
    rw [saturatingAdd_of_le (by omega)]
    omega

lemma over_append (amount : ModelUsageAggregate → Nat) (aggregate : ModelUsageAggregate)
    (hzero : amount aggregate = 0) :
    ({ ledger with aggregates := ledger.aggregates ++ [aggregate] } :
      UsageLedgerSummary).totalOf amount = ledger.totalOf amount := by
  unfold totalOf
  rw [List.map_append, List.map_singleton, List.sum_append, List.sum_singleton, hzero, add_zero]

/-- **A confirmed call adds itself to the totals**, wherever it is kept. -/
lemma grows_recordConfirmedUsage (hwell : ledger.WellPriced)
    (hfits : ledger.Fits identity inputTokens outputTokens) (atEpoch : Int) :
    ledger.Grows identity inputTokens outputTokens
      (ledger.recordConfirmedUsage identity inputTokens outputTokens atEpoch) := by
  unfold recordConfirmedUsage
  dsimp only
  split
  · rename_i index hindex
    obtain ⟨hlt, hholds, -⟩ := List.findIdx?_eq_some_iff_getElem.mp hindex
    have hget : ledger.aggregates[index]? = some ledger.aggregates[index] :=
      List.getElem?_eq_getElem hlt
    rw [List.getD_eq_getElem?_getD, hget, Option.getD_some]
    apply grows_addAt hwell hget _ hfits
    simp only [ModelUsageAggregate.holds, Bool.and_eq_true, beq_iff_eq] at hholds
    obtain ⟨⟨⟨hprov, hcheck⟩, hmodel⟩, -⟩ := hholds
    rw [hprov, hcheck, hmodel]
  · split_ifs
    · exact grows_addOverflow hwell hfits
    · -- a new aggregate changes no total before it gets the call
      let new := identity.aggregate inputTokens atEpoch
      let wider : UsageLedgerSummary := { ledger with aggregates := ledger.aggregates ++ [new] }
      have hcalls : wider.calls = ledger.calls :=
        congrArg (ledger.overflowConfirmedCalls + ·) (over_append _ new rfl)
      have hinputs : wider.inputs = ledger.inputs :=
        congrArg (ledger.overflowInputTokens + ·) (over_append _ new rfl)
      have houtputs : wider.outputs = ledger.outputs :=
        congrArg (ledger.overflowOutputTokens + ·) (over_append _ new rfl)
      have hcosts : wider.costs = ledger.costs := by
        apply over_append
        show ((identity.cost inputTokens).map fun _ => 0).getD 0 = 0
        cases identity.cost inputTokens <;> rfl
      have hnew : new.estimatedCostNanos.isSome = identity.priced := by
        show ((identity.cost inputTokens).map fun _ => 0).isSome = _
        rw [Option.isSome_map, identity.isSome_cost]
      have hwider : wider.WellPriced := by
        intro aggregate hmem
        rcases List.mem_append.mp hmem with hmem | hmem
        · exact hwell aggregate hmem
        · rw [List.mem_singleton.mp hmem]
          exact hnew
      have hget : wider.aggregates[ledger.aggregates.length]? = some new :=
        List.getElem?_concat_length
      have hfits' : wider.Fits identity inputTokens outputTokens :=
        ⟨hcalls ▸ hfits.calls, hinputs ▸ hfits.inputs, houtputs ▸ hfits.outputs,
          fun h => hcosts ▸ hfits.costs h⟩
      have hgrows := grows_addAt hwider hget rfl hfits' atEpoch
      exact ⟨hgrows.wellPriced, hcalls ▸ hgrows.calls, hinputs ▸ hgrows.inputs,
        houtputs ▸ hgrows.outputs, hgrows.unknown, fun h => hcosts ▸ hgrows.costs h⟩

end UsageLedgerSummary

/-! ### Calls -/

inductive UsageReply where
  /-- `record_burn_check_decision_usage`. -/
  | usage (usage : Option JevUsage)
  /-- `record_burn_check_decision_observation`. -/
  | observation (observation : Option JevResponseObservation)

structure UsageCall where
  candidateId : String
  attempt : DecisionAttempt
  checkId : String
  provider : String
  model : String
  reply : UsageReply

structure UsageOp where
  call : UsageCall
  nowEpoch : Int
  rollsBack : Bool

namespace UsageCall

variable (call : UsageCall)

def run (store : UsageStore) (nowEpoch : Int) : Except String UsageStore :=
  match call.reply with
  | .usage usage => store.recordBurnCheckDecisionUsage call.candidateId call.attempt call.checkId
      call.provider call.model usage nowEpoch
  | .observation observation => store.recordBurnCheckDecisionObservation call.candidateId
      call.attempt call.checkId call.provider call.model observation nowEpoch

def settlement : UsageSettlement :=
  match call.reply with
  | .usage usage => ⟨⟨call.provider, call.checkId, call.model⟩, usage, none⟩
  | .observation none => ⟨⟨call.provider, call.checkId, call.model⟩, none, none⟩
  | .observation (some observation) =>
    observation.settlement call.checkId call.provider call.model

def settled : Option SettledCall :=
  match validateIdentity call.checkId call.provider call.model, call.attempt.validate,
    parseCandidateId call.candidateId with
  | .ok _, .ok _, .ok cand =>
    some ⟨(cand, call.attempt), call.settlement.identity, call.settlement.usage⟩
  | _, _, _ => none

end UsageCall

/-- The store behind a call; a call that fails or rolls back leaves it as it was. -/
def UsageStore.apply (store : UsageStore) (op : UsageOp) : UsageStore :=
  if op.rollsBack then store
  else
    match op.call.run store op.nowEpoch with
    | .ok after => after
    | .error _ => store

def settledCalls (ops : List UsageOp) : List SettledCall :=
  ops.filterMap fun op => if op.rollsBack then none else op.call.settled

/-- No counter of the totals saturates. -/
structure Unsaturated (calls : List SettledCall) : Prop where
  attempts : (confirmedAttempts calls).card + (unknownAttempts calls).card ≤ U64_MAX
  inputs : sumConfirmed calls SettledCall.inputTokens ≤ U64_MAX
  outputs : sumConfirmed calls SettledCall.outputTokens ≤ U64_MAX
  prices : sumConfirmed calls SettledCall.price ≤ U64_MAX

def AllPriced (calls : List SettledCall) : Prop :=
  ∀ attempt ∈ confirmedAttempts calls, ∀ call, firstKnown calls attempt = some call →
    call.priced = true

structure UsageLedgerSummary.Counts (ledger : UsageLedgerSummary) (calls : List SettledCall) :
    Prop where
  wellPriced : ledger.WellPriced
  confirmed : ledger.calls = (confirmedAttempts calls).card
  inputs : ledger.inputs = sumConfirmed calls SettledCall.inputTokens
  outputs : ledger.outputs = sumConfirmed calls SettledCall.outputTokens
  unknown : ledger.unknownOutcomes = (unknownAttempts calls).card
  prices : ledger.unpricedUsage = false →
    AllPriced calls ∧ ledger.costs = sumConfirmed calls SettledCall.price

def rowState (calls : List SettledCall) (attempt : UsageAttempt) : Option Bool :=
  if attempt ∈ confirmedAttempts calls then some true
  else if attempt ∈ unknownAttempts calls then some false
  else none

/-- **The store counts the calls**: each attempt by its row, and all by the ledger. -/
structure UsageStore.Counts (store : UsageStore) (calls : List SettledCall) : Prop where
  rows : ∀ (candidate : CandidateId) (attempt : DecisionAttempt), attempt.validate = .ok () →
    (store.rows[attemptId candidate attempt]?).map UsageRow.usageKnown =
      rowState calls (candidate, attempt)
  ledger : (store.ledger.getD {}).Counts calls

section Runs

variable {calls : List SettledCall} {call : SettledCall}

lemma allPriced_new (hall : AllPriced calls) (hnew : call.attempt ∉ confirmedAttempts calls)
    (husage : call.usage.isSome = true) (hpriced : call.priced = true) :
    AllPriced (calls ++ [call]) := by
  intro attempt hmem first hfirst
  rw [confirmedAttempts_known husage, Finset.mem_insert] at hmem
  rcases hmem with rfl | hmem
  · rw [firstKnown_new husage hnew] at hfirst
    cases hfirst
    exact hpriced
  · rw [firstKnown_append hmem] at hfirst
    exact hall attempt hmem first hfirst

lemma allPriced_same (hall : AllPriced calls)
    (h : call.usage = none ∨ call.attempt ∈ confirmedAttempts calls) :
    AllPriced (calls ++ [call]) := by
  have hsame := (sumConfirmed_same SettledCall.price h).1
  intro attempt hmem first hfirst
  rw [hsame] at hmem
  rw [firstKnown_append hmem] at hfirst
  exact hall attempt hmem first hfirst

lemma UsageLedgerSummary.Counts.same {ledger : UsageLedgerSummary} (h : ledger.Counts calls)
    (hcall : call.usage = none ∨ call.attempt ∈ confirmedAttempts calls) (unknownOutcomes : Nat)
    (at? : Option Int) (hunknown : unknownOutcomes = (unknownAttempts (calls ++ [call])).card) :
    ({ ledger with unknownOutcomes, lastUnknownAtEpoch := at? } : UsageLedgerSummary).Counts
      (calls ++ [call]) where
  wellPriced := h.wellPriced
  confirmed := by
    rw [(sumConfirmed_same SettledCall.price hcall).1]
    exact h.confirmed
  inputs := by
    rw [(sumConfirmed_same _ hcall).2]
    exact h.inputs
  outputs := by
    rw [(sumConfirmed_same _ hcall).2]
    exact h.outputs
  unknown := hunknown
  prices hpriced := by
    obtain ⟨hall, hcosts⟩ := h.prices hpriced
    rw [(sumConfirmed_same _ hcall).2]
    exact ⟨allPriced_same hall hcall, hcosts⟩

lemma UsageLedgerSummary.Counts.record {ledger : UsageLedgerSummary} (h : ledger.Counts calls)
    {usage : JevUsage} (husage : call.usage = some usage)
    (hnew : call.attempt ∉ confirmedAttempts calls) (hfits : Unsaturated (calls ++ [call]))
    (unknownOutcomes : Nat)
    (hunknown : unknownOutcomes = (unknownAttempts (calls ++ [call])).card) (atEpoch : Int) :
    (({ ledger with unknownOutcomes } : UsageLedgerSummary).recordConfirmedUsage call.identity
      usage.inputTokens usage.outputTokens atEpoch).Counts (calls ++ [call]) := by
  have hsome : call.usage.isSome = true := by rw [husage]; rfl
  have hinput : call.inputTokens = usage.inputTokens := by
    unfold SettledCall.inputTokens
    rw [husage]
    rfl
  have houtput : call.outputTokens = usage.outputTokens := by
    unfold SettledCall.outputTokens
    rw [husage]
    rfl
  have hprice : call.price = call.identity.price usage.inputTokens := by
    unfold SettledCall.price
    rw [hinput]
  have hcard : (confirmedAttempts (calls ++ [call])).card = (confirmedAttempts calls).card + 1 := by
    rw [confirmedAttempts_known hsome, Finset.card_insert_of_notMem hnew]
  obtain ⟨htries, hinputs, houtputs, hprices⟩ := hfits
  rw [hcard] at htries
  rw [sumConfirmed_new _ hsome hnew, hinput] at hinputs
  rw [sumConfirmed_new _ hsome hnew, houtput] at houtputs
  rw [sumConfirmed_new _ hsome hnew, hprice] at hprices
  let settled : UsageLedgerSummary := { ledger with unknownOutcomes }
  have hroom : settled.Fits call.identity usage.inputTokens usage.outputTokens := by
    refine ⟨?_, ?_, ?_, ?_⟩
    · show ledger.calls + 1 ≤ _
      rw [h.confirmed]
      omega
    · show ledger.inputs + _ ≤ _
      rw [h.inputs]
      exact hinputs
    · show ledger.outputs + _ ≤ _
      rw [h.outputs]
      exact houtputs
    · intro hpriced
      show ledger.costs + _ ≤ _
      rw [(h.prices hpriced).2]
      exact hprices
  have hwell : settled.WellPriced := h.wellPriced
  have hgrows := grows_recordConfirmedUsage hwell hroom atEpoch
  refine ⟨hgrows.wellPriced, ?_, ?_, ?_, hgrows.unknown.trans hunknown, ?_⟩
  · rw [hgrows.calls, hcard]
    exact congrArg (· + 1) h.confirmed
  · rw [hgrows.inputs, sumConfirmed_new _ hsome hnew, hinput]
    exact congrArg (· + usage.inputTokens) h.inputs
  · rw [hgrows.outputs, sumConfirmed_new _ hsome hnew, houtput]
    exact congrArg (· + usage.outputTokens) h.outputs
  · intro hpriced
    obtain ⟨hbefore, hknown, hcosts⟩ := hgrows.costs hpriced
    obtain ⟨hall, hsum⟩ := h.prices hbefore
    refine ⟨allPriced_new hall hnew hsome hknown, ?_⟩
    rw [hcosts, sumConfirmed_new _ hsome hnew, hprice]
    exact congrArg (· + call.identity.price usage.inputTokens) hsum

lemma Unsaturated.of_append (h : Unsaturated (calls ++ [call])) : Unsaturated calls where
  attempts := by
    refine le_trans ?_ h.attempts
    rw [← sumConfirmed_one, ← sumConfirmed_one]
    by_cases hcall : call.usage = none ∨ call.attempt ∈ confirmedAttempts calls
    · rw [(sumConfirmed_same _ hcall).2]
      apply Nat.add_le_add_left
      apply Finset.card_le_card
      intro attempt hmem
      rw [mem_unknownAttempts] at hmem ⊢
      rw [(sumConfirmed_same SettledCall.price hcall).1]
      obtain ⟨⟨other, hother, rfl⟩, hnot⟩ := hmem
      exact ⟨⟨other, List.mem_append_left _ hother, rfl⟩, hnot⟩
    · rw [not_or, ← ne_eq, Option.ne_none_iff_isSome] at hcall
      rw [sumConfirmed_new _ hcall.1 hcall.2, unknownAttempts_known hcall.1]
      have herase := Finset.pred_card_le_card_erase (s := unknownAttempts calls) (a := call.attempt)
      omega
  inputs := le_trans (sumConfirmed_le _) h.inputs
  outputs := le_trans (sumConfirmed_le _) h.outputs
  prices := le_trans (sumConfirmed_le _) h.prices

/-! ### One settlement -/

lemma rowState_other {attempt : UsageAttempt} (hne : attempt ≠ call.attempt) :
    rowState (calls ++ [call]) attempt = rowState calls attempt := by
  have hconfirmed : attempt ∈ confirmedAttempts (calls ++ [call]) ↔
      attempt ∈ confirmedAttempts calls := by
    cases husage : call.usage with
    | none => rw [confirmedAttempts_unknown husage]
    | some usage =>
      rw [confirmedAttempts_known (by rw [husage]; rfl), Finset.mem_insert]
      exact ⟨fun h => h.resolve_left hne, .inr⟩
  have hunknown : attempt ∈ unknownAttempts (calls ++ [call]) ↔
      attempt ∈ unknownAttempts calls := by
    rw [mem_unknownAttempts, mem_unknownAttempts, hconfirmed, settled_append]
    constructor
    · rintro ⟨hseen | heq, hnot⟩
      · exact ⟨hseen, hnot⟩
      · exact absurd heq.symm hne
    · rintro ⟨hseen, hnot⟩
      exact ⟨.inl hseen, hnot⟩
  unfold rowState
  simp only [hconfirmed, hunknown]

lemma rowState_own (hnew : call.attempt ∉ confirmedAttempts calls) :
    rowState (calls ++ [call]) call.attempt = some call.usage.isSome := by
  unfold rowState
  cases husage : call.usage with
  | none =>
    rw [confirmedAttempts_unknown husage, if_neg hnew, unknownAttempts_unknown husage hnew,
      if_pos (Finset.mem_insert_self _ _)]
    rfl
  | some usage =>
    rw [confirmedAttempts_known (by rw [husage]; rfl), if_pos (Finset.mem_insert_self _ _)]
    rfl

lemma rowState_same (h : call.attempt ∈ confirmedAttempts calls ∨
    call.usage = none ∧ call.attempt ∈ unknownAttempts calls) :
    rowState (calls ++ [call]) call.attempt = rowState calls call.attempt := by
  have hcall : call.usage = none ∨ call.attempt ∈ confirmedAttempts calls :=
    h.symm.imp And.left id
  unfold rowState
  rw [(sumConfirmed_same SettledCall.price hcall).1, unknownAttempts_same h]

namespace UsageStore.Counts

variable {store : UsageStore} {cand : CandidateId} {attempt : DecisionAttempt}
  {settlement : UsageSettlement}

/-- **A settlement counts its attempt**, unless the attempt was counted before. -/
lemma settleRow (h : store.Counts calls) (hvalid : attempt.validate = .ok ())
    (htry : call.attempt = (cand, attempt)) (hiden : settlement.identity = call.identity)
    (husage : settlement.usage = call.usage) (hfits : Unsaturated (calls ++ [call]))
    (nowEpoch : Int) :
    (store.settleRow (attemptId cand attempt) settlement nowEpoch).Counts
      (calls ++ [call]) := by
  have hprev := h.rows cand attempt hvalid
  rw [← htry] at hprev
  unfold UsageStore.settleRow
  dsimp only
  rw [hprev, husage]
  split_ifs with hsett
  · -- the row says that nothing is to be counted
    have hsame : call.attempt ∈ confirmedAttempts calls ∨
        call.usage = none ∧ call.attempt ∈ unknownAttempts calls := by
      unfold rowState at hsett
      split_ifs at hsett with hconfirmed hunknown
      · exact .inl hconfirmed
      · rcases hsett with hfalse | ⟨-, hnone⟩
        · cases hfalse
        · exact .inr ⟨Option.isNone_iff_eq_none.mp hnone, hunknown⟩
      · rcases hsett with hfalse | ⟨hfalse, -⟩
        · cases hfalse
        · cases hfalse
    refine ⟨fun candidate' attempt' hvalid' => ?_, ?_⟩
    · rw [h.rows candidate' attempt' hvalid']
      by_cases hown : (candidate', attempt') = call.attempt
      · rw [hown, rowState_same hsame]
      · rw [rowState_other hown]
    · have hledger := h.ledger.same (hsame.symm.imp And.left id)
        (store.ledger.getD {}).unknownOutcomes (store.ledger.getD {}).lastUnknownAtEpoch
        (by rw [h.ledger.unknown, unknownAttempts_same hsame])
      exact hledger
  · rw [not_or] at hsett
    have hnew : call.attempt ∉ confirmedAttempts calls := by
      intro hmem
      apply hsett.1
      unfold rowState
      rw [if_pos hmem]
    refine ⟨fun candidate' attempt' hvalid' => ?_, ?_⟩
    · show ((store.rows.insert (attemptId cand attempt) _)[
        attemptId candidate' attempt']?).map UsageRow.usageKnown = _
      rw [Std.ExtTreeMap.lookup_insert]
      by_cases hown : (candidate', attempt') = call.attempt
      · rw [hown, rowState_own hnew]
        rw [htry] at hown
        cases hown
        rw [if_pos rfl]
        rfl
      · have hid : attemptId cand attempt ≠ attemptId candidate' attempt' := by
          intro heq
          obtain ⟨rfl, rfl⟩ := attemptId_inj hvalid hvalid' heq
          exact hown htry.symm
        rw [if_neg hid, h.rows candidate' attempt' hvalid', rowState_other hown]
    · show (settledLedger (store.ledger.getD {}) (rowState calls call.attempt) settlement
        nowEpoch).Counts _
      unfold settledLedger
      rw [husage]
      cases hcall : call.usage with
      | none =>
        have hnot : call.attempt ∉ unknownAttempts calls := by
          intro hmem
          apply hsett.2
          unfold rowState
          rw [if_neg hnew, if_pos hmem, hcall]
          exact ⟨rfl, rfl⟩
        apply h.ledger.same (.inl hcall)
        have hcard : (unknownAttempts (calls ++ [call])).card = (unknownAttempts calls).card + 1 := by
          rw [unknownAttempts_unknown hcall hnew, Finset.card_insert_of_notMem hnot]
        have hbound := hfits.attempts
        rw [hcard] at hbound ⊢
        rw [h.ledger.unknown]
        exact saturatingAdd_of_le (by omega)
      | some usage =>
        have hknown : unknownAttempts (calls ++ [call]) =
            (unknownAttempts calls).erase call.attempt :=
          unknownAttempts_known (by rw [hcall]; rfl)
        dsimp only
        rw [hiden]
        split_ifs with hseen
        · -- the attempt was unknown so far
          have hmem : call.attempt ∈ unknownAttempts calls := by
            unfold rowState at hseen
            rw [if_neg hnew] at hseen
            split_ifs at hseen with hmem
            · exact hmem
            · cases hseen
          apply h.ledger.record hcall hnew hfits
          rw [hknown, Finset.card_erase_of_mem hmem, h.ledger.unknown]
        · have hnot : call.attempt ∉ unknownAttempts calls := by
            intro hmem
            apply hseen
            unfold rowState
            rw [if_neg hnew, if_pos hmem]
            rfl
          apply h.ledger.record hcall hnew hfits
          rw [hknown, Finset.erase_eq_of_notMem hnot]
          exact h.ledger.unknown

end UsageStore.Counts

/-! ### Runs -/

lemma UsageCall.run_eq (call : UsageCall) (store : UsageStore) (nowEpoch : Int) :
    call.run store nowEpoch = (do
      validateIdentity call.checkId call.provider call.model
      store.settleBurnCheckDecisionUsage call.candidateId call.attempt call.settlement
        nowEpoch) := by
  unfold UsageCall.run settlement
  cases call.reply with
  | usage usage => rfl
  | observation observation =>
    cases observation with
    | none | some => rfl

lemma UsageCall.run_cases (call : UsageCall) (store : UsageStore) (nowEpoch : Int) :
    (∃ settled cand, call.settled = some settled ∧ call.attempt.validate = .ok () ∧
      settled.attempt = (cand, call.attempt) ∧
      call.settlement.identity = settled.identity ∧ call.settlement.usage = settled.usage ∧
      call.run store nowEpoch = .ok
        (store.settleRow (attemptId cand call.attempt) call.settlement nowEpoch)) ∨
    call.settled = none ∧ ∃ error, call.run store nowEpoch = .error error := by
  rw [run_eq]
  unfold settled UsageStore.settleBurnCheckDecisionUsage usageAttemptId
  cases hiden : validateIdentity call.checkId call.provider call.model with
  | error error => exact .inr ⟨rfl, error, rfl⟩
  | ok _ =>
    cases hvalid : call.attempt.validate with
    | error error => exact .inr ⟨rfl, error.message, rfl⟩
    | ok _ =>
      cases hcand : parseCandidateId call.candidateId with
      | error error => exact .inr ⟨rfl, error, rfl⟩
      | ok cand => exact .inl ⟨_, cand, rfl, rfl, rfl, rfl, rfl, rfl⟩

lemma UsageStore.counts_empty : ({} : UsageStore).Counts [] where
  rows cand attempt _ := by
    show ((∅ : Std.ExtTreeMap String UsageRow)[_]?).map _ = none
    rw [Std.ExtTreeMap.getElem?_empty]
    rfl
  ledger := by
    refine ⟨fun _ hmem => absurd hmem List.not_mem_nil, rfl, rfl, rfl, rfl, fun _ => ⟨?_, rfl⟩⟩
    intro attempt hmem
    exact absurd hmem (Finset.notMem_empty attempt)

lemma UsageStore.Counts.apply {store : UsageStore} {op : UsageOp} (h : store.Counts calls)
    (hfits : Unsaturated (calls ++ settledCalls [op])) :
    (store.apply op).Counts (calls ++ settledCalls [op]) := by
  obtain ⟨call, nowEpoch, rollsBack⟩ := op
  unfold UsageStore.apply
  unfold settledCalls at hfits ⊢
  rw [List.filterMap_cons, List.filterMap_nil] at hfits ⊢
  cases rollsBack with
  | true =>
    dsimp only at hfits ⊢
    rw [if_pos rfl, if_pos rfl, List.append_nil]
    exact h
  | false =>
    dsimp only at hfits ⊢
    rw [if_neg Bool.false_ne_true] at hfits
    rw [if_neg Bool.false_ne_true, if_neg Bool.false_ne_true]
    rcases call.run_cases store nowEpoch with
      ⟨settled, cand, hsett, hvalid, htry, hiden, husage, hrun⟩ |
      ⟨hnone, error, hrun⟩
    · rw [hsett] at hfits ⊢
      rw [hrun]
      exact h.settleRow hvalid htry hiden husage hfits nowEpoch
    · rw [hnone, hrun, List.append_nil]
      exact h

lemma UsageStore.counts_run {ops : List UsageOp} (hfits : Unsaturated (settledCalls ops)) :
    (ops.foldl UsageStore.apply {}).Counts (settledCalls ops) := by
  induction ops using List.reverseRecOn with
  | nil => exact UsageStore.counts_empty
  | append_singleton ops op ih =>
    have hsplit : settledCalls (ops ++ [op]) = settledCalls ops ++ settledCalls [op] := by
      unfold settledCalls
      rw [List.filterMap_append]
    rw [hsplit] at hfits ⊢
    rw [List.foldl_append, List.foldl_cons, List.foldl_nil]
    apply UsageStore.Counts.apply _ hfits
    apply ih
    -- one operation settles one attempt at most
    have hone : settledCalls [op] = [] ∨ ∃ call, settledCalls [op] = [call] := by
      unfold settledCalls
      rw [List.filterMap_cons, List.filterMap_nil]
      split
      · exact .inl rfl
      · exact .inr ⟨_, rfl⟩
    rcases hone with hnone | ⟨call, hcall⟩
    · rw [hnone, List.append_nil] at hfits
      exact hfits
    · rw [hcall] at hfits
      exact hfits.of_append

end Runs

/-! ### The summary -/

lemma BurnCheckUsageSummary.foldl_add {aggregates : List ModelUsageAggregate}
    {summary : BurnCheckUsageSummary} {cost : Nat}
    (hcalls : summary.confirmedCalls +
      (aggregates.map ModelUsageAggregate.confirmedCalls).sum ≤ U64_MAX)
    (hinputs : summary.inputTokens + (aggregates.map ModelUsageAggregate.inputTokens).sum ≤ U64_MAX)
    (houtputs : summary.outputTokens +
      (aggregates.map ModelUsageAggregate.outputTokens).sum ≤ U64_MAX) :
    let total := aggregates.foldl BurnCheckUsageSummary.add (summary, cost)
    total.1.confirmedCalls =
        summary.confirmedCalls + (aggregates.map ModelUsageAggregate.confirmedCalls).sum ∧
      total.1.inputTokens =
        summary.inputTokens + (aggregates.map ModelUsageAggregate.inputTokens).sum ∧
      total.1.outputTokens =
        summary.outputTokens + (aggregates.map ModelUsageAggregate.outputTokens).sum ∧
      total.1.unknownOutcomes = summary.unknownOutcomes ∧
      total.1.estimatedUsd = summary.estimatedUsd ∧
      (cost + (aggregates.map fun a => a.estimatedCostNanos.getD 0).sum ≤ U64_MAX →
        total.2 = cost + (aggregates.map fun a => a.estimatedCostNanos.getD 0).sum) := by
  induction aggregates generalizing summary cost with
  | nil => exact ⟨rfl, rfl, rfl, rfl, rfl, fun _ => rfl⟩
  | cons aggregate rest ih =>
    simp only [List.map_cons, List.sum_cons] at hcalls hinputs houtputs ⊢
    have haddCalls : saturatingAdd summary.confirmedCalls aggregate.confirmedCalls =
        summary.confirmedCalls + aggregate.confirmedCalls := saturatingAdd_of_le (by omega)
    have haddInputs : saturatingAdd summary.inputTokens aggregate.inputTokens =
        summary.inputTokens + aggregate.inputTokens := saturatingAdd_of_le (by omega)
    have haddOutputs : saturatingAdd summary.outputTokens aggregate.outputTokens =
        summary.outputTokens + aggregate.outputTokens := saturatingAdd_of_le (by omega)
    let next := BurnCheckUsageSummary.add (summary, cost) aggregate
    have hnextCalls : next.1.confirmedCalls = summary.confirmedCalls + aggregate.confirmedCalls :=
      haddCalls
    have hnextInputs : next.1.inputTokens = summary.inputTokens + aggregate.inputTokens :=
      haddInputs
    have hnextOutputs : next.1.outputTokens = summary.outputTokens + aggregate.outputTokens :=
      haddOutputs
    obtain ⟨hcalls', hinputs', houtputs', hunknown, hestimate, hcost⟩ :=
      @ih next.1 next.2 (by omega) (by omega) (by omega)
    rw [List.foldl_cons]
    refine ⟨?_, ?_, ?_, hunknown, hestimate, fun hfits => ?_⟩
    · rw [← Nat.add_assoc, ← hnextCalls]
      exact hcalls'
    · rw [← Nat.add_assoc, ← hnextInputs]
      exact hinputs'
    · rw [← Nat.add_assoc, ← hnextOutputs]
      exact houtputs'
    · have hnextCost : next.2 = cost + aggregate.estimatedCostNanos.getD 0 := by
        show (BurnCheckUsageSummary.add (summary, cost) aggregate).2 = _
        unfold BurnCheckUsageSummary.add
        cases hnanos : aggregate.estimatedCostNanos with
        | none => rfl
        | some nanos =>
          rw [hnanos] at hfits
          exact saturatingAdd_of_le (by simp only [Option.getD_some] at hfits; omega)
      rw [← Nat.add_assoc, ← hnextCost]
      apply hcost
      omega

/-- **Incurred usage is counted once for each attempt.**  Behind any calls, calls and
tokens are counted at the first known usage of each attempt, the other attempts are
unknown, and an estimate that is shown is the exact sum of the prices. -/
theorem usage_counted_once (ops : List UsageOp) (hfits : Unsaturated (settledCalls ops)) :
    let summary := (ops.foldl UsageStore.apply {}).burnCheckUsageSummary
    let calls := settledCalls ops
    summary.confirmedCalls = (confirmedAttempts calls).card ∧
      summary.inputTokens = sumConfirmed calls SettledCall.inputTokens ∧
      summary.outputTokens = sumConfirmed calls SettledCall.outputTokens ∧
      summary.unknownOutcomes = (unknownAttempts calls).card ∧
      ∀ shown, summary.estimatedUsd = some shown → AllPriced calls ∧
        shown = formatUsdNanos (sumConfirmed calls SettledCall.price) := by
  obtain ⟨-, hcounts⟩ := UsageStore.counts_run hfits
  obtain ⟨-, hconfirmed, hinputs, houtputs, hunknown, hprices⟩ := hcounts
  unfold UsageStore.burnCheckUsageSummary
  cases hledger : (ops.foldl UsageStore.apply {}).ledger with
  | none =>
    rw [hledger] at hconfirmed hinputs houtputs hunknown
    refine ⟨?_, ?_, ?_, ?_, fun _ hshown => by cases hshown⟩
    · rw [← hconfirmed]
      rfl
    · rw [← hinputs]
      rfl
    · rw [← houtputs]
      rfl
    · rw [← hunknown]
      rfl
  | some ledger =>
    rw [hledger, Option.getD_some] at hconfirmed hinputs houtputs hunknown hprices
    have hroom := hfits.attempts
    have hroomInputs := hfits.inputs
    have hroomOutputs := hfits.outputs
    rw [← hinputs] at hroomInputs
    rw [← houtputs] at hroomOutputs
    let start : BurnCheckUsageSummary :=
      { inputTokens := ledger.overflowInputTokens
        outputTokens := ledger.overflowOutputTokens
        confirmedCalls := ledger.overflowConfirmedCalls
        cacheHits := ledger.cacheHits
        unknownOutcomes := ledger.unknownOutcomes
        lastUsedAtEpoch := ledger.lastUnknownAtEpoch }
    obtain ⟨hcalls', hinputs', houtputs', hunknown', hestimate, hcost⟩ :=
      @BurnCheckUsageSummary.foldl_add ledger.aggregates start 0
        (by show ledger.calls ≤ _; omega) hroomInputs hroomOutputs
    dsimp only
    cases hunpriced : ledger.unpricedUsage with
    | true =>
      rw [if_pos rfl]
      refine ⟨hcalls'.trans hconfirmed, hinputs'.trans hinputs, houtputs'.trans houtputs,
        hunknown'.trans hunknown, fun shown hshown => ?_⟩
      cases hestimate.symm.trans hshown
    | false =>
      rw [if_neg Bool.false_ne_true]
      refine ⟨hcalls'.trans hconfirmed, hinputs'.trans hinputs, houtputs'.trans houtputs,
        hunknown'.trans hunknown, fun shown hshown => ?_⟩
      obtain ⟨hall, hcosts⟩ := hprices hunpriced
      have hroomPrices := hfits.prices
      rw [← hcosts] at hroomPrices
      cases hshown
      refine ⟨hall, congrArg formatUsdNanos ?_⟩
      rw [← hcosts]
      exact (hcost (by rw [Nat.zero_add]; exact hroomPrices)).trans (Nat.zero_add _)

def reviewCall (reply : UsageReply) : UsageCall where
  candidateId := "0123456789abcdef0123456789abcdef0123456789abcdef0123456789abcdef"
  attempt := ⟨"review", 1⟩
  checkId := "custom-check"
  provider := "typesafe-systemone"
  model := "jev-latest"
  reply

/-- An outcome that is unknown at first and then known, twice. -/
def lateOps : List UsageOp :=
  [⟨reviewCall (.observation none), 100, false⟩,
    ⟨reviewCall (.observation (some ⟨⟨1000000, 12⟩, some "jev-1.14.0"⟩)), 101, false⟩,
    ⟨reviewCall (.usage (some ⟨5, 5⟩)), 102, false⟩]

/-- A late response is counted once, at its own price. -/
theorem usage_counted_once_late :
    let summary := (lateOps.foldl UsageStore.apply {}).burnCheckUsageSummary
    summary.confirmedCalls = 1 ∧ summary.inputTokens = 1000000 ∧ summary.unknownOutcomes = 0 ∧
      ∀ shown, summary.estimatedUsd = some shown → shown = "$0.042" := by
  -- the totals of the settled calls, computed once
  have htotals : (confirmedAttempts (settledCalls lateOps)).card = 1 ∧
      (unknownAttempts (settledCalls lateOps)).card = 0 ∧
      sumConfirmed (settledCalls lateOps) SettledCall.inputTokens = 1000000 ∧
      sumConfirmed (settledCalls lateOps) SettledCall.outputTokens = 12 ∧
      sumConfirmed (settledCalls lateOps) SettledCall.price = 42000000 := by
    decide
  obtain ⟨hone, hnone, hinput, houtput, hprice⟩ := htotals
  have hfits : Unsaturated (settledCalls lateOps) :=
    ⟨by rw [hone, hnone]; decide, by rw [hinput]; decide, by rw [houtput]; decide,
      by rw [hprice]; decide⟩
  obtain ⟨hconfirmed, hinputs, -, hunknown, hshown⟩ := usage_counted_once lateOps hfits
  refine ⟨hconfirmed.trans hone, hinputs.trans hinput, hunknown.trans hnone, fun shown h => ?_⟩
  rw [(hshown shown h).2, hprice]
  decide

end Antiburn
