/-
Incurred usage of model decisions.

Each attempt has one usage row, and a ledger adds what was confirmed up by model
identity.  The ledger keeps few identities; the usage of any other goes to one
overflow bucket without a price.  A settlement is one transaction over the row of
its attempt and the ledger.
-/
import Antiburn.Progress
import Antiburn.Scheduler

namespace Antiburn

/-! ### Identities of attempts -/

def isHexDigit (c : Char) : Bool := c.isDigit || ('a' ≤ c && c ≤ 'f')

def hexValue (c : Char) : Nat :=
  if c.isDigit then c.toNat - '0'.toNat else c.toNat - 'a'.toNat + 10

/-- `parse_candidate_id`. -/
def parseCandidateId (value : String) : Except String CandidateId :=
  if value.utf8ByteSize = 64 ∧ value.toList.all isHexDigit = true then
    .ok (Vector.ofFn fun index : Fin 32 =>
      UInt8.ofNat (16 * hexValue (value.toList.getD (2 * index) '0') +
        hexValue (value.toList.getD (2 * index + 1) '0')))
  else .error "invalid candidate identity"

/-- Two hexadecimal digits. -/
def hexByte (byte : UInt8) : List Char :=
  [Nat.digitChar (byte.toNat / 16), Nat.digitChar (byte.toNat % 16)]

/-- `attempt_id`. -/
def attemptId (candidate : CandidateId) (attempt : DecisionAttempt) : String :=
  "burn-check-decision-v1:32:" ++ String.ofList (candidate.toList.flatMap hexByte) ++ ":" ++
    toString attempt.decision.utf8ByteSize ++ ":" ++ attempt.decision ++ ":1:" ++
    toString attempt.number

/-- `usage_attempt_id`. -/
def usageAttemptId (candidateId : String) (attempt : DecisionAttempt) : Except String String := do
  (attempt.validate).mapError (·.message)
  let fingerprint ← parseCandidateId candidateId
  return attemptId fingerprint attempt

/-! ### Identities of models -/

def MAX_USAGE_AGGREGATES : Nat := 8
def MAX_USAGE_CHECK_ID_BYTES : Nat := 256
def INPUT_NANODOLLARS_PER_TOKEN : Nat := 42
def PINNED_PRICE_VERSION : String := "typesafe-model-catalog-2026-09-25"
def JEV_1_14_PRICE_VERSION : String := "typesafe-model-catalog-2026-10-26"
def NATIVE_MODEL_ALIAS : String := "jev-latest"

structure JevUsage where
  inputTokens : Nat
  outputTokens : Nat
  deriving DecidableEq

structure JevResponseObservation where
  usage : JevUsage
  servedModel : Option String
  deriving DecidableEq

structure UsageIdentity where
  provider : String
  checkId : String
  model : String
  deriving DecidableEq

def validModelIdentifier (model : String) : Bool :=
  !model.isEmpty && model.utf8ByteSize ≤ 128 &&
    model.toList.all fun c => c.isAlphanum || "._:/-".toList.contains c

/-- `validate_identity`. -/
def validateIdentity (checkId provider model : String) : Except String Unit :=
  if !checkId.isEmpty &&
      ["typesafe-systemone", "ollama-systemone", "cloudflare-systemone",
        "custom-systemone"].contains provider && validModelIdentifier model then .ok ()
  else .error "invalid installed-check usage identity"

def UsageIdentity.priceVersion (identity : UsageIdentity) : Option String :=
  if identity.provider = "typesafe-systemone" then
    if identity.model = "jev-1.13.0" then some PINNED_PRICE_VERSION
    else if identity.model = "jev-1.14.0" then some JEV_1_14_PRICE_VERSION
    else none
  else none

/-- The cost of a call in nanodollars, if it is known.  Output is free. -/
def UsageIdentity.cost (identity : UsageIdentity) (inputTokens : Nat) : Option Nat :=
  if identity.provider = "ollama-systemone" then some 0
  else identity.priceVersion.map fun _ =>
    saturatingMul inputTokens INPUT_NANODOLLARS_PER_TOKEN

/-! ### The ledger -/

structure ModelUsageAggregate where
  provider : String
  checkId : String
  model : String
  priceVersion : Option String
  inputTokens : Nat := 0
  outputTokens : Nat := 0
  confirmedCalls : Nat := 0
  cacheHits : Nat := 0
  estimatedCostNanos : Option Nat
  lastUsedAtEpoch : Int

structure UsageLedgerSummary where
  aggregates : List ModelUsageAggregate := []
  unknownOutcomes : Nat := 0
  cacheHits : Nat := 0
  lastUnknownAtEpoch : Option Int := none
  unpricedUsage : Bool := false
  overflowInputTokens : Nat := 0
  overflowOutputTokens : Nat := 0
  overflowConfirmedCalls : Nat := 0

def ModelUsageAggregate.holds (aggregate : ModelUsageAggregate) (identity : UsageIdentity) : Bool :=
  aggregate.provider == identity.provider && aggregate.checkId == identity.checkId &&
    aggregate.model == identity.model && aggregate.priceVersion == identity.priceVersion

def UsageIdentity.aggregate (identity : UsageIdentity) (inputTokens : Nat) (atEpoch : Int) :
    ModelUsageAggregate where
  provider := identity.provider
  checkId := identity.checkId
  model := identity.model
  priceVersion := identity.priceVersion
  estimatedCostNanos := (identity.cost inputTokens).map fun _ => 0
  lastUsedAtEpoch := atEpoch

/-- One more call, and whether it has a price. -/
def ModelUsageAggregate.add (aggregate : ModelUsageAggregate) (cost : Option Nat)
    (inputTokens outputTokens : Nat) (atEpoch : Int) : ModelUsageAggregate × Bool :=
  let aggregate := { aggregate with
    inputTokens := saturatingAdd aggregate.inputTokens inputTokens
    outputTokens := saturatingAdd aggregate.outputTokens outputTokens
    confirmedCalls := saturatingAdd aggregate.confirmedCalls 1
    lastUsedAtEpoch := atEpoch }
  match aggregate.estimatedCostNanos, cost with
  | some total, some cost =>
    ({ aggregate with estimatedCostNanos := some (saturatingAdd total cost) }, true)
  | _, _ => (aggregate, false)

namespace UsageLedgerSummary

def addAt (summary : UsageLedgerSummary) (index : Nat) (aggregate : ModelUsageAggregate)
    (cost : Option Nat) (inputTokens outputTokens : Nat) (atEpoch : Int) : UsageLedgerSummary :=
  let added := aggregate.add cost inputTokens outputTokens atEpoch
  { summary with
    aggregates := summary.aggregates.set index added.1
    unpricedUsage := summary.unpricedUsage || !added.2 }

def addOverflow (summary : UsageLedgerSummary) (inputTokens outputTokens : Nat) :
    UsageLedgerSummary :=
  { summary with
    overflowInputTokens := saturatingAdd summary.overflowInputTokens inputTokens
    overflowOutputTokens := saturatingAdd summary.overflowOutputTokens outputTokens
    overflowConfirmedCalls := saturatingAdd summary.overflowConfirmedCalls 1
    unpricedUsage := true }

/-- `record_confirmed_usage`. -/
def recordConfirmedUsage (summary : UsageLedgerSummary) (identity : UsageIdentity)
    (inputTokens outputTokens : Nat) (atEpoch : Int) : UsageLedgerSummary :=
  let cost := identity.cost inputTokens
  match summary.aggregates.findIdx? (·.holds identity) with
  | some index =>
    summary.addAt index
      (summary.aggregates.getD index (identity.aggregate inputTokens atEpoch))
      cost inputTokens outputTokens atEpoch
  | none =>
    if MAX_USAGE_AGGREGATES ≤ summary.aggregates.length ∨
        MAX_USAGE_CHECK_ID_BYTES < identity.checkId.utf8ByteSize then
      summary.addOverflow inputTokens outputTokens
    else
      let aggregate := identity.aggregate inputTokens atEpoch
      { summary with aggregates := summary.aggregates ++ [aggregate] }.addAt
        summary.aggregates.length aggregate cost inputTokens outputTokens atEpoch

end UsageLedgerSummary

/-! ### Settlements -/

/-- A row of `burn_check_decision_usage`. -/
structure UsageRow where
  usageKnown : Bool
  servedModel : Option String

structure UsageStore where
  rows : Std.ExtTreeMap String UsageRow := ∅
  ledger : Option UsageLedgerSummary := none

structure UsageSettlement where
  identity : UsageIdentity
  usage : Option JevUsage
  servedModel : Option String

namespace UsageStore

variable (store : UsageStore)

def settledLedger (ledger : UsageLedgerSummary) (previous : Option Bool)
    (settlement : UsageSettlement) (nowEpoch : Int) : UsageLedgerSummary :=
  match settlement.usage with
  | some usage =>
    let ledger := if previous.isSome then
        { ledger with unknownOutcomes := ledger.unknownOutcomes - 1 }
      else ledger
    ledger.recordConfirmedUsage settlement.identity usage.inputTokens usage.outputTokens nowEpoch
  | none =>
    { ledger with
      unknownOutcomes := saturatingAdd ledger.unknownOutcomes 1
      lastUnknownAtEpoch := some nowEpoch }

def settleRow (attemptId : String) (settlement : UsageSettlement) (nowEpoch : Int) : UsageStore :=
  let previous := (store.rows[attemptId]?).map UsageRow.usageKnown
  if previous = some true ∨ (previous.isSome = true ∧ settlement.usage.isNone = true) then store
  else
    { rows := store.rows.insert attemptId ⟨settlement.usage.isSome, settlement.servedModel⟩
      ledger := some (settledLedger (store.ledger.getD {}) previous settlement nowEpoch) }

/-- `settle_burn_check_decision_usage`. -/
def settleBurnCheckDecisionUsage (candidateId : String) (attempt : DecisionAttempt)
    (settlement : UsageSettlement) (nowEpoch : Int) : Except String UsageStore := do
  let attemptId ← usageAttemptId candidateId attempt
  return store.settleRow attemptId settlement nowEpoch

/-- `record_burn_check_decision_usage`. -/
def recordBurnCheckDecisionUsage (candidateId : String) (attempt : DecisionAttempt)
    (checkId : String) (provider model : String) (usage : Option JevUsage) (nowEpoch : Int) :
    Except String UsageStore := do
  validateIdentity checkId provider model
  store.settleBurnCheckDecisionUsage candidateId attempt ⟨⟨provider, checkId, model⟩, usage, none⟩
    nowEpoch

end UsageStore

def JevResponseObservation.served (observation : JevResponseObservation) (provider : String) :
    Option String :=
  observation.servedModel.filter fun model =>
    validModelIdentifier model && (provider != "typesafe-systemone" || model != NATIVE_MODEL_ALIAS)

def JevResponseObservation.settlement (observation : JevResponseObservation)
    (checkId provider requestModel : String) : UsageSettlement :=
  let servedModel := observation.served provider
  let model := servedModel.getD
    (if provider = "typesafe-systemone" then "unknown" else requestModel)
  ⟨⟨provider, checkId, model⟩, some observation.usage, servedModel⟩

namespace UsageStore

variable (store : UsageStore)

/-- `record_burn_check_decision_observation`. -/
def recordBurnCheckDecisionObservation (candidateId : String) (attempt : DecisionAttempt)
    (checkId : String) (provider requestModel : String)
    (observation : Option JevResponseObservation) (nowEpoch : Int) : Except String UsageStore :=
  match observation with
  | none =>
    store.recordBurnCheckDecisionUsage candidateId attempt checkId provider requestModel none
      nowEpoch
  | some observation => do
    validateIdentity checkId provider requestModel
    store.settleBurnCheckDecisionUsage candidateId attempt
      (observation.settlement checkId provider requestModel) nowEpoch

end UsageStore

/-! ### Summary -/

/-- A decimal fraction without its last zeros, down to two digits; the digits are
in reverse. -/
def popZeros : List Char → List Char
  | '0' :: a :: b :: rest => popZeros (a :: b :: rest)
  | digits => digits

/-- `format_usd_nanos`. -/
def formatUsdNanos (nanos : Nat) : String :=
  let digits := (Nat.toDigits 10 (nanos % 1000000000))
  let fraction := List.replicate (9 - digits.length) '0' ++ digits
  "$" ++ toString (nanos / 1000000000) ++ "." ++ String.ofList (popZeros fraction.reverse).reverse

structure BurnCheckUsageSummary where
  inputTokens : Nat := 0
  outputTokens : Nat := 0
  confirmedCalls : Nat := 0
  cacheHits : Nat := 0
  unknownOutcomes : Nat := 0
  estimatedUsd : Option String := none
  lastUsedAtEpoch : Option Int := none

def BurnCheckUsageSummary.add (total : BurnCheckUsageSummary × Nat)
    (aggregate : ModelUsageAggregate) : BurnCheckUsageSummary × Nat :=
  let (summary, cost) := total
  ({ summary with
      lastUsedAtEpoch :=
        some (max (summary.lastUsedAtEpoch.getD I64_MIN) aggregate.lastUsedAtEpoch)
      inputTokens := saturatingAdd summary.inputTokens aggregate.inputTokens
      outputTokens := saturatingAdd summary.outputTokens aggregate.outputTokens
      confirmedCalls := saturatingAdd summary.confirmedCalls aggregate.confirmedCalls
      cacheHits := max summary.cacheHits aggregate.cacheHits },
    match aggregate.estimatedCostNanos with
    | some nanos => saturatingAdd cost nanos
    | none => cost)

/-- `burn_check_usage_summary`. -/
def UsageStore.burnCheckUsageSummary (store : UsageStore) : BurnCheckUsageSummary :=
  match store.ledger with
  | none => {}
  | some ledger =>
    let start : BurnCheckUsageSummary :=
      { inputTokens := ledger.overflowInputTokens
        outputTokens := ledger.overflowOutputTokens
        confirmedCalls := ledger.overflowConfirmedCalls
        cacheHits := ledger.cacheHits
        unknownOutcomes := ledger.unknownOutcomes
        lastUsedAtEpoch := ledger.lastUnknownAtEpoch }
    let (summary, totalCostNanos) := ledger.aggregates.foldl BurnCheckUsageSummary.add (start, 0)
    if ledger.unpricedUsage then summary
    else { summary with estimatedUsd := some (formatUsdNanos totalCostNanos) }

example : formatUsdNanos 42000000 = "$0.042" := by decide

end Antiburn
