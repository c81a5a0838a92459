/-
What the holder of a claim does to its candidate.

Each definition is one transaction of the store: it returns its outcome and the
tables it commits, or an error that commits nothing.  A write names the owner and
fence of the claim it was made under.  Whether the evidence that a candidate froze
still holds is decided by tables that are not modelled here, and is asked for.
-/
import Antiburn.CandidateRows

namespace Antiburn

variable [Platform]

/-! ### Holders and claims -/

structure RegisteredActivation extends EffectiveActivation where
  revision : Vector UInt8 32
  /-- `compiled.question_requirements()`. -/
  requirements : List QuestionRequirements
  definitionScope : String
  sourcePaths : List String
  projectRoot : Option String

/-- One `StoreCheckStore`: who claims, for which scope, and what it has registered. -/
structure StoreCheckStore where
  owner : String
  scope : ActivationScope
  activations : ActivationId → Option RegisteredActivation

/-- What the evidence tables say at the time of a transaction. -/
structure EvidenceView where
  /-- `new_candidate_request_origin_current_in`. -/
  requestOriginCurrent : CandidateId → Bool
  /-- `typed_dependencies_current_in`. -/
  typedDependenciesCurrent : CandidateId → Bool
  /-- Every dependency row matches the saved observation it names. -/
  observationsCurrent : CandidateId → Bool
  /-- `validate_for_declarations` of a prepared request. -/
  preparedValid : List DecisionBlock → Json → Bool
  /-- Whether a preparation fits the limits of its column. -/
  preparationFits : PreparationRecord → Bool

/-- `BurnCheckCandidateClaim`. -/
structure BurnCheckCandidateClaim where
  candidateId : CandidateId
  owner : String
  fence : Nat
  deriving DecidableEq

inductive ClaimOutcome where
  /-- The operation committed for the current claim. -/
  | current
  /-- The claim lost publication rights. -/
  | stale
  deriving DecidableEq

inductive CandidateClaim where
  | claimed (claimed : ClaimedCandidate)
  | notDue (retryAtUnixMs : Nat)
  | stale

/-- `anyhow::ensure!`. -/
def ensure (condition : Bool) (message : String) : Except StoreError Unit :=
  if condition then .ok () else .error ⟨message⟩

/-- A number that fits a column. -/
def integer (value : Nat) : Except StoreError Nat :=
  if value < 2 ^ 63 then .ok value
  else .error ⟨"out of range integral type conversion attempted"⟩

omit [Platform] in
lemma ensure_ok {cond : Bool} {msg : String} {value : Unit}
    (h : ensure cond msg = .ok value) : cond = true := by
  unfold ensure at h
  split_ifs at h with hcond
  exact hcond

omit [Platform] in
lemma integer_ok {value value' : Nat} (h : integer value = .ok value') : value' = value := by
  unfold integer at h
  split_ifs at h
  cases h
  rfl

def CandidateRow.heldBy (row : CandidateRow) (claim : BurnCheckCandidateClaim) : Bool :=
  row.candidateId == claim.candidateId && row.claimOwner == some claim.owner &&
    row.claimFence == claim.fence

namespace StoreCheckStore

def claimRecord (store : StoreCheckStore) (claimed : ClaimedCandidate) :
    Except StoreError BurnCheckCandidateClaim := do
  ensure (claimed.candidate.activation.scope == store.scope &&
    claimed.id == claimed.candidate.fingerprint) "claim belongs to another candidate or scope"
  let fence ← integer claimed.fence
  return ⟨claimed.id, store.owner, fence⟩

/-- A replaced activation can still have an incurred model attempt to settle. -/
def requireModelClaim (store : StoreCheckStore) (claimed : ClaimedCandidate) :
    Except StoreError Unit :=
  ensure ((store.activations claimed.candidate.activation).all fun activation =>
    !activation.compiled.isLocal)
    "local work cannot use provider preparation, attempts, or answers"

end StoreCheckStore

/-! ### Results and progress -/

namespace EvaluatedAssessment

/-- `EvaluatedAssessment::local`. -/
def localWork : EvaluatedAssessment := ⟨RESULT_VERSION, [], 0⟩

def same (a b : EvaluatedAssessment) : Bool :=
  a.version == b.version &&
    (resultDocument a.decisions a.attempts).same (resultDocument b.decisions b.attempts)

end EvaluatedAssessment

def SavedDecisionAttempt.retainedBytes (saved : SavedDecisionAttempt) : Nat :=
  saved.attempt.decision.utf8ByteSize +
    (saved.outcome.answer?.elim 0 fun result => result.json.render.utf8ByteSize) + 64

/-- `read_decision_rows`. -/
def readDecisionRows (activation : RegisteredActivation) (rows : List SavedDecisionAttempt) :
    Except StoreError (List SavedDecisionAttempt) := do
  let declarations := activation.compiled.decisions
  ensure (rows.length ≤ declarations.length * 2) "decision progress has too many rows"
  ensure ((rows.map SavedDecisionAttempt.retainedBytes).sum ≤ RESULT_LIMITS.maxBytes)
    "decision progress exceeds its retained byte limit"
  rows.forM fun saved => do
    discard ((DecisionAttempt.new saved.attempt.decision saved.attempt.number).mapError
      fun error => ⟨error.message⟩)
    match declarations.find? fun block => block.name == saved.attempt.decision with
    | none => throw ⟨"saved attempt names an unknown decision"⟩
    | some declaration =>
      if let .answer result := saved.outcome then
        (result.validateForDeclaration declaration activation.requirements).mapError
          fun error => ⟨error.message⟩
  discard ((measureJson (resultDocument (savedAnswers rows) rows.length) RESULT_LIMITS).mapError
    fun _ => invalidProgress)
  discard (validateDecisionProgress declarations activation.requirements rows)
  return rows

/-! ### Current claims -/

/-- The candidate lost its publication rights but keeps its claim. -/
def CandidateState.revoked (state : CandidateState) : Bool :=
  state == .stale || state == .cancelled

namespace CandidateRow

/-- The history entry of a candidate that lost its publication rights. -/
def recordRevoked (row : CandidateRow) : CandidateRow :=
  match row.state with
  | .stale => row.recordHistory (row.historyAt .stale)
  | .cancelled => row.recordHistory (row.historyAt .cancelled)
  | _ => row

/-- As `recordRevoked`, but an entry that is there takes the answer of the row. -/
def recordRevokedAnswer (row : CandidateRow) : CandidateRow :=
  if row.state.revoked then
    if row.history.isEmpty then row.recordRevoked
    else { row with history := row.history.map fun entry => { entry with answer := row.answer } }
  else row

end CandidateRow

namespace CheckTables

/-- `claim_is_current_in`. -/
def claimIsCurrent (tables : CheckTables) (store : StoreCheckStore) (evidence : EvidenceView)
    (claim : BurnCheckCandidateClaim) (activation : RegisteredActivation) : Bool :=
  (tables.candidates.any fun row =>
    row.heldBy claim && row.key.checkId == activation.id.definitionId &&
      row.key.activationScope == store.scope && row.key.generation == activation.id.generation &&
      (row.frozenInput.any fun frozen => frozen.branch == row.key.branch) && row.state.busy &&
      ((tables.activation? row.key.checkId row.key.activationScope).any fun saved =>
        saved.generation == row.key.generation && saved.enabled &&
          saved.definitionRevision == activation.revision) &&
      !((tables.watermark row.key).any fun position => row.triggerPosition ≤ position)) &&
    evidence.requestOriginCurrent claim.candidateId &&
    evidence.typedDependenciesCurrent claim.candidateId &&
    evidence.observationsCurrent claim.candidateId

end CheckTables

/-! ### Claims -/

/-- The attempt lets its candidate go on: answered, or safe to send again. -/
def SavedDecisionAttempt.resumable (saved : SavedDecisionAttempt) : Bool :=
  match saved.outcome with
  | .answer _ => true
  | .safeTransient => saved.attempt.number != 2
  | _ => false

def CheckTables.superseded (tables : CheckTables) (row : CandidateRow) : Bool :=
  tables.candidates.any fun newer =>
    newer.key == row.key && row.triggerPosition < newer.triggerPosition &&
      !(newer.state.revoked || newer.state == .coalesced)

namespace StoreCheckStore

def releases (claim : BurnCheckCandidateClaim) (row : CandidateRow) : Bool :=
  row.heldBy claim && row.state == .claimed && row.attempts.all SavedDecisionAttempt.resumable

def released (tables : CheckTables) (coalesces : Bool) (nextFence : Nat) (row : CandidateRow) :
    CandidateRow :=
  { row with
    state := if coalesces && row.attempts.isEmpty && tables.superseded row then .coalesced
      else .pending
    claimOwner := none
    claimFence := nextFence }

def releaseUnattemptedClaim (store : StoreCheckStore) (claimed : ClaimedCandidate)
    (tables : CheckTables) : Except StoreError (ClaimOutcome × CheckTables) := do
  let claim ← store.claimRecord claimed
  let coalesces := (store.activations claimed.candidate.activation).any fun activation =>
    activation.compiled.trigger.window.isSome
  ensure (claimed.fence + 1 ≤ U64_MAX) "claim fence is exhausted"
  let nextFence ← integer (claimed.fence + 1)
  let after := tables.update (releases claim) (released tables coalesces nextFence)
  let pending := after.candidates.any fun row =>
    row.candidateId == claim.candidateId && row.state == .pending
  if !tables.candidates.any (releases claim) then return (.stale, tables)
  return (if pending then .current else .stale, after)

def validatePrepared (evidence : EvidenceView) (activation : RegisteredActivation) :
    PreparationRecord → Except StoreError Unit
  | .ready prepared => ensure (evidence.preparedValid activation.compiled.decisions prepared)
      "the prepared decisions do not match their declarations"
  | _ => .ok ()

def savePreparation (store : StoreCheckStore) (evidence : EvidenceView)
    (claimed : ClaimedCandidate) (preparation : PreparationRecord) (tables : CheckTables) :
    Except StoreError (ClaimOutcome × CheckTables) := do
  ensure (!preparation.isLocal) "local preparation must be saved with its answer and cooldown"
  store.requireModelClaim claimed
  match store.activations claimed.candidate.activation with
  | none => throw ⟨"model preparation requires its registered activation"⟩
  | some activation =>
    validatePrepared evidence activation preparation
    let claim ← store.claimRecord claimed
    ensure (evidence.preparationFits preparation) "the preparation exceeds its limits"
    match tables.candidates.find? fun row => row.heldBy claim && row.state == .claimed with
    | none => return (.stale, tables)
    | some row =>
      match row.preparation with
      | some previous =>
        ensure (previous.same preparation) "decision preparation is immutable"
        return (.current, tables)
      | none =>
        ensure row.attempts.isEmpty "cannot prepare a retry without its original request"
        return (.current, tables.update (·.heldBy claim) fun row =>
          { row with preparation := some preparation })

def claimable (store : StoreCheckStore) (id : CandidateId) (tables : CheckTables) :
    Option CandidateRow :=
  tables.candidates.find? fun row =>
    row.candidateId == id && row.key.activationScope == store.scope && tables.generationActive row

def pendingRow (id : CandidateId) (row : CandidateRow) : Bool :=
  row.candidateId == id && row.state == .pending

def claimKey (store : StoreCheckStore) (candidate : FrozenCandidate) : BranchKey :=
  ⟨candidate.activation.definitionId, store.scope, candidate.activation.generation,
    candidate.branch⟩

def claim (store : StoreCheckStore) (evidence : EvidenceView) (candidate : FrozenCandidate)
    (nowMs : Nat) (bypass : Bool) (tables : CheckTables) :
    Except StoreError (CandidateClaim × CheckTables) := do
  ensure (candidate.activation.scope == store.scope) "candidate belongs to another scope"
  let id := candidate.fingerprint
  match store.activations candidate.activation, store.claimable id tables with
  | none, _ | some _, none => return (.stale, tables)
  | some activation, some row =>
    if row.state != .pending then return (.stale, tables)
    if !evidence.requestOriginCurrent id || !evidence.typedDependenciesCurrent id then
      return (.stale, tables.update (pendingRow id) fun row => { row with state := .stale })
    ensure (row.frozenInput.any (·.same candidate)) "claim does not match frozen candidate"
    let key := store.claimKey candidate
    let busy := tables.candidates.any fun other => other.key == key && other.state.busy
    let untilEpoch := tables.cooldownUntil key
    let resumed := !row.attempts.isEmpty
    let ownCooldown := resumed && row.startedCooldownUntilEpoch.any fun own =>
      untilEpoch.any fun untilEpoch => untilEpoch ≤ own
    let cooling := untilEpoch.any fun untilEpoch => nowMs < saturatingMul untilEpoch 1000
    if busy || (!bypass && !ownCooldown && cooling) then
      return (.notDue (untilEpoch.elim (saturatingAdd nowMs 1000) fun untilEpoch =>
        max (saturatingMul untilEpoch 1000) (saturatingAdd nowMs 1)), tables)
    ensure (!activation.compiled.isLocal || !resumed) "local work cannot retain provider attempts"
    let prior := if resumed then row.priorStatus else tables.statusOf key
    ensure (row.claimFence + 1 ≤ U64_MAX) "claim fence is exhausted"
    let fence ← integer (row.claimFence + 1)
    return (.claimed ⟨id, candidate, prior, fence⟩, tables.update (pendingRow id) fun row =>
      { row with
        state := .claimed
        claimOwner := some store.owner
        claimFence := fence
        priorStatus := prior })

/-! ### Attempts -/

def cooldownEnd (nowMs cooldownNanos : Nat) : Nat :=
  saturatingAdd (saturatingAdd nowMs (cooldownNanos / 1000000)) 999 / 1000

def intentOf (attempt : DecisionAttempt) (saved : SavedDecisionAttempt) : Bool :=
  saved.attempt == attempt && (match saved.outcome with | .dispatchIntent => true | _ => false)

def settleIntent (attempt : DecisionAttempt) (outcome : DecisionAttemptOutcome) :
    List SavedDecisionAttempt → List SavedDecisionAttempt :=
  Table.update (intentOf attempt) fun saved => { saved with outcome }

def settles (claim : BurnCheckCandidateClaim) (attempt : DecisionAttempt) (row : CandidateRow) :
    Bool :=
  row.heldBy claim && row.attempts.any (intentOf attempt)

def validatedProgress (activation : RegisteredActivation) (rows : List SavedDecisionAttempt) :
    Except StoreError ValidatedDecisionProgress := do
  let progress ← readDecisionRows activation rows
  validateDecisionProgress activation.compiled.decisions activation.requirements progress

def requireReady (evidence : EvidenceView) (activation : RegisteredActivation) :
    Option PreparationRecord → Except StoreError Unit
  | some (.ready prepared) => validatePrepared evidence activation (.ready prepared)
  | _ => .error ⟨"dispatch requires a ready model preparation"⟩

def dispatchedRow (attempt : DecisionAttempt) (started : Option Nat) (row : CandidateRow) :
    CandidateRow :=
  { row with
    state := .dispatching
    diagnostic := none
    attempts := Table.insert ⟨attempt, .dispatchIntent⟩ row.attempts
    startedCooldownUntilEpoch := started }

def dispatches (claim : BurnCheckCandidateClaim) (tables : CheckTables) (row : CandidateRow) :
    Bool :=
  row.heldBy claim && row.state == .claimed && tables.generationActive row

def dispatch (store : StoreCheckStore) (evidence : EvidenceView) (claimed : ClaimedCandidate)
    (nowMs cooldownNanos : Nat) (attempt : DecisionAttempt) (tables : CheckTables) :
    Except StoreError (ClaimOutcome × CheckTables) := do
  store.requireModelClaim claimed
  let claim ← store.claimRecord claimed
  attempt.validate.mapError fun error => ⟨error.message⟩
  match store.activations claimed.candidate.activation with
  | none => return (.stale, tables)
  | some activation =>
    if !tables.claimIsCurrent store evidence claim activation then
      return (.stale, tables.update (fun row => row.heldBy claim && row.state.busy) fun row =>
        { row with state := .stale })
    match tables.candidate? claim.candidateId with
    | none => throw ⟨"Query returned no rows"⟩
    | some row =>
      ensure (row.frozenInput.any (·.same claimed.candidate))
        "dispatch does not match the exact frozen candidate"
      let validated ← validatedProgress activation row.attempts
      ensure (match validated.state with | .next next _ => next == attempt | _ => false)
        "dispatch is not the next declared decision attempt"
      requireReady evidence activation row.preparation
      if !tables.candidates.any (dispatches claim tables) then return (.stale, tables)
      ensure (row.attempts.all fun saved => saved.attempt != attempt)
        "UNIQUE constraint failed: burn_check_evaluation_attempt.attempt_id"
      let first := row.attempts.isEmpty
      let untilEpoch := if cooldownNanos == 0 then 0 else cooldownEnd nowMs cooldownNanos
      let started := if first then some untilEpoch else row.startedCooldownUntilEpoch
      let after := tables.update (dispatches claim tables) (dispatchedRow attempt started)
      return (.current, if first && cooldownNanos != 0 then after.saveCooldown row.key untilEpoch
        else after)

def failedAttempt (attempt : DecisionAttempt) (outcome : AttemptFailure)
    (diagnostic : EvaluationDiagnostic) (row : CandidateRow) : CandidateRow :=
  { row with
    attempts := settleIntent attempt outcome.outcome row.attempts
    diagnostic := some diagnostic
    state := if outcome == .safeTransient && attempt.number == 1 && row.state == .dispatching
      then .claimed else row.state }

/-- The holder lost its publication rights. -/
def revokeHeld (claim : BurnCheckCandidateClaim) (row : CandidateRow) : CandidateRow :=
  (if row.heldBy claim && row.state.busy then { row with state := .stale } else row).recordRevoked

def settleFailure (store : StoreCheckStore) (evidence : EvidenceView) (claimed : ClaimedCandidate)
    (attempt : DecisionAttempt) (outcome : AttemptFailure) (diagnostic : EvaluationDiagnostic)
    (tables : CheckTables) : Except StoreError (ClaimOutcome × CheckTables) := do
  store.requireModelClaim claimed
  attempt.validate.mapError fun error => ⟨error.message⟩
  let claim ← store.claimRecord claimed
  ensure (tables.candidates.any (settles claim attempt)) "attempt claim is stale or already settled"
  let settled := tables.update (settles claim attempt) (failedAttempt attempt outcome diagnostic)
  let current := (store.activations claimed.candidate.activation).any fun activation =>
    settled.claimIsCurrent store evidence claim activation
  if current then return (.current, settled)
  return (.stale, settled.update (fun row => row.candidateId == claim.candidateId)
    (revokeHeld claim))

def answeredAttempt (current : Bool) (complete : Option EvaluatedAssessment)
    (row : CandidateRow) : CandidateRow :=
  { row with
    state := if current then (if complete.isNone then .claimed else .answered)
      else if row.state.busy then .stale else row.state
    answer := complete.or row.answer }

def completeAnswer : Option RegisteredActivation → Option CandidateRow →
    Except StoreError (Option EvaluatedAssessment)
  | none, _ => .ok none
  | some _, none => .error ⟨"decision progress claim is stale"⟩
  | some activation, some row => do
    let validated ← validatedProgress activation row.attempts
    match validated.state with
    | .complete evaluated => return some evaluated
    | .next _ _ => return none
    | .terminal _ => throw ⟨"decision answer leaves terminal progress"⟩

def saveDecisionAnswer (store : StoreCheckStore) (evidence : EvidenceView)
    (claimed : ClaimedCandidate) (attempt : DecisionAttempt) (evaluated : DecisionResult)
    (tables : CheckTables) : Except StoreError (ClaimOutcome × CheckTables) := do
  store.requireModelClaim claimed
  attempt.validate.mapError fun error => ⟨error.message⟩
  ensure (evaluated.decision == attempt.decision && evaluated.attempts == attempt.number)
    "decision answer does not match its exact attempt"
  discard ((measureDecisionResultsWithNext [] evaluated).mapError fun error => ⟨error.message⟩)
  let claim ← store.claimRecord claimed
  ensure (tables.candidates.any (settles claim attempt)) "answer has no exact dispatch intent"
  let settled := tables.update (settles claim attempt) fun row =>
    { row with attempts := settleIntent attempt (.answer evaluated) row.attempts }
  let activation := store.activations claimed.candidate.activation
  let current := activation.any fun activation =>
    settled.claimIsCurrent store evidence claim activation
  let complete ← completeAnswer activation (settled.candidate? claim.candidateId)
  let answered := settled.update (·.heldBy claim) (answeredAttempt current complete)
  if current then return (.current, answered)
  return (.stale, answered.update (fun row => row.candidateId == claim.candidateId)
    CandidateRow.recordRevokedAnswer)

/-! ### Local work and settlement -/

def startLocal (store : StoreCheckStore) (evidence : EvidenceView) (claimed : ClaimedCandidate)
    (nowMs cooldownNanos : Nat) (preparation : LocalPreparation) (tables : CheckTables) :
    Except StoreError (ClaimOutcome × CheckTables) := do
  let claim ← store.claimRecord claimed
  match store.activations claimed.candidate.activation with
  | none => return (.stale, tables)
  | some activation =>
    ensure activation.compiled.isLocal "local start requires a local check"
    if !tables.claimIsCurrent store evidence claim activation then return (.stale, tables)
    match tables.candidates.find? (·.heldBy claim) with
    | none => return (.stale, tables)
    | some row =>
      if !(row.state == .claimed || row.state == .answered) then return (.stale, tables)
      ensure (row.frozenInput.any (·.same claimed.candidate))
        "local start does not match the frozen candidate"
      ensure row.attempts.isEmpty "local work cannot retain provider attempts"
      ensure preparation.validForResume "The saved local preparation is invalid."
      ensure (evidence.preparationFits (.localWork preparation)) "the preparation exceeds its limits"
      (EvaluatedAssessment.localWork.validateForDeclarations activation.compiled.decisions
        activation.requirements).mapError fun error => ⟨error.message⟩
      if row.state == .answered then do
        ensure (row.preparation.any (·.same (.localWork preparation)) &&
          row.answer.any (·.same .localWork)) "local start is immutable"
        return (.current, tables)
      ensure (row.preparation.isNone && row.answer.isNone) "local start requires an unstarted claim"
      ensure (preparation.startedAtUnixMs == nowMs) "local start time does not match preparation"
      let after := tables.update (fun row => row.heldBy claim && row.state == .claimed) fun row =>
        { row with
          state := .answered
          preparation := some (.localWork preparation)
          answer := some .localWork }
      return (.current, if cooldownNanos != 0
        then after.saveCooldown row.key (cooldownEnd nowMs cooldownNanos) else after)

def settledRow (state : CandidateState) (detail : String) (preparation : Option PreparationRecord)
    (diagnostic : Option EvaluationDiagnostic) (row : CandidateRow) : CandidateRow :=
  let settled := { row with
    state
    preparation := preparation.or row.preparation
    diagnostic := row.diagnostic.or diagnostic }
  match state.outcome? with
  | some outcome => settled.recordHistory ⟨outcome, row.answer, detailJson detail⟩
  | none => settled

def terminalWithDiagnostic (store : StoreCheckStore) (evidence : EvidenceView)
    (claimed : ClaimedCandidate) (detail : String) (notAssessed : Bool)
    (preparation : Option PreparationRecord) (diagnostic : Option EvaluationDiagnostic)
    (tables : CheckTables) : Except StoreError (ClaimOutcome × CheckTables) := do
  let claim ← store.claimRecord claimed
  ensure (preparation.all evidence.preparationFits) "the preparation exceeds its limits"
  match tables.candidates.find? (·.heldBy claim) with
  | none => return (.stale, tables)
  | some saved =>
    ensure (saved.state.revoked || saved.state.busy) "terminal claim is already settled"
    let state := if saved.state.revoked then saved.state
      else if notAssessed then .notAssessed else .executionFailed
    return (if saved.state.revoked then .stale else .current,
      tables.update (·.heldBy claim) (settledRow state detail preparation diagnostic))

end StoreCheckStore

end Antiburn
