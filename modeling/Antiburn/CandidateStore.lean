/-
What the store does to candidates besides the writes of a holder.

Acceptance, recovery after a restart, the lifecycle of a definition, the pages of
a source, and the invalidations that other parts of the store make.
-/
import Antiburn.CandidateClaims

namespace Antiburn

variable [Platform]

namespace CheckTables

/-- Makes the unfinished candidates that match stale. -/
def invalidate (tables : CheckTables) (condition : CandidateRow → Bool) : CheckTables :=
  tables.update (fun row => condition row && row.state.unfinished) fun row =>
    { row with state := .stale }

end CheckTables

/-! ### Acceptance -/

inductive AcceptanceOutcome where
  /-- History, optional status write and watermark committed together. -/
  | accepted
  /-- Selected source publications need normalization first. -/
  | deferred
  | stale
  | alreadyAccepted

structure AcceptanceView extends EvidenceView where
  /-- Discovery or a connection change holds live publication back. -/
  paused : Bool
  /-- The applied cursor is behind the selected one, or a newer publication waits. -/
  sourcePending : Bool

structure BurnCheckAnswer where
  answer : EvaluatedAssessment
  actions : Json
  statusWrite : Option StatusResult

def answeredRow (id : CandidateId) (row : CandidateRow) : Bool :=
  row.candidateId == id && row.state == .answered

def acceptable (claim : BurnCheckCandidateClaim) (tables : CheckTables) (row : CandidateRow) :
    Bool :=
  row.heldBy claim && row.state == .answered && tables.generationActive row

def acceptedRow (accepted : BurnCheckAnswer) (row : CandidateRow) : CandidateRow :=
  { row with
    state := .accepted
    history := Table.insert ⟨.assessed, some accepted.answer, accepted.actions⟩ row.history }

/-- The answer is the durable one, and local exactly when its preparation is. -/
def checkAnswer (row : CandidateRow) (answer : EvaluatedAssessment) : Except StoreError Unit := do
  ensure (row.answer.any (·.same answer)) "answer does not match the durable response"
  if answer.same .localWork then
    match row.preparation with
    | some (.localWork preparation) =>
      ensure preparation.validForResume "The saved local preparation is invalid."
      ensure row.attempts.isEmpty "local work cannot retain provider attempts"
    | _ => throw ⟨"a local answer requires its saved local preparation"⟩
  else
    ensure (!row.preparation.any PreparationRecord.isLocal)
      "a local preparation requires an empty zero-attempt answer"

def tryAcceptBurnCheckAnswer (view : AcceptanceView) (claim : BurnCheckCandidateClaim)
    (accepted : BurnCheckAnswer) (tables : CheckTables) :
    Except StoreError (AcceptanceOutcome × CheckTables) := do
  let id := claim.candidateId
  if tables.candidates.any fun row => row.candidateId == id && row.state == .accepted then
    return (.alreadyAccepted, tables)
  if !view.requestOriginCurrent id then
    -- the one write of the function that does not ask for the owner and the fence
    return (.stale, tables.update (answeredRow id) fun row => { row with state := .stale })
  if view.paused && tables.candidates.any (answeredRow id) then return (.deferred, tables)
  match tables.candidates.find? (acceptable claim tables) with
  | none => return (.stale, tables.update (fun row => row.heldBy claim && row.state == .answered)
      fun row => { row with state := .stale })
  | some row =>
    checkAnswer row accepted.answer
    if view.sourcePending then return (.deferred, tables)
    if !view.typedDependenciesCurrent id || !view.observationsCurrent id then
      return (.stale, tables.update (answeredRow id) fun row => { row with state := .stale })
    if (tables.watermark row.key).any fun old => row.triggerPosition ≤ old then
      return (.stale, tables.update (answeredRow id) fun row => { row with state := .stale })
    ensure row.history.isEmpty
      "UNIQUE constraint failed: burn_check_assessment_history.candidate_id"
    let after := (tables.update (answeredRow id) (acceptedRow accepted)).saveWatermark row.key
      row.triggerPosition
    return (.accepted, accepted.statusWrite.elim after fun status =>
      after.saveStatus row.key status row.triggerPosition)

/-- `accept`, for an activation that is registered and that the publication gate lets through. -/
def StoreCheckStore.accept (store : StoreCheckStore) (gate : RegisteredActivation → Bool)
    (view : AcceptanceView) (claimed : ClaimedCandidate) (accepted : BurnCheckAnswer)
    (tables : CheckTables) : Except StoreError (AcceptanceOutcome × CheckTables) := do
  match store.activations claimed.candidate.activation with
  | none => return (.stale, tables)
  | some activation =>
    if !gate activation then return (.deferred, tables)
    (accepted.answer.validateForDeclarations activation.compiled.decisions
      activation.requirements).mapError fun error => ⟨error.message⟩
    let claim ← store.claimRecord claimed
    tryAcceptBurnCheckAnswer view claim accepted tables

/-! ### Overflow and cancellation -/

def overflowed (safeReason : String) (row : CandidateRow) : CandidateRow :=
  { row with
    state := .notAssessed
    frozenInput := none
    history := Table.insert ⟨.notAssessed, none, detailJson safeReason⟩ row.history }

def recordBurnCheckOverflow (id : CandidateId) (safeReason : String) (tables : CheckTables) :
    Except StoreError (Bool × CheckTables) := do
  match tables.candidates.find? (StoreCheckStore.pendingRow id) with
  | none => return (false, tables)
  | some row =>
    ensure row.history.isEmpty
      "UNIQUE constraint failed: burn_check_assessment_history.candidate_id"
    return (true, tables.update (StoreCheckStore.pendingRow id) (overflowed safeReason))

def CONNECTION_CHANGED : EvaluationDiagnostic where
  code := .cancelled
  detail := "The selected connection changed before this assessment finished."

/-- Revokes unfinished work without changing definitions or session evidence. -/
def cancelUnfinishedBurnCheckAssessments (tables : CheckTables) : CheckTables :=
  -- the claim stays, so that late attempts can settle without publication rights
  tables.update (·.state.unfinished) fun row =>
    { row.recordHistory (row.historyAt .cancelled) with
      state := .cancelled
      diagnostic := some CONNECTION_CHANGED }

/-! ### Recovery -/

def DELIVERY_UNKNOWN : EvaluationDiagnostic where
  code := .deliveryUnknown
  detail := "The provider delivery outcome is unknown after restart."

def settleUnknown (saved : SavedDecisionAttempt) : SavedDecisionAttempt :=
  match saved.outcome with
  | .dispatchIntent => { saved with outcome := .unknown }
  | _ => saved

/-- A candidate that somebody evaluated when the process ended. -/
def CandidateState.abandoned (state : CandidateState) : Bool :=
  state == .claimed || state == .dispatching

def interruptedRow (row : CandidateRow) : CandidateRow :=
  let interrupted := row.attempts.any fun saved =>
    match saved.outcome with | .dispatchIntent => true | _ => false
  { row with
    diagnostic := if row.state.abandoned && interrupted then some DELIVERY_UNKNOWN
      else row.diagnostic
    attempts := row.attempts.map settleUnknown }

/-- Requeues, fails or takes over a candidate whose attempts are settled. -/
def requeuedRow (owner : String) (row : CandidateRow) : CandidateRow :=
  if row.state.abandoned then
    if row.attempts.all SavedDecisionAttempt.resumable then
      { row with state := .pending, claimOwner := none }
    else
      let detail := (row.diagnostic.map (·.detail)).getD
        "dispatch outcome unknown or retry limit exhausted"
      { row.recordHistory ⟨.executionFailed, none, detailJson detail⟩ with
        state := .executionFailed
        claimOwner := none }
  else if row.state == .answered then
    { row with claimOwner := some owner, claimFence := row.claimFence + 1 }
  else row

/-- `recover_abandoned`, for one candidate of the scope. -/
def recoverRow (owner : String) (row : CandidateRow) : CandidateRow :=
  requeuedRow owner (interruptedRow row)

def StoreCheckStore.recoverAbandoned (store : StoreCheckStore) (tables : CheckTables) :
    CheckTables :=
  tables.update (fun row => row.key.activationScope == store.scope) (recoverRow store.owner)

structure RecoveryCandidateRow where
  id : CandidateId
  state : CandidateState
  priorStatus : Option StatusResult
  fence : Nat
  checkId : String
  generation : Nat

inductive RecoveryWork where
  | pending (candidate : FrozenCandidate) (resumed : Bool)
  | answered (claimed : ClaimedCandidate) (evaluated : EvaluatedAssessment)

inductive RecoveryError where
  /-- Its activation is not registered yet. -/
  | activationMissing
  /-- It is invalid or incompatible. -/
  | invalid (error : StoreError)

def orInvalid {α : Type} (result : Except StoreError α) : Except RecoveryError α :=
  result.mapError .invalid

namespace RecoveryCandidateRow

def current (row : RecoveryCandidateRow) (store : StoreCheckStore) (tables : CheckTables)
    (saved : CandidateRow) : Bool :=
  saved.candidateId == row.id && saved.key.activationScope == store.scope &&
    saved.state == row.state && saved.claimFence == row.fence &&
    saved.priorStatus == row.priorStatus && saved.key.checkId == row.checkId &&
    saved.key.generation == row.generation && tables.generationActive saved

/-- `recover_row_in`. -/
def recover (row : RecoveryCandidateRow) (store : StoreCheckStore) (evidence : EvidenceView)
    (saved : CandidateRow) : Except RecoveryError RecoveryWork := do
  let id : ActivationId := ⟨store.scope, row.checkId, row.generation⟩
  match store.activations id with
  | none => throw .activationMissing
  | some activation =>
    match saved.frozenInput with
    | none => throw (.invalid ⟨"missing field"⟩)
    | some candidate =>
      orInvalid (ensure (candidate.fingerprint == row.id && candidate.activation == activation.id)
        "saved candidate identity is invalid")
      match saved.preparation with
      | some (.ready prepared) =>
        orInvalid (ensure (!activation.compiled.isLocal) "local work has a provider preparation")
        orInvalid (ensure (evidence.preparedValid activation.compiled.decisions prepared)
          "the prepared decisions do not match their declarations")
      | some (.localWork _) =>
        orInvalid (ensure activation.compiled.isLocal "model work has a local preparation")
      | some (.rejected _) => throw (.invalid ⟨"unfinished work has a rejected preparation"⟩)
      | none => orInvalid (ensure (row.state == .pending)
          "answered work requires its saved preparation")
      orInvalid (ensure (saved.preparation.isSome || saved.attempts.isEmpty)
        "started work requires its exact saved preparation")
      let validated ← orInvalid (StoreCheckStore.validatedProgress activation saved.attempts)
      if row.state == .answered then
        match saved.answer with
        | none => throw (.invalid ⟨"answered work has no saved result"⟩)
        | some evaluated =>
          orInvalid ((evaluated.validateForDeclarations activation.compiled.decisions
            activation.requirements).mapError fun error => ⟨error.message⟩)
          match validated.state with
          | .complete durable =>
            orInvalid (ensure (evaluated.same durable)
              "saved complete result does not match durable answers")
            return .answered ⟨row.id, candidate, row.priorStatus, row.fence⟩ evaluated
          | _ => throw (.invalid ⟨"answered work has incomplete durable progress"⟩)
      else
        orInvalid (ensure (activation.compiled.isLocal ||
            (match validated.state with | .next _ _ => true | _ => false))
          "pending work has terminal or complete progress")
        return .pending candidate (!saved.attempts.isEmpty)

def INCOMPATIBLE : EvaluationDiagnostic where
  code := .invalidDecision
  detail := "The saved assessment is invalid or incompatible."

def rejected (state : CandidateState) (outcome : AssessmentOutcome) (row : CandidateRow) :
    CandidateRow :=
  { row.recordHistory ⟨outcome, row.answer, detailJson INCOMPATIBLE.detail⟩ with
    state
    diagnostic := some INCOMPATIBLE
    claimOwner := none
    claimFence := row.claimFence + 1 }

/-- `reject_recovery_row`. -/
def reject (row : RecoveryCandidateRow) (store : StoreCheckStore) (tables : CheckTables) :
    CheckTables :=
  tables.update (fun saved => saved.candidateId == row.id &&
      saved.key.activationScope == store.scope && saved.state == row.state &&
      saved.claimFence == row.fence)
    (if row.state == .pending then rejected .notAssessed .notAssessed
      else rejected .executionFailed .executionFailed)

/-- `recover_row`: the work to resume, and the tables after it. -/
def recoverRow (row : RecoveryCandidateRow) (store : StoreCheckStore) (evidence : EvidenceView)
    (tables : CheckTables) : Except StoreError (Option RecoveryWork × CheckTables) :=
  -- pages hold pending and answered candidates only
  if !(row.state == .pending || row.state == .answered) then .ok (none, tables)
  else match tables.candidates.find? (row.current store tables) with
  | none => .ok (none, tables)
  | some saved =>
    match row.recover store evidence saved with
    | .ok work => .ok (some work, tables)
    | .error .activationMissing =>
      .error ⟨"register all durable activations before recovery"⟩
    | .error (.invalid _) => .ok (none, row.reject store tables)

end RecoveryCandidateRow

/-! ### Lifecycle -/

inductive InactiveKind where
  | invalid | paused
  deriving DecidableEq

inductive LifecycleTransition where
  | unchanged (active : RegisteredActivation)
  | activated (active : RegisteredActivation)
  | deactivated (revision : Vector UInt8 32) (projectRoot : Option String) (scope : String)
      (sourcePaths : List String) (inactiveKind : InactiveKind) (nextGeneration : Nat)
  | removed (nextGeneration : Nat)
  | unchangedInactive

namespace LifecycleTransition

def InactiveKind.name : InactiveKind → String
  | .invalid => "invalid"
  | .paused => "paused"

def activeRecord (active : RegisteredActivation) : LifecycleRecord where
  version := 1
  generation := active.id.generation
  revision := active.revision
  state := "active"
  definitionScope := active.definitionScope
  sourcePaths := active.sourcePaths
  projectRoot := active.projectRoot
  bootstrapObservationPosition := active.bootstrapObservationPosition
  bootstrapPublication := active.bootstrapPublication

def record? : LifecycleTransition → Option (LifecycleRecord × Bool)
  | unchanged active => some (activeRecord active, false)
  | activated active => some (activeRecord active, true)
  | deactivated revision projectRoot scope sourcePaths inactiveKind nextGeneration =>
    some (⟨1, nextGeneration, revision, InactiveKind.name inactiveKind, scope, sourcePaths,
      projectRoot, 0, 0⟩, true)
  | removed nextGeneration =>
    some (⟨1, nextGeneration, Vector.replicate 32 0, "removed", "global", [], none, 0, 0⟩, true)
  | unchangedInactive => none

def active? : LifecycleTransition → Option RegisteredActivation
  | unchanged active | activated active => some active
  | _ => none

end LifecycleTransition

namespace StoreCheckStore

def validateActivation (store : StoreCheckStore) (activation : RegisteredActivation) :
    Except StoreError Unit := do
  ensure (activation.id.scope == store.scope) "activation belongs to another scope"
  ensure (0 < activation.id.generation) "activation generation must be positive"

def ofDefinition (store : StoreCheckStore) (definitionId : String) (row : CandidateRow) : Bool :=
  row.key.checkId == definitionId && row.key.activationScope == store.scope

def replaceLifecycle (store : StoreCheckStore) (definitionId : String) (record : LifecycleRecord)
    (tables : CheckTables) : CheckTables :=
  let cancelled := tables.update
    (fun row => store.ofDefinition definitionId row && row.state.unfinished)
    fun row => { row with state := .cancelled }
  { cancelled with
    currentStatus := cancelled.currentStatus.filter fun row =>
      !(row.key.checkId == definitionId && row.key.activationScope == store.scope)
    activations := (cancelled.activations.filter fun row =>
        !(row.checkId == definitionId && row.activationScope == store.scope)) ++
      [⟨definitionId, store.scope, record.revision, record.state == "active", record.generation,
        some record⟩] }

def checkTransition (store : StoreCheckStore) (definitionId : String)
    (activation : Option ActivationId) : Option RegisteredActivation → Except StoreError Unit
  | some active => do
    store.validateActivation active
    ensure (active.id.definitionId == definitionId && activation == some active.id)
      "activation transition does not match its definition"
  | none => ensure activation.isNone "inactive transition cannot register an activation"

def alreadyRemoved (record : LifecycleRecord) : Option ActivationRow → Bool
  | none => record.state == "removed" && record.generation == 0
  | some row => record.state == "removed" && row.generation == record.generation &&
      row.lifecycle.any fun saved => saved.state == "removed"

def lifecycleChange (store : StoreCheckStore) (definitionId : String)
    (transition : LifecycleTransition) (activation : Option ActivationId) (tables : CheckTables) :
    Except StoreError (Option LifecycleRecord) := do
  store.checkTransition definitionId activation transition.active?
  match transition.record? with
  | none => return none
  | some (record, changed) =>
    let previous := tables.activation? definitionId store.scope
    if alreadyRemoved record previous then return none
    if previous.any fun row => row.lifecycle == some record then return none
    ensure (changed && record.generation ==
        previous.elim 1 fun row => saturatingAdd row.generation 1)
      "lifecycle generation compare-and-swap failed"
    let _ ← integer record.generation
    let _ ← integer record.bootstrapPublication
    return some record

/-- `persist_lifecycle`.  The capture attachments that follow hold no candidates. -/
def persistLifecycle (store : StoreCheckStore) (definitionId : String)
    (transition : LifecycleTransition) (activation : Option ActivationId) (tables : CheckTables) :
    Except StoreError CheckTables := do
  let record ← store.lifecycleChange definitionId transition activation tables
  return record.elim tables fun record => store.replaceLifecycle definitionId record tables

/-! ### Pages -/

def ofBranch (store : StoreCheckStore) (activation : ActivationId) (branch : BranchId)
    (row : CandidateRow) : Bool :=
  store.ofDefinition activation.definitionId row && row.key.branch == branch

def newRow (store : StoreCheckStore) (candidate : FrozenCandidate) : CandidateRow where
  candidateId := candidate.fingerprint
  key := store.claimKey candidate
  triggerPosition := candidate.triggerPosition
  frozenInput := some candidate
  state := .pending
  claimOwner := none
  claimFence := 0
  priorStatus := none
  startedCooldownUntilEpoch := none
  preparation := none
  answer := none
  diagnostic := none
  attempts := []
  history := []

def positionTaken (row : CandidateRow) (tables : CheckTables) : Bool :=
  tables.candidates.any fun other =>
    other.key == row.key && other.triggerPosition == row.triggerPosition

/-- The older pending candidates that a new one of a rolling window replaces. -/
def coalesced (candidate : CandidateRow) (row : CandidateRow) : Bool :=
  row.key == candidate.key && row.state == .pending && row.candidateId != candidate.candidateId &&
    row.triggerPosition < candidate.triggerPosition && row.attempts.isEmpty

/-- What follows the insertion of a candidate: it is stale, or it replaces older
ones, and the pending limit of the scope applies to it. -/
def settleInserted (store : StoreCheckStore) (current coalescePending : Bool)
    (row : CandidateRow) (tables : CheckTables) : CheckTables :=
  let tables := if !current then
      tables.update (pendingRow row.candidateId) fun row => { row with state := .stale }
    else if coalescePending then
      tables.update (coalesced row) fun row => { row with state := .coalesced }
    else tables
  let pending := tables.candidates.countP fun row =>
    row.key.activationScope == store.scope && row.state == .pending
  if MAX_PENDING_CANDIDATES < pending then
    tables.update (pendingRow row.candidateId) (overflowed "pending candidate limit reached")
  else tables

def insertCandidate (store : StoreCheckStore) (current : CandidateId → Bool)
    (coalescePending : Bool) (candidate : FrozenCandidate) (tables : CheckTables) :
    Except StoreError CheckTables := do
  let row := store.newRow candidate
  -- ON CONFLICT(candidate_id) DO NOTHING
  if (tables.candidate? row.candidateId).isSome then return tables
  ensure (!positionTaken row tables)
    "UNIQUE constraint failed: burn_check_candidate.trigger_position"
  return store.settleInserted (current row.candidateId) coalescePending row
    { tables with candidates := Table.insert row tables.candidates }

structure PublicationPage where
  activation : RegisteredActivation
  /-- The cursors and the checkpoint of the page fit the saved ones. -/
  accepted : Bool
  /-- The candidates with a dependency on an observation that the page changes. -/
  revoked : CandidateId → Bool
  invalidatedBranches : List BranchId
  resetBranches : List BranchId
  candidates : List FrozenCandidate
  /-- The dependencies of a new candidate are current. -/
  dependenciesCurrent : CandidateId → Bool

def pageInvalidates (store : StoreCheckStore) (page : PublicationPage) (row : CandidateRow) :
    Bool :=
  (store.ofDefinition page.activation.id.definitionId row && page.revoked row.candidateId) ||
    (page.invalidatedBranches ++ page.resetBranches).any fun branch =>
      store.ofBranch page.activation.id branch row

/-- `persist_page` and `apply_burn_check_publications_with_checkpoint`. -/
def persistPage (store : StoreCheckStore) (page : PublicationPage) (tables : CheckTables) :
    Except StoreError CheckTables := do
  ensure (page.candidates.all fun candidate => candidate.activation == page.activation.id)
    "candidate belongs to another activation"
  ensure ((tables.activation? page.activation.id.definitionId store.scope).any fun row =>
      row.generation == page.activation.id.generation && row.enabled)
    "source page lost activation or publication rights"
  ensure page.accepted "selector checkpoint changed"
  page.candidates.foldlM (fun tables candidate =>
      store.insertCandidate page.dependenciesCurrent
        page.activation.compiled.trigger.window.isSome candidate tables)
    (tables.invalidate (store.pageInvalidates page))

def behindNewest (key : BranchKey) (tables : CheckTables) (row : CandidateRow) : Bool :=
  row.key == key && row.state == .pending && row.attempts.isEmpty &&
    tables.candidates.any fun newest =>
      newest.key == key && newest.state == .pending && row.triggerPosition < newest.triggerPosition

def attachCandidate (store : StoreCheckStore) (tables : CheckTables) :
    Option FrozenCandidate → Except StoreError CheckTables
  | none => .ok tables
  | some candidate => do
    let row := store.newRow candidate
    ensure ((tables.candidate? row.candidateId).isNone)
      "UNIQUE constraint failed: burn_check_candidate.candidate_id"
    ensure (!positionTaken row tables)
      "UNIQUE constraint failed: burn_check_candidate.trigger_position"
    return { tables with candidates := Table.insert row tables.candidates }

/-- `initialize_recent`: attaches a session with at most one candidate. -/
def initializeRecent (store : StoreCheckStore) (activation : RegisteredActivation)
    (branch : BranchId) (candidate : Option FrozenCandidate) (tables : CheckTables) :
    Except StoreError CheckTables := do
  ensure ((tables.activation? activation.id.definitionId store.scope).any fun row =>
      row.generation == activation.id.generation && row.enabled)
    "session is attached or its activation changed"
  let key : BranchKey := ⟨activation.id.definitionId, store.scope, activation.id.generation, branch⟩
  let tables ← store.attachCandidate tables candidate
  return tables.update (behindNewest key tables) fun row => { row with state := .coalesced }

end StoreCheckStore

end Antiburn
