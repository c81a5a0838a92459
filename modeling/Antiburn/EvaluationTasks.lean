/-
Evaluations of reserved candidates.

An evaluation goes from its reservation to the end of its guard.  It is cut where
the engine calls the store or waits: each definition below is one stretch between
two cuts, with the replies it gets as arguments.  A task that ends gives its key
back, or keeps it reserved when a dispatch has no settled outcome.
-/
import Antiburn.CandidateStore
import Antiburn.ConditionAgreement

namespace Antiburn

variable [Platform]

/-! ### Outcomes -/

inductive RunOutcome where
  /-- A candidate was evaluated and accepted. -/
  | accepted
  /-- The answer is durable and waits for source normalization; do not resend. -/
  | deferred
  /-- Publication rights were revoked; the answer remains historical. -/
  | stale
  /-- A known false condition skipped provider evaluation. -/
  | skipped
  /-- Required input was unavailable and no provider call was made. -/
  | notAssessed (detail : String)
  /-- The candidate failed without writing a status. -/
  | failed (detail : String)
  /-- The finite replay allowance ended before another intent. -/
  | limitReached

/-- Why the scheduler no longer knows a candidate. -/
inductive Departure where
  /-- The store settled it. -/
  | settled
  /-- The store reported that its claim lost publication rights. -/
  | stale
  /-- Its complete answer is durable and waits for recovery. -/
  | answered
  /-- Its saved progress is invalid, and recording that failed. -/
  | unrecorded
  /-- It was pruned as terminal. -/
  | pruned
  /-- A change of its activation dropped it. -/
  | dropped
  /-- A reset of its branch dropped it. -/
  | reset
  /-- A newer window candidate replaced it. -/
  | coalesced
  /-- The engine restarted. -/
  | restarted

/-- Where a candidate is scheduled: its key and its place in the queue of the key. -/
abbrev ScheduleSlot := ScheduleKey × ObservationPosition

def FrozenCandidate.slot (candidate : FrozenCandidate) : ScheduleSlot :=
  (candidate.key, candidate.triggerPosition)

/-- What a stretch does that its caller or the provider can see. -/
inductive EngineEvent where
  /-- `enqueue` returned `Queued`. -/
  | queued (candidate : FrozenCandidate)
  /-- The scheduler no longer knows the candidate of the slot. -/
  | left (slot : ScheduleSlot) (departure : Departure)
  /-- `evaluate_prepared` is called. -/
  | sent (activation : EffectiveActivation) (candidate : FrozenCandidate) (attempt : DecisionAttempt)

def RunOutcome.departure : RunOutcome → Departure
  | stale => .stale
  | deferred => .answered
  | _ => .settled

def ClaimOutcome.orStale (recorded : ClaimOutcome) (outcome : RunOutcome) : RunOutcome :=
  if recorded = .stale then .stale else outcome

def AcceptanceOutcome.outcome : AcceptanceOutcome → RunOutcome
  | accepted | alreadyAccepted => .accepted
  | deferred => .deferred
  | stale => .stale

/-! ### Tasks -/

/-- What the coordinator is created with, and the functions of the compiler and the
preparation that it calls. -/
structure CheckEngine where
  policy : ExecutionPolicy
  /-- `CompiledCheck::question_requirements`. -/
  questionRequirements : CompiledCheck → List QuestionRequirements
  /-- `bounded_failure`. -/
  boundedFailure : PreparationFailure → PreparationFailure

/-- The locals of `run_model` and its guard. -/
structure ModelRun where
  claimed : ClaimedCandidate
  prepared : Json
  progress : List SavedDecisionAttempt
  attempts : Nat
  newIntents : Nat := 0
  firstIntent : Bool := true
  lastFailure : Option EvaluationDiagnostic := none
  /-- Whether a drop of the guard gives the key back. -/
  releaseBranchOnDrop : Bool := true
  /-- Whether that drop releases the claim and restores the candidate first. -/
  safeRelease : Bool := true

/-- Why a task that has ended keeps its key reserved. -/
inductive HeldCause where
  /-- The intent of the attempt was tried and has no confirmed settlement. -/
  | unsettled (attempt : DecisionAttempt)
  /-- The progress is terminal, and recording the failure failed. -/
  | unrecorded (progress : List SavedDecisionAttempt)
  /-- The settled progress does not validate. -/
  | invalid (progress : List SavedDecisionAttempt)

inductive TaskPhase where
  /-- Reserved; the last claim of the key may still have to be released. -/
  | reserved
  | claiming
  | claimed (claimed : ClaimedCandidate)
  /-- A local task that nobody has polled. -/
  | localWork (claimed : ClaimedCandidate)
  /-- A model task before its next attempt. -/
  | ready (run : ModelRun)
  /-- A model task that waits for `evaluate_prepared`. -/
  | awaiting (run : ModelRun) (attempt : DecisionAttempt)
  /-- No task any more, but the key stays reserved. -/
  | held (cause : HeldCause)

structure EvaluationTask where
  key : ScheduleKey
  pending : PendingCandidate
  activation : EffectiveActivation
  nowUnixMs : Nat
  maximumNewIntents : Nat
  phase : TaskPhase

/-- Whether a future or the call that makes it still owns the guard. -/
def EvaluationTask.live (task : EvaluationTask) : Bool :=
  match task.phase with
  | .held _ => false
  | _ => true

abbrev DurableRows := ScheduleKey → CandidateId → List SavedDecisionAttempt

def DurableRows.set (rows : DurableRows) (candidate : FrozenCandidate)
    (saved : List SavedDecisionAttempt) : DurableRows := fun key id =>
  if key = candidate.key ∧ id = candidate.fingerprint then saved else rows key id

def DurableRows.of (rows : DurableRows) (candidate : FrozenCandidate) :
    List SavedDecisionAttempt := rows candidate.key candidate.fingerprint

structure TaskStep where
  scheduler : SchedulerState
  rows : DurableRows
  /-- The task, unless it has ended and gives its key back. -/
  next : Option EvaluationTask
  events : List EngineEvent

/-! ### Ends of a stretch -/

abbrev ClaimReply := Except StoreError ClaimOutcome

namespace EvaluationTask

variable (task : EvaluationTask) (sched : SchedulerState) (rows : DurableRows)

/-- The guard finishes. -/
def release (events : List EngineEvent) : TaskStep :=
  ⟨sched.finish task.key, rows, none, events⟩

/-- The guard finishes, and the scheduler no longer knows the candidate. -/
def leave (departure : Departure) : TaskStep :=
  task.release sched rows [.left task.pending.candidate.slot departure]

/-- The guard is dropped and keeps its key. -/
def hold (cause : HeldCause) : TaskStep :=
  ⟨sched.abandon, rows, some { task with phase := .held cause }, []⟩

def goOn (phase : TaskPhase) (events : List EngineEvent := []) : TaskStep :=
  ⟨sched, rows, some { task with phase }, events⟩

/-- `restore_pre_dispatch`, and the drop of a guard that can release safely: the
claim is released and the candidate waits again, unless its claim is stale. -/
def releaseClaim (pending : PendingCandidate) (claimed : ClaimedCandidate) : ClaimReply → TaskStep
  | .ok .current => task.release (sched.restorePending task.key pending) rows []
  | .ok .stale => task.leave sched rows .stale
  | .error _ =>
    task.release ((sched.holdRelease task.key claimed).restorePending task.key pending) rows []

def dropGuard (run : ModelRun) (cause : HeldCause) (released : ClaimReply) : TaskStep :=
  if run.releaseBranchOnDrop then
    if run.safeRelease then
      task.releaseClaim sched rows { task.pending with resumed := true } run.claimed released
    else task.leave sched rows .answered
  else task.hold sched rows cause

/-- The result of `run_model`: a settlement, or an error that drops the guard. -/
def ends (run : ModelRun) (cause : HeldCause) (released : ClaimReply) :
    Except StoreError RunOutcome → TaskStep
  | .ok outcome => task.leave sched rows outcome.departure
  | .error _ => task.dropGuard sched rows run cause released

/-! ### Before the task -/

def releasePrevious (reply : ClaimReply) : TaskStep :=
  match sched.pendingReleases[task.key]? with
  | none => task.goOn sched rows .claiming
  | some _ =>
    match reply with
    | .error _ => task.release (sched.restorePending task.key task.pending) rows []
    | .ok _ => task.goOn (sched.clearRelease task.key) rows .claiming

end EvaluationTask

/-- The reply of `claim_due`. -/
inductive ClaimDueReply where
  | claimed (priorStatus : Option StatusResult) (fence : Nat)
  | notDue (retryAtUnixMs : Nat)
  | stale
  | failed (error : StoreError)

namespace EvaluationTask

variable (task : EvaluationTask) (sched : SchedulerState) (rows : DurableRows)

def claimDue : ClaimDueReply → TaskStep
  | .claimed priorStatus fence =>
    let candidate := task.pending.candidate
    task.goOn sched rows (.claimed ⟨candidate.fingerprint, candidate, priorStatus, fence⟩)
  | .notDue retryAtUnixMs =>
    task.release (sched.deferCandidate task.key task.pending retryAtUnixMs) rows []
  | .stale => task.leave (sched.clearTicketIfIdle task.key) rows .stale
  | .failed _ => task.release (sched.restorePending task.key task.pending) rows []

end EvaluationTask

/-! ### Local tasks -/

/-- The replies that `start_local` gets. -/
structure LocalStartReplies where
  executionCurrent : Bool
  released : ClaimReply
  rejected : ClaimReply
  started : ClaimReply
  /-- `release_pre_dispatch_claim` after an error. -/
  restored : ClaimReply

/-- The cooldown in milliseconds that a start begins, which replay does not have. -/
def CheckEngine.cooldown (engine : CheckEngine) (task : EvaluationTask) : Nat :=
  if engine.policy = .sequentialReplay then 0
  else min (1000 * task.pending.compiled.trigger.cooldown) U64_MAX

structure LocalReplies where
  currentBefore : Bool
  /-- `plan_status_actions_with_budget`. -/
  planned : Except String Unit
  currentAfter : Bool
  accepted : Except StoreError AcceptanceOutcome
  failed : ClaimReply

def LocalReplies.result (replies : LocalReplies) : Except StoreError RunOutcome :=
  if !replies.currentBefore then .ok .deferred
  else
    match replies.planned with
    | .ok _ =>
      if !replies.currentAfter then .ok .deferred
      else replies.accepted.map AcceptanceOutcome.outcome
    | .error detail => replies.failed.map (·.orStale (.failed detail))

namespace EvaluationTask

variable (engine : CheckEngine) (task : EvaluationTask) (sched : SchedulerState)
  (rows : DurableRows)

def rejectedOutcome (failure : PreparationFailure) (recorded : ClaimOutcome) : RunOutcome :=
  recorded.orStale
    (if failure.code = .conditionFalse then .skipped else .notAssessed failure.detail)

def startLocal (claimed : ClaimedCandidate) (replies : LocalStartReplies) : TaskStep :=
  let restore := task.releaseClaim sched rows task.pending claimed replies.restored
  if !replies.executionCurrent then
    match replies.released with
    | .ok .current => task.release (sched.restorePending task.key task.pending) rows []
    | .ok .stale => task.leave (sched.clearTicketIfIdle task.key) rows .stale
    | .error _ => restore
  else
    match localConditionFailure task.pending.compiled task.pending.candidate with
    | some failure =>
      match replies.rejected with
      | .ok recorded =>
        task.leave (sched.clearTicketIfIdle task.key) rows
          (rejectedOutcome failure recorded).departure
      | .error _ => restore
    | none =>
      match replies.started with
      | .ok .current =>
        task.goOn (sched.markStarted engine.policy task.key task.nowUnixMs
          (engine.cooldown task)) rows (.localWork claimed)
      | .ok .stale => task.leave (sched.clearTicketIfIdle task.key) rows .stale
      | .error _ => restore

/-- A local task is polled once.  Its guard gives the key back in any case. -/
def runLocal (replies : LocalReplies) : TaskStep :=
  match replies.result with
  | .ok outcome => task.leave sched rows outcome.departure
  | .error _ => task.leave sched rows .answered

end EvaluationTask

/-! ### Preparation of a model task -/

inductive PreflightOutcome where
  | ready (prepared : Json)
  | settled (outcome : RunOutcome)
  | stale

/-- The replies that `prepare_claimed` gets. -/
structure PreparationReplies where
  loaded : Except StoreError (Option PreparationRecord)
  /-- The bounded record of `prepare_all_inputs` and `evaluator.prepare`. -/
  prepared : PreparationRecord
  recorded : ClaimReply
  /-- `validate_for_declarations` and `validate_prepared`. -/
  validated : Json → Except PreparationFailure Unit
  rejected : ClaimReply

def incompatiblePreparation (detail : String) : PreparationFailure where
  code := .incompatibleProfile
  detail

/-- The preparation that there is, or that is made now; none if the claim is stale. -/
def PreparationReplies.record (replies : PreparationReplies) (attempts : Nat) (complete : Bool) :
    Except StoreError (Option PreparationRecord) := do
  match ← replies.loaded with
  | some saved => return some saved
  | none =>
    if 0 < attempts || complete then
      return some (.rejected (incompatiblePreparation "The original preparation is unavailable."))
    else
      let recorded ← replies.recorded
      return if recorded = .stale then none else some replies.prepared

def PreparationReplies.request (replies : PreparationReplies) :
    PreparationRecord → Except PreparationFailure Json
  | .ready prepared => do
    replies.validated prepared
    return prepared
  | .rejected failure => .error failure
  | .localWork _ =>
    .error (incompatiblePreparation "A local preparation cannot evaluate a model decision.")

/-- `prepare_claimed`. -/
def CheckEngine.prepareClaimed (engine : CheckEngine) (replies : PreparationReplies)
    (attempts : Nat) (complete : Bool) : Except StoreError PreflightOutcome := do
  match ← replies.record attempts complete with
  | none => return .stale
  | some preparation =>
    match replies.request preparation with
    | .ok prepared => return .ready prepared
    | .error failure =>
      let recorded ← replies.rejected
      return .settled (EvaluationTask.rejectedOutcome (engine.boundedFailure failure) recorded)

/-- The replies that `start_model` gets. -/
structure ModelStartReplies where
  loaded : Except StoreError (List SavedDecisionAttempt)
  failed : ClaimReply
  preparation : PreparationReplies
  /-- `release_pre_dispatch_claim` after an error. -/
  restored : ClaimReply

def DecisionProgressState.isComplete : DecisionProgressState → Bool
  | complete _ => true
  | _ => false

namespace EvaluationTask

variable (engine : CheckEngine) (task : EvaluationTask) (sched : SchedulerState)
  (rows : DurableRows)

def startModel (claimed : ClaimedCandidate) (replies : ModelStartReplies) : TaskStep :=
  match replies.loaded with
  | .error _ =>
    task.releaseClaim sched rows { task.pending with resumed := true } claimed replies.restored
  | .ok progress =>
    let compiled := task.pending.compiled
    match validateDecisionProgress compiled.decisions (engine.questionRequirements compiled)
        progress with
    | .error error =>
      match replies.failed with
      | .ok recorded =>
        task.leave sched rows (recorded.orStale (.failed error.message)).departure
      | .error _ => task.leave sched rows .unrecorded
    | .ok validated =>
      let task := { task with pending := { task.pending with
        resumed := task.pending.resumed || decide (0 < validated.attempts) } }
      match engine.prepareClaimed replies.preparation validated.attempts
          validated.state.isComplete with
      | .ok (.ready prepared) => task.goOn sched rows
          (.ready { claimed, prepared, progress, attempts := validated.attempts })
      | .ok (.settled outcome) =>
        task.leave (sched.clearTicketIfIdle task.key) rows outcome.departure
      | .ok .stale => task.leave sched rows .stale
      | .error _ => task.releaseClaim sched rows task.pending claimed replies.restored

end EvaluationTask

/-! ### Model tasks -/

/-- The replies that `publish_model` gets. -/
structure PublicationReplies where
  validated : Except PreparationFailure Unit
  rejected : ClaimReply
  /-- `plan_status_actions_with_budget`. -/
  planned : Except String Unit
  failed : ClaimReply
  accepted : Except StoreError AcceptanceOutcome

/-- `publish_model`. -/
def CheckEngine.publishModel (engine : CheckEngine) (replies : PublicationReplies) :
    Except StoreError RunOutcome :=
  match replies.validated with
  | .error failure =>
    replies.rejected.map (·.orStale (.notAssessed (engine.boundedFailure failure).detail))
  | .ok _ =>
    match replies.planned with
    | .error detail => replies.failed.map (·.orStale (.failed detail))
    | .ok _ => replies.accepted.map AcceptanceOutcome.outcome

/-- The replies that a turn of `run_model` gets before it waits. -/
structure TurnReplies where
  publication : PublicationReplies
  /-- `record_evaluation_failure` of terminal progress. -/
  failed : ClaimReply
  limited : ClaimReply
  validated : Except PreparationFailure Unit
  rejected : ClaimReply
  intent : ClaimReply
  /-- Whether an intent is durable whose record failed. -/
  intentDurable : Bool
  /-- `release_pre_dispatch_claim` when the guard is dropped. -/
  released : ClaimReply

/-- `terminal_diagnostic`. -/
def DecisionProgressTerminal.diagnostic : DecisionProgressTerminal → EvaluationDiagnostic
  | unresolvedIntent => ⟨.deliveryUnknown, "An earlier decision dispatch has no settled " ++
      "delivery outcome. Automatic retry is blocked."⟩
  | unknown => ⟨.deliveryUnknown, "Decision delivery is unknown. Automatic retry is blocked."⟩
  | permanent => ⟨.invalidDecision, "Decision evaluation failed permanently."⟩
  | attemptsExhausted => ⟨.providerUnavailable, "Decision retries are exhausted."⟩

namespace EvaluationTask

variable (engine : CheckEngine) (task : EvaluationTask) (sched : SchedulerState)
  (rows : DurableRows)

def validate (progress : List SavedDecisionAttempt) :
    Except StoreError ValidatedDecisionProgress :=
  validateDecisionProgress task.activation.compiled.decisions
    (engine.questionRequirements task.activation.compiled) progress

def terminate (run : ModelRun) (terminal : DecisionProgressTerminal) (failed released : ClaimReply) :
    TaskStep :=
  let run := { run with releaseBranchOnDrop := false }
  let diagnostic := run.lastFailure.getD terminal.diagnostic
  task.ends sched rows run (.unrecorded run.progress) released
    (failed.map (·.orStale (.failed diagnostic.detail)))

/-- The next attempt: its intent is recorded before the evaluator is called. -/
def dispatch (run : ModelRun) (attempt : DecisionAttempt) (unfinishedDecisions : Nat)
    (replies : TurnReplies) : TaskStep :=
  let candidate := task.pending.candidate
  let remaining := task.maximumNewIntents - run.newIntents
  if remaining = 0 ∨ (run.firstIntent = true ∧ remaining < unfinishedDecisions) then
    task.ends sched rows run (.invalid run.progress) replies.released
      (replies.limited.map (·.orStale .limitReached))
  else
    match replies.validated with
    | .error failure =>
      task.ends sched rows run (.invalid run.progress) replies.released
        (replies.rejected.map (·.orStale (.notAssessed (engine.boundedFailure failure).detail)))
    | .ok _ =>
      -- a failed write can have committed, so the key stays reserved
      let run := { run with releaseBranchOnDrop := false }
      let recorded := rows.set candidate (rows.of candidate ++ [⟨attempt, .dispatchIntent⟩])
      match replies.intent with
      | .ok .current =>
        let sched := if run.firstIntent = true ∧ run.attempts = 0 then
            sched.markStarted engine.policy task.key task.nowUnixMs (engine.cooldown task)
          else sched
        let run := { run with
          attempts := run.attempts + 1
          newIntents := run.newIntents + 1
          firstIntent := false }
        task.goOn sched recorded (.awaiting run attempt)
          [.sent task.activation candidate attempt]
      | .ok .stale => task.leave sched rows .stale
      | .error _ =>
        task.dropGuard sched (if replies.intentDurable then recorded else rows) run
          (.unsettled attempt) replies.released

/-- A turn of `run_model`, up to the call of the evaluator. -/
def turn (run : ModelRun) (replies : TurnReplies) : TaskStep :=
  match task.validate engine run.progress with
  | .error _ => task.dropGuard sched rows run (.invalid run.progress) replies.released
  | .ok validated =>
    if validated.attempts ≠ run.attempts then
      task.dropGuard sched rows run (.invalid run.progress) replies.released
    else
      match validated.state with
      | .complete _ =>
        task.ends sched rows { run with releaseBranchOnDrop := true, safeRelease := false }
          (.invalid run.progress) replies.released (engine.publishModel replies.publication)
      | .terminal terminal =>
        task.terminate sched rows run terminal replies.failed replies.released
      | .next attempt unfinishedDecisions =>
        task.dispatch engine sched rows run attempt unfinishedDecisions replies

end EvaluationTask

/-- The replies that a turn gets after it has waited. -/
structure SettlementReplies where
  evaluated : Except EvaluationFailure DecisionResult
  recorded : ClaimReply
  /-- Whether a settlement is durable whose record failed. -/
  settlementDurable : Bool
  /-- `record_evaluation_failure` of terminal progress. -/
  failed : ClaimReply
  released : ClaimReply

namespace EvaluationTask

variable (engine : CheckEngine) (task : EvaluationTask) (sched : SchedulerState)
  (rows : DurableRows)

def settled (run : ModelRun) (replies : SettlementReplies) : TaskStep :=
  match task.validate engine run.progress with
  | .error _ => task.dropGuard sched rows run (.invalid run.progress) replies.released
  | .ok settled =>
    match settled.state with
    | .next _ _ => task.goOn sched rows (.ready { run with releaseBranchOnDrop := true })
    | .complete _ => task.goOn sched rows
        (.ready { run with releaseBranchOnDrop := true, safeRelease := false })
    | .terminal terminal =>
      -- the loop goes on without waiting, and reads the same progress
      if settled.attempts ≠ run.attempts then
        task.dropGuard sched rows run (.invalid run.progress) replies.released
      else task.terminate sched rows run terminal replies.failed replies.released

/-- The rest of a turn of `run_model`, once the evaluator has returned. -/
def settle (run : ModelRun) (attempt : DecisionAttempt) (replies : SettlementReplies) : TaskStep :=
  let candidate := task.pending.candidate
  let (outcome, failure) := settleDecisionAttempt task.activation.compiled.decisions
    (engine.questionRequirements task.activation.compiled) attempt replies.evaluated run.progress
  let recorded := rows.set candidate
    (StoreCheckStore.settleIntent attempt outcome (rows.of candidate))
  match replies.recorded with
  | .error _ =>
    task.dropGuard sched (if replies.settlementDurable then recorded else rows) run
      (.unsettled attempt) replies.released
  | .ok .stale => task.leave sched recorded .stale
  | .ok .current =>
    let run := { run with
      lastFailure := failure.map (·.2)
      progress := run.progress ++ [⟨attempt, outcome⟩] }
    task.settled engine sched recorded run replies

def dropped (released : ClaimReply) : Option TaskStep :=
  match task.phase with
  | .localWork _ => some (task.leave sched rows .answered)
  | .ready run => some (task.dropGuard sched rows run (.invalid run.progress) released)
  | .awaiting run attempt =>
    some (task.dropGuard sched rows run (.unsettled attempt) released)
  | _ => none

end EvaluationTask

end Antiburn
