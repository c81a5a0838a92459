/-
The durable tables of the candidates.

A candidate is kept with the rows of other tables that refer to it: its attempts
in the order they were saved, and its assessment history.  JSON columns hold the
values they encode; the frozen input is absent once it is cleared.  Columns that
no statement below reads are left out.
-/
import Antiburn.Lib.Table
import Antiburn.Progress
import Antiburn.Scheduler

namespace Antiburn

/-! ### Equality of saved values -/

mutual

/-- Equality of JSON values, entry by entry. -/
def Json.same : Json → Json → Bool
  | .null, .null => true
  | .bool a, .bool b => a == b
  | .number a, .number b => a == b
  | .string a, .string b => a == b
  | .array a, .array b => Json.sameItems a b
  | .object a, .object b => Json.sameEntries a b
  | _, _ => false

@[inherit_doc Json.same]
def Json.sameItems : List Json → List Json → Bool
  | [], [] => true
  | a :: as, b :: bs => Json.same a b && Json.sameItems as bs
  | _, _ => false

@[inherit_doc Json.same]
def Json.sameEntries : List (String × Json) → List (String × Json) → Bool
  | [], [] => true
  | (k, a) :: as, (k', b) :: bs => k == k' && Json.same a b && Json.sameEntries as bs
  | _, _ => false

end

def Message.same (a b : Message) : Bool := a.id == b.id && a.value.same b.value

/-- Equality of two lists, item by item. -/
def sameList {α : Type} (same : α → α → Bool) : List α → List α → Bool
  | [], [] => true
  | a :: as, b :: bs => same a b && sameList same as bs
  | _, _ => false

def FrozenCandidate.same (a b : FrozenCandidate) : Bool :=
  a.activation == b.activation && a.branch == b.branch && a.triggerPosition == b.triggerPosition &&
    sameList Message.same a.messages b.messages && a.context.value.same b.context.value &&
    a.context.dependencies == b.context.dependencies && a.dependencies == b.dependencies &&
    a.fingerprint == b.fingerprint

lemma FrozenCandidate.key_of_same {a b : FrozenCandidate} (h : a.same b = true) :
    a.key = b.key := by
  simp only [FrozenCandidate.same, Bool.and_eq_true, beq_iff_eq] at h
  obtain ⟨⟨⟨⟨⟨⟨⟨hact, hbranch⟩, _⟩, _⟩, _⟩, _⟩, _⟩, _⟩ := h
  unfold FrozenCandidate.key
  rw [hact, hbranch]

/-! ### Preparation -/

/-- Checks saved counters against the production limits before restart. -/
def EvaluationBudget.validForResume (budget : EvaluationBudget) : Bool :=
  !budget.exhausted && budget.limits == EvaluationBudget.default.limits &&
    budget.maxItems == DEFAULT_MAX_EVALUATION_ITEMS &&
    budget.maxGeneratedBytes == DEFAULT_MAX_GENERATED_BYTES &&
    budget.maxMaterializedBytes == DEFAULT_MAX_MATERIALIZED_BYTES

structure LocalPreparation where
  version : Nat
  startedAtUnixMs : Nat
  evaluationBudget : EvaluationBudget
  deriving DecidableEq

def LocalPreparation.validForResume (preparation : LocalPreparation) : Bool :=
  preparation.version == 1 && preparation.evaluationBudget.validForResume

inductive PreparationRecord where
  | ready (prepared : Json)
  | localWork (preparation : LocalPreparation)
  | rejected (failure : PreparationFailure)

namespace PreparationRecord

def isLocal : PreparationRecord → Bool
  | localWork _ => true
  | _ => false

def same : PreparationRecord → PreparationRecord → Bool
  | ready a, ready b => a.same b
  | localWork a, localWork b => a == b
  | rejected a, rejected b => a == b
  | _, _ => false

end PreparationRecord

/-! ### States -/

/-- `burn_check_candidate.state`. -/
inductive CandidateState where
  | pending | claimed | dispatching | answered
  | accepted | coalesced | notAssessed | executionFailed | cancelled | stale
  deriving DecidableEq

/-- `burn_check_assessment_history.outcome`. -/
inductive AssessmentOutcome where
  | assessed | notAssessed | executionFailed | cancelled | stale
  deriving DecidableEq

namespace CandidateState

def busy : CandidateState → Bool
  | claimed | dispatching | answered => true
  | _ => false

def unfinished (state : CandidateState) : Bool := state == pending || state.busy

def outcome? : CandidateState → Option AssessmentOutcome
  | accepted => some .assessed
  | notAssessed => some .notAssessed
  | executionFailed => some .executionFailed
  | cancelled => some .cancelled
  | stale => some .stale
  | _ => none

@[simp] lemma unfinished_of_busy {state : CandidateState} (h : state.busy = true) :
    state.unfinished = true := by
  unfold unfinished
  rw [h, Bool.or_true]

end CandidateState

/-! ### Rows -/

variable [Platform]

structure AssessmentHistoryRow where
  outcome : AssessmentOutcome
  answer : Option EvaluatedAssessment
  actions : Json

structure BranchKey where
  checkId : String
  activationScope : ActivationScope
  generation : Nat
  branch : BranchId
  deriving DecidableEq

structure CandidateRow where
  candidateId : CandidateId
  key : BranchKey
  triggerPosition : ObservationPosition
  frozenInput : Option FrozenCandidate
  state : CandidateState
  claimOwner : Option String
  claimFence : Nat
  priorStatus : Option StatusResult
  startedCooldownUntilEpoch : Option Nat
  preparation : Option PreparationRecord
  answer : Option EvaluatedAssessment
  diagnostic : Option EvaluationDiagnostic
  attempts : List SavedDecisionAttempt
  history : List AssessmentHistoryRow

/-- `burn_check_activation.lifecycle_json`. -/
structure LifecycleRecord where
  version : Nat
  generation : Nat
  revision : Vector UInt8 32
  state : String
  definitionScope : String
  sourcePaths : List String
  projectRoot : Option String
  bootstrapObservationPosition : ObservationPosition
  bootstrapPublication : PublicationCursor
  deriving DecidableEq

structure ActivationRow where
  checkId : String
  activationScope : ActivationScope
  definitionRevision : Vector UInt8 32
  enabled : Bool
  generation : Nat
  lifecycle : Option LifecycleRecord

/-- `burn_check_cooldown`, in seconds. -/
structure CooldownRow where
  key : BranchKey
  untilEpoch : Nat

/-- `burn_check_acceptance_watermark`, one row for each branch of an activation. -/
structure WatermarkRow where
  key : BranchKey
  position : ObservationPosition

/-- `burn_check_current_status`, one row for each branch of an activation. -/
structure CurrentStatusRow where
  key : BranchKey
  status : StatusResult
  position : ObservationPosition

structure CheckTables where
  candidates : List CandidateRow
  activations : List ActivationRow
  cooldowns : List CooldownRow
  watermarks : List WatermarkRow
  currentStatus : List CurrentStatusRow

namespace CheckTables

/-- A fresh database. -/
def empty : CheckTables := ⟨[], [], [], [], []⟩

def candidate? (tables : CheckTables) (id : CandidateId) : Option CandidateRow :=
  Table.lookup CandidateRow.candidateId id tables.candidates

/-- `UPDATE burn_check_candidate SET set WHERE condition`. -/
def update (tables : CheckTables) (condition : CandidateRow → Bool)
    (set : CandidateRow → CandidateRow) : CheckTables :=
  { tables with candidates := Table.update condition set tables.candidates }

def activation? (tables : CheckTables) (checkId : String) (scope : ActivationScope) :
    Option ActivationRow :=
  tables.activations.find? fun row => row.checkId == checkId && row.activationScope == scope

def generationActive (tables : CheckTables) (row : CandidateRow) : Bool :=
  (tables.activation? row.key.checkId row.key.activationScope).any fun activation =>
    activation.generation == row.key.generation && activation.enabled

end CheckTables

def BranchKey.sameBranch (a b : BranchKey) : Bool :=
  a.checkId == b.checkId && a.activationScope == b.activationScope && a.branch == b.branch

/-- `INSERT … ON CONFLICT(conflict) DO UPDATE SET …`. -/
def upsert {ρ : Type} (conflict : ρ → Bool) (set : ρ → ρ) (row : ρ) (rows : List ρ) : List ρ :=
  if rows.any conflict then Table.update conflict set rows else Table.insert row rows

namespace CheckTables

def cooldownUntil (tables : CheckTables) (key : BranchKey) : Option Nat :=
  (tables.cooldowns.find? fun row => row.key == key).map (·.untilEpoch)

def saveCooldown (tables : CheckTables) (key : BranchKey) (untilEpoch : Nat) : CheckTables :=
  { tables with
    cooldowns := upsert (fun row => row.key == key)
      (fun row => { row with untilEpoch := max row.untilEpoch untilEpoch }) ⟨key, untilEpoch⟩
      tables.cooldowns }

def watermark (tables : CheckTables) (key : BranchKey) : Option ObservationPosition :=
  (tables.watermarks.find? fun row => row.key == key).map (·.position)

def saveWatermark (tables : CheckTables) (key : BranchKey) (position : ObservationPosition) :
    CheckTables :=
  { tables with
    watermarks := upsert (fun row => row.key.sameBranch key) (fun _ => ⟨key, position⟩)
      ⟨key, position⟩ tables.watermarks }

def statusOf (tables : CheckTables) (key : BranchKey) : Option StatusResult :=
  (tables.currentStatus.find? fun row => row.key == key).map (·.status)

def saveStatus (tables : CheckTables) (key : BranchKey) (status : StatusResult)
    (position : ObservationPosition) : CheckTables :=
  { tables with
    currentStatus := upsert (fun row => row.key.sameBranch key) (fun _ => ⟨key, status, position⟩)
      ⟨key, status, position⟩ tables.currentStatus }

end CheckTables

namespace CandidateRow

/-- `INSERT INTO burn_check_assessment_history … ON CONFLICT(candidate_id) DO NOTHING`. -/
def recordHistory (entry : AssessmentHistoryRow) (row : CandidateRow) : CandidateRow :=
  if row.history.isEmpty then { row with history := [entry] } else row

def historyAt (outcome : AssessmentOutcome) (row : CandidateRow) : AssessmentHistoryRow :=
  ⟨outcome, row.answer, .object []⟩

end CandidateRow

/-- `{"detail": detail}`. -/
def detailJson (detail : String) : Json := .object [("detail", .string detail)]

end Antiburn
