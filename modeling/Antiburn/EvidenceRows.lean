/-
The tables that tie candidates to their evidence.

An observation is the committed value of one message for one check in one scope; a
dependency is the value a candidate was frozen on.  The columns of the current
status that name its assessment and say whether its evidence still stands are a
table of their own here, beside the status rows they belong to.
-/
import Antiburn.CandidateStore
import Antiburn.NativeFiles

namespace Antiburn

/-- A row of `burn_check_observation`. -/
structure ObservationRow where
  checkId : String
  activationScope : ActivationScope
  observationId : String
  session : SessionKey
  publicationSequence : Nat
  sourceFormat : String
  nativeIdentity : Option String
  nativeRevision : Option Int
  evidenceVersion : EvidenceVersion
  removed : Bool
  payloadJson : String

/-- `DependencyBinding`, as far as it says who revalidates a dependency. -/
inductive DependencyBinding where
  | hostObservation
  | nativeCurrent
  | sessionActivity
  deriving DecidableEq

/-- A row of `burn_check_candidate_dependency`. -/
structure DependencyRow where
  candidateId : CandidateId
  observationId : String
  session : SessionKey
  sourceFormat : String
  nativeRevision : Option Int
  evidenceVersion : EvidenceVersion
  removed : Bool
  payloadSha256 : Vector UInt8 32
  binding : Option DependencyBinding

def DependencyRow.ofMessage (row : DependencyRow) : Bool :=
  row.binding == none || row.binding == some .hostObservation

/-- `assessment_id` and `evidence_valid` of a row of `burn_check_current_status`.  A candidate
has one assessment. -/
structure StatusEvidenceRow where
  key : BranchKey
  candidateId : CandidateId
  evidenceValid : Bool

variable [Platform]

structure EvidenceTables extends CheckTables where
  observations : List ObservationRow
  dependencies : List DependencyRow
  statusEvidence : List StatusEvidenceRow

namespace EvidenceTables

/-- A fresh database. -/
def empty : EvidenceTables := ⟨.empty, [], [], []⟩

def observation? (tables : EvidenceTables) (checkId : String) (scope : ActivationScope)
    (observationId : String) : Option ObservationRow :=
  tables.observations.find? fun row =>
    row.checkId == checkId && row.activationScope == scope && row.observationId == observationId

/-- The tables of the candidates after one of their transactions. -/
def withChecks (tables : EvidenceTables) (checks : CheckTables) : EvidenceTables :=
  { tables with toCheckTables := checks }

end EvidenceTables

/-! ### Lifecycle -/

/-- Saves the lifecycle, cancels the unfinished candidates of the definition, and deletes its
statuses and observations. -/
def StoreCheckStore.replaceDefinition (store : StoreCheckStore) (definitionId : String)
    (tables : EvidenceTables) (record : LifecycleRecord) : EvidenceTables :=
  { tables with
    toCheckTables := store.replaceLifecycle definitionId record tables.toCheckTables
    statusEvidence := tables.statusEvidence.filter fun row =>
      !(row.key.checkId == definitionId && row.key.activationScope == store.scope)
    observations := tables.observations.filter fun row =>
      !(row.checkId == definitionId && row.activationScope == store.scope) }

def LifecycleRecord.markRemoved (record : LifecycleRecord) : LifecycleRecord :=
  { record with state := "removed" }

/-- `clear_burn_check_session_data_in`. -/
def EvidenceTables.clearSessionData (tables : EvidenceTables) : EvidenceTables where
  candidates := []
  activations := tables.activations.map fun row =>
    { row with enabled := false, lifecycle := row.lifecycle.map LifecycleRecord.markRemoved }
  cooldowns := []
  watermarks := []
  currentStatus := []
  observations := []
  dependencies := []
  statusEvidence := []

end Antiburn
