/-
The store of the candidates together with their evidence.

A page writes the observations it carries and revokes what rested on the values that
they replace; it freezes the dependencies of the candidates it adds.  An acceptance
compares the dependencies of its candidate with the observations, and writes the
status it was asked for.  What happens to the candidates themselves is decided by the
transactions they have anyway, which are told here what the evidence says.
-/
import Antiburn.EvidenceRows
import Antiburn.CandidateSafety

namespace Antiburn

structure EvidenceCodec where
  /-- `payload_sha256`. -/
  sha256 : String → Vector UInt8 32
  /-- The `kind` of the payload is a session start or a session idle.  These are the
  observations that are published for one target. -/
  sessionEvent : String → Bool

/-- `COALESCE(native_revision, -1)`. -/
def coalesceRevision (revision : Option Int) : Int := revision.getD (-1)

/-- `NULLIF(revision, -1)`. -/
def nullIfRevision (revision : Int) : Option Int := if revision = -1 then none else some revision

/-! ### Observations -/

/-- `BurnCheckObservationRecord`. -/
structure PageObservation where
  publicationSequence : Nat
  session : SessionKey
  observationId : String
  sourceFormat : String
  nativeIdentity : String
  nativeRevision : Int
  evidenceVersion : EvidenceVersion
  removed : Bool
  payload : String

namespace PageObservation

variable (record : PageObservation)

/-- The row that is written.  The publications of a target have no identity. -/
def row (codec : EvidenceCodec) (checkId : String) (scope : ActivationScope) : ObservationRow where
  checkId
  activationScope := scope
  observationId := record.observationId
  session := record.session
  publicationSequence := record.publicationSequence
  sourceFormat := record.sourceFormat
  nativeIdentity := if codec.sessionEvent record.payload then none else some record.nativeIdentity
  nativeRevision := if codec.sessionEvent record.payload then none else some record.nativeRevision
  evidenceVersion := record.evidenceVersion
  removed := record.removed
  payloadJson := record.payload

def changes (old : ObservationRow) : Bool :=
  old.session != record.session || old.sourceFormat != record.sourceFormat ||
    old.nativeIdentity.getD "" != record.nativeIdentity ||
    coalesceRevision old.nativeRevision != record.nativeRevision ||
    old.evidenceVersion != record.evidenceVersion || old.removed != record.removed ||
    old.payloadJson != record.payload

end PageObservation

def observationOf (checkId : String) (scope : ActivationScope) (observationId : String)
    (row : ObservationRow) : Bool :=
  row.checkId == checkId && row.activationScope == scope && row.observationId == observationId

/-- `INSERT INTO burn_check_observation … ON CONFLICT … DO UPDATE SET …`. -/
def saveObservation (row : ObservationRow) (rows : List ObservationRow) : List ObservationRow :=
  upsert (observationOf row.checkId row.activationScope row.observationId) (fun _ => row) row rows

def changedObservations (codec : EvidenceCodec) (checkId : String) (scope : ActivationScope)
    (rows : List ObservationRow) : List PageObservation → List (String × SessionKey)
  | [] => []
  | record :: records =>
    let rest := changedObservations codec checkId scope
      (saveObservation (record.row codec checkId scope) rows) records
    match rows.find? (observationOf checkId scope record.observationId) with
    | some old =>
      if record.changes old then (record.observationId, old.session) :: rest else rest
    | none => rest

section EvidenceStore

variable [Platform]

/-! ### Dependencies -/

inductive PageDependency where
  | message (version : EvidenceVersion)
  | nativeCurrent (version : EvidenceVersion) (sourceFormat : String) (revision : Int)
      (payloadSha256 : Vector UInt8 32)
  | sessionActivity (version : EvidenceVersion)

/-- `BurnCheckPublicationPage` and its checkpoint. -/
structure EvidencePage where
  activation : RegisteredActivation
  /-- The cursors, the publications and the checkpoint of the page fit the saved ones. -/
  accepted : Bool
  observations : List PageObservation
  invalidatedBranches : List BranchId
  resetBranches : List BranchId
  candidates : List FrozenCandidate
  session : CandidateId → SessionKey
  selectedPublicationHead : CandidateId → Nat
  dependencies : CandidateId → List (String × PageDependency)
  /-- `typed_dependencies_current_in`. -/
  typedDependenciesCurrent : CandidateId → Bool

def freezeDependency (codec : EvidenceCodec) (rows : List ObservationRow) (checkId : String)
    (scope : ActivationScope) (id : CandidateId) (session : SessionKey) :
    String × PageDependency → Except StoreError DependencyRow
  | (observationId, .message _) =>
    match rows.find? (observationOf checkId scope observationId) with
    | none => .error ⟨"candidate dependency has no committed observation"⟩
    | some row => .ok
      { candidateId := id
        observationId
        session := row.session
        sourceFormat := row.sourceFormat
        nativeRevision := nullIfRevision (coalesceRevision row.nativeRevision)
        evidenceVersion := row.evidenceVersion
        removed := row.removed
        payloadSha256 := codec.sha256 row.payloadJson
        -- the observer of a session event is of the publication
        binding := if codec.sessionEvent row.payloadJson then some .hostObservation else none }
  | (observationId, .nativeCurrent version sourceFormat revision payloadSha256) => .ok
    ⟨id, observationId, session, sourceFormat, some revision, version, false, payloadSha256,
      some .nativeCurrent⟩
  | (observationId, .sessionActivity version) => .ok
    -- no hash is saved for an activity
    ⟨id, observationId, session, "attachment-observer", none, version, false,
      Vector.replicate 32 0, some .sessionActivity⟩

def messageCurrent (rows : List ObservationRow) (checkId : String) (scope : ActivationScope)
    (session : SessionKey) (head : Nat) : String × PageDependency → Bool
  | (observationId, .message version) =>
    (rows.find? (observationOf checkId scope observationId)).any fun row =>
      row.session == session && row.evidenceVersion == version && !row.removed &&
        decide (row.publicationSequence ≤ head)
  | _ => true

namespace DependencyRow

variable (row : DependencyRow)

/-- The observation is the one that the dependency was frozen on. -/
def standsOn (codec : EvidenceCodec) (observation : ObservationRow) : Bool :=
  observation.session == row.session && observation.sourceFormat == row.sourceFormat &&
    coalesceRevision observation.nativeRevision == coalesceRevision row.nativeRevision &&
    observation.evidenceVersion == row.evidenceVersion && observation.removed == row.removed &&
    !row.removed && codec.sha256 observation.payloadJson == row.payloadSha256

/-- A dependency on a session's activity, which outlives the window of its branch. -/
def ofActivity : Bool := row.binding == some .sessionActivity

end DependencyRow

namespace EvidenceTables

variable (tables : EvidenceTables)

def dependsOn (id : CandidateId) (change : String × SessionKey) : Bool :=
  tables.dependencies.any fun row =>
    row.candidateId == id && row.observationId == change.1 && row.session == change.2

/-- The messages that a candidate depends on are as they were. -/
def observationsCurrent (codec : EvidenceCodec) (id : CandidateId) : Bool :=
  (tables.candidate? id).any fun candidate =>
    (tables.dependencies.filter fun row => row.candidateId == id && row.ofMessage).all fun row =>
      (tables.observation? candidate.key.checkId candidate.key.activationScope
        row.observationId).any (row.standsOn codec)

/-- `UPDATE burn_check_current_status SET evidence_valid = 0`. -/
def revoke (condition : StatusEvidenceRow → Bool) : EvidenceTables :=
  { tables with
    statusEvidence := Table.update condition (fun row => { row with evidenceValid := false })
      tables.statusEvidence }

/-- `INSERT INTO burn_check_current_status … ON CONFLICT … DO UPDATE SET …`, as far as it says
whose assessment a status is. -/
def saveStatusEvidence (row : StatusEvidenceRow) : EvidenceTables :=
  { tables with
    statusEvidence := upsert (fun old => old.key.sameBranch row.key) (fun _ => row) row
      tables.statusEvidence }

end EvidenceTables

/-! ### Pages -/

namespace EvidencePage

variable (page : EvidencePage) (codec : EvidenceCodec) (tables : EvidenceTables)

def checkId : String := page.activation.id.definitionId

def added : List CandidateId :=
  (page.candidates.map FrozenCandidate.fingerprint).eraseDups.filter fun id =>
    (tables.candidate? id).isNone

def observed (scope : ActivationScope) : List ObservationRow :=
  page.observations.foldl (fun rows record =>
    saveObservation (record.row codec page.checkId scope) rows) tables.observations

def changed (scope : ActivationScope) : List (String × SessionKey) :=
  changedObservations codec page.checkId scope tables.observations page.observations

def publication (scope : ActivationScope) : StoreCheckStore.PublicationPage where
  activation := page.activation
  accepted := page.accepted
  revoked id := (page.changed codec tables scope).any (tables.dependsOn id)
  invalidatedBranches := page.invalidatedBranches
  resetBranches := page.resetBranches
  candidates := page.candidates
  dependenciesCurrent id :=
    (page.dependencies id).all (messageCurrent (page.observed codec tables scope) page.checkId scope
      (page.session id) (page.selectedPublicationHead id)) && page.typedDependenciesCurrent id

def revokes (scope : ActivationScope) (row : StatusEvidenceRow) : Bool :=
  row.key.checkId == page.checkId && row.key.activationScope == scope &&
    ((page.changed codec tables scope).any (tables.dependsOn row.candidateId) ||
      page.invalidatedBranches.contains row.key.branch && !tables.dependencies.any fun dependency =>
        dependency.candidateId == row.candidateId && dependency.ofActivity)

end EvidencePage

namespace StoreCheckStore

variable (store : StoreCheckStore) (codec : EvidenceCodec)

def freezeDependencies (page : EvidencePage) (tables : EvidenceTables) :
    Except StoreError (List DependencyRow) :=
  (page.added tables).flatMapM fun id => (page.dependencies id).mapM
    (freezeDependency codec (page.observed codec tables store.scope) page.checkId store.scope id
      (page.session id))

/-- `persist_page` and `apply_burn_check_publications_with_checkpoint`, with the evidence. -/
def persistEvidencePage (page : EvidencePage) (tables : EvidenceTables) :
    Except StoreError EvidenceTables := do
  let checks ← store.persistPage (page.publication codec tables store.scope) tables.toCheckTables
  let frozen ← store.freezeDependencies codec page tables
  return {
    toCheckTables := checks
    observations := page.observed codec tables store.scope
    dependencies := tables.dependencies ++ frozen
    statusEvidence := (tables.revoke (page.revokes codec tables store.scope)).statusEvidence }

/-! ### Startup -/

/-- The observation of a snapshot, whose publication is the current one of its identity. -/
structure SnapshotObservation where
  record : PageObservation
  /-- The identity that the publication has. -/
  publishedIdentity : Option String
  current : Bool

def SnapshotObservation.row (observation : SnapshotObservation) (checkId : String)
    (scope : ActivationScope) : ObservationRow :=
  { observation.record.row ⟨codec.sha256, fun _ => false⟩ checkId scope with
    nativeIdentity := observation.publishedIdentity
    removed := false }

def saveSnapshot (checkId : String) (rows : List ObservationRow)
    (observation : SnapshotObservation) : Except StoreError (List ObservationRow) := do
  -- a session event is no current publication of an identity
  ensure (observation.current && !codec.sessionEvent observation.record.payload)
    "the snapshot is not current"
  ensure ((rows.find? (observationOf checkId store.scope observation.record.observationId)).isNone)
    "UNIQUE constraint failed: burn_check_observation.observation_id"
  return Table.insert (SnapshotObservation.row codec observation checkId store.scope) rows

def freezeSnapshot (checkId : String) (rows : List ObservationRow) (id : CandidateId)
    (session : SessionKey) (observationId : String) : Except StoreError DependencyRow :=
  match rows.find? (observationOf checkId store.scope observationId) with
  | none => .error ⟨"Query returned no rows"⟩
  | some row =>
    match row.nativeRevision with
    | none => .error ⟨"Invalid column type Null at index: 1, name: native_revision"⟩
    | some revision => .ok
      { candidateId := id
        observationId
        session
        sourceFormat := row.sourceFormat
        nativeRevision := some revision
        evidenceVersion := row.evidenceVersion
        removed := false
        payloadSha256 := codec.sha256 row.payloadJson
        binding := none }

/-- `initialize_recent`, with the evidence. -/
def initializeRecentEvidence (activation : RegisteredActivation) (branch : BranchId)
    (session : SessionKey) (snapshot : List SnapshotObservation)
    (candidate : Option (FrozenCandidate × List String)) (tables : EvidenceTables) :
    Except StoreError EvidenceTables := do
  let checkId := activation.id.definitionId
  let observations ← snapshot.foldlM (store.saveSnapshot codec checkId) tables.observations
  let checks ← store.initializeRecent activation branch (candidate.map (·.1)) tables.toCheckTables
  let frozen ← candidate.elim (.ok []) fun (candidate, messages) =>
    messages.mapM (store.freezeSnapshot codec checkId observations candidate.fingerprint session)
  return {
    toCheckTables := checks
    observations
    dependencies := tables.dependencies ++ frozen
    statusEvidence := tables.statusEvidence }

/-! ### Acceptance -/

/-- `accept`, with the evidence. -/
def acceptEvidence (gate : RegisteredActivation → Bool) (view : AcceptanceView)
    (claimed : ClaimedCandidate) (accepted : BurnCheckAnswer) (tables : EvidenceTables) :
    Except StoreError (AcceptanceOutcome × EvidenceTables) := do
  let view := { view with observationsCurrent := tables.observationsCurrent codec }
  let (outcome, checks) ← store.accept gate view claimed accepted tables.toCheckTables
  let after := tables.withChecks checks
  match outcome, accepted.statusWrite, tables.candidate? claimed.id with
  | .accepted, some _, some row =>
    return (outcome, after.saveStatusEvidence ⟨row.key, claimed.id, true⟩)
  | _, _, _ => return (outcome, after)

end StoreCheckStore

/-! ### Runs -/

def CheckStoreOp.leavesEvidence : CheckStoreOp → Bool
  | accept .. | lifecycle .. | persistPage .. | initializeRecent .. => false
  | _ => true

inductive EvidenceStoreOp where
  /-- Claims, answers, settlements and recovery. -/
  | checks (op : CheckStoreOp) (hop : op.leavesEvidence = true)
  | accept (store : StoreCheckStore) (gate : RegisteredActivation → Bool) (view : AcceptanceView)
      (claimed : ClaimedCandidate) (accepted : BurnCheckAnswer)
  | lifecycle (store : StoreCheckStore) (definitionId : String) (transition : LifecycleTransition)
      (activation : Option ActivationId)
  | persistPage (store : StoreCheckStore) (page : EvidencePage)
  | initializeRecent (store : StoreCheckStore) (activation : RegisteredActivation)
      (branch : BranchId) (session : SessionKey)
      (snapshot : List StoreCheckStore.SnapshotObservation)
      (candidate : Option (FrozenCandidate × List String))
  /-- Other code finds typed bindings outdated. -/
  | revoke (condition : StatusEvidenceRow → Bool)

structure Acceptance where
  candidateId : CandidateId
  key : BranchKey
  position : ObservationPosition
  wroteStatus : Bool

namespace EvidenceStoreOp

def commit (codec : EvidenceCodec) (tables : EvidenceTables) :
    EvidenceStoreOp → Except StoreError EvidenceTables
  | checks op _ => (op.commit tables.toCheckTables).map tables.withChecks
  | accept store gate view claimed accepted =>
    (store.acceptEvidence codec gate view claimed accepted tables).map (·.2)
  | lifecycle store definitionId transition activation =>
    (store.lifecycleChange definitionId transition activation tables.toCheckTables).map fun record =>
      record.elim tables (store.replaceDefinition definitionId tables)
  | persistPage store page => store.persistEvidencePage codec page tables
  | initializeRecent store activation branch session snapshot candidate =>
    store.initializeRecentEvidence codec activation branch session snapshot candidate tables
  | revoke condition => .ok (tables.revoke condition)

def acceptance? (codec : EvidenceCodec) (tables : EvidenceTables) :
    EvidenceStoreOp → Option Acceptance
  | accept store gate view claimed accepted =>
    match store.acceptEvidence codec gate view claimed accepted tables with
    | .ok (.accepted, _) => (tables.candidate? claimed.id).map fun row =>
        ⟨claimed.id, row.key, row.triggerPosition, accepted.statusWrite.isSome⟩
    | _ => none
  | _ => none

end EvidenceStoreOp

structure EvidenceStoreLabel where
  op : EvidenceStoreOp
  acceptance : Option Acceptance

/-- The store of candidates and evidence.  A transaction that fails commits nothing. -/
def evidenceStore (codec : EvidenceCodec) : Machine EvidenceTables EvidenceStoreLabel where
  step before label after := label.acceptance = label.op.acceptance? codec before ∧
    (label.op.commit codec before = .ok after ∨
      (∃ error, label.op.commit codec before = .error error) ∧ after = before)

end EvidenceStore

end Antiburn
