/-
Definition lifecycles and the generations of their activations.

A definition is reconciled against the state that was saved for it, the transition
is saved by a compare-and-swap on the generation, and the activation is registered
when it is read back.  Other transactions may come between the commit and the
registration.  A restart forgets what is registered; the clearing of all session
data edits the saved records in place.
-/
import Antiburn.EvidenceRows

namespace Antiburn

variable [Platform]

/-! ### Definitions and their states -/

/-- A compiled definition and its `question_requirements()`. -/
structure CompiledDefinition where
  compiled : CompiledCheck
  requirements : List QuestionRequirements

inductive DefinitionState where
  | ready (compiled : CompiledDefinition)
  | invalid
  | paused

structure EffectiveDefinition where
  id : String
  scope : String
  sourcePaths : List String
  contentRevision : Vector UInt8 32
  state : DefinitionState

inductive LifecycleState where
  | active (active : RegisteredActivation)
  /-- An active generation whose current definition cannot compile. -/
  | uncompiled (generation : Nat)
  | inactive (revision : Vector UInt8 32) (projectRoot : Option String) (generation : Nat)
      (scope : String) (sourcePaths : List String) (inactiveKind : InactiveKind)
  | removed (generation : Nat)

/-- `next_generation`. -/
def nextGeneration : LifecycleState → Nat
  | .active active => saturatingAdd active.id.generation 1
  | .inactive _ _ generation _ _ _ | .removed generation | .uncompiled generation =>
    saturatingAdd generation 1

def LifecycleState.sameInactive (definition : EffectiveDefinition) (projectRoot : Option String)
    (kind : InactiveKind) : LifecycleState → Bool
  | .inactive revision oldProject _ scope sourcePaths oldKind =>
    revision == definition.contentRevision && oldProject == projectRoot &&
      scope == definition.scope && sourcePaths == definition.sourcePaths && oldKind == kind
  | _ => false

def deactivate (previous : LifecycleState) (definition : EffectiveDefinition)
    (projectRoot : Option String) (kind : InactiveKind) : LifecycleTransition :=
  if previous.sameInactive definition projectRoot kind then .unchangedInactive
  else .deactivated definition.contentRevision projectRoot definition.scope definition.sourcePaths
    kind (nextGeneration previous)

def LifecycleState.sameActive (definition : EffectiveDefinition) (projectRoot : Option String)
    (scopeBinding : ActivationScope) : LifecycleState → Option RegisteredActivation
  | .active old =>
    if old.id.scope == scopeBinding && old.revision == definition.contentRevision &&
        old.projectRoot == projectRoot && old.definitionScope == definition.scope &&
        old.sourcePaths == definition.sourcePaths then some old
    else none
  | _ => none

/-- `reconcile_scoped`. -/
def reconcileScoped (previous : LifecycleState) (definition : Option EffectiveDefinition)
    (projectRoot : Option String) (scopeBinding : ActivationScope)
    (bootstrapHead : ObservationPosition) (bootstrapPublication : PublicationCursor) :
    LifecycleTransition :=
  match definition with
  | none =>
    match previous with
    | .removed generation => .removed generation
    | _ => .removed (nextGeneration previous)
  | some definition =>
    match definition.state with
    | .invalid => deactivate previous definition projectRoot .invalid
    | .paused => deactivate previous definition projectRoot .paused
    | .ready compiled =>
      match previous.sameActive definition projectRoot scopeBinding with
      | some active => .unchanged active
      | none => .activated
        { id := ⟨scopeBinding, definition.id, nextGeneration previous⟩
          compiled := compiled.compiled
          requirements := compiled.requirements
          revision := definition.contentRevision
          definitionScope := definition.scope
          sourcePaths := definition.sourcePaths
          projectRoot
          bootstrapObservationPosition := bootstrapHead
          bootstrapPublication }

/-! ### The saved lifecycle -/

namespace StoreCheckStore

variable (store : StoreCheckStore) (definitionId : String)

def savedActivation (record : LifecycleRecord) (compiled : CompiledDefinition) :
    RegisteredActivation where
  id := ⟨store.scope, definitionId, record.generation⟩
  compiled := compiled.compiled
  requirements := compiled.requirements
  revision := record.revision
  definitionScope := record.definitionScope
  sourcePaths := record.sourcePaths
  projectRoot := record.projectRoot
  bootstrapObservationPosition := record.bootstrapObservationPosition
  bootstrapPublication := record.bootstrapPublication

def savedState (record : LifecycleRecord) (compiled : Option CompiledDefinition) :
    Except StoreError LifecycleState :=
  let inactive kind := .inactive record.revision record.projectRoot record.generation
    record.definitionScope record.sourcePaths kind
  if record.state = "active" then
    match compiled with
    | none => .ok (.uncompiled record.generation)
    | some compiled => .ok (.active (store.savedActivation definitionId record compiled))
  else if record.state = "invalid" then .ok (inactive .invalid)
  else if record.state = "paused" then .ok (inactive .paused)
  else if record.state = "removed" then .ok (.removed record.generation)
  else .error ⟨"invalid lifecycle state"⟩

/-- `read_lifecycle`. -/
def readLifecycle (compiled : Option CompiledDefinition) (tables : CheckTables) :
    Except StoreError LifecycleState :=
  match (tables.activation? definitionId store.scope).bind (·.lifecycle) with
  | none => .ok (.removed 0)
  | some record => do
    ensure (record.version == 1) "unsupported lifecycle version"
    ensure (record.definitionScope == "global" || record.definitionScope == "project")
      "invalid definition scope"
    store.savedState definitionId record compiled

/-- `validate_durable_activation`. -/
def validateDurableActivation (activation : RegisteredActivation) (tables : CheckTables) :
    Except StoreError Unit := do
  store.validateActivation activation
  ensure ((tables.activation? activation.id.definitionId store.scope).any fun row =>
      row.generation == activation.id.generation && row.definitionRevision == activation.revision &&
        row.enabled)
    "activation does not match durable generation and revision"

end StoreCheckStore

/-! ### Runs -/

/-- The store, and the activations of calls that have committed but not registered them yet. -/
structure LifecycleRun where
  tables : EvidenceTables
  registering : List RegisteredActivation

inductive LifecycleOp where
  /-- The transaction of `activate`, for a definition as it is discovered.  The commit may
  fail. -/
  | reconcile (previous : LifecycleState) (definition : Option EffectiveDefinition)
      (projectRoot : Option String) (bootstrapHead : ObservationPosition)
      (bootstrapPublication : PublicationCursor) (committed : Bool)
  /-- The transaction of `activate`, for a transition made otherwise. -/
  | activate (transition : LifecycleTransition) (committed : Bool)
  /-- The end of a call of `activate`, which registers what it committed. -/
  | register (index : Nat)
  /-- `load_lifecycle`. -/
  | load (compiled : Option CompiledDefinition)
  | restart
  /-- The clearing of all session data. -/
  | clear
  /-- Other transactions change candidates, statuses and observations. -/
  | work (tables : EvidenceTables)

inductive LifecycleReply where
  | failed (error : StoreError)
  /-- The transition changes nothing. -/
  | unchanged
  | committed (record : LifecycleRecord)
  | registered (activation : RegisteredActivation)
  | loaded (state : LifecycleState)
  | done

structure LifecycleLabel where
  op : LifecycleOp
  reply : LifecycleReply

namespace LifecycleRun

variable (store : StoreCheckStore) (definitionId : String) (run : LifecycleRun)

/-- A store before the first call, without a row for the definition. -/
def fresh (tables : EvidenceTables) : LifecycleRun where
  tables := { tables with
    activations := tables.activations.filter fun row =>
      !(row.checkId == definitionId && row.activationScope == store.scope) }
  registering := []

/-- A transaction of `activate`. -/
def persist (transition : LifecycleTransition) (committed : Bool) : LifecycleReply × LifecycleRun :=
  match store.lifecycleChange definitionId transition (transition.active?.map (·.id))
      run.tables.toCheckTables with
  | .error error => (.failed error, run)
  | .ok none => (.unchanged, { run with registering := transition.active?.toList ++ run.registering })
  | .ok (some record) =>
    if !committed then (.failed ⟨"commit failed"⟩, run)
    else (.committed record,
      { run with
        tables := store.replaceDefinition definitionId run.tables record
        registering := transition.active?.toList ++ run.registering })

/-- The registration that follows. -/
def register (activation : RegisteredActivation) : LifecycleReply :=
  match store.validateDurableActivation activation run.tables.toCheckTables with
  | .error error => .failed error
  | .ok () => .registered activation

/-- What an operation does, if it can happen. -/
def apply : LifecycleOp → Option (LifecycleReply × LifecycleRun)
  | .reconcile previous definition projectRoot bootstrapHead bootstrapPublication committed =>
    some (run.persist store definitionId (reconcileScoped previous definition projectRoot
      store.scope bootstrapHead bootstrapPublication) committed)
  | .activate transition committed => some (run.persist store definitionId transition committed)
  | .register index => run.registering[index]?.map fun activation =>
    (run.register store activation, { run with registering := run.registering.eraseIdx index })
  | .load compiled =>
    match store.readLifecycle definitionId compiled run.tables.toCheckTables with
    | .error error => some (.failed error, run)
    | .ok state => some (.loaded state, run)
  | .restart => some (.done, { run with registering := [] })
  | .clear => some (.done, { run with tables := run.tables.clearSessionData })
  | .work tables =>
    some (.done, { run with tables := { tables with activations := run.tables.activations } })

end LifecycleRun

def definitionLifecycle (store : StoreCheckStore) (definitionId : String) :
    Machine LifecycleRun LifecycleLabel where
  step before label after := before.apply store definitionId label.op = some (label.reply, after)

end Antiburn
