/-
Per-branch event filtering and bounded candidate selection.

The selector of one activation keeps, for each branch, a rolling window and a
coverage flag, and, for each source identity, what became of its first terminal
result.  The functions here are the source's, in its order of checks; a panic
and a failed inventory capture are the two faults, after which the caller
discards the state.
-/
import Antiburn.Filters
import Antiburn.Lib.TreeMap

namespace Antiburn

/-- Maximum number of selected messages retained for one branch. -/
def MAX_WINDOW_MESSAGES : Nat := 40

/-- Maximum number of source identities retained for one branch and activation. -/
def MAX_SEEN_RESULTS_PER_BRANCH : Nat := 4096

/-! ### State -/

inductive ResultMembership where
  /-- An older checkpoint does not retain selection history. -/
  | unknown
  /-- The first terminal result precedes the activation boundary. -/
  | historical
  /-- The latest terminal value fails selection or lacks required context. -/
  | excluded
  /-- The result enters the rolling window. -/
  | selected
  /-- The result leaves the rolling window and cannot enter it again. -/
  | retired
  /-- A removal prevents an equal or older revision from restoring the result. -/
  | removed
  deriving DecidableEq

/-- Latest committed source version for one logical event identity. -/
structure SeenResult where
  terminalSeen : Bool
  revision : Nat
  version : EvidenceVersion
  nativeOrder : NativeOrderKey
  membership : ResultMembership
  deriving DecidableEq

structure SelectedMessage where
  version : EvidenceVersion
  nativeOrder : NativeOrderKey
  message : Message
  complete : Bool

/-- Window and coverage of one branch; the defaults are the source's. -/
structure BranchSelection where
  results : List SelectedMessage := []
  coverageComplete : Bool := true
  identityLimitReached : Bool := false
  lastFilterDiagnostic : Option FilterDiagnostic := none

def BranchSelection.identities (selection : BranchSelection) : List String :=
  selection.results.map (·.message.id)

structure ResultKey where
  branch : BranchId
  identity : String
  deriving DecidableEq

namespace ResultKey

instance : Ord ResultKey where
  compare := compareLex (compareOn branch) (compareOn identity)

instance : Std.TransOrd ResultKey :=
  inferInstanceAs (Std.TransCmp (compareLex (compareOn branch) (compareOn identity)))

instance : Std.LawfulEqOrd ResultKey where
  compare_self := by
    intro a
    exact Ordering.then_eq_eq.mpr ⟨Std.ReflOrd.compare_self, Std.ReflOrd.compare_self⟩
  eq_of_compare := by
    intro a b h
    simp only [compare, compareLex, compareOn, Ordering.then_eq_eq] at h
    obtain ⟨branch, identity⟩ := a
    obtain ⟨branch', identity'⟩ := b
    rw [ResultKey.mk.injEq]
    exact ⟨Std.LawfulEqOrd.eq_of_compare h.1, Std.LawfulEqOrd.eq_of_compare h.2⟩

end ResultKey

structure SelectionState where
  branches : Std.ExtTreeMap BranchId BranchSelection := ∅
  seenResults : Std.ExtTreeMap ResultKey SeenResult := ∅

/-- Result of applying one normalized observation to a selector. -/
inductive SelectionOutcome where
  | updated
  | filtered
  | filterRejected (diagnostic : FilterDiagnostic)
  | conditionFiltered (condition : ConditionOutcome)
  | incomplete
  | windowInvalidated
  | candidate (frozen : FrozenCandidate)

def SelectionOutcome.candidate? : SelectionOutcome → Option FrozenCandidate
  | .candidate frozen => some frozen
  | _ => none

def SelectionOutcome.firstMembership : SelectionOutcome → ResultMembership
  | .candidate _ | .updated => .selected
  | _ => .excluded

/-- Why applying an observation fails; the caller then discards the state. -/
inductive ApplyFault (ε : Type) where
  | capture (error : ε)
  | panic

/-- What the inventory capture of one application returns if it is asked. -/
abbrev Capture (ε : Type) := Except ε (Option CurrentInventories)

namespace SelectionState

/-! ### Access to the two maps -/

/-- The selection of a branch, as `or_default` sees it. -/
def branch (s : SelectionState) (branch : BranchId) : BranchSelection :=
  s.branches[branch]?.getD {}

/-- Change the selection of a branch, creating it first (`entry().or_default()`). -/
def updateBranch (s : SelectionState) (branch : BranchId)
    (f : BranchSelection → BranchSelection) : SelectionState :=
  { s with branches := s.branches.insert branch (f (s.branch branch)) }

/-- Change the selection of a branch that exists (`get_mut`). -/
def modifyBranch (s : SelectionState) (branch : BranchId)
    (f : BranchSelection → BranchSelection) : SelectionState :=
  { s with branches := s.branches.modify branch f }

/-- What is known of an identity. -/
def seen? (s : SelectionState) (key : ResultKey) : Option SeenResult := s.seenResults[key]?

def setMembership (s : SelectionState) (key : ResultKey) (membership : ResultMembership) :
    SelectionState :=
  { s with seenResults := s.seenResults.modify key fun seen => { seen with membership } }

def identityCount (s : SelectionState) (branch : BranchId) : Nat :=
  s.seenResults.countKeys fun key => key.branch == branch

def noteDiagnostic (s : SelectionState) (branch : BranchId) (diagnostic : Option FilterDiagnostic) :
    SelectionState :=
  s.updateBranch branch fun selection => { selection with lastFilterDiagnostic := diagnostic }

def markIdentityLimit (s : SelectionState) (branch : BranchId) : SelectionState :=
  s.updateBranch branch fun selection =>
    { selection with identityLimitReached := true, coverageComplete := false }

def discardResult (s : SelectionState) (branch : BranchId) (identity : String) : SelectionState :=
  s.modifyBranch branch fun selection =>
    { selection with results := selection.results.filter (·.message.id != identity) }

/-- Record incomplete membership without discarding usable published results. -/
def markCoverageGap (s : SelectionState) (branch : BranchId) : SelectionState :=
  s.updateBranch branch fun selection => { selection with coverageComplete := false }

/-- What `retire_window` makes of one identity. -/
def SeenResult.retire (seen : SeenResult) : SeenResult :=
  if seen.terminalSeen && seen.membership != .historical && seen.membership != .removed then
    { seen with membership := .retired }
  else seen

def retireWindow (s : SelectionState) (branch : BranchId) : SelectionState :=
  let s := s.modifyBranch branch fun selection => { selection with results := [] }
  { s with seenResults := s.seenResults.map fun key seen =>
      if key.branch == branch then SeenResult.retire seen else seen }

/-- Start a new selection segment without restoring missing historical coverage. -/
def resetSegment (s : SelectionState) (branch : BranchId) : SelectionState :=
  (s.retireWindow branch).markCoverageGap branch

/-- Start a fresh rolling window after the source proves coverage is complete. -/
def restoreCoverage (s : SelectionState) (branch : BranchId) : SelectionState :=
  (s.retireWindow branch).updateBranch branch fun selection =>
    { selection with coverageComplete := true }

def acceptsUpdate (s : SelectionState) (key : ResultKey) (revision : Nat)
    (version : EvidenceVersion) : Bool :=
  match s.seen? key with
  | none => true
  | some seen =>
    revision > seen.revision ||
      (revision == seen.revision && seen.membership != .removed && version != seen.version)

def removedVersion (revision : Nat) : EvidenceVersion := s!"removed:{revision}"

def removalStale (s : SelectionState) (key : ResultKey) (revision : Nat) : Bool :=
  match s.seen? key with
  | none => false
  | some seen =>
    revision < seen.revision || (revision == seen.revision && seen.membership == .removed)

/-- What a removal leaves of an identity: the native order stays. -/
def removedResult (s : SelectionState) (key : ResultKey) (revision : Nat) : SeenResult :=
  ⟨true, revision, removedVersion revision, (s.seen? key).elim "" (·.nativeOrder), .removed⟩

def recordRemoval (s : SelectionState) (key : ResultKey) (revision : Nat) : SelectionState :=
  { s with seenResults := s.seenResults.insert key (s.removedResult key revision) }

def removeResult (s : SelectionState) (branch : BranchId) (identity : String) (revision : Nat) :
    Bool × SelectionState :=
  let key : ResultKey := ⟨branch, identity⟩
  if s.removalStale key revision then (false, s)
  else if (s.seen? key).isNone && s.identityCount branch ≥ MAX_SEEN_RESULTS_PER_BRANCH then
    (true, (s.markIdentityLimit branch).discardResult branch identity)
  else (true, (s.recordRemoval key revision).discardResult branch identity)

end SelectionState

/-! ### Frozen candidates -/

def isHistorical (activation : EffectiveActivation) (observation : Observation) : Bool :=
  decide (observation.position ≤ activation.bootstrapObservationPosition) ||
    match observation.kind with
    | .toolResult .. =>
      observation.firstTerminalPublication.any (· ≤ activation.bootstrapPublication)
    | _ => observation.firstEligiblePublication.all (· ≤ activation.bootstrapPublication)

def eventRoots (kind : ObservationKind) (roots : Object) : Object :=
  match kind.message? with
  | some message => (roots.insert "message" message.value).remove "turn"
  | none =>
    match kind with
    | .turnEnd turn => (roots.remove "message").insert "turn" turn
    | _ => (roots.remove "message").remove "turn"

def withSourceCoverage (roots : Object) (coverageComplete : Bool) : Object :=
  let coverage : Json := .string (if coverageComplete then "complete" else "partial")
  match roots.get? "session" with
  | some (.object session) =>
    roots.insert "session" (.object (Object.insert session "source_coverage" coverage))
  | _ => roots

def triggerContext (observation : Observation) (coverageComplete : Bool) : Option FrozenContext :=
  observation.context.value.asObject.map fun roots =>
    let roots := (eventRoots observation.kind roots).remove "window"
    { observation.context with value := .object (withSourceCoverage roots coverageComplete) }

/-- Eight bytes of a machine integer, most significant first. -/
def u64Bytes (value : Nat) : List UInt8 :=
  (List.range 8).map fun i => UInt8.ofNat (value / 256 ^ (7 - i))

def textBytes (text : String) : List UInt8 := text.toUTF8.toList

def stringBytes (text : String) : List UInt8 := u64Bytes text.utf8ByteSize ++ textBytes text

/-- Serialized activation identity, in the field order of the source. -/
def ActivationId.toJson (id : ActivationId) : Json :=
  .object [
    ("scope", .object [("environment", .string id.scope.environment),
      ("session_cwd", .string id.scope.sessionCwd),
      ("run", match id.scope.run with
        | .live => .string "Live"
        | .replay identity => .object [("Replay", .string identity)])]),
    ("definition_id", .string id.definitionId), ("generation", .number (.ofNat id.generation))]

def EvidenceDependency.bytes : EvidenceDependency → List UInt8
  | message id version => 0 :: (stringBytes id ++ stringBytes version)
  | membershipThrough position => 1 :: u64Bytes position
  | context id version => 2 :: (stringBytes id ++ stringBytes version)
  | sourceEvidence id version => 3 :: (stringBytes id ++ stringBytes version)
  | sessionActivity epoch revision => 4 :: (stringBytes epoch ++ u64Bytes revision)

section Apply

variable [Platform]

def candidateFingerprint (activation : ActivationId) (branch : BranchId)
    (trigger : ObservationPosition) (messages : List Message) (context : FrozenContext)
    (dependencies : List EvidenceDependency) : Vector UInt8 32 :=
  Platform.sha256 <|
    textBytes activation.toJson.render ++ stringBytes branch ++ u64Bytes trigger ++
      textBytes (Json.array (messages.map (·.value))).render ++
      textBytes context.value.render ++ (dependencies.map EvidenceDependency.bytes).flatten

def freezeCandidate (activation : EffectiveActivation) (observation : Observation)
    (messages : List Message) (context : FrozenContext)
    (dependencies : List EvidenceDependency) : FrozenCandidate where
  activation := activation.id
  branch := observation.branch
  triggerPosition := observation.position
  messages := messages
  context := context
  dependencies := dependencies
  fingerprint := candidateFingerprint activation.id observation.branch observation.position
    messages context dependencies

/-! ### Applying events -/

variable {ε : Type}

def captureInto (capture : Capture ε) (context : FrozenContext) :
    Except (ApplyFault ε) FrozenContext :=
  match capture with
  | .error error => .error (.capture error)
  | .ok none => .ok context
  | .ok (some inventories) =>
    match inventories.mergeInto context.value with
    | some value => .ok { context with value }
    | none => .error .panic

def captureForCondition (demand : CurrentInventoryDemand) (capture : Capture ε)
    (context : FrozenContext) : Except (ApplyFault ε) FrozenContext :=
  if demand.condition then captureInto capture context else .ok context

def captureForCandidate (demand : CurrentInventoryDemand) (capture : Capture ε)
    (context : FrozenContext) : Except (ApplyFault ε) FrozenContext :=
  if demand.candidate && !demand.condition then captureInto capture context else .ok context

def withWindowRoot (check : CompiledCheck) (messages : List Message) (context : FrozenContext) :
    FrozenContext :=
  match check.trigger.window, context.value with
  | some _, .object roots =>
    { context with
      value := .object (Object.insert roots "window"
        (.object [("messages", .array (messages.map (·.value)))])) }
  | _, _ => context

def windowDependencies (results : List SelectedMessage) (observation : Observation) :
    List EvidenceDependency :=
  EvidenceDependency.sortDedup (results.map (fun item => .message item.message.id item.version) ++
    observation.context.dependencies ++ [.membershipThrough observation.position])

namespace SelectionState

/-- Push a message, evict what exceeds the window and retire the evicted
identities. -/
def pushResult (s : SelectionState) (branch : BranchId) (size : Nat) (item : SelectedMessage) :
    SelectionState :=
  let results := (s.branch branch).results ++ [item]
  -- the source pops from the front while the window is too long
  let evicted := results.take (results.length - size)
  let s := s.updateBranch branch fun selection =>
    { selection with results := results.drop (results.length - size) }
  evicted.foldl (fun s old => s.setMembership ⟨branch, old.message.id⟩ .retired) s

/-- Filter, check and select one event; `apply_with_inventories`. -/
def applyWithInventories (s : SelectionState) (activation : EffectiveActivation)
    (observation : Observation) (capture : Capture ε) :
    Except (ApplyFault ε) (SelectionOutcome × SelectionState) :=
  let check := activation.compiled
  if observation.kind.isOther || isHistorical activation observation then .ok (.updated, s)
  else match evaluateEventFilters check observation with
    | .error diagnostic =>
      .ok (.filterRejected diagnostic, s.noteDiagnostic observation.branch (some diagnostic))
    | .ok false => .ok (.filtered, s)
    | .ok true =>
      let s := s.noteDiagnostic observation.branch none
      match triggerContext observation (s.branch observation.branch).coverageComplete with
      | none => .ok (.incomplete, s)
      | some context => do
        let demand := check.currentInventoryDemand
        let context ← captureForCondition demand capture context
        let condition := evaluateTriggerCondition check context.value
        if condition ≠ .matched then return (.conditionFiltered condition, s)
        match observation.kind.message? with
        | none =>
          let context ← captureForCandidate demand capture context
          let dependencies := EvidenceDependency.sortDedup context.dependencies
          return (.candidate (freezeCandidate activation observation [] context dependencies), s)
        | some message =>
          let config := check.trigger.window.getD .single
          let s := s.pushResult observation.branch (min config.size MAX_WINDOW_MESSAGES)
            ⟨observation.version, observation.nativeOrder, message, observation.complete⟩
          let results := (s.branch observation.branch).results
          if results.length < config.minimum then return (.updated, s)
          let context ← captureForCandidate demand capture context
          let dependencies := windowDependencies results observation
          let messages := results.map (·.message)
          let context := withWindowRoot check messages context
          return (.candidate
            (freezeCandidate activation observation messages context dependencies), s)

def correctionMatches (activation : EffectiveActivation) (observation : Observation)
    (filtersMatch coverageComplete : Bool) (capture : Capture ε) :
    Except (ApplyFault ε) Bool :=
  match filtersMatch, triggerContext observation coverageComplete with
  | true, some context => do
    let context ← captureForCondition activation.compiled.currentInventoryDemand capture context
    return evaluateTriggerCondition activation.compiled context.value == .matched
  | _, _ => .ok false

def replaceResult (s : SelectionState) (branch : BranchId) (identity : String)
    (observation : Observation) (message : Message) : SelectionState :=
  s.modifyBranch branch fun selection =>
    { selection with
      results := selection.results.replaceF fun item =>
        if item.message.id == identity then
          some { item with
            version := observation.version
            message := message
            complete := observation.complete }
        else none }

/-- A later version of an identity whose first terminal result was recorded. -/
def applyCorrection (s : SelectionState) (activation : EffectiveActivation) (key : ResultKey)
    (previous : SeenResult) (observation : Observation) (capture : Capture ε) :
    Except (ApplyFault ε) (SelectionOutcome × SelectionState) :=
  match previous.membership with
  | .historical | .retired | .removed => .ok (.updated, s)
  | membership => do
    let branch := observation.branch
    let selected := (s.branch branch).identities.contains key.identity
    let coverageComplete := (s.branch branch).coverageComplete
    let filterResult := evaluateEventFilters activation.compiled observation
    let rejection := match filterResult with
      | .error diagnostic => some diagnostic
      | .ok _ => none
    let filtersMatch := match filterResult with
      | .ok true => true
      | _ => false
    let s := s.noteDiagnostic branch rejection
    if !(← correctionMatches activation observation filtersMatch coverageComplete capture) then
      let s := (s.discardResult branch key.identity).setMembership key .excluded
      return (rejection.elim .updated .filterRejected, s)
    else if membership = .unknown && !selected then
      -- an older checkpoint cannot tell an excluded result from a retired one
      return (.windowInvalidated, (s.setMembership key .retired).markCoverageGap branch)
    else if previous.nativeOrder ≠ observation.nativeOrder || !selected then
      let s := (s.retireWindow branch).markCoverageGap branch
      return (.windowInvalidated, s.setMembership key .retired)
    else match observation.kind.message? with
      | none => throw .panic
      | some message =>
        let s := s.replaceResult branch key.identity observation message
        return (.updated, s.setMembership key .selected)

def carriedMembership : Option SeenResult → ResultMembership
  | none => .unknown
  | some seen => if seen.membership = .removed then .retired else seen.membership

def recordSeen (s : SelectionState) (key : ResultKey) (revision : Nat)
    (observation : Observation) : SelectionState :=
  let previous := s.seen? key
  let seen : SeenResult :=
    ⟨!observation.kind.isOther || previous.any (·.terminalSeen), revision, observation.version,
      observation.nativeOrder, carriedMembership previous⟩
  { s with seenResults := s.seenResults.insert key seen }

/-- Whether `apply_published` takes an observation up at all. -/
inductive Admission where
  /-- The branch rejects unseen identities, or the version is not news. -/
  | refused
  /-- The identity is unseen and the branch is full. -/
  | limit
  | accepted
  deriving DecidableEq

/-- The three checks in front of `apply_published`. -/
def admission (s : SelectionState) (key : ResultKey) (revision : Nat)
    (version : EvidenceVersion) : Admission :=
  if (s.seen? key).isNone && (s.branch key.branch).identityLimitReached then .refused
  else if !s.acceptsUpdate key revision version then .refused
  else if (s.seen? key).isNone && s.identityCount key.branch ≥ MAX_SEEN_RESULTS_PER_BRANCH then
    .limit
  else .accepted

def applyPublishedWithInventories (s : SelectionState) (activation : EffectiveActivation)
    (identity : String) (revision : Nat) (observation : Observation) (capture : Capture ε) :
    Except (ApplyFault ε) (SelectionOutcome × SelectionState) :=
  let key : ResultKey := ⟨observation.branch, identity⟩
  match s.admission key revision observation.version with
  | .refused => .ok (.updated, s)
  | .limit => .ok (.updated, s.markIdentityLimit observation.branch)
  | .accepted =>
    let previous := s.seen? key
    let terminal := !observation.kind.isOther
    let s := s.recordSeen key revision observation
    if terminal && isHistorical activation observation then
      .ok (.updated, (s.discardResult observation.branch identity).setMembership key .historical)
    else match previous.filter (·.terminalSeen) with
      | none =>
        if !terminal then .ok (.updated, s)
        else do
          let (outcome, s) ← s.applyWithInventories activation observation capture
          return (outcome, s.setMembership key outcome.firstMembership)
      | some previous =>
        if activation.compiled.trigger.family.isMessages then
          s.applyCorrection activation key previous observation capture
        else .ok (.updated, s.setMembership key .retired)

/-- `apply_published`: without inventories.  A panic leaves no state; no
reachable state panics. -/
def applyPublished (s : SelectionState) (activation : EffectiveActivation) (identity : String)
    (revision : Nat) (observation : Observation) :
    Except (ApplyFault Empty) (SelectionOutcome × SelectionState) :=
  s.applyPublishedWithInventories activation identity revision observation (.ok none)

end SelectionState

end Apply

end Antiburn
