/-
One source page: its validation and everything the engine derives from it.

`preparePage` is the part of `apply_source_page` between the lookup of the
selector and the call of the store.  It reads the progress, the page and the
captured inventories and nothing else, so the same page applied to the same
progress prepares the same commit.
-/
import Antiburn.Checkpoint
import Antiburn.Lib.Saturating

namespace Antiburn

/-! ### Pages -/

inductive SourceEvent where
  /-- A source event advances delivery without entering selection. -/
  | ignored (cursor : PublicationCursor)
  /-- A final observation or correction. -/
  | observation (cursor : PublicationCursor) (sourceEvidenceVersion : Option EvidenceVersion)
      (identity : String) (revision : Nat) (draft : ObservationDraft)
  /-- A prior logical result no longer exists. -/
  | removal (cursor : PublicationCursor) (identity : String) (revision : Nat) (branch : BranchId)
  /-- Source coverage is incomplete and later candidates must retain that limit. -/
  | gap (cursor : PublicationCursor) (branch : BranchId) (reason : String)
  /-- An update cannot prove safe identity, scope, or order for this branch. -/
  | unsafeUpdate (cursor : PublicationCursor) (branch : BranchId) (reason : String)
  /-- Continuity loss retires this branch's window. -/
  | segmentReset (cursor : PublicationCursor) (branch : BranchId) (reason : String)
  /-- A complete snapshot restored coverage after a gap. -/
  | coverageRestored (cursor : PublicationCursor) (branch : BranchId)

def SourceEvent.cursor : SourceEvent → PublicationCursor
  | ignored cursor | observation cursor .. | removal cursor .. | gap cursor ..
  | unsafeUpdate cursor .. | segmentReset cursor .. | coverageRestored cursor _ => cursor

/-- A bounded page of normalized changes. -/
structure SourceBatch where
  events : List SourceEvent
  next : PublicationCursor
  hasMore : Bool

structure CommittedSourceObservation where
  cursor : PublicationCursor
  identity : String
  revision : Nat
  observation : Observation
  windowInvalidated : Bool

def advanceCursors : PublicationCursor → List SourceEvent → Except StoreError PublicationCursor
  | previous, [] => .ok previous
  | previous, event :: rest =>
    if event.cursor ≤ previous then
      .error ⟨"source page does not advance publication progress"⟩
    else advanceCursors event.cursor rest

def validateSourcePage (progress : SourceProgress) (page : SourceBatch) :
    Except StoreError Unit := do
  let previous ← advanceCursors progress.publicationCursor page.events
  if page.next < previous || (!page.events.isEmpty && page.next ≠ previous) then
    throw ⟨"source page cursor does not match its final event"⟩

/-! ### Invalidations -/

/-- A change that can outdate a candidate frozen earlier in the same page. -/
inductive PageInvalidation where
  | upsert (identity : String) (version : EvidenceVersion)
      (sourceEvidenceVersion : Option EvidenceVersion)
  | nativeUpsert (identity : String) (version : EvidenceVersion)
  | removal (identity : String)
  | branch

def PageInvalidation.outdates (candidateIdentity : String)
    (dependencies : List EvidenceDependency) : PageInvalidation → Bool
  | upsert identity version sourceEvidenceVersion =>
    dependencies.any fun
      | .message id saved => id == identity && saved != version
      | .sourceEvidence id saved =>
        id == identity &&
          if id == candidateIdentity then saved != version
          else sourceEvidenceVersion.any (saved != ·)
      | _ => false
  | nativeUpsert identity version =>
    dependencies.any fun
      | .sourceEvidence id saved => id == identity && id != candidateIdentity && saved != version
      | _ => false
  | removal identity =>
    dependencies.any fun
      | .message id _ | .sourceEvidence id _ => id == identity
      | _ => false
  | branch => true

structure PageCandidate where
  candidate : FrozenCandidate
  pageIndex : Nat
  identity : String

structure PageChange where
  pageIndex : Nat
  branch : BranchId
  invalidation : PageInvalidation

def PageCandidate.outdated (entry : PageCandidate) (changes : List PageChange) : Bool :=
  changes.any fun change =>
    change.pageIndex > entry.pageIndex && change.branch == entry.candidate.branch &&
      change.invalidation.outdates entry.identity entry.candidate.dependencies

/-! ### Preparing a page -/

inductive PageFault where
  | error (error : StoreError)
  | panic

/-- Inventories captured for a publication, if selection asks for them. -/
abbrev PageCapture := PublicationCursor → Observation → Capture StoreError

structure PageState where
  next : SourceProgress
  observations : List CommittedSourceObservation := []
  candidates : List PageCandidate := []
  conditionOutcomes : List (ObservationPosition × ConditionOutcome) := []
  filterOutcomes : List (ObservationPosition × FilterDiagnostic) := []
  invalidations : List PageChange := []
  resetBranches : List BranchId := []

namespace PageState

def invalidate (st : PageState) (pageIndex : Nat) (branch : BranchId)
    (invalidation : PageInvalidation) : PageState :=
  { st with invalidations := st.invalidations ++ [⟨pageIndex, branch, invalidation⟩] }

def select (st : PageState) (selection : SelectionState) : PageState :=
  { st with next := { st.next with selection } }

/-- Keep what an application returned. -/
def noteOutcome (st : PageState) (pageIndex : Nat) (identity : String) (observation : Observation) :
    SelectionOutcome → PageState
  | .candidate candidate =>
    { st with candidates := st.candidates ++ [⟨candidate, pageIndex, identity⟩] }
  | .conditionFiltered condition =>
    { st with conditionOutcomes := st.conditionOutcomes ++ [(observation.position, condition)] }
  | .filterRejected diagnostic =>
    { st with filterOutcomes := st.filterOutcomes ++ [(observation.position, diagnostic)] }
  | .windowInvalidated => st.invalidate pageIndex observation.branch .branch
  | _ => st

end PageState

def SelectionOutcome.isWindowInvalidated : SelectionOutcome → Bool
  | .windowInvalidated => true
  | _ => false

/-- Whether a version only repeats what the selector holds. -/
def SelectionState.isNormalizedDuplicate (s : SelectionState) (key : ResultKey) (revision : Nat)
    (version : EvidenceVersion) : Bool :=
  (s.seen? key).any fun seen =>
    revision == seen.revision && seen.membership != .removed && version == seen.version

section Prepare

variable [Platform]

def applyObservation (activation : EffectiveActivation) (capture : PageCapture)
    (pageIndex : Nat) (st : PageState) (cursor : PublicationCursor)
    (sourceEvidenceVersion : Option EvidenceVersion) (identity : String) (revision : Nat)
    (draft : ObservationDraft) : Except PageFault PageState :=
  if st.next.observationPosition ≥ U64_MAX then
    .error (.error ⟨"observation position is exhausted"⟩)
  else
    let position := st.next.observationPosition + 1
    let st := { st with next := { st.next with observationPosition := position } }
    let observation := draft.commit position
    let st := st.invalidate pageIndex observation.branch
      (.upsert identity observation.version sourceEvidenceVersion)
    match st.next.selection.applyPublishedWithInventories activation identity revision observation
        (capture cursor observation) with
    | .error (.capture error) => .error (.error error)
    | .error .panic => .error .panic
    | .ok (outcome, selection) =>
      let st := (st.select selection).noteOutcome pageIndex identity observation outcome
      .ok { st with
        observations := st.observations ++
          [⟨cursor, identity, revision, observation, outcome.isWindowInvalidated⟩] }

def applyPageEvent (activation : EffectiveActivation) (capture : PageCapture) (pageIndex : Nat)
    (st : PageState) (event : SourceEvent) : Except PageFault (SourceEvent × PageState) :=
  match event with
  | .ignored _ => .ok (event, st)
  | .observation cursor sourceEvidenceVersion identity revision draft =>
    let key : ResultKey := ⟨draft.branch, identity⟩
    if st.next.selection.acceptsUpdate key revision draft.version then do
      let st ← applyObservation activation capture pageIndex st cursor sourceEvidenceVersion
        identity revision draft
      return (event, st)
    else
      -- a native binding can change without a new public projection
      match sourceEvidenceVersion with
      | some version =>
        if st.next.selection.isNormalizedDuplicate key revision draft.version then
          .ok (.ignored cursor, st.invalidate pageIndex draft.branch (.nativeUpsert identity version))
        else .ok (.ignored cursor, st)
      | none => .ok (.ignored cursor, st)
  | .removal cursor identity revision branch =>
    let (changed, selection) := st.next.selection.removeResult branch identity revision
    if changed then
      .ok (event, (st.select selection).invalidate pageIndex branch (.removal identity))
    else .ok (.ignored cursor, st.select selection)
  | .gap _ branch _ => .ok (event, st.select (st.next.selection.markCoverageGap branch))
  | .unsafeUpdate _ branch _ | .segmentReset _ branch _ =>
    let st := st.invalidate pageIndex branch .branch
    let st := { st with resetBranches := st.resetBranches ++ [branch] }
    .ok (event, st.select (st.next.selection.resetSegment branch))
  | .coverageRestored _ branch =>
    .ok (event, st.select (st.next.selection.restoreCoverage branch))

def applyPageEvents (activation : EffectiveActivation) (capture : PageCapture) :
    Nat → PageState → List SourceEvent → Except PageFault (List SourceEvent × PageState)
  | _, st, [] => .ok ([], st)
  | pageIndex, st, event :: rest => do
    let (event, st) ← applyPageEvent activation capture pageIndex st event
    let (rest, st) ← applyPageEvents activation capture (pageIndex + 1) st rest
    return (event :: rest, st)

structure PageCommit where
  expected : SourceProgressHead
  page : SourceBatch
  observations : List CommittedSourceObservation
  next : SourceProgress
  candidates : List FrozenCandidate

/-- A transaction together with what the scheduler and the caller learn after it. -/
structure PreparedPage where
  commit : PageCommit
  conditionOutcomes : List (ObservationPosition × ConditionOutcome)
  filterOutcomes : List (ObservationPosition × FilterDiagnostic)
  resetBranches : List BranchId

def preparePage (activation : EffectiveActivation) (capture : PageCapture)
    (progress : SourceProgress) (page : SourceBatch) : Except PageFault PreparedPage :=
  match validateSourcePage progress page with
  | .error error => .error (.error error)
  | .ok () => do
    let (events, st) ← applyPageEvents activation capture 0 { next := progress } page.events
    let candidates := st.candidates.filter (!·.outdated st.invalidations)
    return {
      commit :=
        { expected := progress.head
          page := { page with events }
          observations := st.observations
          next := { st.next with publicationCursor := page.next }
          candidates := candidates.map (·.candidate) }
      conditionOutcomes := st.conditionOutcomes
      filterOutcomes := st.filterOutcomes
      resetBranches := st.resetBranches }

end Prepare

end Antiburn
