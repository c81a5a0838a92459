/-
The native publications of one session and the table of their current values.

Every change of a native record is appended to a log and written to the row of its
identity.  Tool results, other evidence and the removal of a message are written by
functions of their own, each with its own columns.  Columns that none of them reads
are left out; JSON columns hold the values they encode, and identities are the lists
that their JSON arrays hold.
-/
import Antiburn.NativeFiles

namespace Antiburn

/-! ### Observations -/

inductive NativeEvidencePosition where
  | jsonl (recordIndex itemIndex : Nat)
  | fileBytes (recordStart recordEnd itemIndex : Nat)
  | openCodeEvent (sequence itemIndex : Nat)
  | openCodeV2Event (sequence itemIndex : Nat)
  deriving DecidableEq

inductive UserMessagePosition where
  | jsonl (recordIndex : Nat)
  | fileBytes (recordStart recordEnd : Nat)
  | openCodeSqlite (createdAtMs : Int)
  | openCodeEvent (sequence : Nat)
  | openCodeV2Event (sequence : Nat)
  deriving DecidableEq

inductive ToolResultChange where
  | update | removal
  deriving DecidableEq

inductive UserMessageChange where
  | present | removal | conflict
  deriving DecidableEq

/-- The context of a record at its first public boundary.  `rest` is its other fields. -/
structure NativeEventContext where
  firstEligiblePosition : NativeEvidencePosition
  rest : String
  deriving DecidableEq

structure ToolResultContext where
  resultPosition : NativeEvidencePosition
  rest : String
  deriving DecidableEq

structure ToolResultObservation where
  sourceFormat : SourceFormat
  sessionId : String
  recordId : Option String
  callId : Option String
  resultId : Option String
  position : NativeEvidencePosition
  revision : Nat
  change : ToolResultChange
  finality : Bool
  context : Option ToolResultContext
  rest : String
  deriving DecidableEq

structure UserMessage where
  sourceFormat : SourceFormat
  sessionId : String
  messageId : String
  position : UserMessagePosition
  change : UserMessageChange
  parts : List String
  rest : String
  deriving DecidableEq

structure UserMessageObservation where
  message : UserMessage
  revision : Nat
  context : NativeEventContext
  deriving DecidableEq

inductive PublicMessagePayload where
  | assistantText (rest : String)
  | toolCall (rest : String)
  deriving DecidableEq

structure PublicMessageObservation where
  sourceFormat : SourceFormat
  sessionId : String
  recordId : String
  partId : Option String
  callId : Option String
  position : NativeEvidencePosition
  revision : Nat
  change : ToolResultChange
  eligible : Bool
  context : Option NativeEventContext
  payload : PublicMessagePayload
  rest : String
  deriving DecidableEq

inductive NativeMessageObservation where
  | user (message : UserMessageObservation)
  | publicMessage (message : PublicMessageObservation)
  | toolResult (result : ToolResultObservation)
  deriving DecidableEq

inductive NativeCycleKey where
  | codexTurn (turnId : String)
  | openCodeV2Execution (executionId : String) (ordinal : Nat)
  deriving DecidableEq

structure ResponseCycleObservation where
  sourceFormat : SourceFormat
  sessionId : String
  key : NativeCycleKey
  position : NativeEvidencePosition
  revision : Nat
  change : ToolResultChange
  context : NativeEventContext
  messages : List NativeMessageObservation
  rest : String
  deriving DecidableEq

structure NativeActivityObservation where
  sourceFormat : SourceFormat
  sessionId : String
  position : NativeEvidencePosition

structure NativeSessionSelectionObservation where
  sourceFormat : SourceFormat
  sessionId : String

structure NativeMessageRemoval where
  sourceFormat : SourceFormat
  sessionId : String
  messageId : String
  position : NativeEvidencePosition
  revision : Nat

/-! ### Payloads -/

inductive EvidenceEventKind where
  | toolResult | userMessage | assistantMessage | toolCall | responseCycle
  deriving DecidableEq

def EvidenceEventKind.name : EvidenceEventKind → String
  | toolResult => "tool_result"
  | userMessage => "user_message"
  | assistantMessage => "assistant_message"
  | toolCall => "tool_call"
  | responseCycle => "response_cycle"

inductive NativeEvidencePayload where
  | toolResult (result : ToolResultObservation)
  | userMessage (message : UserMessageObservation)
  | publicMessage (message : PublicMessageObservation)
  | responseCycle (cycle : ResponseCycleObservation)
  deriving DecidableEq

inductive IdentityItem where
  | null
  | text (value : String)
  | position (value : NativeEvidencePosition)
  | cycle (key : NativeCycleKey)
  deriving DecidableEq

abbrev NativeIdentity := List IdentityItem

def IdentityItem.ofOption : Option String → IdentityItem
  | none => null
  | some value => text value

/-- `native_identity`. -/
def nativeIdentity (result : ToolResultObservation) : NativeIdentity :=
  if result.recordId.isSome || result.callId.isSome || result.resultId.isSome then
    [.text result.sessionId, .ofOption result.recordId, .ofOption result.callId,
      .ofOption result.resultId]
  else [.text result.sessionId, .position result.position]

/-- `message_payload`. -/
def messagePayload : NativeMessageObservation → NativeEvidencePayload
  | .user message => .userMessage message
  | .publicMessage message => .publicMessage message
  | .toolResult result => .toolResult result

namespace NativeEvidencePayload

def sourceFormat : NativeEvidencePayload → SourceFormat
  | toolResult m => m.sourceFormat
  | userMessage m => m.message.sourceFormat
  | publicMessage m => m.sourceFormat
  | responseCycle m => m.sourceFormat

def kind : NativeEvidencePayload → EvidenceEventKind
  | toolResult _ => .toolResult
  | userMessage _ => .userMessage
  | publicMessage m =>
    match m.payload with
    | .assistantText _ => .assistantMessage
    | .toolCall _ => .toolCall
  | responseCycle _ => .responseCycle

def identity : NativeEvidencePayload → NativeIdentity
  | toolResult m => nativeIdentity m
  | userMessage m => [.text "user_text", .text m.message.sessionId, .text m.message.messageId]
  | publicMessage m => [.text (publicMessage m).kind.name, .text m.sessionId, .text m.recordId,
      .ofOption m.partId, .ofOption m.callId]
  | responseCycle m => [.text "turn_end", .text m.sessionId, .cycle m.key]

def owner : NativeEvidencePayload → Option String
  | toolResult m => m.recordId
  | userMessage m => some m.message.messageId
  | publicMessage m => some m.recordId
  | responseCycle _ => none

def position : NativeEvidencePayload → NativeEvidencePosition
  | toolResult m => m.position
  | userMessage m =>
    match m.message.position with
    | .fileBytes recordStart recordEnd => .fileBytes recordStart recordEnd 0
    | .jsonl recordIndex => .jsonl recordIndex 0
    | .openCodeEvent sequence => .openCodeEvent sequence 0
    | .openCodeV2Event sequence => .openCodeV2Event sequence 0
    | .openCodeSqlite _ => m.context.firstEligiblePosition
  | publicMessage m => m.position
  | responseCycle m => m.position

def revision : NativeEvidencePayload → Nat
  | toolResult m => m.revision
  | userMessage m => m.revision
  | publicMessage m => m.revision
  | responseCycle m => m.revision

def firstPosition : NativeEvidencePayload → NativeEvidencePosition
  | toolResult m => m.context.elim m.position (·.resultPosition)
  | userMessage m => m.context.firstEligiblePosition
  | publicMessage m => m.context.elim m.position (·.firstEligiblePosition)
  | responseCycle m => m.context.firstEligiblePosition

def session : NativeEvidencePayload → String
  | toolResult m => m.sessionId
  | userMessage m => m.message.sessionId
  | publicMessage m => m.sessionId
  | responseCycle m => m.sessionId

def removed : NativeEvidencePayload → Bool
  | toolResult m => m.change == .removal
  | userMessage m => m.message.change == .removal
  | publicMessage m => m.change == .removal
  | responseCycle m => m.change == .removal

def eligible : NativeEvidencePayload → Bool
  | toolResult m => m.finality
  | userMessage m => m.message.change == .present
  | publicMessage m => m.eligible
  | responseCycle _ => true

def removedBy (removal : NativeMessageRemoval) (revision : Nat) :
    NativeEvidencePayload → NativeEvidencePayload
  | toolResult m =>
    toolResult { m with change := .removal, position := removal.position, revision }
  | userMessage m =>
    userMessage { m with
      message := { m.message with change := .removal, parts := [] }
      revision }
  | publicMessage m =>
    publicMessage { m with change := .removal, position := removal.position, revision }
  | responseCycle m =>
    responseCycle { m with change := .removal, position := removal.position, revision }

def keepContext (old : NativeEvidencePayload) : NativeEvidencePayload → NativeEvidencePayload
  | publicMessage m =>
    match old with
    | publicMessage prior => publicMessage { m with context := prior.context }
    | _ => publicMessage m
  | userMessage m =>
    match old with
    | userMessage prior => userMessage { m with context := prior.context }
    | _ => userMessage m
  | payload => payload

end NativeEvidencePayload

/-! ### Tables -/

inductive PublicationGapKind where
  | invalidated | partly | segmentReset
  deriving DecidableEq

structure PublishedEvidence where
  identity : NativeIdentity
  position : NativeEvidencePosition
  revision : Nat
  payload : NativeEvidencePayload
  removed : Bool
  eventKind : EvidenceEventKind
  firstEligible : Option Nat
  deriving DecidableEq

structure PublishedCoverage where
  complete : Bool
  gapReason : Option String
  gapKind : PublicationGapKind
  deriving DecidableEq

/-- A row of `native_tool_result_publication` of the session. -/
structure NativePublication where
  sequence : Nat
  sourceFormat : SourceFormat
  content : PublishedEvidence ⊕ PublishedCoverage
  deriving DecidableEq

/-- A row of `native_tool_result_current` of the session. -/
structure CurrentEvidence where
  sourceFormat : SourceFormat
  identity : NativeIdentity
  position : NativeEvidencePosition
  revision : Nat
  payload : NativeEvidencePayload
  isRemoved : Bool
  publicationSequence : Nat
  eventKind : EvidenceEventKind
  firstEligible : Option Nat
  ownerMessageId : Option String
  deriving DecidableEq

abbrev NativeKey := SourceFormat × NativeIdentity

def CurrentEvidence.key (row : CurrentEvidence) : NativeKey := (row.sourceFormat, row.identity)

structure NativeEvidenceStore where
  publications : List NativePublication
  current : List CurrentEvidence
  sequence : Nat
  /-- `native_file_delivery.last_error`, where the session has a delivery. -/
  delivery : Option (Option String)

/-- `native_file_delivery.last_error`, if it is an unsafe reason. -/
def NativeEvidenceStore.sourceReason (store : NativeEvidenceStore) : Option String :=
  (store.delivery.bind id).filter isUnsafeReason

namespace NativeEvidenceStore

variable (store : NativeEvidenceStore)

def current? (format : SourceFormat) (identity : NativeIdentity) : Option CurrentEvidence :=
  Table.lookup CurrentEvidence.key (format, identity) store.current

/-- `INSERT INTO native_tool_result_publication`. -/
def publish (format : SourceFormat) (content : PublishedEvidence ⊕ PublishedCoverage) :
    NativeEvidenceStore :=
  { store with
    publications := Table.insert ⟨store.sequence + 1, format, content⟩ store.publications
    sequence := store.sequence + 1 }

/-- `INSERT INTO native_tool_result_current … ON CONFLICT … DO UPDATE SET`. -/
def writeCurrent (row : CurrentEvidence) (set : CurrentEvidence → CurrentEvidence) :
    NativeEvidenceStore :=
  { store with
    current :=
      if (Table.lookup CurrentEvidence.key row.key store.current).isSome then
        Table.update (fun old => decide (old.key = row.key)) set store.current
      else Table.insert row store.current }

/-- `UPDATE native_tool_result_current SET … WHERE` the row has the key. -/
def updateCurrent (format : SourceFormat) (identity : NativeIdentity)
    (set : CurrentEvidence → CurrentEvidence) : NativeEvidenceStore :=
  { store with
    current := Table.update (fun old => decide (old.key = (format, identity))) set store.current }

/-! ### Coverage -/

def lastCoverage (format : SourceFormat) : Option PublishedCoverage :=
  store.publications.reverse.findSome? fun publication =>
    match publication.content with
    | .inr coverage => if publication.sourceFormat = format then some coverage else none
    | .inl _ => none

/-- `publish_coverage_with_kind_in`, for a batch that has results or none. -/
def publishCoverage (format : SourceFormat) (hasResults complete : Bool) (reason : Option String)
    (kind : PublicationGapKind) : NativeEvidenceStore :=
  let next : PublishedCoverage := ⟨complete, reason, kind⟩
  let emptyBaseline := !hasResults && store.publications.isEmpty
  let changed := match store.lastCoverage format with
    | some previous => previous != next
    | none => !complete || emptyBaseline
  if changed then store.publish format (.inr next) else store

end NativeEvidenceStore

/-! ### Tool results -/

structure ToolResultBatch where
  sourceFormat : SourceFormat
  results : List ToolResultObservation
  complete : Bool

structure PublicationPolicy where
  baseline : Option Nat
  historyComplete : Option Bool
  gapReason : Option String
  gapKind : PublicationGapKind
  suppressCoverage : Bool

def ToolResultObservation.keepFinal (old result : ToolResultObservation) : ToolResultObservation :=
  if old.finality then { result with context := old.context } else result

namespace NativeEvidenceStore

variable (store : NativeEvidenceStore)

def writeToolResult (result : ToolResultObservation) (identity : NativeIdentity) :
    NativeEvidenceStore :=
  let payload := NativeEvidencePayload.toolResult result
  let removed := result.change == .removal
  let published := store.publish result.sourceFormat
    (.inl ⟨identity, result.position, result.revision, payload, removed, .toolResult, none⟩)
  published.writeCurrent
    { sourceFormat := result.sourceFormat
      identity
      position := result.position
      revision := result.revision
      payload
      isRemoved := removed
      publicationSequence := published.sequence
      eventKind := .toolResult
      firstEligible := none
      ownerMessageId := result.recordId }
    fun old => { old with
      position := result.position
      revision := result.revision
      payload
      isRemoved := removed
      publicationSequence := published.sequence
      ownerMessageId := result.recordId }

def reconcileToolResult (session : String) (result : ToolResultObservation) :
    Except StoreError NativeEvidenceStore := do
  ensure (result.sessionId == session) "batch contains a different native session"
  let _ ← integer result.revision
  let identity := nativeIdentity result
  match store.current? result.sourceFormat identity with
  | none => return store.writeToolResult result identity
  | some row =>
    if result.change == .update && row.isRemoved then return store
    match row.payload with
    | .toolResult old =>
      if result.revision < old.revision then return store
      let result := ToolResultObservation.keepFinal old result
      if row.payload == .toolResult result && row.isRemoved == (result.change == .removal) then
        return store
      return store.writeToolResult result identity
    | _ => throw ⟨"invalid tool result payload"⟩

def sweepToolResult (row : CurrentEvidence) : NativeEvidenceStore :=
  let published := store.publish row.sourceFormat
    (.inl ⟨row.identity, row.position, row.revision, row.payload, true, .toolResult, none⟩)
  published.updateCurrent row.sourceFormat row.identity fun old =>
    if old.isRemoved then old
    else { old with isRemoved := true, publicationSequence := published.sequence }

/-- The rows that a complete snapshot leaves out. -/
def leftOut (batch : ToolResultBatch) : List CurrentEvidence :=
  let present := (batch.results.filter (·.sourceFormat == batch.sourceFormat)).map nativeIdentity
  store.current.filter fun row => row.sourceFormat == batch.sourceFormat && !row.isRemoved &&
    row.eventKind == .toolResult && !present.contains row.identity

def sweep (batch : ToolResultBatch) : NativeEvidenceStore :=
  if batch.complete then (store.leftOut batch).foldl sweepToolResult store else store

/-- `reconcile_with_policy`. -/
def reconcileWithPolicy (session : String) (batch : ToolResultBatch) (policy : PublicationPolicy) :
    Except StoreError NativeEvidenceStore := do
  let hasResults := !batch.results.isEmpty
  let covered := match policy.historyComplete with
    | some complete =>
      if policy.suppressCoverage then store
      else store.publishCoverage batch.sourceFormat hasResults complete policy.gapReason
        policy.gapKind
    | none => store
  let reconciled ← batch.results.foldlM (fun store result => store.reconcileToolResult session result)
    covered
  let swept := reconciled.sweep batch
  return if policy.suppressCoverage || policy.historyComplete.isSome then swept
    else swept.publishCoverage batch.sourceFormat hasResults batch.complete none policy.gapKind

end NativeEvidenceStore

/-! ### Other evidence -/

structure NativeCurrentBinding where
  identity : NativeIdentity
  eventKind : EvidenceEventKind
  sourceFormat : SourceFormat
  revision : Nat
  publicationSequence : Nat
  payloadSha256 : Vector UInt8 32

inductive NativeEvidenceFact where
  | message (message : NativeMessageObservation)
  | responseCycle (cycle : ResponseCycleObservation)
  | activity (activity : NativeActivityObservation)
  | sessionSelection (selection : NativeSessionSelectionObservation)
  | messageRemoval (removal : NativeMessageRemoval)
  | admissionFailure (failure : NativeAdmissionFailure)

structure NativeEvidenceEvent where
  fact : NativeEvidenceFact
  liveEligible : Bool

structure NativeEvidenceBatch where
  sourceFormat : SourceFormat
  events : List NativeEvidenceEvent
  historyComplete : Bool

/-- What the other tables say and do in one transaction, and how JSON is written. -/
structure NativeTransaction where
  /-- The length of the JSON columns of a publication. -/
  bytes : NativePublication → Nat
  batchBytes : Nat
  /-- The length of a cycle and of its bindings. -/
  cycleBytes : ResponseCycleObservation → List NativeCurrentBinding → Nat
  identityText : NativeIdentity → String
  /-- `payload_sha256` of the JSON of a payload. -/
  hash : NativeEvidencePayload → Vector UInt8 32
  /-- The publication is of the session as it is. -/
  bindable : Nat → Bool
  /-- `rebind_source_in`, and what an unsafe reason invalidates. -/
  rebind : Except StoreError Unit
  /-- `activity_in` and `selection_in`. -/
  observe : NativeEvidenceFact → Except StoreError Unit

/-- `after_baseline`. -/
def afterBaseline (position : NativeEvidencePosition) : Option Nat → Bool
  | none => true
  | some baseline =>
    match position with
    | .fileBytes _ recordEnd _ => baseline < recordEnd
    | .openCodeEvent sequence _ | .openCodeV2Event sequence _ => baseline < sequence
    | .jsonl _ _ => false

/-- The other sources whose cycles have their own keys. -/
def SourceFormat.openCodeSqliteV1 : SourceFormat := .other "OpenCodeSqliteV1"

@[inherit_doc SourceFormat.openCodeSqliteV1]
def SourceFormat.openCodeSqliteV2 : SourceFormat := .other "OpenCodeSqliteV2"

def NativeCycleKey.matches : NativeCycleKey → SourceFormat → Bool
  | codexTurn _, format => format == .codexRolloutJsonl
  | openCodeV2Execution _ _, format => format == .openCodeSqliteV2

namespace NativeEvidenceStore

variable (store : NativeEvidenceStore) (tx : NativeTransaction)

/-- `publication_reason_in`: an unsafe gap of the format is behind a publication. -/
def unsafeBehind (format : SourceFormat) (sequence : Nat) : Bool :=
  store.publications.any fun publication =>
    match publication.content with
    | .inr coverage => publication.sourceFormat == format && sequence < publication.sequence &&
        !coverage.complete && coverage.gapReason.any isUnsafeReason
    | .inl _ => false

/-- `current_binding_in`. -/
def currentBinding (identity : NativeIdentity) : Option NativeCurrentBinding :=
  if store.sourceReason.isSome then none
  else
    ((store.current.find? fun row => row.identity == identity && !row.isRemoved &&
      tx.bindable row.publicationSequence).filter fun row =>
        !store.unsafeBehind row.sourceFormat row.publicationSequence).map fun row =>
          ⟨identity, row.eventKind, row.sourceFormat, row.revision, row.publicationSequence,
            tx.hash row.payload⟩

def memberBinding (member : NativeMessageObservation) : Option NativeCurrentBinding :=
  let payload := messagePayload member
  (store.currentBinding tx payload.identity).filter fun binding =>
    binding.revision == payload.revision && binding.payloadSha256 == tx.hash payload

def bindings : NativeEvidencePayload → Option (List NativeCurrentBinding)
  | .responseCycle cycle =>
    if 4096 < cycle.messages.length then none
    else (cycle.messages.mapM (store.memberBinding tx)).filter fun bindings =>
      decide (tx.cycleBytes cycle bindings ≤ 4 * 1024 * 1024)
  | _ => some []

def withContext (previous : Option CurrentEvidence) (payload : NativeEvidencePayload) :
    NativeEvidencePayload :=
  match previous with
  | some old => if old.firstEligible.isSome then old.payload.keepContext payload else payload
  | none => payload

def writeEvidence (format : SourceFormat) (identity : NativeIdentity) (previous : Option CurrentEvidence)
    (payload : NativeEvidencePayload) (live : Bool) : NativeEvidenceStore :=
  let first := (previous.bind (·.firstEligible)).or
    (if live && payload.eligible && !payload.removed then some (store.sequence + 1) else none)
  let published := store.publish format (.inl ⟨identity, payload.position, payload.revision, payload,
    payload.removed, payload.kind, first⟩)
  published.writeCurrent
    { sourceFormat := format
      identity
      position := payload.position
      revision := payload.revision
      payload
      isRemoved := payload.removed
      publicationSequence := published.sequence
      eventKind := payload.kind
      firstEligible := first
      ownerMessageId := payload.owner }
    fun old => { old with
      position := payload.position
      revision := payload.revision
      payload
      isRemoved := payload.removed
      publicationSequence := published.sequence
      firstEligible := first }

/-- `upsert_in`. -/
def upsert (session : String) (format : SourceFormat) (payload : NativeEvidencePayload)
    (live : Bool) : Except StoreError NativeEvidenceStore := do
  ensure (payload.session == session) "evidence session mismatch"
  let previous := store.current? format payload.identity
  let _ ← integer payload.revision
  if previous.any fun old => decide (payload.revision < old.revision) ||
      (old.isRemoved && !payload.removed) then return store
  let kept := withContext previous payload
  if previous.any fun old => old.payload == kept && old.isRemoved == kept.removed then return store
  if (store.bindings tx kept).isNone then return store
  return store.writeEvidence format payload.identity previous kept live

/-- `remove_current_in`. -/
def removeCurrent (format : SourceFormat) (removal : NativeMessageRemoval)
    (identity : NativeIdentity) : Except StoreError NativeEvidenceStore := do
  match store.current? format identity with
  | none => throw ⟨"Query returned no rows"⟩
  | some row =>
    let revision := max removal.revision (row.revision + 1)
    let _ ← integer revision
    let payload := row.payload.removedBy removal revision
    let published := store.publish format (.inl ⟨identity, removal.position, revision, payload, true,
      row.eventKind, row.firstEligible⟩)
    return published.updateCurrent format identity fun old => { old with
      isRemoved := true
      publicationSequence := published.sequence
      revision
      position := removal.position
      payload }

end NativeEvidenceStore

/-! ### Pages -/

/-- `PublicationBudget`. -/
structure PublicationBudget where
  head : Nat
  count : Nat
  bytes : Nat
  countLimit : Nat
  byteLimit : Nat

/-- A page while it is reconciled: it stops at the first output that its budget cannot take. -/
structure PageProgress where
  store : NativeEvidenceStore
  budget : PublicationBudget
  stopped : Bool

namespace PageProgress

variable (tx : NativeTransaction) (progress : PageProgress)

/-- `PublicationBudget::apply`. -/
def output (operation : NativeEvidenceStore → Except StoreError NativeEvidenceStore) :
    Except StoreError PageProgress := do
  let budget := progress.budget
  let after ← operation progress.store
  let new := after.publications.filter fun publication => decide (budget.head < publication.sequence)
  let bytes := (new.map tx.bytes).sum
  if budget.countLimit < budget.count + new.length || budget.byteLimit < budget.bytes + bytes then
    ensure (new.length ≤ budget.countLimit && bytes ≤ budget.byteLimit)
      "one native evidence output exceeds its page budget"
    return { progress with stopped := true }
  return { progress with
    store := after
    budget := { budget with
      head := (new.map NativePublication.sequence).foldl max budget.head
      count := budget.count + new.length
      bytes := budget.bytes + bytes } }

def next (operation : NativeEvidenceStore → Except StoreError NativeEvidenceStore) :
    Except StoreError PageProgress :=
  if progress.stopped then .ok progress else progress.output tx operation

def boundIdentities (format : SourceFormat) (messageId : String) : List NativeIdentity :=
  let bound := progress.store.current.filter fun row => row.sourceFormat == format &&
    row.ownerMessageId == some messageId && !row.isRemoved
  let ordered := (bound.map CurrentEvidence.identity).insertionSort fun a b =>
    tx.identityText a ≤ tx.identityText b
  ordered.take (progress.budget.countLimit - progress.budget.count + 1)

def removeMessage (format : SourceFormat) (removal : NativeMessageRemoval) :
    Except StoreError PageProgress :=
  match progress.boundIdentities tx format removal.messageId with
  | [] =>
    if progress.store.current.any fun row => row.sourceFormat == format &&
        row.ownerMessageId == some removal.messageId then .ok progress
    else progress.next tx fun store => .ok (store.publishCoverage format false false
      (some "native-message-removal-unbound") .invalidated)
  | identities => identities.foldlM (fun progress identity => progress.next tx fun store =>
      store.removeCurrent format removal identity) progress

def writeMessage (session : String) (batch : NativeEvidenceBatch) (policy : PublicationPolicy)
    (payload : NativeEvidencePayload) (live : Bool) (store : NativeEvidenceStore) :
    Except StoreError NativeEvidenceStore :=
  match payload with
  | .toolResult result => do
    let after ← store.reconcileWithPolicy session ⟨batch.sourceFormat, [result], false⟩
      { policy with suppressCoverage := true }
    return after.updateCurrent batch.sourceFormat payload.identity fun row =>
      { row with ownerMessageId := payload.owner }
  | payload => store.upsert tx session batch.sourceFormat payload live

def event (session : String) (batch : NativeEvidenceBatch) (policy : PublicationPolicy)
    (event : NativeEvidenceEvent) : Except StoreError PageProgress :=
  if progress.stopped then .ok progress
  else match event.fact with
  | .admissionFailure failure => do
    ensure (failure.sourceFormat == batch.sourceFormat && failure.sessionId == session)
      "unsafe admission source mismatch"
    ensure failure.reason.isSome "admission failure must have an unsafe reason"
    progress.next tx fun store => .ok (store.publishCoverage batch.sourceFormat false false
      failure.reason .invalidated)
  | .activity activity => do
    ensure (activity.sourceFormat == batch.sourceFormat && activity.sessionId == session)
      "activity source mismatch"
    if event.liveEligible && afterBaseline activity.position policy.baseline then
      tx.observe event.fact
    return progress
  | .sessionSelection selection => do
    ensure (selection.sourceFormat == batch.sourceFormat && selection.sessionId == session)
      "selection source mismatch"
    tx.observe event.fact
    return progress
  | .messageRemoval removal => do
    ensure (removal.sourceFormat == batch.sourceFormat && removal.sessionId == session)
      "removal source mismatch"
    progress.removeMessage tx batch.sourceFormat removal
  | .message message => do
    let payload := messagePayload message
    ensure (payload.sourceFormat == batch.sourceFormat && payload.session == session)
      "native message source mismatch"
    if progress.store.sourceReason.isSome then return progress
    let live := event.liveEligible && afterBaseline payload.firstPosition policy.baseline
    progress.next tx (writeMessage tx session batch policy payload live)
  | .responseCycle cycle => do
    ensure (cycle.sourceFormat == batch.sourceFormat && cycle.sessionId == session)
      "native cycle source mismatch"
    if progress.store.sourceReason.isSome then return progress
    ensure (cycle.key.matches batch.sourceFormat) "cycle key does not match its native source"
    let live := event.liveEligible && afterBaseline cycle.context.firstEligiblePosition policy.baseline
    progress.next tx fun store =>
      store.upsert tx session batch.sourceFormat (.responseCycle cycle) live

end PageProgress

namespace NativeEvidenceBatch

def failures (batch : NativeEvidenceBatch) : List NativeAdmissionFailure :=
  batch.events.filterMap fun event =>
    match event.fact with
    | .admissionFailure failure => some failure
    | _ => none

def hasResults (batch : NativeEvidenceBatch) : Bool :=
  batch.events.any fun event =>
    match event.fact with
    | .message (.toolResult _) => true
    | _ => false

def budget (batch : NativeEvidenceBatch) (head : Nat) : PublicationBudget :=
  let journal := batch.sourceFormat == .openCodeSqliteV1
  ⟨head, 0, 0, if journal then 40 else 256,
    if journal then 4 * 1024 * 1024 else 12 * 1024 * 1024⟩

end NativeEvidenceBatch

namespace NativeEvidenceStore

variable (store : NativeEvidenceStore) (tx : NativeTransaction)

def invalidate (reason : Option String) : NativeEvidenceStore :=
  match reason with
  | some reason => { store with delivery := store.delivery.map fun _ => some reason }
  | none => store

def unsafeReason (session : String) (batch : NativeEvidenceBatch) :
    Except StoreError (Option String) :=
  batch.failures.foldlM (fun _ failure => do
    ensure (failure.sourceFormat == batch.sourceFormat && failure.sessionId == session)
      "unsafe admission source mismatch"
    ensure failure.reason.isSome "admission failure must have an unsafe reason"
    return failure.reason) none

def pageCoverage (batch : NativeEvidenceBatch) (policy : PublicationPolicy) (hasResults : Bool)
    (complete : Option Bool) (progress : PageProgress) : Except StoreError PageProgress :=
  match complete with
  | some complete =>
    if policy.suppressCoverage || !batch.failures.isEmpty then .ok progress
    else progress.next tx fun store => .ok (store.publishCoverage batch.sourceFormat hasResults
      complete policy.gapReason policy.gapKind)
  | none => .ok progress

/-- `reconcile_evidence_in`. -/
def reconcileEvidence (session : String) (batch : NativeEvidenceBatch)
    (policy : PublicationPolicy) : Except StoreError (Bool × NativeEvidenceStore) := do
  let reason ← unsafeReason session batch
  tx.rebind
  let budget := batch.budget store.sequence
  ensure (tx.batchBytes ≤ budget.byteLimit) "native evidence page exceeds its byte budget"
  let progress ← pageCoverage tx batch policy batch.hasResults policy.historyComplete
    ⟨store.invalidate reason, budget, false⟩
  let progress ← batch.events.foldlM (fun progress event =>
    progress.event tx session batch policy event) progress
  let progress ← pageCoverage tx batch policy false
    (if policy.historyComplete.isSome then none else some batch.historyComplete) progress
  return (!progress.stopped, progress.store)

end NativeEvidenceStore

/-! ### Runs -/

inductive NativeEvidenceOp where
  | evidence (tx : NativeTransaction) (batch : NativeEvidenceBatch) (policy : PublicationPolicy)
  | snapshot (batch : ToolResultBatch) (policy : PublicationPolicy)
  /-- Other sessions publish. -/
  | otherSessions (count : Nat)
  /-- The delivery of the session changes. -/
  | changeDelivery (delivery : Option (Option String))

namespace NativeEvidenceStore

def commit (session : String) (store : NativeEvidenceStore) :
    NativeEvidenceOp → Except StoreError NativeEvidenceStore
  | .evidence tx batch policy => (store.reconcileEvidence tx session batch policy).map (·.2)
  | .snapshot batch policy => store.reconcileWithPolicy session batch policy
  | .otherSessions count => .ok { store with sequence := store.sequence + count }
  | .changeDelivery delivery => .ok { store with delivery }

def fresh (sequence : Nat) (delivery : Option (Option String)) : NativeEvidenceStore :=
  ⟨[], [], sequence, delivery⟩

end NativeEvidenceStore

def nativeEvidence (session : String) : Machine NativeEvidenceStore NativeEvidenceOp where
  step before op after := before.commit session op = .ok after ∨
    (∃ error, before.commit session op = .error error) ∧ after = before

end Antiburn
