/-
Delivery of native session files.

A file is read page by page under a claim.  The delivery row of a session has the
cursor of the next page, and the fence and lease of the claim; a page, a failure and
a retry are committed under the same check of the claim.  The other tables that a
page writes are a parameter: they do not touch the delivery row, and they may fail.
Which of the due sessions is served next is chosen by the caller.
-/
import Antiburn.CandidateClaims

namespace Antiburn

/-! ### Rows -/

structure SessionKey where
  environmentKey : String
  agent : String
  sessionId : String
  deriving DecidableEq

inductive SourceFormat where
  | claudeJsonl
  | codexRolloutJsonl
  | piV3Jsonl
  | other (name : String)
  deriving DecidableEq

/-- `source_format`. -/
def sourceFormat (agent : String) : Option SourceFormat :=
  if agent = "claude-code" then some .claudeJsonl
  else if agent = "codex" then some .codexRolloutJsonl
  else if agent = "pi" then some .piV3Jsonl
  else none

/-- A row of `session`. -/
structure SessionRow where
  incarnation : Int
  sourceLabel : String
  cwd : Option String
  sourceKind : String
  wslDistro : Option String
  sourceGeneration : Int
  updatedAtEpoch : Option Int

/-- A row of `native_file_delivery`. -/
structure DeliveryRow where
  incarnation : Int
  sourceLabel : String
  cwd : String
  parserRevision : Int
  cursorJson : Option String := none
  observedGeneration : Int := -1
  pending : Bool := true
  blocked : Bool := false
  claimFence : Option Int
  leaseExpiresAtEpoch : Option Int
  lastAttemptAtEpoch : Option Int
  lastAttemptOrder : Int := 0
  nextAttemptAtEpoch : Option Int := none
  activeUntilEpoch : Int
  retryCount : Int := 0
  lastError : Option String := none
  serviceTicket : Option Int

/-- The tables of the deliveries, and the other tables that pages write. -/
structure NativeFileStore (ε : Type) where
  sessions : SessionKey → Option SessionRow
  /-- A live activation is enabled for the working directory. -/
  watched : String → Bool
  /-- The session is a fork, or a subagent of another one. -/
  related : SessionKey → Bool
  deliveries : SessionKey → Option DeliveryRow := fun _ => none
  /-- `evidence_claim_fence_seq`. -/
  fenceSeq : Int
  nextTicket : Int
  successfulTurns : Int
  evidence : ε

structure NativeFileClaim where
  key : SessionKey
  sourceLabel : String
  cursorJson : Option String
  retryCount : Int
  incarnation : Int
  cwd : String
  generation : Int
  fence : Int
  notifyOnSuccess : Bool
  reset : Bool
  parserRevision : Option Int
  deriving DecidableEq

def PARSER_REVISION : Int := 67
def ACTIVE_SESSION_WINDOW_SECS : Int := 180
def ACTIVE_POLL_SECS : Int := 1
def DORMANT_POLL_SECS : Int := 30
def MAX_READ_ATTEMPTS : Int := 5
def MAX_CURSOR_BYTES : Nat := 32 * 1024 * 1024

def supportedRevision (revision : Int) : Bool :=
  [PARSER_REVISION, 62, 63, 64, 65, 66].contains revision

def SessionRow.bindingChanged (session : SessionRow) : Option DeliveryRow → Bool
  | none => true
  | some row => row.sourceLabel != session.sourceLabel || some row.cwd != session.cwd

def SessionRow.reset (session : SessionRow) : Option DeliveryRow → Bool
  | none => true
  | some row => row.incarnation != session.incarnation ||
      (session.bindingChanged (some row) && row.cursorJson.isNone)

namespace NativeFileStore

variable {ε : Type} (store : NativeFileStore ε)

def setDelivery (key : SessionKey) (row : DeliveryRow) : NativeFileStore ε :=
  { store with deliveries := fun other => if other = key then some row else store.deliveries other }

/-! ### Claims -/

def claimable (key : SessionKey) (session : SessionRow) (row : Option DeliveryRow) (now : Int) :
    Bool :=
  let reset := session.reset row
  let behind := row.any fun row => row.observedGeneration != session.sourceGeneration
  -- the candidates of the query
  key.environmentKey == "native" && session.wslDistro.isNone && (sourceFormat key.agent).isSome &&
    session.sourceKind == "file" && row.all (fun row => supportedRevision row.parserRevision) &&
    session.cwd.any (fun cwd => cwd != "" && store.watched cwd) && !store.related key &&
  -- those that are due
    (if reset then
        session.updatedAtEpoch.any (now - ACTIVE_SESSION_WINDOW_SECS ≤ ·)
      else row.any (fun row => !row.blocked &&
        (row.pending || behind || row.nextAttemptAtEpoch.any (· ≤ now)))) &&
    decide ((row.bind (·.leaseExpiresAtEpoch)).getD 0 ≤ now) &&
    (reset || behind || decide ((row.bind (·.nextAttemptAtEpoch)).getD 0 ≤ now))

def newClaim (key : SessionKey) (session : SessionRow) (row : Option DeliveryRow) : NativeFileClaim :=
  let reset := session.reset row
  { key
    sourceLabel := session.sourceLabel
    cursorJson := if reset then none else row.bind (·.cursorJson)
    retryCount := if reset then 0 else (row.map (·.retryCount)).getD 0
    incarnation := session.incarnation
    cwd := session.cwd.getD ""
    generation := session.sourceGeneration
    fence := store.fenceSeq + 1
    notifyOnSuccess := reset || session.bindingChanged row || row.any fun row => row.pending ||
      row.observedGeneration != session.sourceGeneration || row.lastError.isSome
    reset
    parserRevision := row.map (·.parserRevision) }

def claimedRow (claim : NativeFileClaim) (row : Option DeliveryRow) (now leaseSecs : Int) :
    DeliveryRow :=
  match row with
  | none =>
    { incarnation := claim.incarnation
      sourceLabel := claim.sourceLabel
      cwd := claim.cwd
      parserRevision := PARSER_REVISION
      claimFence := some claim.fence
      leaseExpiresAtEpoch := some (now + leaseSecs)
      lastAttemptAtEpoch := some now
      lastAttemptOrder := claim.fence
      retryCount := claim.retryCount
      activeUntilEpoch := now
      serviceTicket := some store.nextTicket }
  | some row =>
    { row with
      incarnation := claim.incarnation
      sourceLabel := claim.sourceLabel
      cwd := claim.cwd
      cursorJson := if claim.reset then none else row.cursorJson
      lastError := if claim.reset then none else row.lastError
      pending := true
      blocked := false
      claimFence := some claim.fence
      leaseExpiresAtEpoch := some (now + leaseSecs)
      lastAttemptAtEpoch := some now
      lastAttemptOrder := claim.fence
      retryCount := claim.retryCount
      serviceTicket := some store.nextTicket }

/-- `claim_next_native_file`, where `choice` is the first row of its order. -/
def claimNextNativeFile (choice : Option SessionKey) (now leaseSecs : Int) :
    Except StoreError (Option NativeFileClaim × NativeFileStore ε) :=
  match choice.bind fun key => (store.sessions key).map (key, ·) with
  | none => .ok (none, store)
  | some (key, session) =>
    let row := store.deliveries key
    if !store.claimable key session row now then .ok (none, store)
    else if I64_MAX ≤ store.fenceSeq then .error ⟨"claim fence is exhausted"⟩
    else
      let claim := store.newClaim key session row
      .ok (some claim,
        { store.setDelivery key (store.claimedRow claim row now leaseSecs) with
          fenceSeq := store.fenceSeq + 1
          nextTicket := store.nextTicket + 1
          successfulTurns := store.successfulTurns + 1 })

/-- `recover_native_file_claims`. -/
def recoverNativeFileClaims : NativeFileStore ε :=
  { store with
    deliveries := fun key => (store.deliveries key).map fun row =>
      if row.claimFence.isSome then
        { row with
          pending := true
          claimFence := none
          leaseExpiresAtEpoch := none
          nextAttemptAtEpoch := none }
      else row }

/-! ### The check of a claim -/

def holds (claim : NativeFileClaim) (now : Int) (row : DeliveryRow) (session : SessionRow) : Bool :=
  row.claimFence == some claim.fence && row.cursorJson == claim.cursorJson &&
    row.leaseExpiresAtEpoch.any (now < ·) && row.incarnation == claim.incarnation &&
    session.incarnation == claim.incarnation && row.sourceLabel == claim.sourceLabel &&
    session.sourceLabel == claim.sourceLabel && session.sourceKind == "file" &&
    session.wslDistro.isNone && row.cwd == claim.cwd && session.cwd == some claim.cwd &&
    supportedRevision row.parserRevision && !store.related claim.key

/-- `current_generation`, with the rows it joins. -/
def currentGeneration (claim : NativeFileClaim) (now : Int) : Option (DeliveryRow × SessionRow) :=
  (store.deliveries claim.key).bind fun row => (store.sessions claim.key).bind fun session =>
    if store.holds claim now row session then some (row, session) else none

end NativeFileStore

/-! ### Pages -/

structure NativeAdmissionFailure where
  sourceFormat : SourceFormat
  sessionId : String
  reason : Option String

structure NativeFilePage where
  /-- The cursor behind the page, as JSON. -/
  cursorJson : String
  sourceFormat : SourceFormat
  hasMore : Bool
  pendingTail : Bool
  baselineReached : Bool
  historyComplete : Bool
  admissionFailure : Option NativeAdmissionFailure
  /-- The admission failures among its events. -/
  eventFailures : List NativeAdmissionFailure

structure PageEffects (ε : Type) where
  /-- `ensure_boundary_in`. -/
  ensureBoundary : ε → Except StoreError (Bool × ε)
  /-- `invalidate_in`. -/
  invalidate : String → ε → Except StoreError ε
  /-- `reconcile_evidence_in`, for the reason of a gap; whether it consumed the page. -/
  reconcile : Option String → ε → Except StoreError (Bool × ε)
  /-- `frontier_in`. -/
  frontier : Bool → ε → Except StoreError ε
  /-- `retry_json_after_page` of the cursor that was read, or the initial one. -/
  retryCursor : Except StoreError String

/-- `is_unsafe`. -/
def isUnsafeReason (reason : String) : Bool :=
  ["native-unsafe-identity", "native-unsafe-order", "native-unsafe-ownership"].contains reason

def NativeAdmissionFailure.checked (failure : NativeAdmissionFailure) (claim : NativeFileClaim)
    (page : NativeFilePage) : Except StoreError String := do
  ensure (failure.sourceFormat == page.sourceFormat && failure.sessionId == claim.key.sessionId)
    "unsafe admission source mismatch"
  match failure.reason with
  | some reason => return reason
  | none => throw ⟨"admission failure must have an unsafe reason"⟩

def lastReason (claim : NativeFileClaim) (page : NativeFilePage) (reason : Option String) :
    List NativeAdmissionFailure → Except StoreError (Option String)
  | [] => .ok reason
  | failure :: rest => do
    let reason ← failure.checked claim page
    lastReason claim page (some reason) rest

def DeliveryRow.sourceReason (row : DeliveryRow) (session : SessionRow) : Option String :=
  if row.incarnation = session.incarnation then row.lastError.filter isUnsafeReason else none

namespace NativeFileStore

variable {ε : Type} (store : NativeFileStore ε)

/-- The row behind a page that is not wholly consumed. -/
def retriedRow (row : DeliveryRow) (cursor : String) (now : Int) : DeliveryRow :=
  { row with
    pending := true
    claimFence := none
    leaseExpiresAtEpoch := none
    nextAttemptAtEpoch := some now
    cursorJson := some cursor
    parserRevision := PARSER_REVISION }

def publishedRow (row : DeliveryRow) (session : SessionRow) (claim : NativeFileClaim)
    (page : NativeFilePage) (unsafeReason : Option String) (now : Int) : DeliveryRow :=
  let changed := claim.cursorJson != some page.cursorJson
  let pending := page.hasMore || session.sourceGeneration != claim.generation
  let active := changed || decide (now ≤ row.activeUntilEpoch) ||
    session.updatedAtEpoch.any (now - ACTIVE_SESSION_WINDOW_SECS ≤ ·)
  { row with
    cursorJson := if changed then some page.cursorJson else row.cursorJson
    observedGeneration := claim.generation
    pending
    claimFence := none
    leaseExpiresAtEpoch := none
    retryCount := 0
    lastError := unsafeReason
    parserRevision := PARSER_REVISION
    serviceTicket := if pending then row.serviceTicket else none
    activeUntilEpoch := if changed then now + ACTIVE_SESSION_WINDOW_SECS else row.activeUntilEpoch
    nextAttemptAtEpoch := some (if pending then now
      else if active then now + ACTIVE_POLL_SECS else now + DORMANT_POLL_SECS) }

/-- The saved error behind the admission checks of a page, which come first. -/
def admittedRow (row : DeliveryRow) (claim : NativeFileClaim) (page : NativeFilePage)
    (effects : PageEffects ε) (unsafeReason : Option String) (evidence : ε) :
    Except StoreError (DeliveryRow × ε) :=
  match unsafeReason, page.eventFailures with
  | some reason, [] =>
    (effects.invalidate reason evidence).map ({ row with lastError := some reason }, ·)
  | _, _ => .ok (if claim.reset then { row with lastError := none } else row, evidence)

def commitPage (claim : NativeFileClaim) (page : NativeFilePage) (effects : PageEffects ε)
    (now : Int) (row : DeliveryRow) (session : SessionRow) :
    Except StoreError (Bool × NativeFileStore ε) := do
  ensure (some page.sourceFormat == sourceFormat claim.key.agent)
    "native file evidence source mismatch"
  ensure (!page.hasMore || claim.cursorJson != some page.cursorJson) "file page does not advance"
  let (originBoundary, evidence) ← effects.ensureBoundary store.evidence
  let savedReason := if claim.reset then none else row.sourceReason session
  let unsafeReason ← lastReason claim page savedReason
    (page.admissionFailure.toList ++ page.eventFailures)
  let (row, evidence) ← admittedRow row claim page effects unsafeReason evidence
  let gap := unsafeReason.or
    (if page.historyComplete then none else some "file-history-incomplete")
  let (consumed, evidence) ← effects.reconcile gap evidence
  let evidence ← effects.frontier
    (consumed && unsafeReason.isNone && !page.hasMore && !page.pendingTail &&
      page.baselineReached && session.sourceGeneration == claim.generation) evidence
  let store := { store with evidence }
  if !consumed then
    let cursor ← effects.retryCursor
    return (true, store.setDelivery claim.key (retriedRow row cursor now))
  return (originBoundary || claim.cursorJson != some page.cursorJson || claim.notifyOnSuccess ||
      session.sourceGeneration != claim.generation,
    store.setDelivery claim.key (publishedRow row session claim page unsafeReason now))

/-- `publish_native_file_page`. -/
def publishNativeFilePage (claim : NativeFileClaim) (page : NativeFilePage)
    (effects : PageEffects ε) (now : Int) : Except StoreError (Bool × NativeFileStore ε) := do
  ensure (page.cursorJson.utf8ByteSize ≤ MAX_CURSOR_BYTES) "native file cursor exceeds its limit"
  match store.currentGeneration claim now with
  | none => return (false, store)
  | some (row, session) => store.commitPage claim page effects now row session

end NativeFileStore

/-! ### Failures -/

inductive NativeFileReadError where
  | sourceChanged
  | invalidCursor
  | unsupported
  | unavailable
  | readFailed
  | cancelled
  deriving DecidableEq

def NativeFileReadError.outcome : NativeFileReadError → Bool × Option String
  | sourceChanged => (true, some "file-source-changed")
  | invalidCursor => (true, some "file-cursor-invalid")
  | unsupported => (true, some "file-unsupported")
  | unavailable => (false, some "file-unavailable")
  | readFailed => (false, some "file-read-failed")
  | cancelled => (false, none)

namespace NativeFileStore

variable {ε : Type} (store : NativeFileStore ε)

def failedRow (row : DeliveryRow) (claim : NativeFileClaim) (failure : NativeFileReadError)
    (now retryAt : Int) : DeliveryRow :=
  let (blocked, lastError) := failure.outcome
  let cancelled := failure == .cancelled
  let retryCount := claim.retryCount + if cancelled then 0 else 1
  let retry := !blocked && (cancelled || decide (retryCount < MAX_READ_ATTEMPTS))
  { row with
    pending := retry
    blocked
    observedGeneration := claim.generation
    claimFence := none
    leaseExpiresAtEpoch := none
    retryCount
    nextAttemptAtEpoch :=
      if retry then some (if cancelled then now + ACTIVE_POLL_SECS else retryAt) else none
    serviceTicket := if retry then row.serviceTicket else none
    lastError := if cancelled || row.lastError.any isUnsafeReason then row.lastError else lastError }

/-- `fail_native_file`, where `breakContinuity` is what it does to the other tables. -/
def failNativeFile (claim : NativeFileClaim) (failure : NativeFileReadError)
    (breakContinuity : ε → Except StoreError ε) (now retryAt : Int) :
    Except StoreError (Bool × NativeFileStore ε) :=
  match store.currentGeneration claim now with
  | none => .ok (false, store)
  | some (row, _) =>
    let broken := if failure = .cancelled then .ok store.evidence
      else breakContinuity store.evidence
    broken.map fun evidence => (true, { store with evidence }.setDelivery claim.key
      (failedRow row claim failure now retryAt))

/-! ### Session changes -/

def changeSession (key : SessionKey) (session : Option SessionRow) : NativeFileStore ε :=
  { store with
    sessions := fun other => if other = key then session else store.sessions other
    deliveries := fun other =>
      if other = key ∧ session.isNone = true then none else store.deliveries other }

def forget (cleared : SessionKey → Bool) : NativeFileStore ε :=
  { store with deliveries := fun key => if cleared key then none else store.deliveries key }

end NativeFileStore

/-! ### Runs -/

inductive NativeFileOp (ε : Type) where
  | claimNext (choice : Option SessionKey) (now leaseSecs : Int)
  | publish (claim : NativeFileClaim) (page : NativeFilePage) (effects : PageEffects ε) (now : Int)
  | fail (claim : NativeFileClaim) (failure : NativeFileReadError)
      (breakContinuity : ε → Except StoreError ε) (now retryAt : Int)
  | recover
  | changeSession (key : SessionKey) (session : Option SessionRow)
  /-- Activations and relations change. -/
  | changeScope (watched : String → Bool) (related : SessionKey → Bool)
  | forget (cleared : SessionKey → Bool)
  /-- Another queue takes a fence. -/
  | takeFence
  /-- The other tables change. -/
  | changeEvidence (evidence : ε)

inductive NativeFileReply where
  | claimed (claim : Option NativeFileClaim)
  | answered (result : Except StoreError Bool)
  | done

/-- What a call commits under its claim: a page and the cursor behind it, or a failure. -/
inductive NativeFileCommit where
  | page (claim : NativeFileClaim) (cursorJson : Option String)
  | failure (claim : NativeFileClaim)

def NativeFileCommit.claim : NativeFileCommit → NativeFileClaim
  | page claim _ | failure claim => claim

structure NativeFileLabel (ε : Type) where
  op : NativeFileOp ε
  reply : NativeFileReply
  commit : Option NativeFileCommit

structure NativeFileGrant where
  claim : NativeFileClaim
  expiresAtEpoch : Int

/-- The store, the clock and the claims that holders may still have. -/
structure NativeFileState (ε : Type) where
  store : NativeFileStore ε
  clock : Int
  granted : List NativeFileGrant

namespace NativeFileState

variable {ε : Type} (state : NativeFileState ε)

/-- The clock does not go back. -/
def at? (now : Int) : Option (NativeFileState ε) :=
  if state.clock ≤ now then some { state with clock := now } else none

def heldBy (claim : NativeFileClaim) : Bool := state.granted.any (·.claim == claim)

/-- A call of a holder, with the commit it is if it reaches the tables. -/
def answer (claim : NativeFileClaim) (now : Int)
    (result : Except StoreError (Bool × NativeFileStore ε))
    (commit : NativeFileStore ε → NativeFileCommit) :
    NativeFileState ε × NativeFileReply × Option NativeFileCommit :=
  match result with
  | .error error => (state, .answered (.error error), none)
  | .ok (changed, store) =>
    ({ state with store }, .answered (.ok changed),
      if (state.store.currentGeneration claim now).isSome then some (commit store) else none)

/-- What an operation does, if it can happen. -/
def apply : NativeFileOp ε → Option (NativeFileState ε × NativeFileReply × Option NativeFileCommit)
  | .claimNext choice now leaseSecs => do
    let state ← state.at? now
    match state.store.claimNextNativeFile choice now leaseSecs with
    | .error error => return (state, .answered (.error error), none)
    | .ok (none, store) => return ({ state with store }, .claimed none, none)
    | .ok (some claim, store) =>
      return ({ state with store, granted := ⟨claim, now + leaseSecs⟩ :: state.granted },
        .claimed (some claim), none)
  | .publish claim page effects now => do
    let state ← state.at? now
    if !state.heldBy claim then none
    else some (state.answer claim now (state.store.publishNativeFilePage claim page effects now)
      fun store => .page claim ((store.deliveries claim.key).bind (·.cursorJson)))
  | .fail claim failure breakContinuity now retryAt => do
    let state ← state.at? now
    if !state.heldBy claim then none
    else some (state.answer claim now
      (state.store.failNativeFile claim failure breakContinuity now retryAt)
      fun _ => .failure claim)
  | .recover => some ({ state with store := state.store.recoverNativeFileClaims }, .done, none)
  | .changeSession key session =>
    some ({ state with store := state.store.changeSession key session }, .done, none)
  | .changeScope watched related =>
    some ({ state with store := { state.store with watched, related } }, .done, none)
  | .forget cleared => some ({ state with store := state.store.forget cleared }, .done, none)
  | .takeFence =>
    some ({ state with store := { state.store with fenceSeq := state.store.fenceSeq + 1 } }, .done,
      none)
  | .changeEvidence evidence =>
    some ({ state with store := { state.store with evidence } }, .done, none)

def fresh (store : NativeFileStore ε) (clock : Int) : NativeFileState ε :=
  ⟨{ store with deliveries := fun _ => none }, clock, []⟩

end NativeFileState

def nativeFiles (ε : Type) : Machine (NativeFileState ε) (NativeFileLabel ε) where
  step before label after := before.apply label.op = some (after, label.reply, label.commit)

end Antiburn
