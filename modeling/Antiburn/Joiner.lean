/-
The joiner of OpenCode V2 events.

Tool calls, steps, inbox items and delivered user messages are joined by their
identifiers.  A counter follows what is retained; where a subtraction from it would
underflow, or an expected entry is missing, the model has no next state.
-/
import Antiburn.Json
import Antiburn.Lib.Tally

namespace Antiburn

def MAX_RETAINED_CALLS : Nat := 256

def MAX_RETAINED_USERS : Nat := 128

def MAX_STRING_BYTES : Nat := 16 * 1024

def MAX_RETAINED_PAYLOAD_BYTES : Nat := 512 * 1024

namespace Joiner

/-! ### Data -/

inductive Gap where
  | missingSequence | sequenceDiscontinuity | continuityLost | missingJoin
  | conflictingDuplicate | capacityExceeded | unknownShape | unsupportedVersion
  | optionalContentOmitted
  deriving DecidableEq

inductive TerminalStatus where
  | success | failed
  deriving DecidableEq

structure NativeRequestAttribution where
  provider : Option String := none
  model : Option String := none
  fastMode : Option Bool := none
  deriving DecidableEq

def lengthOf (text : Option String) : Nat := (text.map String.utf8ByteSize).getD 0

def NativeRequestAttribution.retainedBytes (requester : NativeRequestAttribution) : Nat :=
  lengthOf requester.provider + lengthOf requester.model

inductive ShellState where
  | running | completed
  deriving DecidableEq

inductive WorkState where
  | running | completed
  deriving DecidableEq

inductive NativeToolOutcome where
  | shell (state : Option ShellState) (exit : Option Int) (signal : Option String)
      (timedOut : Option Bool) (shellId : Option String)
  | codeMode (error : Option Bool)
  | subagent (sessionId : String) (state : WorkState)
  deriving DecidableEq

def NativeToolOutcome.retainedStringBytes : NativeToolOutcome → Nat
  | shell _ _ signal _ shellId => lengthOf signal + lengthOf shellId
  | codeMode _ => 0
  | subagent sessionId _ => sessionId.utf8ByteSize

structure UserRequest where
  sequence : Nat
  messageId : String
  text : Option String
  complete : Bool
  deriving DecidableEq

def UserRequest.payloadBytes (request : UserRequest) : Nat :=
  request.messageId.utf8ByteSize + lengthOf request.text

/-- `UserHistory`: one allocation. -/
structure HistoryNode where
  allocation : Nat
  request : UserRequest
  deriving DecidableEq

inductive PendingInbox where
  | user (request : UserRequest)
  | other

def PendingInbox.payloadBytes : PendingInbox → Nat
  | user request => request.payloadBytes
  | other => 0

structure StepContext where
  requester : NativeRequestAttribution := {}
  users : List HistoryNode := []
  gaps : List Gap := []

def StepContext.request (context : StepContext) : Option UserRequest :=
  context.users.head?.map HistoryNode.request

def hasText (text : Option String) : Bool := text.any fun text => !text.isEmpty

def StepContext.isComplete (context : StepContext) : Bool :=
  (context.request.any fun request => request.complete && hasText request.text) &&
    context.gaps.isEmpty

/-- The same requester, gaps and history; histories are compared by their allocations. -/
def StepContext.sameHistory (left right : StepContext) : Bool :=
  left.requester == right.requester && left.gaps == right.gaps &&
    left.users.head?.map HistoryNode.allocation == right.users.head?.map HistoryNode.allocation

def StepContext.userMessages (context : StepContext) : List UserRequest :=
  (context.users.map HistoryNode.request).reverse

structure Step where
  context : StepContext
  activeCalls : Nat := 0
  ended : Bool := false

structure TerminalFingerprint where
  status : TerminalStatus
  /-- A digest of 32 bytes. -/
  content : Option String
  outcome : Option NativeToolOutcome
  providerExecuted : Option Bool
  deriving DecidableEq

structure Call where
  name : Option String := none
  input : Option Json := none
  inputBytes : Nat := 0
  context : StepContext := {}
  terminal : Option TerminalFingerprint := none
  providerExecuted : Option Bool := none

def TerminalFingerprint.retainedBytes (terminal : TerminalFingerprint) : Nat :=
  32 + (terminal.outcome.map NativeToolOutcome.retainedStringBytes).getD 0

def Call.payloadBytes (call : Call) : Nat :=
  call.context.requester.retainedBytes + lengthOf call.name + call.inputBytes +
    (call.terminal.map TerminalFingerprint.retainedBytes).getD 0

structure JoinedToolResult where
  sessionId : String
  assistantMessageId : String
  callId : String
  eventId : String
  aggregateId : String
  sequence : Nat
  created : Option Json
  toolName : String
  input : Option Json
  requestMessageId : Option String
  requestSequence : Option Nat
  requestText : Option String
  userMessages : List UserRequest
  status : TerminalStatus
  content : Option String
  outcome : Option NativeToolOutcome
  providerExecuted : Option Bool
  requester : NativeRequestAttribution
  gaps : List Gap

/-! ### Public facts -/

/-- A step or a message of the public facts: its own bytes, and the user prefixes that it
shares with others, by their allocations. -/
structure PublicEntry where
  bytes : Nat
  prefixes : List (Nat × Nat)

structure PublicCycle where
  invalid : Bool
  bytes : Nat

structure PublicState where
  steps : List (String × PublicEntry) := []
  calls : List ((String × String) × PublicEntry) := []
  cycle : Option PublicCycle := none
  unavailable : Bool := false
  outputOmitted : Bool := false
  requestHistoryIncomplete : Bool := false

namespace PublicState

def clear (state : PublicState) : PublicState :=
  { state with
    steps := []
    calls := []
    cycle := none
    unavailable := true
    requestHistoryIncomplete := true }

def invalidateCycle (state : PublicState) : PublicState :=
  { state with cycle := state.cycle.map fun cycle => { cycle with invalid := true } }

/-- Each shared prefix counts once. -/
def retainedBytes (state : PublicState) : Nat :=
  (state.steps.map fun step => step.2.bytes).sum + (state.calls.map fun call => call.2.bytes).sum +
    (((state.steps.flatMap fun step => step.2.prefixes) ++
      state.calls.flatMap fun call => call.2.prefixes).dedup.map Prod.snd).sum +
    (state.cycle.map PublicCycle.bytes).getD 0

end PublicState

end Joiner

open Joiner in
/-- `OpenCodeV2EventJoiner`. -/
structure Joiner where
  sessionId : Option String := none
  lastSequence : Option Nat := none
  requestHistoryGap : Bool := false
  seenEventIds : Tally String String := ∅
  seenEventIdOrder : List String := []
  calls : Tally (String × String) Call := ∅
  terminalCallOrder : List (String × String) := []
  pendingInbox : Tally String PendingInbox := ∅
  users : List HistoryNode := []
  steps : Tally String Step := ∅
  retainedBytes : Nat := 0
  gaps : List Gap := []
  publicState : PublicState := {}
  /-- How many history nodes have been allocated. -/
  allocations : Nat := 0

namespace Joiner

structure JoinerCodec where
  /-- `event_digest_and_size`: the digest of an event that is not too long. -/
  eventDigest : Json → Option String
  /-- Whether `encoded_digest_and_size` stays within a bound. -/
  encodedWithin : Json → Nat → Bool
  contentDigest : String → String
  /-- `serde_json::from_str`. -/
  readJson : String → Option Json
  /-- `size_of::<Value>()`. -/
  valueSize : Nat
  /-- `public::attribution`. -/
  attribution : Json → NativeRequestAttribution
  /-- `NativeToolOutcome::opencode_v2_tool`. -/
  toolOutcome : String → Option Json → Option Bool → Bool → Option NativeToolOutcome
  /-- `PublicState::observe`, which reads the joiner. -/
  observePublic : PublicState → Joiner → Json → Nat → String → Option JoinedToolResult →
    PublicState

section Reading

/-- `bounded_field`. -/
def boundedField (data : Object) (key : String) : Option String :=
  ((data.get? key).bind Json.asStr).filter fun text =>
    !text.isEmpty && decide (text.utf8ByteSize ≤ MAX_STRING_BYTES)

def durable (event : Json) (field : String) : Option Json :=
  (event.get? "durable").bind (·.get? field)

/-- `Value::as_u64`. -/
def asU64 : Json → Option Nat
  | .number number => number.asU64
  | _ => none

/-- `Value::as_f64`, as the number itself. -/
def asNumber : Json → Option Json
  | .number number => some (.number number)
  | _ => none

def isBoolean (value : Json) : Bool := value.asBool.isSome

/-- Whether `executed` is there and no truth value. -/
def executedUnknown (data : Object) : Bool :=
  (data.get? "executed").any fun value => !isBoolean value

/-- `decode_content`: the text of all parts, if all are texts and fit. -/
def decodeParts (output : String) : List Json → Option String
  | [] => some output
  | part :: rest =>
    if (part.get? "type").bind Json.asStr = some "text" then
      match (part.get? "text").bind Json.asStr with
      | some text =>
        if output.utf8ByteSize + text.utf8ByteSize > MAX_STRING_BYTES then none
        else decodeParts (output ++ text) rest
      | none => none
    else none

@[inherit_doc decodeParts]
def decodeContent (value : Option Json) : Option String :=
  (value.bind Json.asArray).bind (decodeParts "")

mutual

/-- `json_payload_bytes`. -/
def jsonPayloadBytes (valueSize : Nat) : Json → Nat
  | .string text => text.utf8ByteSize
  | .array items => itemsPayloadBytes valueSize items
  | .object entries => entriesPayloadBytes valueSize entries
  | .null | .bool _ | .number _ => valueSize

def itemsPayloadBytes (valueSize : Nat) : List Json → Nat
  | [] => 0
  | item :: rest => jsonPayloadBytes valueSize item + itemsPayloadBytes valueSize rest

def entriesPayloadBytes (valueSize : Nat) : List (String × Json) → Nat
  | [] => 0
  | (key, value) :: rest =>
    key.utf8ByteSize + jsonPayloadBytes valueSize value + entriesPayloadBytes valueSize rest

end

inductive EventKind where
  | updated | enqueued | delivered | cancelled | stepStarted | stepEnded | executionEnded
  | toolStarted | toolInputEnded | toolCalled | toolSuccess | toolFailed | continuity | ignored
  deriving DecidableEq

def EVENT_TYPES : List (String × Nat × EventKind) :=
  [("session.deleted", 2, .continuity), ("session.forked", 2, .continuity),
    ("session.tool.success", 2, .toolSuccess), ("session.tool.failed", 2, .toolFailed),
    ("session.instructions.updated", 2, .ignored), ("session.updated", 1, .updated),
    ("session.created", 1, .ignored), ("session.agent.selected", 1, .ignored),
    ("session.model.selected", 1, .ignored), ("session.moved", 1, .continuity),
    ("session.renamed", 1, .ignored), ("session.metadata.updated", 1, .ignored),
    ("session.permissions", 1, .ignored), ("session.viewed", 1, .ignored),
    ("session.message.content.updated", 1, .continuity), ("session.usage.recorded", 1, .ignored),
    ("session.usage.updated", 1, .ignored), ("session.inbox.enqueued", 1, .enqueued),
    ("session.inbox.delivered", 1, .delivered), ("session.inbox.cancelled", 1, .cancelled),
    ("session.inbox.delivery.changed", 1, .ignored), ("session.execution.started", 1, .ignored),
    ("session.execution.succeeded", 1, .executionEnded),
    ("session.execution.failed", 1, .executionEnded),
    ("session.execution.interrupted", 1, .executionEnded), ("session.synthetic", 1, .ignored),
    ("session.skill.activated", 1, .ignored), ("session.shell.started", 1, .ignored),
    ("session.shell.ended", 1, .ignored), ("session.step.started", 1, .stepStarted),
    ("session.step.streamed", 1, .ignored), ("session.step.ended", 1, .stepEnded),
    ("session.step.failed", 1, .stepEnded), ("session.text.started", 1, .ignored),
    ("session.text.delta", 1, .ignored), ("session.text.ended", 1, .ignored),
    ("session.reasoning.started", 1, .ignored), ("session.reasoning.delta", 1, .ignored),
    ("session.reasoning.ended", 1, .ignored), ("session.tool.input.started", 1, .toolStarted),
    ("session.tool.input.delta", 1, .ignored), ("session.tool.input.ended", 1, .toolInputEnded),
    ("session.tool.called", 1, .toolCalled), ("session.tool.progress", 1, .ignored),
    ("session.retry.scheduled", 1, .ignored), ("session.compaction.started", 1, .ignored),
    ("session.compaction.delta", 1, .ignored), ("session.compaction.ended", 1, .ignored),
    ("session.compaction.failed", 1, .ignored), ("session.revert.staged", 1, .continuity),
    ("session.revert.cleared", 1, .continuity), ("session.revert.committed", 1, .continuity)]

/-- `event_schema_version`, and which handler an event goes to. -/
def eventSchema (eventType : String) : Option (Nat × EventKind) := EVENT_TYPES.lookup eventType

end Reading

/-! ### Counting -/

/-- A gap is kept once, and the cycle that is open is not published. -/
def gap (joiner : Joiner) (gap : Gap) : Joiner :=
  { joiner with
    publicState := joiner.publicState.invalidateCycle
    gaps := if gap ∈ joiner.gaps then joiner.gaps else joiner.gaps ++ [gap] }

/-- `push_gap`. -/
def pushGap (gaps : List Gap) (gap : Gap) : List Gap := if gap ∈ gaps then gaps else gaps ++ [gap]

def charge (joiner : Joiner) (bytes : Nat) : Joiner :=
  { joiner with retainedBytes := joiner.retainedBytes + bytes }

def release (joiner : Joiner) (bytes : Nat) : Option Joiner :=
  if bytes ≤ joiner.retainedBytes then
    some { joiner with retainedBytes := joiner.retainedBytes - bytes }
  else none

def seenBytes (eventId : String) : Nat := eventId.utf8ByteSize * 2 + 32

def keyBytes (key : String × String) : Nat := key.1.utf8ByteSize + key.2.utf8ByteSize

def stepBytes (messageId : String) (step : Step) : Nat :=
  messageId.utf8ByteSize + step.context.requester.retainedBytes

def callBytes (key : String × String) (call : Call) : Nat := keyBytes key + call.payloadBytes

def inboxBytes (inboxId : String) (pending : PendingInbox) : Nat :=
  inboxId.utf8ByteSize + pending.payloadBytes

def liveNodes (joiner : Joiner) : List HistoryNode :=
  (joiner.users ++ (joiner.steps.entries.flatMap fun entry => entry.2.context.users) ++
    joiner.calls.entries.flatMap fun entry => entry.2.context.users).dedup

/-- `history_bytes`: a node gives its bytes back when the last pointer to it is dropped. -/
def historyBytes (joiner : Joiner) : Nat :=
  (joiner.liveNodes.map fun node => node.request.payloadBytes).sum

def retainedPayloadBytes (joiner : Joiner) : Nat :=
  joiner.retainedBytes + joiner.historyBytes + joiner.publicState.retainedBytes

/-! ### Handlers -/

section Handlers

variable (codec : JoinerCodec)

def observeStepStarted (joiner : Joiner) (data : Object) : Joiner :=
  match boundedField data "assistantMessageID" with
  | none => joiner.gap .unknownShape
  | some messageId =>
    if joiner.steps.size ≥ MAX_RETAINED_CALLS ∧ joiner.steps.lookup messageId = none then
      joiner.gap .capacityExceeded
    else
      let context : StepContext :=
        { requester := codec.attribution ((data.get? "model").getD .null)
          users := joiner.users }
      let missing := !context.isComplete || joiner.requestHistoryGap
      let joiner := if missing then joiner.gap .missingJoin else joiner
      let context := if missing then { context with gaps := pushGap context.gaps .missingJoin }
        else context
      match joiner.steps.lookup messageId with
      | some existing =>
        if existing.context.sameHistory context then joiner else joiner.gap .conflictingDuplicate
      | none =>
        { joiner.charge (messageId.utf8ByteSize + context.requester.retainedBytes) with
          steps := joiner.steps.insert messageId { context } }

def removeStep (joiner : Joiner) (messageId : String) (step : Step) : Option Joiner :=
  { joiner with steps := joiner.steps.erase messageId }.release (stepBytes messageId step)

def observeStepEnded (joiner : Joiner) (data : Object) : Option Joiner :=
  match boundedField data "assistantMessageID" with
  | none => some (joiner.gap .unknownShape)
  | some messageId =>
    match joiner.steps.lookup messageId with
    | none => some joiner
    | some step =>
      let step := { step with ended := true }
      if step.activeCalls = 0 then joiner.removeStep messageId step
      else some { joiner with steps := joiner.steps.insert messageId step }

/-- All steps go, and the calls that have no terminal. -/
def observeExecutionEnded (joiner : Joiner) : Option Joiner := do
  let joiner ← joiner.release (joiner.steps.weigh stepBytes)
  let joiner := { joiner with steps := ∅ }
  let going := joiner.calls.retain fun _ call => call.terminal.isNone
  let joiner ← joiner.release (going.weigh callBytes)
  pure { joiner with calls := joiner.calls.retain fun _ call => call.terminal.isSome }

/-- Whether a list of attachments is absent or empty. -/
def noAttachments (payload : Option Object) (field : String) : Bool :=
  match payload.bind (·.get? field) with
  | none => true
  | some value => value.asArray.any List.isEmpty

/-- What an enqueued item waits as, and whether its shape is known and its text usable. -/
def pendingItem (sequence : Nat) (inboxId : String) (data : Object) :
    PendingInbox × Option Gap :=
  let item : Option Object := (data.get? "item").bind Json.asObject
  let kind : Option String := (item.bind (·.get? "type")).bind Json.asStr
  let payload : Option Object := (item.bind (·.get? "payload")).bind Json.asObject
  let text : Option String := (payload.bind (·.get? "text")).bind Json.asStr
  let usable := text.any fun text =>
    !text.isEmpty && decide (text.utf8ByteSize ≤ MAX_STRING_BYTES)
  if kind = some "user" then
    (.user
      { sequence
        messageId := inboxId
        text := text.filter fun text => decide (text.utf8ByteSize ≤ MAX_STRING_BYTES)
        complete := usable && ["files", "agents", "skills"].all (noAttachments payload) },
      if usable then none else some .missingJoin)
  else if kind ∈ [some "synthetic", some "compaction", some "move"] then (.other, none)
  else (.other, some .unknownShape)

def noteGap (joiner : Joiner) : Option Gap → Joiner
  | none => joiner
  | some found => joiner.gap found

def observeUserEnqueued (joiner : Joiner) (sequence : Nat) (data : Object) : Option Joiner :=
  match boundedField data "inboxID" with
  | none => some (joiner.gap .unknownShape)
  | some inboxId =>
    if joiner.pendingInbox.size + joiner.users.length ≥ MAX_RETAINED_USERS then
      some (joiner.gap .capacityExceeded)
    else
      let (pending, missing) := pendingItem sequence inboxId data
      let joiner := joiner.noteGap missing
      let added := { joiner.charge (inboxBytes inboxId pending) with
        pendingInbox := joiner.pendingInbox.insert inboxId pending }
      match joiner.pendingInbox.lookup inboxId with
      | none => some added
      | some previous =>
        match added.release (inboxBytes inboxId previous) with
        | none => none
        | some joiner => some (joiner.gap .conflictingDuplicate)

def removeInbox (joiner : Joiner) (inboxId : String) : Option Joiner :=
  match joiner.pendingInbox.lookup inboxId with
  | none => some joiner
  | some pending =>
    { joiner with pendingInbox := joiner.pendingInbox.erase inboxId }.release
      (inboxBytes inboxId pending)

def deliver (joiner : Joiner) (request : UserRequest) : Joiner :=
  let restart := joiner.requestHistoryGap || !request.complete
  let joiner := { joiner with
    users := if restart then [] else joiner.users
    requestHistoryGap :=
      if joiner.requestHistoryGap && request.complete then false
      else if !request.complete then true
      else joiner.requestHistoryGap }
  if joiner.users.length ≥ MAX_RETAINED_USERS then joiner.gap .capacityExceeded
  else
    { joiner with
      users := ⟨joiner.allocations, request⟩ :: joiner.users
      allocations := joiner.allocations + 1 }

def observeUserDelivered (joiner : Joiner) (sequence : Nat) (data : Object) : Option Joiner :=
  match boundedField data "inboxID" with
  | none => some (joiner.gap .unknownShape)
  | some messageId =>
    match joiner.pendingInbox.lookup messageId with
    | some (.user request) =>
      match joiner.removeInbox messageId with
      | none => none
      | some joiner => some (joiner.deliver { request with sequence })
    | some .other => joiner.removeInbox messageId
    | none => some { joiner.gap .missingJoin with requestHistoryGap := true }

def observeInboxCancelled (joiner : Joiner) (data : Object) : Option Joiner :=
  match boundedField data "inboxID" with
  | none => some (joiner.gap .unknownShape)
  | some messageId => joiner.removeInbox messageId

/-- `ensure_call`: the oldest call with a terminal makes room for a new one. -/
def makeRoom (joiner : Joiner) : Option (Joiner × Bool) :=
  if joiner.calls.size ≥ MAX_RETAINED_CALLS then
    match joiner.terminalCallOrder with
    | [] => some (joiner.gap .capacityExceeded, false)
    | expired :: rest =>
      match joiner.calls.lookup expired with
      | none => none
      | some call =>
        ({ joiner with
          terminalCallOrder := rest
          calls := joiner.calls.erase expired }.release
            (keyBytes expired * 2 + call.payloadBytes)).map (·, true)
  else some (joiner, true)

def withActiveCall (steps : Tally String Step) (messageId : String) : Tally String Step :=
  match steps.lookup messageId with
  | some step => steps.insert messageId { step with activeCalls := step.activeCalls + 1 }
  | none => steps

@[inherit_doc makeRoom]
def ensureCall (joiner : Joiner) (key : String × String) : Option (Joiner × Bool) :=
  match joiner.calls.lookup key with
  | some call =>
    if call.terminal.isSome then some (joiner.gap .conflictingDuplicate, false)
    else some (joiner, true)
  | none =>
    match joiner.makeRoom with
    | none => none
    | some (joiner, false) => some (joiner, false)
    | some (joiner, true) =>
      some ({ joiner.charge (keyBytes key) with
        steps := withActiveCall joiner.steps key.1
        calls := joiner.calls.insert key {} }, true)

def replaceCall (joiner : Joiner) (key : String × String) (change : Joiner → Call → Call)
    (old new : Joiner → Call → Nat) : Option Joiner :=
  match joiner.calls.lookup key with
  | none => none
  | some call =>
    (joiner.release (old joiner call)).map fun released =>
      { released.charge (new joiner call) with
        calls := joiner.calls.insert key (change joiner call) }

def observeToolStarted (joiner : Joiner) (data : Object) : Option Joiner :=
  match boundedField data "assistantMessageID", boundedField data "id",
    boundedField data "name" with
  | some messageId, some callId, some name =>
    match joiner.ensureCall (messageId, callId) with
    | none => none
    | some (joiner, false) => some joiner
    | some (joiner, true) =>
      match joiner.calls.lookup (messageId, callId) with
      | none => none
      | some call =>
        if call.name.any (· != name) then some (joiner.gap .conflictingDuplicate)
        else
          joiner.replaceCall (messageId, callId) (fun _ call => { call with name := some name })
            (fun _ call => lengthOf call.name) fun _ _ => name.utf8ByteSize
  | _, _, _ => some (joiner.gap .unknownShape)

def observeToolInputEnded (joiner : Joiner) (data : Object) : Option Joiner :=
  match boundedField data "assistantMessageID", boundedField data "id",
    (data.get? "text").bind Json.asStr with
  | some messageId, some callId, some text =>
    if text.utf8ByteSize > MAX_STRING_BYTES then some (joiner.gap .optionalContentOmitted)
    else
      match codec.readJson text with
      | none => some joiner
      | some input =>
        match joiner.ensureCall (messageId, callId) with
        | none => none
        | some (joiner, false) => some joiner
        | some (joiner, true) =>
          joiner.replaceCall (messageId, callId)
            (fun _ call => { call with
              input := some input
              inputBytes := jsonPayloadBytes codec.valueSize input })
            (fun _ call => call.inputBytes) fun _ _ => jsonPayloadBytes codec.valueSize input
  | _, _, _ => some (joiner.gap .unknownShape)

def calledContext (joiner : Joiner) (messageId : String) : StepContext :=
  let context := ((joiner.steps.lookup messageId).map Step.context).getD {}
  if context.isComplete then context
  else { context with gaps := pushGap context.gaps .missingJoin }

def observeToolCalled (joiner : Joiner) (data : Object) : Option Joiner :=
  if executedUnknown data then some (joiner.gap .unknownShape)
  else
    match boundedField data "assistantMessageID", boundedField data "id", data.get? "input" with
    | some messageId, some callId, some input =>
      if !codec.encodedWithin input MAX_STRING_BYTES then some (joiner.gap .capacityExceeded)
      else
        match joiner.ensureCall (messageId, callId) with
        | none => none
        | some (joiner, false) => some joiner
        | some (joiner, true) =>
          let found := ((joiner.steps.lookup messageId).map Step.context).getD {}
          let joiner := if found.isComplete then joiner else joiner.gap .missingJoin
          joiner.replaceCall (messageId, callId)
            (fun joiner call => { call with
              input := some input
              inputBytes := jsonPayloadBytes codec.valueSize input
              providerExecuted := (data.get? "executed").bind Json.asBool
              context := joiner.calledContext messageId })
            (fun _ call => call.inputBytes + call.context.requester.retainedBytes)
            fun joiner _ => jsonPayloadBytes codec.valueSize input +
              (joiner.calledContext messageId).requester.retainedBytes
    | _, _, _ => some (joiner.gap .unknownShape)

structure TerminalEvent where
  event : Json
  eventId : String
  aggregateId : String
  sequence : Nat
  sessionId : String
  data : Object
  status : TerminalStatus

def resultGaps (joiner : Joiner) (call : Call) : List Gap :=
  call.context.gaps.foldl pushGap (joiner.gaps.filter (· != .missingJoin))

/-- A step has one active call fewer, and goes if it has ended and has none. -/
def settleStep (joiner : Joiner) (messageId : String) : Option Joiner :=
  match joiner.steps.lookup messageId with
  | none => some joiner
  | some step =>
    let step := { step with activeCalls := step.activeCalls - 1 }
    if step.ended ∧ step.activeCalls = 0 then joiner.removeStep messageId step
    else some { joiner with steps := joiner.steps.insert messageId step }

def joinResult (joiner : Joiner) (terminal : TerminalEvent) (key : String × String) (call : Call)
    (name : String) : JoinedToolResult × TerminalFingerprint :=
  let data := terminal.data
  let executed := ((data.get? "executed").bind Json.asBool).or call.providerExecuted
  let outcome := codec.toolOutcome name (data.get? "metadata") executed
    (decide (terminal.status = .failed))
  let content := decodeContent (data.get? "content")
  let gaps := joiner.resultGaps call
  let gaps :=
    if (data.get? "content").isSome && content.isNone then pushGap gaps .optionalContentOmitted
    else gaps
  let gaps :=
    if ((data.get? "metadata").bind (·.get? "truncated")).bind Json.asBool = some true then
      pushGap gaps .optionalContentOmitted
    else gaps
  ({ sessionId := terminal.sessionId
     assistantMessageId := key.1
     callId := key.2
     eventId := terminal.eventId
     aggregateId := terminal.aggregateId
     sequence := terminal.sequence
     created := (terminal.event.get? "created").bind asNumber
     toolName := name
     input := call.input
     requestMessageId := call.context.request.map UserRequest.messageId
     requestSequence := call.context.request.map UserRequest.sequence
     requestText := call.context.request.bind UserRequest.text
     userMessages := call.context.userMessages
     status := terminal.status
     content
     outcome
     providerExecuted := executed
     requester := call.context.requester
     gaps },
    { status := terminal.status
      content := content.map codec.contentDigest
      outcome
      providerExecuted := executed })

def Call.finish (call : Call) (terminal : TerminalFingerprint) : Call :=
  { call with
    input := none
    inputBytes := 0
    context := {}
    providerExecuted := terminal.providerExecuted
    terminal := some terminal }

def observeTerminal (joiner : Joiner) (terminal : TerminalEvent) :
    Option (Joiner × Option JoinedToolResult) :=
  match boundedField terminal.data "assistantMessageID", boundedField terminal.data "id" with
  | some messageId, some callId =>
    match joiner.calls.lookup (messageId, callId) with
    | none => some (joiner.gap .missingJoin, none)
    | some call =>
      match call.name with
      | none => some (joiner.gap .missingJoin, none)
      | some name =>
        if executedUnknown terminal.data then some (joiner.gap .unknownShape, none)
        else if call.providerExecuted = some true ∧
            (terminal.data.get? "executed").bind Json.asBool = some false then
          some (joiner.gap .conflictingDuplicate, none)
        else
          let (result, fingerprint) := joiner.joinResult codec terminal (messageId, callId) call
            name
          match call.terminal with
          | some first =>
            if first ≠ fingerprint then some (joiner.gap .conflictingDuplicate, none)
            else some (joiner, none)
          | none =>
            match joiner.replaceCall (messageId, callId) (fun _ call => call.finish fingerprint)
              (fun _ call => call.payloadBytes)
              fun _ call => (call.finish fingerprint).payloadBytes + keyBytes (messageId, callId)
            with
            | none => none
            | some joiner =>
              ({ joiner with
                terminalCallOrder := joiner.terminalCallOrder ++ [(messageId, callId)] }.settleStep
                  messageId).map (·, some result)
  | _, _ => some (joiner.gap .unknownShape, none)

/-! ### Events -/

/-- The oldest event identifiers are forgotten until one more fits. -/
def expireSeen (joiner : Joiner) : List String → Option Joiner
  | [] => some { joiner with seenEventIdOrder := [] }
  | expired :: rest =>
    if joiner.seenEventIds.size ≥ MAX_RETAINED_CALLS * 8 then
      match { joiner with
        seenEventIds := joiner.seenEventIds.erase expired }.release (seenBytes expired) with
      | none => none
      | some joiner => joiner.expireSeen rest
    else some { joiner with seenEventIdOrder := expired :: rest }

def remember (joiner : Joiner) (eventId digest : String) : Option Joiner :=
  (joiner.expireSeen joiner.seenEventIdOrder).map fun joiner =>
    { joiner.charge (seenBytes eventId) with
      seenEventIds := joiner.seenEventIds.insert eventId digest
      seenEventIdOrder := joiner.seenEventIdOrder ++ [eventId] }

def dispatch (joiner : Joiner) (kind : EventKind) (terminal : TerminalEvent) :
    Option (Joiner × Option JoinedToolResult) :=
  let data := terminal.data
  match kind with
  | .updated =>
    if ((data.get? "info").bind (·.get? "id")).bind Json.asStr = some terminal.sessionId then
      some (joiner, none)
    else some (joiner.gap .unknownShape, none)
  | .enqueued => (joiner.observeUserEnqueued terminal.sequence data).map (·, none)
  | .delivered => (joiner.observeUserDelivered terminal.sequence data).map (·, none)
  | .cancelled => (joiner.observeInboxCancelled data).map (·, none)
  | .stepStarted => some (joiner.observeStepStarted codec data, none)
  | .stepEnded => (joiner.observeStepEnded data).map (·, none)
  | .executionEnded => joiner.observeExecutionEnded.map (·, none)
  | .toolStarted => (joiner.observeToolStarted data).map (·, none)
  | .toolInputEnded => (joiner.observeToolInputEnded codec data).map (·, none)
  | .toolCalled => (joiner.observeToolCalled codec data).map (·, none)
  | .toolSuccess => joiner.observeTerminal codec { terminal with status := .success }
  | .toolFailed => joiner.observeTerminal codec { terminal with status := .failed }
  | .continuity => some (joiner.gap .continuityLost, none)
  | .ignored => some (joiner, none)

def handle (joiner : Joiner) (kind : EventKind) (terminal : TerminalEvent) :
    Option (Joiner × Option JoinedToolResult) :=
  (joiner.dispatch codec kind terminal).map fun (joiner, result) =>
    ({ joiner with
      publicState := codec.observePublic joiner.publicState joiner terminal.event
        terminal.sequence terminal.sessionId result }, result)

inductive Admission where
  | done (joiner : Joiner)
  | handled (joiner : Joiner) (kind : EventKind) (terminal : TerminalEvent)

def Admission.state : Admission → Joiner
  | done joiner => joiner
  | handled joiner _ _ => joiner

def receiveNew (joiner : Joiner) (event : Json) (eventId : String) (kind : EventKind)
    (data : Object) : Admission :=
  match (durable event "seq").bind asU64 with
  | none => .done (joiner.gap .missingSequence)
  | some sequence =>
    match (durable event "aggregateID").bind Json.asStr with
    | none => .done (joiner.gap .unknownShape)
    | some aggregateId =>
      if aggregateId.utf8ByteSize > MAX_STRING_BYTES then .done (joiner.gap .unknownShape)
      else if joiner.lastSequence.any fun previous => decide (sequence ≤ previous) then
        .done (joiner.gap .sequenceDiscontinuity)
      else
        let joiner := { joiner with lastSequence := some sequence }
        match boundedField data "sessionID" with
        | none => .done (joiner.gap .unknownShape)
        | some sessionId =>
          let terminal : TerminalEvent :=
            { event, eventId, aggregateId, sequence, sessionId, data, status := .success }
          match joiner.sessionId with
          | some known =>
            if known ≠ sessionId ∨ aggregateId ≠ known then .done (joiner.gap .unknownShape)
            else .handled joiner kind terminal
          | none =>
            let joiner := { joiner.charge sessionId.utf8ByteSize with sessionId := some sessionId }
            if aggregateId ≠ sessionId then .done (joiner.gap .unknownShape)
            else .handled joiner kind terminal

def receive (joiner : Joiner) (event : Json) (digest : String) : Option Admission :=
  match (event.get? "id").bind Json.asStr, (event.get? "type").bind Json.asStr,
    (event.get? "data").bind Json.asObject with
  | some eventId, some eventType, some data =>
    match eventSchema eventType with
    | none => some (.done (joiner.gap .unknownShape))
    | some (expectedVersion, kind) =>
      if (durable event "version").bind asU64 ≠ some expectedVersion then
        some (.done (joiner.gap .unsupportedVersion))
      else if eventId.utf8ByteSize > MAX_STRING_BYTES then
        some (.done (joiner.gap .unknownShape))
      else
        match joiner.seenEventIds.lookup eventId with
        | some previous =>
          some (.done (if previous ≠ digest then joiner.gap .conflictingDuplicate else joiner))
        | none =>
          match joiner.remember eventId digest with
          | none => none
          | some joiner => some (joiner.receiveNew event eventId kind data)
  | _, _, _ => some (.done (joiner.gap .unknownShape))

def observeEvent (joiner : Joiner) (event : Json) (digest : String) :
    Option (Joiner × Option JoinedToolResult) :=
  match joiner.receive event digest with
  | none => none
  | some (.done joiner) => some (joiner, none)
  | some (.handled joiner kind terminal) => joiner.handle codec kind terminal

/-- Nothing but the session and the gaps is kept. -/
def flush (joiner : Joiner) : Joiner :=
  { joiner with
    calls := ∅
    terminalCallOrder := []
    pendingInbox := ∅
    users := []
    steps := ∅
    seenEventIds := ∅
    seenEventIdOrder := []
    publicState := joiner.publicState.clear
    retainedBytes := lengthOf joiner.sessionId
    requestHistoryGap := true }.gap .capacityExceeded

/-- `take_omission`. -/
def takeOmission (joiner : Joiner) : Joiner :=
  let omitted := joiner.publicState.outputOmitted
  let joiner := { joiner with publicState := { joiner.publicState with outputOmitted := false } }
  if omitted then joiner.gap .capacityExceeded else joiner

def observeWithDigest (joiner : Joiner) (event : Json) (digest : String) :
    Option (Joiner × Option JoinedToolResult) :=
  (joiner.observeEvent codec event digest).map fun (joiner, result) =>
    let joiner := joiner.takeOmission
    if joiner.retainedPayloadBytes > MAX_RETAINED_PAYLOAD_BYTES then (joiner.flush, none)
    else (joiner, result)

def observe (joiner : Joiner) (event : Json) : Option (Joiner × Option JoinedToolResult) :=
  match codec.eventDigest event with
  | none => some (joiner.gap .capacityExceeded, none)
  | some digest => joiner.observeWithDigest codec event digest

/-! ### Runs -/

inductive JoinerInput where
  | event (event : Json)
  | markGap

def feed (joiner : Joiner) : JoinerInput → Option Joiner
  | .event event => (joiner.observe codec event).map Prod.fst
  | .markGap => some (joiner.gap .continuityLost)

def feedAll (inputs : List JoinerInput) : Option Joiner := inputs.foldlM (feed codec) {}

end Handlers

end Joiner

end Antiburn
