/-
The bounded collections of the composite sink.

Tool results and user messages are kept by identity, within a count and a number of
bytes; an identity with two values is a conflict and is not kept again.  Native
facts are kept in source order.  An admission failure rewrites what is kept.
-/
import Antiburn.Lib.KeyedStore
import Antiburn.NativeEvidence

namespace Antiburn

def MAX_TOOL_RESULT_OBSERVATIONS : Nat := 4096

def MAX_TOOL_RESULT_BYTES : Nat := 4 * 1024 * 1024

def MAX_NATIVE_EVIDENCE_OBSERVATIONS : Nat := 4096

def MAX_NATIVE_EVIDENCE_BYTES : Nat := 4 * 1024 * 1024

def MAX_USER_MESSAGE_OBSERVATIONS : Nat := 4096

def MAX_USER_MESSAGE_COLLECTION_BYTES : Nat := 4 * 1024 * 1024

/-! ### Observations -/

inductive ToolResultCompleteness where
  | complete | incomplete | unsafeIdentity | unsafeOrder | unsafeOwnership
  deriving DecidableEq

inductive ToolResultAdmission where
  | admitted | unavailable | unsafeIdentity | unsafeOrder | unsafeOwnership
  deriving DecidableEq

namespace CompositeSink

structure EventContext where
  mainSession : Bool
  completeThroughEvent : Bool
  rest : String
  deriving DecidableEq

def EventContext.invalidate (context : EventContext) : EventContext :=
  { context with mainSession := false, completeThroughEvent := false }

structure ToolResultObservation where
  sourceFormat : SourceFormat
  sessionId : String
  recordId : Option String
  callId : Option String
  resultId : Option String
  revision : Nat
  completeness : ToolResultCompleteness
  context : Option EventContext
  rest : String
  deriving DecidableEq

def ToolResultObservation.invalidateAdmission (reason : ToolResultCompleteness)
    (result : ToolResultObservation) : ToolResultObservation :=
  { result with completeness := reason, context := result.context.map .invalidate }

structure UserMessage where
  sourceFormat : SourceFormat
  sessionId : String
  messageId : String
  change : UserMessageChange
  rest : String
  deriving DecidableEq

structure NativeAdmissionFailure where
  sourceFormat : SourceFormat
  sessionId : String
  reason : ToolResultCompleteness
  rest : String
  deriving DecidableEq

inductive NativeMessageObservation where
  | user (context : EventContext) (rest : String)
  | publicMessage (eligible : Bool) (completeness : ToolResultCompleteness)
      (context : Option EventContext) (rest : String)
  | toolResult (result : ToolResultObservation)
  deriving DecidableEq

def NativeMessageObservation.invalidateAdmission (reason : ToolResultCompleteness) :
    NativeMessageObservation → NativeMessageObservation
  | user context rest => user context.invalidate rest
  | publicMessage _ _ context rest => publicMessage false reason (context.map .invalidate) rest
  | toolResult result => toolResult (result.invalidateAdmission reason)

inductive NativeEvidenceFact where
  | message (value : NativeMessageObservation)
  | responseCycle (context : EventContext) (messages : List NativeMessageObservation)
      (rest : String)
  | admissionFailure (failure : NativeAdmissionFailure)
  /-- Activity, session selections and removals. -/
  | other (rest : String)
  deriving DecidableEq

def NativeEvidenceFact.invalidateAdmission (reason : ToolResultCompleteness) :
    NativeEvidenceFact → NativeEvidenceFact
  | message value => message (value.invalidateAdmission reason)
  | responseCycle context messages rest =>
    responseCycle context.invalidate (messages.map (·.invalidateAdmission reason)) rest
  | fact => fact

def NativeEvidenceFact.isToolResult : NativeEvidenceFact → Bool
  | message (.toolResult _) => true
  | _ => false

/-- `unsafe_reason`. -/
def unsafeReason (reason : ToolResultCompleteness) : Bool :=
  match reason with
  | .unsafeIdentity | .unsafeOrder | .unsafeOwnership => true
  | .complete | .incomplete => false

def NativeAdmissionFailure.valid (failure : NativeAdmissionFailure) : Bool :=
  unsafeReason failure.reason && !failure.sessionId.isEmpty &&
    decide (failure.sessionId.utf8ByteSize ≤ 4096)

def NativeAdmissionFailure.admission (failure : NativeAdmissionFailure) : ToolResultAdmission :=
  match failure.reason with
  | .unsafeIdentity => .unsafeIdentity
  | .unsafeOrder => .unsafeOrder
  | .unsafeOwnership => .unsafeOwnership
  | .complete | .incomplete => .unavailable

def formatName : SourceFormat → String
  | .claudeJsonl => "claude_jsonl"
  | .codexRolloutJsonl => "codex_rollout_jsonl"
  | .piV3Jsonl => "pi_v3_jsonl"
  | .other name => name

/-- A JSON array of texts that are JSON already. -/
def keyText (items : List String) : String := "[" ++ String.intercalate "," items ++ "]"

def toolResultRevisionKey (result : ToolResultObservation) : Option String :=
  ((result.resultId.or result.callId).or result.recordId).map fun identity =>
    keyText [renderString (formatName result.sourceFormat), renderString result.sessionId,
      renderString identity, toString result.revision]

def userMessageIdentity (request : UserMessage) : String :=
  keyText [renderString (formatName request.sourceFormat), renderString request.sessionId,
    renderString request.messageId]

/-- What the sink takes from the code around it. -/
structure NativeCodec where
  /-- The length of the JSON text of a result, a message, a fact. -/
  resultLength : ToolResultObservation → Nat
  messageLength : UserMessage → Nat
  eventLength : NativeEvidenceFact → Nat
  isBounded : UserMessage → Bool
  /-- Same binding, and an earlier position. -/
  comesBefore : NativeEvidenceFact → NativeEvidenceFact → Bool

/-- What is recorded after an admission failure. -/
def ToolResultObservation.afterFailure (failure : Option NativeAdmissionFailure)
    (result : ToolResultObservation) : ToolResultObservation :=
  match failure with
  | some failure => result.invalidateAdmission failure.reason
  | none => result

@[inherit_doc ToolResultObservation.afterFailure]
def NativeEvidenceFact.afterFailure (failure : Option NativeAdmissionFailure)
    (fact : NativeEvidenceFact) : NativeEvidenceFact :=
  match failure with
  | some failure => fact.invalidateAdmission failure.reason
  | none => fact

/-! ### Collections -/

def rebuildIndices {τ : Type} (key : τ → Option String) (items : List τ) : String → Option Nat :=
  KeyedStore.positions key items

def keyBytes (conflicts : Finset String) : Nat := ∑ key ∈ conflicts, key.utf8ByteSize

structure ToolResults where
  observations : List ToolResultObservation := []
  sizes : List Nat := []
  indices : String → Option Nat := fun _ => none
  conflicts : Finset String := ∅
  bytes : Nat := 0
  complete : Bool := true

structure UserMessages where
  messages : List UserMessage := []
  indices : String → Option Nat := fun _ => none
  conflicts : Finset String := ∅
  bytes : Nat := 0
  complete : Bool := true

structure NativeFacts where
  facts : List NativeEvidenceFact := []
  bytes : Nat := 0
  complete : Bool := true

section Operations

variable (codec : NativeCodec)

/-! ### User messages -/

namespace UserMessages

def rebuild (state : UserMessages) : UserMessages :=
  { state with
    indices := rebuildIndices (fun message => some (userMessageIdentity message)) state.messages }

def blockAfterConflictOverflow (state : UserMessages) : UserMessages :=
  { state with
    bytes := state.bytes - keyBytes state.conflicts
    conflicts := {""}
    complete := false }

def dropConflicting (state : UserMessages) (key : String) : UserMessages :=
  match state.indices key with
  | some index =>
    match state.messages[index]? with
    | some removed =>
      { state with
        messages := state.messages.eraseIdx index
        bytes := state.bytes - codec.messageLength removed }.rebuild
    | none => state
  | none => state

def markConflict (state : UserMessages) (key : String) : UserMessages :=
  if "" ∈ state.conflicts then { state with complete := false }
  else
    let state := state.dropConflicting codec key
    let state :=
      if key ∉ state.conflicts then
        if state.conflicts.card < MAX_USER_MESSAGE_OBSERVATIONS ∧
            state.bytes + key.utf8ByteSize ≤ MAX_USER_MESSAGE_COLLECTION_BYTES then
          { state with
            conflicts := insert key state.conflicts
            bytes := state.bytes + key.utf8ByteSize }
        else state.blockAfterConflictOverflow
      else state
    { state with complete := false }

def evict (length : Nat) : List UserMessage → Nat → List UserMessage × Nat
  | [], bytes => ([], bytes)
  | message :: rest, bytes =>
    if (message :: rest).length ≥ MAX_USER_MESSAGE_OBSERVATIONS ∨
        bytes + length > MAX_USER_MESSAGE_COLLECTION_BYTES then
      evict length rest (bytes - codec.messageLength message)
    else (message :: rest, bytes)

def retain (state : UserMessages) (request : UserMessage) (key : String) : UserMessages :=
  let length := codec.messageLength request
  let kept := evict codec length state.messages state.bytes
  let state :=
    if kept.1.length < state.messages.length then
      { state with messages := kept.1, bytes := kept.2, complete := false }.rebuild
    else state
  if state.messages.length ≥ MAX_USER_MESSAGE_OBSERVATIONS ∨
      state.bytes + length > MAX_USER_MESSAGE_COLLECTION_BYTES then
    { state with complete := false }
  else
    { state with
      bytes := state.bytes + length
      indices := Function.update state.indices key (some state.messages.length)
      messages := state.messages ++ [request] }

/-- `observe_user_message`. -/
def observe (state : UserMessages) (request : UserMessage) : UserMessages :=
  if "" ∈ state.conflicts then { state with complete := false }
  else if !codec.isBounded request then { state with complete := false }
  else
    let key := userMessageIdentity request
    if request.change = .conflict then state.markConflict codec key
    else if key ∈ state.conflicts then { state with complete := false }
    else
      match state.indices key with
      | some index =>
        if state.messages[index]? ≠ some request then state.markConflict codec key else state
      | none => state.retain codec request key

end UserMessages

/-! ### Tool results -/

namespace ToolResults

def rebuild (state : ToolResults) : ToolResults :=
  { state with indices := rebuildIndices toolResultRevisionKey state.observations }

def blockAfterConflictOverflow (state : ToolResults) : ToolResults :=
  { state with
    bytes := state.bytes - keyBytes state.conflicts
    conflicts := {""}
    complete := false }

def evict (length : Nat) : List Nat → Nat → Nat × Nat
  | [], bytes => (0, bytes)
  | size :: rest, bytes =>
    if (size :: rest).length ≥ MAX_TOOL_RESULT_OBSERVATIONS ∨
        bytes + length > MAX_TOOL_RESULT_BYTES then
      let later := evict length rest (bytes - size)
      (later.1 + 1, later.2)
    else (0, bytes)

def retain (state : ToolResults) (result : ToolResultObservation) : ToolResults :=
  let length := codec.resultLength result
  if length > MAX_TOOL_RESULT_BYTES then { state with complete := false }
  else
    let gone := evict length state.sizes state.bytes
    let state :=
      if gone.1 > 0 then
        { state with
          observations := state.observations.drop gone.1
          sizes := state.sizes.drop gone.1
          bytes := gone.2
          complete := false }.rebuild
      else state
    if state.observations.length ≥ MAX_TOOL_RESULT_OBSERVATIONS ∨
        state.bytes + length > MAX_TOOL_RESULT_BYTES then
      { state with complete := false }
    else
      { state with
        bytes := state.bytes + length
        sizes := state.sizes ++ [length]
        indices := KeyedStore.addPosition (toolResultRevisionKey result) state.observations.length
          state.indices
        observations := state.observations ++ [result] }

/-- Two results of one identity differ: neither is kept. -/
def conflict (state : ToolResults) (key : String) (index : Nat) : ToolResults :=
  let state := { state with
    observations := state.observations.eraseIdx index
    sizes := state.sizes.eraseIdx index
    bytes := state.bytes - (state.sizes[index]?).getD 0 }
  let state :=
    if state.conflicts.card < MAX_TOOL_RESULT_OBSERVATIONS ∧
        state.bytes + key.utf8ByteSize ≤ MAX_TOOL_RESULT_BYTES then
      { state with
        conflicts := insert key state.conflicts
        bytes := state.bytes + key.utf8ByteSize }
    else state.blockAfterConflictOverflow
  { state.rebuild with complete := false }

/-- `observe_native_tool_result`. -/
def observe (failure : Option NativeAdmissionFailure) (state : ToolResults)
    (result : ToolResultObservation) : ToolResults :=
  let result := result.afterFailure failure
  if "" ∈ state.conflicts then { state with complete := false }
  else
    match toolResultRevisionKey result with
    | none => state.retain codec result
    | some key =>
      if key ∈ state.conflicts then { state with complete := false }
      else
        match state.indices key with
        | some index =>
          if state.observations[index]? ≠ some result then state.conflict key index else state
        | none => state.retain codec result

def invalidate (reason : ToolResultCompleteness) (state : ToolResults) : ToolResults :=
  let observations := state.observations.map (·.invalidateAdmission reason)
  let sizes := observations.map codec.resultLength
  { state with
    observations
    sizes
    bytes := sizes.sum + keyBytes state.conflicts
    complete := false }

end ToolResults

/-! ### Native facts -/

namespace NativeFacts

def evict (length : Nat) : List NativeEvidenceFact → Nat → List NativeEvidenceFact × Nat
  | [], bytes => ([], bytes)
  | fact :: rest, bytes =>
    if (fact :: rest).length ≥ MAX_NATIVE_EVIDENCE_OBSERVATIONS ∨
        bytes + length > MAX_NATIVE_EVIDENCE_BYTES then
      evict length rest (bytes - codec.eventLength fact)
    else (fact :: rest, bytes)

/-- A fact stands before the first that it comes before. -/
def insertFact (fact : NativeEvidenceFact) (facts : List NativeEvidenceFact) :
    List NativeEvidenceFact :=
  let index := (facts.findIdx? fun prior => codec.comesBefore fact prior).getD facts.length
  facts.insertIdx index fact

/-- `retain_native_evidence`. -/
def retain (failure : Option NativeAdmissionFailure) (state : NativeFacts)
    (fact : NativeEvidenceFact) : NativeFacts :=
  let fact := fact.afterFailure failure
  if fact ∈ state.facts then state
  else
    let length := codec.eventLength fact
    if length > MAX_NATIVE_EVIDENCE_BYTES then { state with complete := false }
    else
      let kept := evict codec length state.facts state.bytes
      { facts := insertFact codec fact kept.1
        bytes := kept.2 + length
        complete := state.complete && decide (kept.1.length = state.facts.length) }

/-- The oldest facts go until the rest is within the bound. -/
def trim : List NativeEvidenceFact → Nat → List NativeEvidenceFact × Nat
  | [], bytes => ([], bytes)
  | fact :: rest, bytes =>
    if bytes > MAX_NATIVE_EVIDENCE_BYTES then trim rest (bytes - codec.eventLength fact)
    else (fact :: rest, bytes)

def invalidate (failed : Bool) (reason : ToolResultCompleteness) (state : NativeFacts) :
    NativeFacts :=
  let facts := state.facts.map fun fact =>
    if failed || fact.isToolResult then fact.invalidateAdmission reason else fact
  let kept := trim codec facts (facts.map codec.eventLength).sum
  { facts := kept.1, bytes := kept.2, complete := false }

end NativeFacts

end Operations

end CompositeSink

/-- The three collections and the first admission failure. -/
structure CompositeSink where
  results : CompositeSink.ToolResults := {}
  messages : CompositeSink.UserMessages := {}
  evidence : CompositeSink.NativeFacts := {}
  nativeAdmissionFailure : Option CompositeSink.NativeAdmissionFailure := none

namespace CompositeSink

section Sink

variable (codec : NativeCodec)

def toolResultGap (sink : CompositeSink) : CompositeSink :=
  { sink with
    results := { sink.results with complete := false }
    messages := { sink.messages with complete := false }
    evidence := { sink.evidence with complete := false } }

def admissionReason : ToolResultAdmission → Option ToolResultCompleteness
  | .unsafeIdentity => some .unsafeIdentity
  | .unsafeOrder => some .unsafeOrder
  | .unsafeOwnership => some .unsafeOwnership
  | .admitted | .unavailable => none

def toolResultAdmissionGap (sink : CompositeSink) (admission : ToolResultAdmission) :
    CompositeSink :=
  match admissionReason admission with
  | none => sink
  | some reason =>
    let reason := (sink.nativeAdmissionFailure.map NativeAdmissionFailure.reason).getD reason
    toolResultGap { sink with
      results := sink.results.invalidate codec reason
      evidence := sink.evidence.invalidate codec sink.nativeAdmissionFailure.isSome reason }

def retainNativeEvidence (sink : CompositeSink) (fact : NativeEvidenceFact) : CompositeSink :=
  { sink with evidence := sink.evidence.retain codec sink.nativeAdmissionFailure fact }

/-- `native_admission_failure`. -/
def observeAdmissionFailure (sink : CompositeSink) (failure : NativeAdmissionFailure) :
    CompositeSink :=
  if !failure.valid then toolResultGap sink
  else
    match sink.nativeAdmissionFailure with
    | some _ => toolResultAdmissionGap codec sink failure.admission
    | none =>
      retainNativeEvidence codec
        (toolResultAdmissionGap codec { sink with nativeAdmissionFailure := some failure }
          failure.admission)
        (.admissionFailure failure)

inductive SinkRecord where
  | toolResult (result : ToolResultObservation)
  | userMessage (request : UserMessage)
  | nativeFact (fact : NativeEvidenceFact)
  | unusable
  | gap
  | admissionGap (admission : ToolResultAdmission)
  | admissionFailure (failure : NativeAdmissionFailure)

def record (sink : CompositeSink) : SinkRecord → CompositeSink
  | .toolResult result =>
    { sink with results := sink.results.observe codec sink.nativeAdmissionFailure result }
  | .userMessage request => { sink with messages := sink.messages.observe codec request }
  | .nativeFact fact => retainNativeEvidence codec sink fact
  | .unusable =>
    { sink with
      messages := { sink.messages with complete := false }
      evidence := { sink.evidence with complete := false } }
  | .gap => toolResultGap sink
  | .admissionGap admission => toolResultAdmissionGap codec sink admission
  | .admissionFailure failure => observeAdmissionFailure codec sink failure

def ofRecords (records : List SinkRecord) : CompositeSink := records.foldl (record codec) {}

end Sink

end CompositeSink

end Antiburn
