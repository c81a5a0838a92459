/-
Committed source publications, and the source events that they become.

`normalize` has two paths.  A message, a response cycle or a session boundary is
checked as it stands; a tool result comes as facts, from which the message is
built.
-/
import Antiburn.BuiltObjects
import Antiburn.PublicMessages
import Antiburn.SourcePage
import Antiburn.Usage

namespace Antiburn

/-! ### Publications -/

def jsonNat (value : Option Nat) : Json := value.elim .null fun value => .number (.ofNat value)

def jsonInt (value : Int) : Json := .number ⟨toString value⟩

/-- Proven generating or requesting facts for one recorded scope. -/
structure ObservedAttribution where
  model : Option String := none
  fastMode : Option Bool := none
  deriving DecidableEq

inductive EvidenceValidity where
  | valid | unknown | unsafeIdentity | unsafeOrder | unsafeOwnership
  deriving DecidableEq

inductive PublishedResultStatus where
  | completed | error | interrupted | unknown
  deriving DecidableEq

/-- Optional check-facing facts from exact native request and result bindings. -/
structure PublishedToolMetadata where
  attribution : ObservedAttribution := {}
  fastModeEvidence : Option String := none
  checkCategory : Option ToolCategory := none
  paths : Option (List String) := none
  pathsComplete : Bool := false
  pathsLimits : List String := []
  modelLimit : Option String := none
  fastModeLimit : Option String := none
  categoryLimit : Option String := none
  deriving DecidableEq

/-- Source-native result facts copied from one immutable publication. -/
structure PublishedToolResult where
  identity : String
  nativeOrder : NativeOrderKey
  firstTerminalPublication : Option PublicationCursor
  revision : Nat
  toolName : Option String
  category : Option String
  metadata : PublishedToolMetadata
  arguments : Option Json
  content : Option String
  outcome : Option Json
  providerExecuted : Option Bool
  status : PublishedResultStatus
  finality : Bool
  payloadComplete : Bool
  validity : EvidenceValidity

structure PublishedContext where
  requests : List (String × Json)
  sessionId : String
  agentName : String
  projectRoot : Option String
  version : String
  mainSession : Bool
  completeThroughEvent : Bool
  inventories : CurrentInventories := {}
  sessionSelection : Option ObservedAttribution := none

inductive ResponseCycleStatus where
  | completed | cancelled | error
  deriving DecidableEq

structure PublishedSourceEvidence where
  identity : String
  version : EvidenceVersion

/-- A complete source-proven cycle and its exact current member bindings. -/
structure PublishedResponseCycle where
  id : String
  status : ResponseCycleStatus
  messages : List Message
  attribution : ObservedAttribution
  nativeReason : Option String
  nativeErrorCode : Option String
  startedAtMs : Option Int
  endedAtMs : Option Int
  dependencies : List PublishedSourceEvidence

/-- Closed publication alternatives.  Native objects never become public roots. -/
inductive PublishedObservationPayload where
  | userMessage (message : Message)
  | assistantMessage (message : Message)
  | toolCall (message : Message)
  | responseCycle (cycle : PublishedResponseCycle)
  | sessionStart (reason : SessionStartReason)
  | sessionIdle (attachmentEpoch : String) (activityRevision idleSeconds : Nat)
      (lastActivityAtMs : Option Int)

/-- An immutable admitted public or host event. -/
structure PublishedObservation where
  identity : String
  nativeOrder : NativeOrderKey
  firstEligiblePublication : Option PublicationCursor
  revision : Nat
  eligible : Bool
  payloadComplete : Bool
  validity : EvidenceValidity
  payload : PublishedObservationPayload

inductive PublishedEvidenceChange where
  /-- A live source baseline or inactive-session event advances delivery only. -/
  | ignored
  /-- A finalized result or correction. -/
  | upsert (result : PublishedToolResult)
  /-- An admitted public message, complete cycle, or host boundary. -/
  | observationUpsert (observation : PublishedObservation)
  /-- A logical result was removed. -/
  | removal (identity : String) (revision : Nat)
  /-- A complete snapshot restored membership after a previously reported gap. -/
  | coverageRestored
  /-- The source no longer proves safe membership or ordering. -/
  | gap (reason : String)
  /-- The source no longer proves safe identity, ownership, or order. -/
  | unsafeUpdate (reason : String)
  /-- Content or history is partial; source identity, scope, and order stay safe. -/
  | partialGap (reason : String)
  /-- Continuity loss starts a new selection window while history stays partial. -/
  | segmentReset (reason : String)

structure PublishedEvidenceEvent where
  cursor : PublicationCursor
  sourceEvidenceVersion : Option EvidenceVersion
  branch : String
  context : Option PublishedContext
  change : PublishedEvidenceChange

/-! ### Publications as they are serialized -/

def ToolCategory.asStr : ToolCategory → String
  | shell => "shell"
  | read => "read"
  | search => "search"
  | edit => "edit"
  | write => "write"
  | delegate => "delegate"
  | skill => "skill"
  | mcp => "mcp"
  | other => "other"

def SessionStartReason.asStr : SessionStartReason → String
  | new => "new"
  | resumed => "resumed"
  | attached => "attached"

def ResponseCycleStatus.asStr : ResponseCycleStatus → String
  | completed => "completed"
  | cancelled => "cancelled"
  | error => "error"

def EvidenceValidity.name : EvidenceValidity → String
  | valid => "Valid"
  | unknown => "Unknown"
  | unsafeIdentity => "UnsafeIdentity"
  | unsafeOrder => "UnsafeOrder"
  | unsafeOwnership => "UnsafeOwnership"

def PublishedResultStatus.name : PublishedResultStatus → String
  | completed => "Completed"
  | error => "Error"
  | interrupted => "Interrupted"
  | unknown => "Unknown"

def ObservedAttribution.fields (attribution : ObservedAttribution) : Object :=
  jsonField "model" (attribution.model.map .string) ++
    jsonField "fast_mode" (attribution.fastMode.map .bool)

def PublishedToolMetadata.written (metadata : PublishedToolMetadata) : Json :=
  .object (metadata.attribution.fields ++
    jsonField "fast_mode_evidence" (metadata.fastModeEvidence.map .string) ++
    jsonField "check_category" (metadata.checkCategory.map fun category => .string category.asStr) ++
    jsonField "paths" (metadata.paths.map jsonStrings) ++
    [("paths_complete", .bool metadata.pathsComplete),
      ("paths_limits", jsonStrings metadata.pathsLimits)] ++
    jsonField "model_limit" (metadata.modelLimit.map .string) ++
    jsonField "fast_mode_limit" (metadata.fastModeLimit.map .string) ++
    jsonField "category_limit" (metadata.categoryLimit.map .string))

def PublishedToolResult.written (result : PublishedToolResult) : Json :=
  .object ([("identity", .string result.identity), ("native_order", .string result.nativeOrder)] ++
    jsonField "first_terminal_publication"
      (result.firstTerminalPublication.map fun cursor => .number (.ofNat cursor)) ++
    [("revision", .number (.ofNat result.revision)), ("tool_name", jsonText result.toolName),
      ("category", jsonText result.category)] ++
    jsonField "metadata" (if result.metadata = {} then none else some result.metadata.written) ++
    [("arguments", result.arguments.getD .null), ("content", jsonText result.content)] ++
    jsonField "outcome" result.outcome ++
    jsonField "provider_executed" (result.providerExecuted.map .bool) ++
    [("status", .string result.status.name), ("finality", .bool result.finality),
      ("complete", .bool result.payloadComplete),
      ("selection_safe", .bool (result.validity == .valid))])

def InstructionRecord.written (record : InstructionRecord) : Json :=
  .object [("path", .string record.path), ("content", .string record.content),
    ("scope", .object [("root", jsonText record.scope.root), ("globs", jsonStrings record.scope.globs)]),
    ("observed_at", .string record.observedAt)]

def SkillRecord.written (record : SkillRecord) : Json :=
  .object [("name", .string record.name), ("description", .string record.description),
    ("path", .string record.path)]

def InventorySnapshot.written (snapshot : InventorySnapshot) : Json :=
  .object (jsonField "instructions"
      (snapshot.instructions.map fun items => .array (items.map InstructionRecord.written)) ++
    [("instructions_complete", .bool snapshot.instructionsComplete),
      ("instructions_limits", jsonStrings snapshot.instructionsLimits)] ++
    jsonField "skills" (snapshot.skills.map fun items => .array (items.map SkillRecord.written)) ++
    [("skills_complete", .bool snapshot.skillsComplete),
      ("skills_limits", jsonStrings snapshot.skillsLimits)] ++
    jsonField "snapshot_revision" (snapshot.snapshotRevision.map .string))

/-- Whether nothing was collected for a scope. -/
def InventorySnapshot.isEmpty (snapshot : InventorySnapshot) : Bool :=
  snapshot.instructions.isNone && !snapshot.instructionsComplete &&
    snapshot.instructionsLimits.isEmpty && snapshot.skills.isNone && !snapshot.skillsComplete &&
    snapshot.skillsLimits.isEmpty && snapshot.snapshotRevision.isNone

def CurrentInventories.isEmpty (inventories : CurrentInventories) : Bool :=
  inventories.global.isEmpty && inventories.repo.isEmpty

def PublishedContext.written (context : PublishedContext) : Json :=
  .object ([("requests", .array (context.requests.map fun request =>
        .array [.string request.1, request.2])),
      ("session_id", .string context.sessionId), ("agent_name", .string context.agentName),
      ("project_root", jsonText context.projectRoot), ("version", .string context.version),
      ("main_session", .bool context.mainSession),
      ("complete_through_event", .bool context.completeThroughEvent)] ++
    jsonField "inventories" (if context.inventories.isEmpty then none else
      some (.object [("global", context.inventories.global.written),
        ("repo", context.inventories.repo.written)])) ++
    jsonField "session_selection"
      (context.sessionSelection.map fun selection => .object selection.fields))

def Message.written (message : Message) : Json :=
  .object [("id", .string message.id), ("value", message.value)]

def PublishedResponseCycle.written (cycle : PublishedResponseCycle) : Json :=
  .object [("id", .string cycle.id), ("status", .string cycle.status.asStr),
    ("messages", .array (cycle.messages.map Message.written)),
    ("attribution", .object cycle.attribution.fields),
    ("native_reason", jsonText cycle.nativeReason),
    ("native_error_code", jsonText cycle.nativeErrorCode),
    ("started_at_ms", cycle.startedAtMs.elim .null jsonInt),
    ("ended_at_ms", cycle.endedAtMs.elim .null jsonInt),
    ("dependencies", .array (cycle.dependencies.map fun binding =>
      .object [("identity", .string binding.identity), ("version", .string binding.version)]))]

/-- An alternative is written as an object of its name; its fields lie one level deeper. -/
def PublishedObservationPayload.written : PublishedObservationPayload → Json
  | userMessage message => .object [("UserMessage", message.written)]
  | assistantMessage message => .object [("AssistantMessage", message.written)]
  | toolCall message => .object [("ToolCall", message.written)]
  | responseCycle cycle => .object [("ResponseCycle", cycle.written)]
  | sessionStart reason => .object [("SessionStart", .object [("reason", .string reason.asStr)])]
  | sessionIdle epoch revision seconds time =>
    .object [("SessionIdle", .object [("attachment_epoch", .string epoch),
      ("activity_revision", .number (.ofNat revision)), ("idle_seconds", .number (.ofNat seconds)),
      ("last_activity_at_ms", time.elim .null jsonInt)])]

def PublishedObservation.written (published : PublishedObservation) : Json :=
  .object [("identity", .string published.identity), ("native_order", .string published.nativeOrder),
    ("first_eligible_publication", jsonNat published.firstEligiblePublication),
    ("revision", .number (.ofNat published.revision)), ("eligible", .bool published.eligible),
    ("payload_complete", .bool published.payloadComplete),
    ("validity", .string published.validity.name), ("payload", published.payload.written)]

namespace Publication

open PublicMessage

variable [Platform]

def digest (value : Json) : EvidenceVersion :=
  String.ofList ((Platform.sha256 (textBytes value.render)).toList.flatMap hexByte)

def addAttribution (value : Json) (attribution : ObservedAttribution) : Json :=
  let value := attribution.model.elim value fun model => value.assign "model" (.string model)
  attribution.fastMode.elim value fun mode => value.assign "fast_mode" (.bool mode)

def unavailableRepo : Object := Object.ofFields
  [("instructions_complete", .bool false),
    ("instructions_limits", jsonStrings ["repository-root-unavailable"]),
    ("skills_complete", .bool false),
    ("skills_limits", jsonStrings ["repository-root-unavailable"])]

/-- The main session, with its identity and its agent. -/
def isSafe (context : PublishedContext) : Bool :=
  context.mainSession && !isBlank context.sessionId && !isBlank context.agentName

def contextDependency (context : PublishedContext) : EvidenceDependency :=
  .context "user-messages-through-event" context.version

def coverage (context : PublishedContext) : String :=
  if context.completeThroughEvent then "complete" else "partial"

/-! ### Results -/

def resultStatus : PublishedResultStatus → String
  | .completed => "completed"
  | .error => "error"
  | .interrupted => "cancelled"
  | .unknown => "unknown"

/-- The reviewed category, or else the one that the source gives. -/
def resultCategory (result : PublishedToolResult) : Option String :=
  (result.metadata.checkCategory.map ToolCategory.asStr).or result.category

def resultRequest (request : String × Json) : Json :=
  .object (Object.ofFields
    [("id", .string request.1),
      ("source", (request.2.get? "source").getD (.string "unknown")),
      ("kind", (request.2.get? "kind").getD (.string "user_message")),
      ("text", ((request.2.get? "text").or (request.2.get? "content")).getD (.string ""))])

def resultContext (context : PublishedContext) : Json :=
  let session : Json := .object (Object.ofFields
    [("requests", .array (context.requests.map resultRequest)),
      ("requests_complete", .bool context.completeThroughEvent),
      ("source_coverage", .string (coverage context))])
  let session := session.assign "id" (.string context.sessionId)
  let session := context.sessionSelection.elim session (addAttribution session)
  let value : Json := .object (Object.ofFields
    [("session", session), ("agent", .object []), ("global", .object []), ("repo", .object [])])
  let value := value.assign "global" (.object (Object.ofFields context.inventories.global.fields))
  let value := value.assign "repo"
    (if context.projectRoot.isSome then .object (Object.ofFields context.inventories.repo.fields)
      else .object unavailableRepo)
  let value := value.assignIn "agent" "name" (.string context.agentName)
  context.projectRoot.elim value fun root => value.assignIn "repo" "root" (.string root)

def resultQuality (result : PublishedToolResult) (context : PublishedContext) : Object :=
  let quality := Object.ofFields
    [("source_complete", .bool result.payloadComplete),
      ("tool_name_available", .bool result.toolName.isSome),
      ("category_available", .bool (resultCategory result).isSome),
      ("arguments_available", .bool result.arguments.isSome),
      ("result_content_available", .bool result.content.isSome),
      ("request_history_complete", .bool context.completeThroughEvent),
      ("main_session", .bool context.mainSession),
      ("paths_available", .bool result.metadata.paths.isSome),
      ("paths_complete", .bool (result.metadata.paths.isSome && result.metadata.pathsComplete)),
      ("paths_limits", jsonStrings result.metadata.pathsLimits)]
  let quality := quality.insertSome "fast_mode_evidence"
    (result.metadata.attribution.fastMode.bind fun _ => result.metadata.fastModeEvidence.map .string)
  let quality := quality.insertSome "model_limit" (result.metadata.modelLimit.map .string)
  let quality := quality.insertSome "fast_mode_limit" (result.metadata.fastModeLimit.map .string)
  quality.insertSome "category_limit" (result.metadata.categoryLimit.map .string)

def resultFacts (result : PublishedToolResult) : Object :=
  let facts := Object.ofFields
    [("content", jsonText result.content), ("status", .string (resultStatus result.status))]
  let facts := facts.removeIf result.content.isNone "content"
  facts.insertSome "outcome" result.outcome

def resultTool (result : PublishedToolResult) : Object :=
  let tool := Object.ofFields
    [("name", jsonText result.toolName), ("category", jsonText (resultCategory result)),
      ("arguments", result.arguments.getD .null), ("result", .object (resultFacts result))]
  let tool := tool.insertSome "paths" (result.metadata.paths.map jsonStrings)
  let tool := tool.removeIf result.toolName.isNone "name"
  let tool := tool.removeIf (resultCategory result).isNone "category"
  let tool := tool.removeIf result.arguments.isNone "arguments"
  tool.insertSome "provider_executed" (result.providerExecuted.map .bool)

/-- The message of a result, each of its parts built with what was inserted into it and
removed from it. -/
def resultMessage (result : PublishedToolResult) (context : PublishedContext) : Message where
  id := result.identity
  value :=
    let value := Object.ofFields
      [("id", .string result.identity), ("source", .string context.agentName),
        ("kind", .string "tool_result"), ("role", .string "tool"),
        ("tool", .object (resultTool result)), ("native_order", .string result.nativeOrder),
        ("quality", .object (resultQuality result context))]
    let value := value.insertSome "model" (result.metadata.attribution.model.map .string)
    .object (value.insertSome "fast_mode" (result.metadata.attribution.fastMode.map .bool))

def resultObservation (event : PublishedEvidenceEvent) (result : PublishedToolResult)
    (context : PublishedContext) : SourceEvent :=
  .observation event.cursor event.sourceEvidenceVersion result.identity result.revision
    { branch := event.branch
      nativeOrder := result.nativeOrder
      firstTerminalPublication := result.firstTerminalPublication
      firstEligiblePublication := none
      version := digest (.array [.string event.branch, result.written, context.written])
      kind :=
        if result.finality then
          .toolResult (resultMessage result context) ((resultCategory result).getD "")
            (resultStatus result.status)
        else .other
      context := ⟨resultContext context, [contextDependency context]⟩
      complete := result.finality && result.payloadComplete }

def normalizeResult (event : PublishedEvidenceEvent) (result : PublishedToolResult) : SourceEvent :=
  match event.context.filter isSafe with
  | none =>
    .unsafeUpdate event.cursor event.branch
      "Source identity, main-session scope, or native order is unavailable."
  | some context =>
    if result.validity != .valid || isBlank event.branch || isBlank result.identity ||
        isBlank result.nativeOrder then
      .unsafeUpdate event.cursor event.branch
        "Source identity, main-session scope, or native order is unavailable."
    else resultObservation event result context

/-! ### Observations -/

def publicRequest (request : String × Json) : Except SourceError Json := do
  let source ← match text? request.2 "source" with
    | some source => .ok source
    | none => .error (invalid "A request requires its source.")
  let kind := ((request.2.get? "kind").bind Json.asStr).getD "user_message"
  let text ← match ((request.2.get? "text").or (request.2.get? "content")).bind Json.asStr with
    | some text => .ok text
    | none => .error (invalid "A request requires public text.")
  refuse (isBlank request.1 || !(["user_message", "question_answer", "approval"].contains kind))
    "The request identity or kind is invalid."
  let value : Json := .object (Object.ofFields
    [("id", .string request.1), ("source", .string source), ("kind", .string kind),
      ("text", .string text)])
  match request.2.get? "in_reply_to" with
  | none => return value
  | some reply =>
    refuse reply.asStr.isNone "The request reply binding must be a string."
    return value.assign "in_reply_to" reply

def publicContext (context : PublishedContext) : Except SourceError FrozenContext := do
  let requests ← context.requests.mapM publicRequest
  let session : Json := .object (Object.ofFields
    [("id", .string context.sessionId), ("requests", .array requests),
      ("requests_complete", .bool context.completeThroughEvent),
      ("source_coverage", .string (coverage context))])
  refuse (!(context.sessionSelection.bind ObservedAttribution.model).all isModelIdentifier)
    "The current selection model is invalid."
  let session := context.sessionSelection.elim session (addAttribution session)
  let value : Json := .object (Object.ofFields
    [("session", session), ("agent", .object [("name", .string context.agentName)]),
      ("global", .object []), ("repo", .object [])])
  -- both scopes are objects, so that nothing panics here
  let value := (context.inventories.mergeInto value).getD value
  let value := context.projectRoot.elim (value.assign "repo" (.object unavailableRepo)) fun root =>
    value.assignIn "repo" "root" (.string root)
  return ⟨value, [contextDependency context]⟩

def normalizeMessage (published : PublishedObservation) (context : PublishedContext)
    (message : Message) (kind : String) : Except SourceError Unit := do
  validatePublicMessage message kind
  refuse (message.id != published.identity ||
      (message.value.index "source").asStr != some context.agentName)
    "The message does not match its publication identity or source."

def admitMember (context : PublishedContext) (message : Message) : Except SourceError Unit := do
  match (message.value.get? "kind").bind Json.asStr with
  | none => .error (invalid "A cycle member has no kind.")
  | some kind => validatePublicMessage message kind
  refuse ((message.value.index "source").asStr != some context.agentName)
    "A cycle member has a different source."

def admitMembers (context : PublishedContext) : List String → List Message →
    Except SourceError (List String)
  | members, [] => return members
  | members, message :: rest => do
    admitMember context message
    refuse (members.contains message.id) "A cycle cannot repeat a current message identity."
    admitMembers context (message.id :: members) rest

def bindDependencies : List String → List PublishedSourceEvidence →
    Except SourceError (List String)
  | bindings, [] => return bindings
  | bindings, binding :: rest => do
    refuse (isBlank binding.version || bindings.contains binding.identity)
      "A cycle dependency is missing or duplicated."
    bindDependencies (binding.identity :: bindings) rest

def normalizeCycle (published : PublishedObservation) (context : PublishedContext)
    (frozen : FrozenContext) (cycle : PublishedResponseCycle) :
    Except SourceError (ObservationKind × FrozenContext) := do
  refuse (!published.payloadComplete || cycle.id != published.identity || cycle.messages.isEmpty ||
      4096 < cycle.messages.length || 4096 < cycle.dependencies.length)
    "The response cycle is incomplete or exceeds its member bound."
  let members ← admitMembers context [] cycle.messages
  let bindings ← bindDependencies [] cycle.dependencies
  refuse (members.length != bindings.length || members.any fun id => !bindings.contains id)
    "The cycle requires exact current bindings for every public member."
  let turn : Json := .object (Object.ofFields
    [("id", .string cycle.id), ("source", .string context.agentName),
      ("status", .string cycle.status.asStr),
      ("messages", .array (cycle.messages.map Message.value))])
  let turn := addAttribution turn cycle.attribution
  refuse (!cycle.attribution.model.all isModelIdentifier)
    "The cycle attribution has an invalid model identifier."
  let turn := cycle.startedAtMs.elim turn fun time => turn.assign "started_at" (jsonInt time)
  let turn := cycle.endedAtMs.elim turn fun time => turn.assign "ended_at" (jsonInt time)
  return (.turnEnd turn, ⟨frozen.value.assign "turn" turn,
    frozen.dependencies ++ cycle.dependencies.map fun binding =>
      .sourceEvidence binding.identity binding.version⟩)

def normalizePayload (published : PublishedObservation) (context : PublishedContext)
    (frozen : FrozenContext) : Except SourceError (ObservationKind × FrozenContext) :=
  match published.payload with
  | .userMessage message => do
    normalizeMessage published context message "user_message"
    return (.userMessage message, frozen)
  | .assistantMessage message => do
    normalizeMessage published context message "assistant_message"
    return (.assistantMessage message, frozen)
  | .toolCall message => do
    normalizeMessage published context message "tool_call"
    return (.toolCall message, frozen)
  | .responseCycle cycle => normalizeCycle published context frozen cycle
  | .sessionStart reason =>
    return (.sessionStart reason,
      { frozen with value := frozen.value.assignIn "session" "start_reason" (.string reason.asStr) })
  | .sessionIdle epoch revision seconds time => do
    refuse (isBlank epoch || seconds < 120)
      "An idle boundary requires an attachment and at least 120 seconds."
    let value := frozen.value.assignIn "session" "idle_seconds" (.number (.ofNat seconds))
    let value := time.elim value fun time =>
      value.assignIn "session" "last_activity_at" (jsonInt time)
    return (.sessionIdle epoch revision seconds time,
      ⟨value, frozen.dependencies ++ [.sessionActivity epoch revision]⟩)

/-- The kinds that have no evidence dependency of their own. -/
def isMessageKind : ObservationKind → Bool
  | .userMessage _ | .assistantMessage _ | .toolCall _ => true
  | _ => false

def observationKind (published : PublishedObservation) (context : PublishedContext)
    (frozen : FrozenContext) : Except SourceError (ObservationKind × FrozenContext) :=
  if published.eligible then normalizePayload published context frozen
  else .ok (.other, frozen)

def normalizeObservation (event : PublishedEvidenceEvent) (published : PublishedObservation) :
    SourceEvent :=
  let unsafeEvent := SourceEvent.unsafeUpdate event.cursor event.branch
  match event.context.filter isSafe with
  | none => unsafeEvent "The public event lacks admitted main-session context."
  | some context =>
    if published.validity != .valid || isBlank event.branch || isBlank published.identity ||
        isBlank published.nativeOrder ||
        published.firstEligiblePublication.any fun first => event.cursor < first then
      unsafeEvent "The public event lacks safe identity, ownership, or order."
    else if !(measureJson (.array [published.written, context.written]) PUBLIC_LIMITS).isOk then
      unsafeEvent "The public event or context exceeds its bounds."
    else
      let version := digest (.array [.string event.branch, published.written, context.written])
      match publicContext context with
      | .error error => unsafeEvent ("Invalid public context: " ++ error.debug)
      | .ok frozen =>
        match observationKind published context frozen with
        | .error error => unsafeEvent ("Invalid public event: " ++ error.debug)
        | .ok (kind, frozen) =>
          .observation event.cursor event.sourceEvidenceVersion published.identity
            published.revision
            { branch := event.branch
              nativeOrder := published.nativeOrder
              firstTerminalPublication := none
              firstEligiblePublication := published.firstEligiblePublication
              version
              kind
              context :=
                if isMessageKind kind then frozen
                else { frozen with
                  dependencies := frozen.dependencies ++
                    [.sourceEvidence published.identity version] }
              complete := published.eligible && published.payloadComplete }

/-- `normalize`; nothing that it serializes can be refused, so that it never fails. -/
def normalize (event : PublishedEvidenceEvent) : SourceEvent :=
  match event.change with
  | .ignored => .ignored event.cursor
  | .gap reason => .unsafeUpdate event.cursor event.branch reason
  | .partialGap reason => .gap event.cursor event.branch reason
  | .unsafeUpdate reason => .unsafeUpdate event.cursor event.branch reason
  | .segmentReset reason => .segmentReset event.cursor event.branch reason
  | .removal identity revision => .removal event.cursor identity revision event.branch
  | .coverageRestored => .coverageRestored event.cursor event.branch
  | .observationUpsert published => normalizeObservation event published
  | .upsert result => normalizeResult event result

/-- Uses the result publication path for both standalone and inline result values. -/
def normalizeToolResultMessage (result : PublishedToolResult) (context : PublishedContext) :
    Except SourceError Message :=
  match normalize ⟨0, none, "public-message-normalization", some context, .upsert result⟩ with
  | .observation _ _ _ _ draft =>
    match draft.kind with
    | .toolResult message _ _ => .ok message
    | _ => .error (invalid "A cycle result must be terminal.")
  | _ => .error (invalid "The result lacks safe source admission.")

end Publication

end Antiburn
