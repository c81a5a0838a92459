/-
What the compiler lets an expression refer to.

Every expression of a check is resolved to a shape of normalized context data
before it compiles.  The shapes follow the source's records and fields; error
texts are its own.
-/
import Antiburn.Check

namespace Antiburn

/-! ### Shapes -/

inductive ContextRecord where
  | session | turn | request | window | message | quality | tool | result | outcome | agent
  | global | repo | instruction | instructionScope | skill | decisions
  | decision (index : Nat)
  | outputs (index : Nat)
  | details (index : Nat)
  | questionDetails (index question : Nat)
  | probabilities (index question : Nat)
  deriving DecidableEq

inductive ValueShape where
  | scalar
  | opened
  | array (item : ValueShape)
  | fixedArray (item : ValueShape) (count : Nat)
  | record (record : ContextRecord)
  | alternatives (items : List ValueShape)

namespace ValueShape

mutual

/-- Structural equality, as the source derives it. -/
def beq : ValueShape → ValueShape → Bool
  | .scalar, .scalar | .opened, .opened => true
  | .array item, .array other => beq item other
  | .fixedArray item count, .fixedArray other length => beq item other && count == length
  | .record left, .record right => left == right
  | .alternatives items, .alternatives others => beqItems items others
  | _, _ => false

@[inherit_doc beq]
def beqItems : List ValueShape → List ValueShape → Bool
  | [], [] => true
  | item :: rest, other :: others => beq item other && beqItems rest others
  | _, _ => false

end

instance : BEq ValueShape := ⟨beq⟩

end ValueShape

inductive ExpressionContext where
  | topLevel | decisionInput | actionCondition
  deriving DecidableEq

structure QuestionSymbols where
  name : String
  kind : QuestionKind
  labels : List String
  criteriaCount : Nat

/-- What later expressions may know of a decision. -/
structure DecisionSymbols where
  name : String
  outputs : List QuestionSymbols

/-- The part of the compiler's state that references depend on.  Aliases are
kept latest first. -/
structure Validator where
  hasWindow : Bool
  decisions : List DecisionSymbols
  aliases : List (String × ValueShape)
  triggerFamily : Option TriggerFamily

structure AccessError where
  code : DiagnosticCode
  message : String
  deriving DecidableEq

abbrev AccessResult := Except AccessError ValueShape

def referenceError (message : String) : AccessError := ⟨.compileUnknownReference, message⟩

def unsupportedReference (message : String) : AccessError := ⟨.compileUnsupportedFeature, message⟩

namespace Validator

variable (v : Validator)

/-! ### Roots -/

def rootShape (root : String) (context : ExpressionContext) : AccessResult :=
  match (if context = .decisionInput then v.aliases.lookup root else none) with
  | some shape => .ok shape
  | none =>
    match root with
    | "session" => .ok (.record .session)
    | "message" =>
      if v.triggerFamily.any TriggerFamily.isMessages then .ok (.record .message)
      else .error (unsupportedReference "The `message` root requires a message-family trigger.")
    | "agent" => .ok (.record .agent)
    | "global" => .ok (.record .global)
    | "repo" => .ok (.record .repo)
    | "window" =>
      if context = .topLevel then
        .error (unsupportedReference "The `window` root is unavailable to top-level conditions.")
      else if !v.hasWindow then .error (referenceError "The `window` root requires `on.window`.")
      else .ok (.record .window)
    | "decisions" =>
      if context ≠ .actionCondition then
        .error (unsupportedReference "The `decisions` root is available only to actions.")
      else if v.decisions.isEmpty then
        .error (referenceError "Decision results require a compiled decision.")
      else .ok (.record .decisions)
    | "turn" =>
      match v.triggerFamily with
      | some (.responseCycle _) => .ok (.record .turn)
      | _ => .error (unsupportedReference "The `turn` root requires `on.turn_end`.")
    | root => .error (referenceError ("Unknown context root `" ++ root ++ "`."))

/-! ### Records -/

def question? (index question : Nat) : Option QuestionSymbols :=
  v.decisions[index]?.bind fun decision => decision.outputs[question]?

def selectsSessionStart : Bool :=
  match v.triggerFamily with
  | some (.session (some _) _) => true
  | _ => false

def selectsSessionIdle : Bool :=
  match v.triggerFamily with
  | some (.session _ (some _)) => true
  | _ => false

def qualityFields : List String :=
  ["source_complete", "tool_name_available", "category_available", "arguments_available",
    "result_content_available", "request_history_complete", "main_session", "paths_available",
    "paths_complete", "model_limit", "fast_mode_limit", "fast_mode_evidence", "category_limit"]

def outcomeFields : List String :=
  ["kind", "state", "exit", "signal", "timed_out", "shell_id", "error", "session_id"]

def unknownField (key : String) : AccessError :=
  referenceError ("Unknown normalized field `" ++ key ++ "`.")

def unsupportedField : AccessError :=
  unsupportedReference "The selected context field or provider detail is not supported yet."

def scalarOr (scalars : List String) (key : String) (other : AccessResult) : AccessResult :=
  if scalars.contains key then .ok .scalar else other

def inventoryField (key : String) (other : AccessResult) : AccessResult :=
  match key with
  | "instructions" => .ok (.array (.record .instruction))
  | "skills" => .ok (.array (.record .skill))
  | "instructions_limits" | "skills_limits" => .ok (.array .scalar)
  | key => scalarOr ["instructions_complete", "skills_complete", "snapshot_revision"] key other

def recordField (record : ContextRecord) (key : String) : AccessResult :=
  let unknown : AccessResult := .error (unknownField key)
  match record with
  | .session =>
    match key with
    | "requests" => .ok (.array (.record .request))
    | "start_reason" => if v.selectsSessionStart then .ok .scalar else .error unsupportedField
    | "idle_seconds" | "last_activity_at" =>
      if v.selectsSessionIdle then .ok .scalar else .error unsupportedField
    | key =>
      scalarOr ["id", "requests_complete", "source_coverage", "model", "fast_mode"] key unknown
  | .turn =>
    match key with
    | "messages" => .ok (.array (.record .message))
    | key => scalarOr ["id", "source", "status", "model", "fast_mode", "started_at", "ended_at"]
        key unknown
  | .window =>
    match key with
    | "messages" => .ok (.array (.record .message))
    | _ => unknown
  | .request => scalarOr ["id", "source", "kind", "text", "in_reply_to"] key unknown
  | .message =>
    match key with
    | "tool" => .ok (.record .tool)
    | "quality" => .ok (.record .quality)
    | key => scalarOr ["id", "source", "occurred_at", "kind", "role", "model", "fast_mode",
        "content"] key unknown
  | .quality =>
    match key with
    | "paths_limits" => .ok (.array .scalar)
    | key => scalarOr qualityFields key unknown
  | .tool =>
    match key with
    | "paths" => .ok (.array .scalar)
    | "arguments" => .ok .opened
    | "result" => .ok (.record .result)
    | key => scalarOr ["name", "category", "call_id", "provider_executed"] key unknown
  | .result =>
    match key with
    | "content" => .ok .opened
    | "outcome" => .ok (.record .outcome)
    | key => scalarOr ["status", "output_bytes"] key unknown
  | .outcome => scalarOr outcomeFields key unknown
  | .agent =>
    match key with
    | "name" => .ok .scalar
    | "skills" => .error unsupportedField
    | _ => unknown
  | .global => inventoryField key unknown
  | .repo =>
    match key with
    | "root" => .ok .scalar
    | "branch" => .error unsupportedField
    | key => inventoryField key unknown
  | .instruction =>
    match key with
    | "scope" => .ok (.record .instructionScope)
    | key => scalarOr ["path", "content", "observed_at"] key unknown
  | .instructionScope =>
    match key with
    | "root" => .ok .scalar
    | "globs" => .ok (.array .scalar)
    | _ => unknown
  | .skill => scalarOr ["name", "description", "path"] key unknown
  | .decisions =>
    match v.decisions.findIdx? fun decision => decision.name == key with
    | some index => .ok (.record (.decision index))
    | none => .error (referenceError "Unknown decision name.")
  | .decision index =>
    match key with
    | "outputs" => .ok (.record (.outputs index))
    | "details" => .ok (.record (.details index))
    | _ => unknown
  | .outputs index =>
    if v.decisions[index]?.any fun decision => decision.outputs.any (·.name == key) then .ok .scalar
    else unknown
  | .details index =>
    match v.decisions[index]?.bind fun decision => decision.outputs.findIdx? (·.name == key) with
    | some question => .ok (.record (.questionDetails index question))
    | none => .error (referenceError "Unknown question name.")
  | .questionDetails index question =>
    match v.question? index question, key with
    | some symbols, "probabilities" =>
      match symbols.kind with
      | .choice => .ok (.record (.probabilities index question))
      | .score => .ok (.fixedArray .scalar symbols.criteriaCount)
      | .noul => .error (referenceError "Noul has no probability distribution detail.")
    | some symbols, "confidence" => if symbols.kind = .noul then unknown else .ok .scalar
    | _, _ => unknown
  | .probabilities index question =>
    if (v.question? index question).any fun symbols => symbols.labels.contains key then .ok .scalar
    else unknown

def recordFields : ContextRecord → List String
  | .session =>
    ["id", "requests_complete", "source_coverage", "requests", "model", "fast_mode"] ++
      (if v.selectsSessionStart then ["start_reason"] else []) ++
      (if v.selectsSessionIdle then ["idle_seconds", "last_activity_at"] else [])
  | .turn => ["id", "source", "status", "messages", "model", "fast_mode", "started_at", "ended_at"]
  | .request => ["id", "source", "kind", "text", "in_reply_to"]
  | .window => ["messages"]
  | .message => ["id", "source", "occurred_at", "kind", "role", "model", "fast_mode", "content",
      "tool", "quality"]
  | .quality => ["source_complete", "tool_name_available", "category_available",
      "arguments_available", "result_content_available", "request_history_complete",
      "main_session", "paths_available", "paths_complete", "paths_limits", "model_limit",
      "fast_mode_limit", "fast_mode_evidence", "category_limit"]
  | .tool => ["name", "category", "call_id", "provider_executed", "paths", "arguments", "result"]
  | .result => ["status", "output_bytes", "content", "outcome"]
  | .outcome => outcomeFields
  | .agent => ["name"]
  | .global => inventoryFields
  | .repo => inventoryFields ++ ["root"]
  | .instruction => ["path", "content", "observed_at", "scope"]
  | .instructionScope => ["root", "globs"]
  | .skill => ["name", "description", "path"]
  | .decisions => v.decisions.map (·.name)
  | .decision _ => ["outputs", "details"]
  | .outputs index | .details index =>
    (v.decisions[index]?.map fun decision => decision.outputs.map (·.name)).getD []
  | .questionDetails index question =>
    if (v.question? index question).any (·.kind ≠ .noul) then ["probabilities", "confidence"]
    else []
  | .probabilities index question =>
    ((v.question? index question).map (·.labels)).getD []
where
  inventoryFields : List String :=
    ["instructions", "instructions_complete", "instructions_limits", "skills", "skills_complete",
      "skills_limits", "snapshot_revision"]

/-! ### Steps -/

def noChildField : AccessError := referenceError "The selected value has no such child field."

mutual

/-- The shape of a property. -/
def propertyShape (key : String) : ValueShape → AccessResult
  | .opened => .ok .opened
  | .array _ | .fixedArray _ _ => if key = "length" then .ok .scalar else .error noChildField
  | .alternatives items => do
    if items.isEmpty then
      throw (referenceError "The selected record has no declared child fields.")
    let shapes ← propertyShapes key items
    return .alternatives shapes
  | .record record => v.recordField record key
  | .scalar => .error noChildField

@[inherit_doc propertyShape]
def propertyShapes (key : String) : List ValueShape → Except AccessError (List ValueShape)
  | [] => .ok []
  | item :: rest => do
    let shape ← propertyShape key item
    let shapes ← propertyShapes key rest
    return shape :: shapes

end

/-- The four kinds of index steps share the walk over alternatives. -/
structure IndexRule where
  array : ValueShape → AccessResult
  fixedArray : ValueShape → Nat → AccessResult
  record : ContextRecord → AccessResult
  scalar : AccessResult

mutual

/-- The shape that a rule selects. -/
def IndexRule.shape (rule : IndexRule) : ValueShape → AccessResult
  | .opened => .ok .opened
  | .array item => rule.array item
  | .fixedArray item count => rule.fixedArray item count
  | .alternatives items => do
    let shapes ← IndexRule.shapes rule items
    return .alternatives shapes
  | .record record => rule.record record
  | .scalar => rule.scalar

@[inherit_doc IndexRule.shape]
def IndexRule.shapes (rule : IndexRule) : List ValueShape → Except AccessError (List ValueShape)
  | [] => .ok []
  | item :: rest => do
    let shape ← IndexRule.shape rule item
    let shapes ← IndexRule.shapes rule rest
    return shape :: shapes

end

def outsideCriteria : AccessError :=
  referenceError "Score probability index is outside the declared criteria."

def noArrayIndex : AccessError :=
  referenceError "A normalized object or scalar cannot use an array index."

def closedRecord : AccessError :=
  referenceError "Dynamic keys cannot select unknown fields on closed normalized records."

/-- A fixed index; `none` is a number that is checked elsewhere. -/
def indexRule (index : Option Nat) : IndexRule where
  array item := .ok item
  fixedArray item count := if index.all (· < count) then .ok item else .error outsideCriteria
  record _ := .error noArrayIndex
  scalar := .error noArrayIndex

/-- A key that is only known at run time. -/
def dynamicRule : IndexRule where
  array item := .ok item
  fixedArray item _ := .ok item
  record
    | .probabilities _ _ => .ok .scalar
    | _ => .error closedRecord
  scalar := .error closedRecord

def projectionRule : IndexRule where
  array item := .ok item
  fixedArray item _ := .ok item
  record record := do
    let shapes ← (v.recordFields record).mapM (v.recordField record)
    return .alternatives shapes
  scalar := .error (referenceError "Projection requires an array or object.")

section Numbers

variable [Platform]

/-- `Number::as_f64` of a literal. -/
def asF64 (number : Number) : Option Platform.F64 :=
  let value := Platform.f64OfDecimal number.text
  if Platform.isFinite value then some value else none

def numericIndexRule (number : Number) : IndexRule where
  array item := .ok item
  fixedArray item count :=
    if (asF64 number).any fun value => (List.range count).any fun index =>
        decide (value = Platform.f64OfDecimal (toString index)) then .ok item
    else .error outsideCriteria
  record _ := .error noArrayIndex
  scalar := .error noArrayIndex

def knownTruth : Expression → Option Bool
  | .literal .null => some false
  | .literal (.boolean value) => some value
  | .literal (.string value) => some (!value.isEmpty)
  | .literal (.number value) =>
    (asF64 value).map fun value => decide (value ≠ Platform.f64OfDecimal "0")
  | _ => none

def alwaysTrue : ValueShape → Bool
  | .array _ | .fixedArray _ _ | .record _ => true
  | _ => false

def binaryShape (operator : BinaryOperator) (truth : Option Bool) (left right : ValueShape) :
    ValueShape :=
  match operator with
  | .and | .or =>
    match truth with
    | some truth => if (operator == .or) == truth then left else right
    | none =>
      if alwaysTrue left then if operator == .or then left else right
      else if left != right then .alternatives [left, right]
      else left
  | _ => .scalar

/-! ### Expressions -/

def pathShape : List PathSegment → ValueShape → AccessResult
  | [], shape => .ok shape
  | .property key :: rest, shape => do
    let shape ← v.propertyShape key shape
    pathShape rest shape
  | .index index :: rest, shape => do
    let shape ← (indexRule (some index)).shape shape
    pathShape rest shape

def selectorShape (selector : Expression) (shape : ValueShape) : AccessResult :=
  match selector with
  | .literal (.string key) => v.propertyShape key shape
  | .literal (.number number) => (numericIndexRule number).shape shape
  | _ => dynamicRule.shape shape

mutual

def resolveExpression (context : ExpressionContext) : Expression → AccessResult
  | .literal _ => .ok .scalar
  | .path (.property root :: rest) => do
    let shape ← v.rootShape root context
    v.pathShape rest shape
  | .path _ => .error (referenceError "Expression paths must start with a context root.")
  | .access base segments => do
    let shape ← resolveExpression context base
    accessShape context segments shape
  | .call function arguments => do
    resolveArguments context arguments
    return if function = .fromJSON then .opened else .scalar
  | .not value => do
    let _ ← resolveExpression context value
    return .scalar
  | .binary operator left right => do
    let leftShape ← resolveExpression context left
    let rightShape ← resolveExpression context right
    return binaryShape operator (knownTruth left) leftShape rightShape

def accessShape (context : ExpressionContext) : List AccessSegment → ValueShape → AccessResult
  | [], shape => .ok shape
  | .property key :: rest, shape => do
    let shape ← v.propertyShape key shape
    accessShape context rest shape
  | .index index :: rest, shape => do
    let shape ← (indexRule (some index)).shape shape
    accessShape context rest shape
  | .dynamic selector :: rest, shape => do
    let _ ← resolveExpression context selector
    let shape ← v.selectorShape selector shape
    accessShape context rest shape
  | .projection :: rest, shape => do
    let item ← v.projectionRule.shape shape
    let selected ← accessShape context rest item
    return .array selected

def resolveArguments (context : ExpressionContext) : List Expression → Except AccessError Unit
  | [] => .ok ()
  | argument :: rest => do
    let _ ← resolveExpression context argument
    resolveArguments context rest

end

end Numbers

end Validator

/-! ### Top-level conditions -/

section Accepted

variable [Platform]

/-- The validator that resolves the top-level condition: the trigger is
compiled before it, the decisions after it. -/
def topLevelValidator (trigger : Trigger) : Validator where
  hasWindow := trigger.window.isSome
  decisions := []
  aliases := []
  triggerFamily := some trigger.family

/-- The compiler took the top-level condition from a text that parses and
resolves, or from a Boolean, or there is none. -/
def CompiledCheck.ConditionAccepted (check : CompiledCheck) : Prop :=
  ∀ expression, check.condition = some (.expression expression) →
    (∃ source, parseExpression source = .ok expression) ∧
      ((topLevelValidator check.trigger).resolveExpression .topLevel expression).isOk = true

end Accepted

end Antiburn
