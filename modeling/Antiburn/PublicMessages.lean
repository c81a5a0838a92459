/-
The public messages that enter an event or a cycle, and their validation.

A public message is a JSON value with a closed set of fields at every level.
`validatePublicMessage` reads it field by field and names the first rule that it
breaks; `validatePublicMessage_ok_iff` has the rules together.
-/
import Antiburn.Filters
import Antiburn.FullFraming
import Antiburn.Measure
import Antiburn.Lib.Except

namespace Antiburn

/-- A source read or contract failure, of those that one event can meet. -/
inductive SourceError where
  | invalidObservation (message : String)
  | reader (message : String)
  deriving DecidableEq

/-- The text that `format!` prints with `:?`; no message has a character to escape. -/
def SourceError.debug : SourceError → String
  | invalidObservation message => "InvalidObservation(\"" ++ message ++ "\")"
  | reader message => "Reader(\"" ++ message ++ "\")"

def PUBLIC_LIMITS : JsonLimits where
  maxBytes := 4 * 1024 * 1024
  maxNodes := 262144
  maxDepth := 64

/-- `Number::as_i64`. -/
def Number.asI64 (number : Number) : Option Int :=
  match number.text.toList with
  | '-' :: digits =>
    if digits.all Char.isDigit && digitsValue digits ≤ 2 ^ 63 then some (-(digitsValue digits))
    else none
  | digits =>
    if digits.all Char.isDigit && digitsValue digits < 2 ^ 63 then some (digitsValue digits)
    else none

def Json.asNumber : Json → Option Number
  | .number value => some value
  | _ => none

namespace PublicMessage

def invalid (message : String) : SourceError := .invalidObservation message

def refuse (broken : Bool) (message : String) : Except SourceError Unit :=
  if broken then .error (invalid message) else .ok ()

@[simp] lemma refuse_ok_iff {broken : Bool} {msg : String} {value : Unit} :
    refuse broken msg = .ok value ↔ broken = false := by
  cases broken with
  | false => exact iff_of_true rfl rfl
  | true => exact iff_of_false (fun h => by cases h) (fun h => by cases h)

def checkSome (value : Option Json) (check : Json → Except SourceError Unit) :
    Except SourceError Unit :=
  value.elim (.ok ()) check

variable {tool : Json} {check : Json → Except SourceError Unit}

@[simp] lemma checkSome_ok_iff {value : Option Json}
    {result : Unit} : checkSome value check = .ok result ↔ ∀ found ∈ value, check found = .ok () := by
  cases value with
  | none => exact iff_of_true rfl fun _ h => nomatch h
  | some found =>
    show check found = .ok () ↔ _
    simp only [Option.mem_some_iff, forall_eq']

def checkThere (value : Option Json) (message : String) (check : Json → Except SourceError Unit) :
    Except SourceError Unit :=
  value.elim (.error (invalid message)) check

@[simp] lemma checkThere_ok_iff {value : Option Json} {msg : String}
    {result : Unit} :
    checkThere value msg check = .ok result ↔ ∃ found ∈ value, check found = .ok () := by
  cases value with
  | none => exact iff_of_false (fun h => nomatch h) fun ⟨_, h, _⟩ => nomatch h
  | some found =>
    show check found = .ok () ↔ _
    simp only [Option.mem_some_iff, exists_eq_left']

def isClosed (value : Json) (fields : List String) : Bool :=
  value.asObject.any fun object => object.all fun entry => fields.contains entry.1

def closed (value : Json) (fields : List String) : Except SourceError Unit := do
  refuse value.asObject.isNone "A public record must be an object."
  refuse (!isClosed value fields) "A public record contains an unknown field."

lemma closed_ok_iff {value : Json} {fields : List String} {result : Unit} :
    closed value fields = .ok result ↔ isClosed value fields = true := by
  rw [closed, Except.bind_ok_iff]
  simp only [refuse_ok_iff, exists_const, Bool.not_eq_false', and_iff_right_iff_imp]
  intro h
  cases value with
  | object entries => rfl
  | _ => cases h

/-- `text.trim().is_empty()`. -/
def isBlank (text : String) : Bool := text.toList.all isWhiteSpace

def text? (value : Json) (key : String) : Option String :=
  ((value.get? key).bind Json.asStr).filter fun text => !isBlank text

def requiredText (value : Json) (key : String) : Except SourceError String :=
  match text? value key with
  | some text => .ok text
  | none => .error (invalid "A required public identity or name is unavailable.")

lemma requiredText_ok_iff {value : Json} {key text : String} :
    requiredText value key = .ok text ↔ text? value key = some text := by
  rw [requiredText]
  cases text? value key with
  | none => exact iff_of_false (fun h => by cases h) (fun h => by cases h)
  | some found => rw [Except.ok.injEq, Option.some.injEq]

/-! ### The envelope -/

def field (value : Json) (key : String) (p : Json → Bool) : Bool :=
  (value.get? key).all p

def role? : String → Option String
  | "user_message" => some "user"
  | "assistant_message" | "tool_call" => some "assistant"
  | "tool_result" => some "tool"
  | _ => none

def envelopeFields : List String :=
  ["id", "source", "occurred_at", "kind", "role", "model", "fast_mode", "content", "tool",
    "quality", "native_order"]

def validateEnvelope [Platform] (message : Message) (expectedKind : String) : Except SourceError Unit := do
  let value := message.value
  closed value envelopeFields
  let id ← requiredText value "id"
  -- the kind is read only where the identity matches
  refuse (id != message.id) "The typed public message kind or identity does not match its value."
  let kind ← requiredText value "kind"
  refuse (kind != expectedKind)
    "The typed public message kind or identity does not match its value."
  let _ ← requiredText value "source"
  match role? expectedKind with
  | none => .error (invalid "The public message kind is unavailable.")
  | some role =>
    refuse ((value.get? "role").bind Json.asStr != some role)
      "The public message role does not match its kind."
  refuse (!field value "model" fun model => model.asStr.any isModelIdentifier)
    "The recorded model identifier is invalid."
  refuse (!field value "fast_mode" fun mode => mode.asBool.isSome)
    "Recorded mode must be a Boolean."
  refuse (!field value "occurred_at" fun time =>
      time.asStr.isSome || (time.asNumber.bind Number.asI64).isSome)
    "The source time must be a string or integer timestamp."
  refuse (!field value "native_order" fun order =>
      expectedKind == "tool_result" && order.asStr.isSome)
    "Only legacy results can contain a native-order string."

/-! ### Quality -/

def qualityFields : List String :=
  ["source_complete", "tool_name_available", "category_available", "arguments_available",
    "result_content_available", "request_history_complete", "main_session", "paths_available",
    "paths_complete", "paths_limits", "model_limit", "fast_mode_limit", "fast_mode_evidence",
    "category_limit"]

def isQualityFact (key : String) (fact : Json) : Bool :=
  if key == "paths_limits" then fact.asArray.any fun items => items.all fun item => item.asStr.isSome
  else if ["model_limit", "fast_mode_limit", "fast_mode_evidence", "category_limit"].contains key then
    fact.asStr.isSome
  else fact.asBool.isSome

def validateQuality (quality : Json) : Except SourceError Unit := do
  closed quality qualityFields
  refuse (!quality.asObject.any fun facts => facts.all fun fact => isQualityFact fact.1 fact.2)
    "A public quality fact has an invalid type."

/-! ### Tools -/

def resultFields : List String := ["status", "content", "outcome", "output_bytes"]

def outcomeFields : List String :=
  ["kind", "state", "exit", "signal", "timed_out", "shell_id", "error", "session_id"]

def isOutcomeFact (key : String) (fact : Json) : Bool :=
  if ["timed_out", "error"].contains key then fact.asBool.isSome
  else if key == "exit" then (fact.asNumber.bind Number.asI64).isSome
  else if key == "signal" then fact.asStr.isSome || (fact.asNumber.bind Number.asI64).isSome
  else fact.asStr.isSome

def validateOutcome (outcome : Json) : Except SourceError Unit := do
  closed outcome outcomeFields
  refuse (!outcome.asObject.any fun facts => facts.all fun fact => isOutcomeFact fact.1 fact.2)
    "A native outcome fact has an invalid type."

def isStatus (status : String) : Bool :=
  ["completed", "error", "cancelled", "unknown"].contains status

def validateResult (result : Json) : Except SourceError Unit := do
  closed result resultFields
  refuse (!((result.get? "status").bind Json.asStr).any isStatus) "The result status is invalid."
  refuse (!field result "output_bytes" fun size => (size.asNumber.bind Number.asU64).isSome)
    "The result output size must be a nonnegative integer."
  checkSome (result.get? "outcome") validateOutcome

def toolFields : List String :=
  ["call_id", "name", "category", "arguments", "paths", "provider_executed", "result"]

def isCategory (category : String) : Bool :=
  ["shell", "read", "search", "edit", "write", "delegate", "skill", "mcp", "other"].contains category

/-- A name that a call requires and a result may have. -/
def toolText (tool : Json) (kind key : String) : Except SourceError Unit :=
  if kind == "tool_call" || (tool.get? key).isSome then discard (requiredText tool key)
  else .ok ()

def validateTool (tool : Json) (kind : String) : Except SourceError Unit := do
  closed tool toolFields
  toolText tool kind "call_id"
  toolText tool kind "name"
  refuse (!field tool "category" fun category => category.asStr.any isCategory)
    "The tool category is invalid."
  refuse (!field tool "provider_executed" fun flag => flag.asBool.isSome)
    "The execution flag must be a Boolean."
  refuse (!field tool "paths" fun paths =>
      paths.asArray.any fun items => items.all fun item => item.asStr.any isRepositoryPath)
    "Recorded paths must be repository-relative strings."
  if kind == "tool_call" then
    refuse (tool.get? "result").isSome "A call cannot contain a result."
  else
    checkThere (tool.get? "result") "A result requires a status." validateResult

/-! ### The whole message -/

def validateText (value : Json) (expectedKind : String) : Except SourceError Unit := do
  refuse (!((value.get? "content").any fun content => content.asStr.isSome) ||
      (value.get? "tool").isSome)
    "A text message requires public content and cannot contain a tool."
  refuse (expectedKind == "user_message" &&
      ((value.get? "model").isSome || (value.get? "fast_mode").isSome))
    "User messages cannot have generator attribution."

def validatePublicMessage [Platform] (message : Message) (expectedKind : String) :
    Except SourceError Unit := do
  refuse (!(measureJson message.value PUBLIC_LIMITS).isOk) "The public message exceeds its bounds."
  validateEnvelope message expectedKind
  let value := message.value
  checkSome (value.get? "quality") validateQuality
  if expectedKind == "user_message" || expectedKind == "assistant_message" then
    validateText value expectedKind
  else
    refuse (value.get? "content").isSome "Tool messages cannot contain public text fields."
    checkThere (value.get? "tool") "A tool message requires tool facts." fun tool =>
      validateTool tool expectedKind

/-! ### What the validation of a result checks -/

lemma validateResult_ok_iff {result : Json} :
    validateResult result = .ok () ↔
      isClosed result resultFields = true ∧
        ((result.get? "status").bind Json.asStr).any isStatus = true ∧
        field result "output_bytes" (fun size => (size.asNumber.bind Number.asU64).isSome) = true ∧
        ∀ outcome ∈ result.get? "outcome", validateOutcome outcome = .ok () := by
  unfold validateResult
  simp only [Except.bind_ok_iff, closed_ok_iff, refuse_ok_iff, exists_const, Bool.not_eq_false',
    checkSome_ok_iff]

lemma toolText_ok_iff {kind key : String} {value : Unit} :
    toolText tool kind key = .ok value ↔
      (kind = "tool_call" ∨ (tool.get? key).isSome = true → (text? tool key).isSome = true) := by
  unfold toolText
  simp only [Bool.or_eq_true, beq_iff_eq]
  split_ifs with h
  · rw [Except.discard_ok_iff, Except.isOk_iff]
    simp only [requiredText_ok_iff, h, forall_const]
    exact Option.isSome_iff_exists.symm
  · exact iff_of_true rfl fun hkind => absurd hkind h

lemma validateTool_ok_iff :
    validateTool tool "tool_result" = .ok () ↔
      isClosed tool toolFields = true ∧
        ((tool.get? "call_id").isSome = true → (text? tool "call_id").isSome = true) ∧
        ((tool.get? "name").isSome = true → (text? tool "name").isSome = true) ∧
        field tool "category" (fun category => category.asStr.any isCategory) = true ∧
        field tool "provider_executed" (fun flag => flag.asBool.isSome) = true ∧
        field tool "paths" (fun paths => paths.asArray.any fun items =>
          items.all fun item => item.asStr.any isRepositoryPath) = true ∧
        ∃ result ∈ tool.get? "result", validateResult result = .ok () := by
  unfold validateTool
  simp only [Except.bind_ok_iff, closed_ok_iff, refuse_ok_iff, exists_const, Bool.not_eq_false',
    toolText_ok_iff, show ("tool_result" = "tool_call") = False from by simp, false_or]
  rw [if_neg (by decide), checkThere_ok_iff]

lemma validateEnvelope_ok_iff [Platform] {msg : Message} :
    validateEnvelope msg "tool_result" = .ok () ↔
      isClosed msg.value envelopeFields = true ∧
        text? msg.value "id" = some msg.id ∧
        text? msg.value "kind" = some "tool_result" ∧
        (text? msg.value "source").isSome = true ∧
        (msg.value.get? "role").bind Json.asStr = some "tool" ∧
        field msg.value "model" (fun model => model.asStr.any isModelIdentifier) = true ∧
        field msg.value "fast_mode" (fun mode => mode.asBool.isSome) = true ∧
        field msg.value "occurred_at" (fun time =>
          time.asStr.isSome || (time.asNumber.bind Number.asI64).isSome) = true ∧
        field msg.value "native_order" (fun order => order.asStr.isSome) = true := by
  unfold validateEnvelope
  have hrole : role? "tool_result" = some "tool" := rfl
  have hkind : ("tool_result" == "tool_result") = true := rfl
  simp only [Except.bind_ok_iff, closed_ok_iff, refuse_ok_iff, exists_const, Bool.not_eq_false',
    requiredText_ok_iff, hrole, hkind, Bool.true_and, bne_eq_false_iff_eq]
  constructor
  · rintro ⟨hclosed, _, hid, rfl, _, hname, rfl, source, hsource, hrest⟩
    exact ⟨hclosed, hid, hname, Option.isSome_iff_exists.mpr ⟨source, hsource⟩, hrest⟩
  · rintro ⟨hclosed, hid, hname, hsource, hrest⟩
    obtain ⟨source, hsource⟩ := Option.isSome_iff_exists.mp hsource
    exact ⟨hclosed, _, hid, rfl, _, hname, rfl, source, hsource, hrest⟩

lemma validatePublicMessage_ok_iff [Platform] {msg : Message} :
    validatePublicMessage msg "tool_result" = .ok () ↔
      (measureJson msg.value PUBLIC_LIMITS).isOk = true ∧
        validateEnvelope msg "tool_result" = .ok () ∧
        (∀ quality ∈ msg.value.get? "quality", validateQuality quality = .ok ()) ∧
        msg.value.get? "content" = none ∧
        ∃ tool ∈ msg.value.get? "tool", validateTool tool "tool_result" = .ok () := by
  have htool : ("tool_result" == "user_message" || "tool_result" == "assistant_message") = false :=
    rfl
  have hunit : ∀ {p : Except SourceError Unit} {q : Prop},
      (∃ checked, p = .ok checked ∧ q) ↔ p = .ok () ∧ q := fun {p q} => by
    constructor
    · rintro ⟨_, hp, hq⟩
      exact ⟨hp, hq⟩
    · rintro ⟨hp, hq⟩
      exact ⟨(), hp, hq⟩
  unfold validatePublicMessage
  simp only [Except.bind_ok_iff, refuse_ok_iff, exists_const, Bool.not_eq_false', hunit,
    checkSome_ok_iff, htool, Bool.false_eq_true, if_false, checkThere_ok_iff,
    Option.isSome_eq_false_iff, Option.isNone_iff_eq_none]

end PublicMessage

end Antiburn
