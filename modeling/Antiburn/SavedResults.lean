/-
Saved results: reading them, checking their shape, binding them to declarations.

Reading is `serde`'s: a struct is an object without unknown fields, or the list
of its fields in their order, and an answer is tagged by its type.  What is read
is no more than data; only the constructors of the results make an assessment
of it.
-/
import Antiburn.Results
import Antiburn.StrictJson

namespace Antiburn

section Saved

variable [Platform]

/-! ### Saved records -/

inductive SavedQuestionResult where
  | choice (output : String) (probabilities : Option (Std.ExtTreeMap String Platform.F64))
      (confidence : Option Platform.F64)
  | score (output : Platform.F64) (probabilities : Option (List Platform.F64))
      (confidence : Option Platform.F64)
  | noul (output : Platform.F64)

structure SavedAnswer where
  name : String
  result : SavedQuestionResult

structure SavedDecision where
  decision : String
  answers : List SavedAnswer
  attempts : Nat

structure SavedAssessment where
  version : Nat
  decisions : List SavedDecision
  attempts : Nat

/-! ### Reading -/

omit [Platform] in
def structFields (names : List String) : Json → Option (List Json)
  | .object entries =>
    if entries.all fun entry => names.contains entry.1 then names.mapM (Object.get? entries) else none
  | .array items => if items.length = names.length then some items else none
  | _ => none

omit [Platform] in
def taggedContent : Json → Option (String × Json)
  | .object entries =>
    match Object.get? entries "type" with
    | some (.string tag) => some (tag, .object (Object.remove entries "type"))
    | _ => none
  | .array (.string tag :: rest) => some (tag, .array rest)
  | _ => none

omit [Platform] in
def variantFields (names : List String) : Json → Option (List (Option Json))
  | .object entries =>
    if entries.all fun entry => names.contains entry.1 then some (names.map (Object.get? entries)) else none
  | .array items =>
    if items.length ≤ names.length then
      some (items.map some ++ List.replicate (names.length - items.length) none)
    else none
  | _ => none

omit [Platform] in
def readUnsigned (bound : Nat) : Json → Option Nat
  | .number number => number.asU64.filter (· < bound)
  | _ => none

/-- `f64` of a number; `readFloat` is the conversion. -/
def readF64 (readFloat : Number → Platform.F64) : Json → Option Platform.F64
  | .number number => some (readFloat number)
  | _ => none

omit [Platform] in
/-- A field that is left out or present, but not null. -/
def present {α : Type} (read : Json → Option α) : Option Json → Option (Option α)
  | none => some none
  | some json => (read json).map some

def readLabelled (readFloat : Number → Platform.F64) :
    Json → Option (Std.ExtTreeMap String Platform.F64)
  | .object entries => do
    let pairs ← entries.mapM fun entry => (readF64 readFloat entry.2).map (entry.1, ·)
    return .ofList pairs
  | _ => none

/-- Probabilities in order. -/
def readList (readFloat : Number → Platform.F64) : Json → Option (List Platform.F64)
  | .array items => items.mapM (readF64 readFloat)
  | _ => none

def SavedQuestionResult.fromValue (readFloat : Number → Platform.F64) (json : Json) :
    Option SavedQuestionResult := do
  let (tag, content) ← taggedContent json
  match tag with
  | "choice" =>
    match ← variantFields ["output", "probabilities", "confidence"] content with
    | [some output, probabilities, confidence] => do
      let output ← output.asStr
      let probabilities ← present (readLabelled readFloat) probabilities
      let confidence ← present (readF64 readFloat) confidence
      return .choice output probabilities confidence
    | _ => none
  | "score" =>
    match ← variantFields ["output", "probabilities", "confidence"] content with
    | [some output, probabilities, confidence] => do
      let output ← readF64 readFloat output
      let probabilities ← present (readList readFloat) probabilities
      let confidence ← present (readF64 readFloat) confidence
      return .score output probabilities confidence
    | _ => none
  | "noul" =>
    match ← variantFields ["output"] content with
    | [some output] => (readF64 readFloat output).map .noul
    | _ => none
  | _ => none

def SavedAnswer.fromValue (readFloat : Number → Platform.F64) (json : Json) :
    Option SavedAnswer := do
  match ← structFields ["name", "result"] json with
  | [name, result] => do
    let name ← name.asStr
    let result ← SavedQuestionResult.fromValue readFloat result
    return ⟨name, result⟩
  | _ => none

def SavedDecision.fromValue (readFloat : Number → Platform.F64) (json : Json) :
    Option SavedDecision := do
  match ← structFields ["decision", "answers", "attempts"] json with
  | [decision, answers, attempts] => do
    let decision ← decision.asStr
    let answers ← answers.asArray
    let answers ← answers.mapM (SavedAnswer.fromValue readFloat)
    let attempts ← readUnsigned (2 ^ 8) attempts
    return ⟨decision, answers, attempts⟩
  | _ => none

def SavedAssessment.fromValue (readFloat : Number → Platform.F64) (json : Json) :
    Option SavedAssessment := do
  match ← structFields ["version", "decisions", "attempts"] json with
  | [version, decisions, attempts] => do
    let version ← readUnsigned (2 ^ 8) version
    let decisions ← decisions.asArray
    let decisions ← decisions.mapM (SavedDecision.fromValue readFloat)
    let attempts ← readUnsigned (2 ^ 64) attempts
    return ⟨version, decisions, attempts⟩
  | _ => none

/-! ### Shape -/

def SavedQuestionResult.validateShape : SavedQuestionResult → Except ResultError Unit
  | choice output probabilities confidence => do
    if !isIdentifier output then
      throw ⟨"Choice output must be a declared label identifier."⟩
    match probabilities with
    | some probabilities =>
      if probabilities.size < 2 || !probabilities.contains output ||
          probabilities.keys.any fun label => !isIdentifier label then
        throw ⟨"Saved Choice probabilities have invalid labels."⟩
      validateDistribution (probabilities.toList.map Prod.snd)
    | none => pure ()
    validateConfidence confidence
  | score output probabilities confidence => do
    if !Platform.isFinite output || !Platform.f64Le (Platform.f64OfDecimal "0") output then
      throw ⟨"Saved Score output must be finite and nonnegative."⟩
    match probabilities with
    | some probabilities =>
      -- the output is finite, so that it is above the last place where it is not at most it
      if probabilities.length < 2 ||
          !Platform.f64Le output (Platform.f64OfDecimal (toString (probabilities.length - 1))) then
        throw ⟨"Saved Score output or distribution length is invalid."⟩
      validateDistribution probabilities
    | none => pure ()
    validateConfidence confidence
  | noul output => validateProbability output

def SavedDecision.validateShape (saved : SavedDecision) : Except ResultError Unit := do
  if !isIdentifier saved.decision || (saved.attempts != 1 && saved.attempts != 2) ||
      saved.answers.isEmpty || MAX_QUESTIONS_PER_DECISION < saved.answers.length then
    throw ⟨"Saved decision name, attempts, or answer count is invalid."⟩
  forUnique SavedAnswer.name ⟨"Saved answer names must be valid and unique."⟩
    (fun answer => if isIdentifier answer.name then .ok ()
      else .error ⟨"Saved answer names must be valid and unique."⟩)
    (fun answer => answer.result.validateShape) [] saved.answers

def checkDecision (state : List String × Nat) (decision : SavedDecision) :
    Except ResultError (List String × Nat) := do
  if decision.decision ∈ state.1 then throw ⟨"Saved decision results must be unique."⟩
  decision.validateShape
  if 2 ^ 64 ≤ state.2 + decision.attempts then throw ⟨"Saved attempt total overflowed."⟩
  return (decision.decision :: state.1, state.2 + decision.attempts)

structure DecodedAssessment where
  saved : SavedAssessment

/-- `refusal` is the text of `serde_json`'s error. -/
def decodeResults (document : ByteArray → JsonDocument) (readFloat : Number → Platform.F64)
    (refusal : Json → String) (bytes : ByteArray) : Except ResultError DecodedAssessment := do
  let value ← orSizeError (decodeStrictJson document bytes RESULT_LIMITS)
  match SavedAssessment.fromValue readFloat value with
  | none => throw ⟨refusal value⟩
  | some saved => do
    if saved.version ≠ RESULT_VERSION then
      throw ⟨"Saved result version is unsupported."⟩
    let (_, attempts) ← saved.decisions.foldlM checkDecision ([], 0)
    if attempts ≠ saved.attempts then
      throw ⟨"Saved assessment attempt total does not match its decision results."⟩
    return ⟨saved⟩

/-! ### Binding -/

def ChoiceResult.new (question : Question) (output : String)
    (probabilities : Option (Std.ExtTreeMap String Platform.F64))
    (confidence : Option Platform.F64) : Except ResultError ChoiceResult := do
  let result : ChoiceResult := ⟨output, probabilities, confidence⟩
  result.validate question
  return result

def ScoreResult.new (question : Question) (output : Platform.F64)
    (probabilities : Option (List Platform.F64)) (confidence : Option Platform.F64) :
    Except ResultError ScoreResult := do
  let result : ScoreResult := ⟨output, probabilities, confidence⟩
  result.validate question
  return result

def NoulResult.new (output : Platform.F64) : Except ResultError NoulResult := do
  validateProbability output
  return ⟨output⟩

def NamedAnswer.new (name : String) (result : QuestionResult) : Except ResultError NamedAnswer :=
  if isIdentifier name then .ok ⟨name, result⟩
  else .error ⟨"Answer name must be a valid identifier."⟩

/-- Place of a question among the declared ones; every answer has one once it validates. -/
def questionIndex (declaration : DecisionBlock) (name : String) : Nat :=
  declaration.outputs.findIdx fun output => output.name == name

def DecisionResult.new (declaration : DecisionBlock) (requirements : List QuestionRequirements)
    (answers : List NamedAnswer) (attempts : Nat) : Except ResultError DecisionResult := do
  validateAnswers declaration requirements answers attempts
  let ordered := answers.mergeSort fun a b =>
    questionIndex declaration a.name ≤ questionIndex declaration b.name
  let result : DecisionResult := ⟨declaration.name, ordered, attempts⟩
  discard (measureDecisionResultsWithNext [] result)
  return result

def SavedQuestionResult.bind (saved : SavedQuestionResult) (question : Question) :
    Except ResultError QuestionResult :=
  match saved with
  | choice output probabilities confidence =>
    (ChoiceResult.new question output probabilities confidence).map .choice
  | score output probabilities confidence =>
    (ScoreResult.new question output probabilities confidence).map .score
  | noul output =>
    match question with
    | .noul _ => (NoulResult.new output).map .noul
    | _ => .error ⟨"Noul result requires a Noul declaration."⟩

def SavedAnswer.bind (declaration : DecisionBlock) (answer : SavedAnswer) :
    Except ResultError NamedAnswer := do
  match declaration.outputs.find? fun question => question.name == answer.name with
  | none => throw ⟨"Saved answer contains an undeclared question."⟩
  | some question => do
    let result ← answer.result.bind question.question
    NamedAnswer.new answer.name result

def SavedDecision.bind (saved : SavedDecision) (declaration : DecisionBlock)
    (requirements : List QuestionRequirements) : Except ResultError DecisionResult := do
  if saved.decision ≠ declaration.name then
    throw ⟨"Saved result does not match the declared decision."⟩
  if saved.answers.length ≠ declaration.outputs.length then
    throw ⟨"Saved answers must match the exact declared question set."⟩
  let answers ← saved.answers.mapM (SavedAnswer.bind declaration)
  DecisionResult.new declaration requirements answers saved.attempts

def SavedDecision.bindDeclared (declarations : List DecisionBlock)
    (requirements : List QuestionRequirements) (saved : SavedDecision) :
    Except ResultError DecisionResult :=
  match declarations.find? fun declaration => declaration.name == saved.decision with
  | none => .error ⟨"Saved results contain an undeclared decision."⟩
  | some declaration => saved.bind declaration requirements

def DecodedAssessment.validateForDeclarations (decoded : DecodedAssessment)
    (declarations : List DecisionBlock) (requirements : List QuestionRequirements) :
    Except ResultError EvaluatedAssessment := do
  orResultError (validateRequirements declarations requirements)
  if decoded.saved.decisions.length ≠ declarations.length then
    throw ⟨"Saved results must match the exact declared decision set."⟩
  let decisions ← decoded.saved.decisions.mapM (SavedDecision.bindDeclared declarations requirements)
  let result ← EvaluatedAssessment.new declarations requirements decisions
  if result.attempts ≠ decoded.saved.attempts then
    throw ⟨"Saved assessment attempt total does not match its decision results."⟩
  return result

/-! ### Complete assessments -/

def EvaluatedAssessment.json (results : EvaluatedAssessment) : Json :=
  .object [("version", .number (.ofNat results.version)),
    ("decisions", .array (results.decisions.map DecisionResult.json)),
    ("attempts", .number (.ofNat results.attempts))]

end Saved

end Antiburn
