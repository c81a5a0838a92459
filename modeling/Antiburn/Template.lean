/-
Preparation of decision inputs from a frozen context.

The aliases of enclosing maps are bindings, latest first.  The source inserts an
alias before the body of a map and removes it afterwards; no alias shadows
another one or a root, so passing the longer list to the body is the same.
-/
import Antiburn.Condition

namespace Antiburn

open EvalM

namespace EvaluatedValue

/-- An authored or generated value without source evidence. -/
def available (value : Json) : EvalM EvaluatedValue := do
  let runtime ← RuntimeValue.ofOwned value {}
  return ⟨some value, {}, runtime.metadata⟩

def unavailable (trace : EvaluationTrace) : EvaluatedValue := ⟨none, trace, .derived trace⟩

/-- A value with the trace of its parts; `none` is unavailable evidence. -/
def withTrace (value : Option Json) (trace : EvaluationTrace) : EvalM EvaluatedValue := do
  match value with
  | some json =>
    let value ← available json
    return { value with trace }
  | none => return ⟨none, trace, {}⟩

/-- Membership evidence, without the fields of every item. -/
def membershipTrace (value : EvaluatedValue) : EvaluationTrace := value.metadata.membershipTrace

/-- Selects an item for a map alias and charges its iteration visit. -/
def arrayItem (value : EvaluatedValue) (index : Nat) : EvalM EvaluatedValue := do
  visitItems 1
  match value.value with
  | some (.array items) =>
    match items[index]? with
    | none => return unavailable value.membershipTrace
    | some item =>
      let child := value.metadata.child (.index index)
      let metadata := { child with
        dependencies := child.dependencies.merge value.membershipTrace }
      let item ← copyValue item 1
      return ⟨some item, metadata.trace, metadata⟩
  | _ => return unavailable value.membershipTrace

/-- Keeps the dependencies of a part of generated text. -/
def mergeTextProvenance (value source : EvaluatedValue) : EvaluatedValue where
  value := value.value
  trace := value.trace.merge source.trace
  metadata := { value.metadata with
    dependencies := value.metadata.dependencies.merge source.trace
    textSources := value.metadata.textSources.merge source.metadata.textSourceTrace
    encodedProvenance := none }

end EvaluatedValue

inductive MapItem where
  | excluded
  | value (value : Json)
  | unavailable

def InputLiteral.json : InputLiteral → Json
  | null => .null
  | boolean value => .bool value
  | number value => .number value
  | string value => .string value

def InputLiteral.reservation : InputLiteral → Nat
  | string text => text.utf8ByteSize
  | null => 4
  | boolean _ => 5
  | number _ => 32

section Template

variable [Platform]

def evaluateMember (expression : Expression) (context : Json) (bindings : EvaluationBindings)
    (depth : Nat) : EvalM EvaluatedValue := do
  let value ← evaluateExpressionWithBudget expression context bindings depth
  return enforceSelectedMembership value context

/-- Parts of an embedded text; `prepared` keeps what the parts read. -/
def prepareTextParts (context : Json) (bindings : EvaluationBindings) (depth : Nat) :
    List TemplatePart → (text : String) → (prepared : EvaluatedValue) → EvalM EvaluatedValue
  | [], text, prepared => pure { prepared with value := some (.string text) }
  | .literal literal :: rest, text, prepared => do
    step (depth + 1)
    reserveGeneratedBytes literal.utf8ByteSize
    prepareTextParts context bindings depth rest (text ++ literal) prepared
  | .expression expression :: rest, text, prepared => do
    step (depth + 1)
    let evaluated ← evaluateMember expression context bindings (depth + 1)
    let prepared := prepared.mergeTextProvenance evaluated
    match evaluated.value with
    | some value =>
      let part ← scalarText value
      prepareTextParts context bindings depth rest (text ++ part) prepared
    | none => return { prepared with value := none }

def prepareText (parts : List TemplatePart) (context : Json) (bindings : EvaluationBindings)
    (depth : Nat) : EvalM EvaluatedValue := do
  let prepared ← EvaluatedValue.available .null
  prepareTextParts context bindings depth parts "" prepared

/-- Items of a map from `index` on.  `prepareItem` prepares the value of one
item under its alias; `trace` and `values` are what the earlier ones left. -/
def prepareMapItems (prepareItem : EvaluatedValue → EvaluationTrace → EvalM (MapItem × EvaluationTrace))
    (collection : EvaluatedValue) (itemAlias : String) :
    (count index : Nat) → EvaluationTrace → List Json → EvalM EvaluatedValue
  | 0, _, trace, values => EvaluatedValue.withTrace (some (.array values)) trace
  | count + 1, index, trace, values => do
    let item ← collection.arrayItem index
    reserveGeneratedBytes itemAlias.utf8ByteSize
    match ← prepareItem item trace with
    | (.excluded, trace) =>
      prepareMapItems prepareItem collection itemAlias count (index + 1) trace values
    | (.value value, trace) =>
      reserveGeneratedBytes 1
      prepareMapItems prepareItem collection itemAlias count (index + 1) trace (values ++ [value])
    | (.unavailable, trace) => EvaluatedValue.withTrace none trace

/-- The filter of a map on one item: `none` when the value is to be prepared. -/
def mapCondition (condition : Option Condition) (context : Json) (bindings : EvaluationBindings)
    (depth : Nat) (trace : EvaluationTrace) : EvalM (Option MapItem × EvaluationTrace) :=
  match condition with
  | none => pure (none, trace)
  | some condition => do
    let evaluated ← evaluateCondition condition context bindings depth
    let trace := trace.merge evaluated.trace
    match evaluated.value with
    | none => return (some .unavailable, trace)
    | some value => return (if isTruthy value then none else some .excluded, trace)

mutual

def prepareTemplate (context : Json) :
    InputTemplate → EvaluationBindings → (depth : Nat) → EvalM EvaluatedValue
  | .literal literal, _, depth => do
    step depth
    reserveGeneratedBytes literal.reservation
    EvaluatedValue.available literal.json
  | .expression expression, bindings, depth => do
    step depth
    evaluateMember expression context bindings depth
  | .text parts, bindings, depth => do
    step depth
    prepareText parts context bindings depth
  | .sequence items, bindings, depth => do
    step depth
    visitItems items.length
    reserveGeneratedBytes (items.length + 2)
    prepareSequence context items bindings (depth + 1) {} []
  | .object items, bindings, depth => do
    step depth
    -- `prepare_object` charges its own step
    step depth
    visitItems items.length
    reserveGeneratedBytes 2
    prepareObject context items bindings (depth + 1) {} []
  | .map collection itemAlias condition template, bindings, depth => do
    step depth
    let collection ← evaluateExpressionWithBudget collection context bindings (depth + 1)
    match collection.value with
    | none => return collection
    | some (.array items) =>
      reserveGeneratedBytes 2
      let trace := collection.membershipTrace
      if !selectedMembershipIsAvailable trace context then EvaluatedValue.withTrace none trace
      else
        prepareMapItems
          (fun item trace => do
            let bindings := (itemAlias, item) :: bindings
            match ← mapCondition condition context bindings (depth + 1) trace with
            | (some item, trace) => return (item, trace)
            | (none, trace) =>
              let evaluated ← prepareTemplate context template bindings (depth + 1)
              let trace := trace.merge evaluated.trace
              match evaluated.value with
              | some value => return (.value value, trace)
              | none => return (.unavailable, trace))
          collection itemAlias items.length 0 trace []
    | some _ => Ledger.fail (invalidError "Map collection must be an array.")

def prepareSequence (context : Json) :
    List InputTemplate → EvaluationBindings → (depth : Nat) → EvaluationTrace → List Json →
      EvalM EvaluatedValue
  | [], _, _, trace, values => EvaluatedValue.withTrace (some (.array values)) trace
  | item :: rest, bindings, depth, trace, values => do
    let evaluated ← prepareTemplate context item bindings depth
    let trace := trace.merge evaluated.trace
    match evaluated.value with
    | some value => prepareSequence context rest bindings depth trace (values ++ [value])
    | none => EvaluatedValue.withTrace none trace

/-- Entries of an object; the first unavailable one stops it. -/
def prepareObject (context : Json) :
    List (String × InputTemplate) → EvaluationBindings → (depth : Nat) → EvaluationTrace →
      Object → EvalM EvaluatedValue
  | [], _, _, trace, values => EvaluatedValue.withTrace (some (.object values)) trace
  | (key, item) :: rest, bindings, depth, trace, values => do
    reserveGeneratedBytes (key.utf8ByteSize + 4)
    let evaluated ← prepareTemplate context item bindings depth
    let trace := trace.merge evaluated.trace
    match evaluated.value with
    | some value => prepareObject context rest bindings depth trace (Object.insert values key value)
    | none => EvaluatedValue.withTrace none trace

end

def evaluateDecisionInputWithBudget (decision : DecisionBlock) (context : Json) :
    EvalM EvaluatedValue := do
  let value ← prepareTemplate context decision.input [] 1
  return enforceSelectedMembership value context

inductive PreparationOutcome where
  | ready (input : Json)
  | unavailable (detail : String)
  | failed (detail : String)
  | resourceLimit (detail : String)

def prepareDecisionInputWithBudget (decision : DecisionBlock) (context : Json)
    (state : EvalState) : PreparationOutcome × EvalState :=
  match (evaluateDecisionInputWithBudget decision context).run state with
  | (.ok ⟨some value, _, _⟩, state) => (.ready value, state)
  | (.ok ⟨none, _, _⟩, state) =>
    (.unavailable "Decision input depends on unavailable evidence.", state)
  | (.error error, state) =>
    if error.code = .evaluationLimitExceeded ∨ state.budget.exhausted then
      (.resourceLimit error.message, state)
    else (.failed error.message, state)

end Template

end Antiburn
