/-
Ordered planning of independently gated status actions.

The actions of a check read one context, the frozen one with the decisions of
the assessment under `decisions`.  An ordinary error fails its own action; an
exhausted budget fails the plan.
-/
import Antiburn.Results
import Antiburn.Template

namespace Antiburn

open EvalM

structure ActionPlanningError where
  code : DiagnosticCode
  message : String

inductive ActionOutcomeKind where
  | applied (result : StatusResult) (message : Option String)
  | skippedConditionFalse
  | skippedConditionUnavailable
  | skippedInputUnavailable
  | failed (error : EvaluationError)

structure ActionOutcome where
  index : Nat
  outcome : ActionOutcomeKind

structure ActionPlan where
  currentStatus : Option StatusResult
  outcomes : List ActionOutcome

def invalidActionInput (message : String) : EvaluationError := ⟨.runtimeInvalidContext, message⟩

/-! ### The context of the actions -/

section Context

variable [Platform]

def finiteNumber (value : Platform.F64) : Json := floatJson value

def answerDetails : QuestionResult → Object × Json
  | .choice choice =>
    let details : Object := match choice.probabilities with
      | some probabilities => Object.insert [] "probabilities"
          (.object (Object.extend [] (probabilities.toList.map fun entry =>
            (entry.1, finiteNumber entry.2))))
      | none => []
    let details := match choice.confidence with
      | some confidence => Object.insert details "confidence" (finiteNumber confidence)
      | none => details
    (details, .string choice.output)
  | .score score =>
    let details : Object := match score.probabilities with
      | some probabilities => Object.insert [] "probabilities"
          (.array (probabilities.map finiteNumber))
      | none => []
    let details := match score.confidence with
      | some confidence => Object.insert details "confidence" (finiteNumber confidence)
      | none => details
    (details, finiteNumber score.output)
  | .noul noul => ([], finiteNumber noul.output)

def decisionContext (decision : DecisionResult) : Json :=
  let (details, outputs) := decision.answers.foldl
    (fun (details, outputs) answer =>
      let (answerDetails, output) := answerDetails answer.result
      (Object.insert details answer.name (.object answerDetails),
        Object.insert outputs answer.name output))
    (([] : Object), ([] : Object))
  .object (Object.extend [] [("outputs", .object outputs), ("details", .object details)])

/-- The frozen context with the typed results under `decisions`. -/
def contextWithAssessment (frozenContext : Json) (assessed : EvaluatedAssessment) :
    Except ActionPlanningError Json :=
  match frozenContext.asObject with
  | none => .error ⟨.runtimeInvalidContext, "Frozen expression context must be a JSON object."⟩
  | some context =>
    if (Object.get? context "decisions").isSome then
      .error ⟨.runtimeInvalidContext, "Frozen context must not contain a `decisions` root."⟩
    else if assessed.decisions.isEmpty then .ok (.object context)
    else
      let decisions := assessed.decisions.foldl
        (fun decisions decision =>
          Object.insert decisions decision.decision (decisionContext decision))
        ([] : Object)
      .ok (.object (Object.insert context "decisions" (.object decisions)))

end Context

/-! ### One action -/

/-- A computation with a trace that a failure leaves as it is. -/
def Traced (α : Type) : Type := EvaluationTrace → EvalM (Except EvaluationError α × EvaluationTrace)

namespace Traced

variable {α β : Type}

def pure (a : α) : Traced α := fun trace => Pure.pure (.ok a, trace)

def fail (error : EvaluationError) : Traced α := fun trace => Pure.pure (.error error, trace)

def bind (x : Traced α) (f : α → Traced β) : Traced β := fun trace => do
  match ← x trace with
  | (.ok a, trace) => f a trace
  | (.error error, trace) => return (.error error, trace)

instance : Monad Traced where
  pure := Traced.pure
  bind := Traced.bind

/-- Work on the budget. -/
def ofEval (x : EvalM α) : Traced α := fun trace => do
  return (← attempt x, trace)

/-- `trace.merge`. -/
def merge (other : EvaluationTrace) : Traced Unit := fun trace =>
  Pure.pure (.ok (), trace.merge other)

end Traced

section Action

variable [Platform]

def actionMessage (action : StatusAction) (context : Json) (result : StatusResult) :
    Traced ActionOutcomeKind :=
  match action.message with
  | none => return .applied result none
  | some template => do
    let evaluated ← Traced.ofEval (prepareTemplate context template [] 1)
    Traced.merge evaluated.trace
    match evaluated.value with
    | none => return .skippedInputUnavailable
    | some (.string message) =>
      -- `message.trim().is_empty()`
      if message.toList.all Platform.isWhitespace then
        Traced.fail (invalidActionInput "Status message must be a nonblank string.")
      else return .applied result (some message)
    | some _ => Traced.fail (invalidActionInput "Status message must be a nonblank string.")

def actionResult (action : StatusAction) (context : Json) : Traced ActionOutcomeKind :=
  match action.result with
  | .literal result => actionMessage action context result
  | .expression expression => do
    let evaluated ← Traced.ofEval (evaluateExpressionWithBudget expression context [] 1)
    let evaluated := enforceSelectedMembership evaluated context
    Traced.merge evaluated.trace
    match evaluated.value with
    | none => return .skippedInputUnavailable
    | some (.string "success") => actionMessage action context .success
    | some (.string "failure") => actionMessage action context .failure
    | some _ =>
      Traced.fail (invalidActionInput "Status result must be exactly `success` or `failure`.")

def planAction (action : StatusAction) (context : Json) : Traced ActionOutcomeKind := do
  Traced.ofEval (step 1)
  match action.condition with
  | none => actionResult action context
  | some condition => do
    let evaluated ← Traced.ofEval (evaluateCondition condition context [] 1)
    Traced.merge evaluated.trace
    match evaluated.value with
    | none => return .skippedConditionUnavailable
    | some value =>
      if isTruthy value then actionResult action context else return .skippedConditionFalse

/-! ### The plan -/

/-- The loop over the actions, from `index` on. -/
def planActions (context : Json) : List StatusAction → (index : Nat) → Option StatusResult →
    List ActionOutcome → EvaluationTrace →
      EvalM (Except ActionPlanningError (ActionPlan × EvaluationTrace))
  | [], _, status, outcomes, trace => return .ok (⟨status, outcomes⟩, trace)
  | action :: rest, index, status, outcomes, trace => do
    let (result, trace) ← planAction action context trace
    match result with
    | .ok outcome =>
      let status := match outcome with
        | .applied result _ => some result
        | _ => status
      planActions context rest (index + 1) status (outcomes ++ [⟨index, outcome⟩]) trace
    | .error error =>
      let exhausted ← EvalM.exhausted
      if error.code = .evaluationLimitExceeded ∨ exhausted = true then
        return .error ⟨.evaluationLimitExceeded, error.message⟩
      else
        planActions context rest (index + 1) status (outcomes ++ [⟨index, .failed error⟩]) trace

def planStatusActionsTraced (actions : List StatusAction) (frozenContext : Json)
    (assessed : EvaluatedAssessment) (priorStatus : Option StatusResult) :
    EvalM (Except ActionPlanningError (ActionPlan × EvaluationTrace)) := do
  match ← attempt (step 1) with
  | .error error => return .error ⟨error.code, error.message⟩
  | .ok () =>
    match contextWithAssessment frozenContext assessed with
    | .error error => return .error error
    | .ok context => planActions context actions 0 priorStatus [] {}

end Action

end Antiburn
