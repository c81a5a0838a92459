/-
The pre-selection condition of a check on one frozen context.

Operations that depend on the membership of `session.requests` need the frozen
proof that the request history is complete; without it the value counts as
missing.
-/
import Antiburn.Check

namespace Antiburn

/-- Whether a trace depends on the membership of `session.requests`. -/
def readsRequestsMembership (trace : EvaluationTrace) : Bool :=
  trace.dependencies.any fun dependency =>
    dependency.kind == .membership &&
      dependency.path == [.property "session", .property "requests"]

def requestsComplete (context : Json) : Bool :=
  match (context.get? "session").bind (·.get? "requests_complete") with
  | some (.bool true) => true
  | _ => false

/-- Checks selected collection operations against the frozen history facts. -/
def selectedMembershipIsAvailable (trace : EvaluationTrace) (context : Json) : Bool :=
  !readsRequestsMembership trace || requestsComplete context

def enforceSelectedMembership (value : EvaluatedValue) (context : Json) : EvaluatedValue :=
  if selectedMembershipIsAvailable value.trace context then value else { value with value := none }

/-- An authored or generated scalar without source evidence. -/
def EvaluatedValue.scalar (value : Json) : EvaluatedValue := ⟨some value, {}, {}⟩

variable [Platform]

def evaluateCondition (condition : Condition) (context : Json) (bindings : EvaluationBindings)
    (depth : Nat) : EvalM EvaluatedValue :=
  match condition with
  | .boolean value => do
    EvalM.step depth
    return .scalar (.bool value)
  | .expression expression => do
    let value ← evaluateExpressionWithBudget expression context bindings depth
    return enforceSelectedMembership value context

/-- Result of the pre-selection condition on one trigger context. -/
inductive ConditionOutcome where
  | matched
  | false
  | unavailable
  | failed (message : String)
  deriving DecidableEq

def ConditionOutcome.ofResult : Except EvaluationError EvaluatedValue → ConditionOutcome
  | .ok ⟨some value, _, _⟩ => if isTruthy value then .matched else .false
  | .ok ⟨none, _, _⟩ => .unavailable
  | .error error => .failed error.message

/-- Evaluate the top-level condition before window selection and scheduling. -/
def evaluateTriggerCondition (check : CompiledCheck) (context : Json) : ConditionOutcome :=
  match check.condition with
  | none => .matched
  | some condition => .ofResult ((evaluateCondition condition context [] 1).run .initial).1

end Antiburn
