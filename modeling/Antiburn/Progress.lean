/-
Saved decision progress: the rows of attempts, their validation and the loop
that writes them.

`validateDecisionProgress` replays an unordered set of rows against the
declarations.  `History` says what the rows of a check can have come to: every
decision before the current one answered, in declared order, each after at most
one safe retry.  `modelLoop` is the machine of the evaluation loop, which asks
the validator for the next attempt and appends one row for it.
-/
import Antiburn.Checkpoint
import Antiburn.Lib.Machine
import Antiburn.Results

namespace Antiburn

/-! ### Keys -/

namespace DecisionAttempt

instance : Ord DecisionAttempt where
  compare := compareLex (compareOn decision) (compareOn number)

instance : Std.TransOrd DecisionAttempt :=
  inferInstanceAs (Std.TransCmp (compareLex (compareOn decision) (compareOn number)))

instance : Std.LawfulEqOrd DecisionAttempt where
  compare_self := by
    intro a
    exact Ordering.then_eq_eq.mpr ⟨Std.ReflOrd.compare_self, Std.ReflOrd.compare_self⟩
  eq_of_compare := by
    intro a b h
    simp only [compare, compareLex, compareOn, Ordering.then_eq_eq] at h
    obtain ⟨decision, number⟩ := a
    obtain ⟨decision', number'⟩ := b
    rw [DecisionAttempt.mk.injEq]
    exact ⟨Std.LawfulEqOrd.eq_of_compare h.1, Std.LawfulEqOrd.eq_of_compare h.2⟩

end DecisionAttempt

section Progress

variable [Platform]

/-! ### Rows -/

inductive DecisionAttemptOutcome where
  | dispatchIntent
  | safeTransient
  | unknown
  | permanent
  | answer (result : DecisionResult)

structure SavedDecisionAttempt where
  attempt : DecisionAttempt
  outcome : DecisionAttemptOutcome

inductive DecisionProgressTerminal where
  | unresolvedIntent
  | unknown
  | permanent
  | attemptsExhausted
  deriving DecidableEq

inductive DecisionProgressState where
  | next (attempt : DecisionAttempt) (unfinishedDecisions : Nat)
  | complete (evaluated : EvaluatedAssessment)
  | terminal (terminal : DecisionProgressTerminal)

structure ValidatedDecisionProgress where
  attempts : Nat
  state : DecisionProgressState

def DecisionAttemptOutcome.answer? : DecisionAttemptOutcome → Option DecisionResult
  | answer result => some result
  | _ => none

def savedAnswers (rows : List SavedDecisionAttempt) : List DecisionResult :=
  rows.filterMap fun row => row.outcome.answer?

/-! ### Validation -/

def invalidProgress : StoreError := ⟨"invalid saved decision progress"⟩

def orInvalidProgress {ε α : Type} (result : Except ε α) : Except StoreError α :=
  result.mapError fun _ => invalidProgress

abbrev ProgressRows := Std.ExtTreeMap DecisionAttempt DecisionAttemptOutcome

def insertRows (declarations : List DecisionBlock) :
    ProgressRows → List SavedDecisionAttempt → Except StoreError ProgressRows
  | rows, [] => .ok rows
  | rows, row :: rest => do
    orInvalidProgress row.attempt.validate
    if !declarations.any (fun block => block.name == row.attempt.decision) ||
        rows.contains row.attempt then
      throw invalidProgress
    insertRows declarations (rows.insert row.attempt row.outcome) rest

def currentAttempt : Option DecisionAttemptOutcome → Option DecisionAttemptOutcome →
    Option (Nat × Option DecisionAttemptOutcome)
  | none, none => some (1, none)
  | none, some _ => none
  | some .safeTransient, second => some (2, second)
  | some first, none => some (1, some first)
  | some _, some _ => none

/-- The rows left, the answers so far and the state, once it is known. -/
structure ProgressWalk where
  rows : ProgressRows
  answers : List DecisionResult
  state : Option DecisionProgressState

def readDecision (requirements : List QuestionRequirements) (unfinishedDecisions : Nat)
    (block : DecisionBlock) (walk : ProgressWalk) (number : Nat) :
    Option DecisionAttemptOutcome → Except StoreError ProgressWalk
  | some (.answer answer) => do
    orInvalidProgress (answer.validateForDeclaration block requirements)
    if answer.attempts ≠ number then throw invalidProgress
    return { walk with answers := walk.answers ++ [answer] }
  | some .dispatchIntent => .ok { walk with state := some (.terminal .unresolvedIntent) }
  | some .unknown => .ok { walk with state := some (.terminal .unknown) }
  | some .permanent => .ok { walk with state := some (.terminal .permanent) }
  | some .safeTransient => .ok { walk with state := some (.terminal .attemptsExhausted) }
  | none => do
    let attempt ← orInvalidProgress (DecisionAttempt.new block.name number)
    return { walk with state := some (.next attempt unfinishedDecisions) }

/-- Takes the rows of one decision.  Nothing may follow an unanswered decision. -/
def walkDecision (requirements : List QuestionRequirements) (unfinishedDecisions : Nat)
    (block : DecisionBlock) (walk : ProgressWalk) : Except StoreError ProgressWalk := do
  let first := walk.rows[(⟨block.name, 1⟩ : DecisionAttempt)]?
  let rows := walk.rows.erase ⟨block.name, 1⟩
  let second := rows[(⟨block.name, 2⟩ : DecisionAttempt)]?
  let rows := rows.erase ⟨block.name, 2⟩
  if walk.state.isSome then
    if first.isSome || second.isSome then throw invalidProgress
    return { walk with rows }
  match currentAttempt first second with
  | none => throw invalidProgress
  | some (number, outcome) =>
    readDecision requirements unfinishedDecisions block { walk with rows } number outcome

def walkDecisions (requirements : List QuestionRequirements) :
    List DecisionBlock → ProgressWalk → Except StoreError ProgressWalk
  | [], walk => .ok walk
  | block :: rest, walk => do
    let walk ← walkDecision requirements (rest.length + 1) block walk
    walkDecisions requirements rest walk

/-- Binds exact durable rows to authored order and required answer details. -/
def validateDecisionProgress (declarations : List DecisionBlock)
    (requirements : List QuestionRequirements) (progress : List SavedDecisionAttempt) :
    Except StoreError ValidatedDecisionProgress := do
  orInvalidProgress (validateRequirements declarations requirements)
  let rows ← insertRows declarations ∅ progress
  let attempts := rows.size
  let walk ← walkDecisions requirements declarations ⟨rows, [], none⟩
  if !walk.rows.isEmpty then throw invalidProgress
  discard (orInvalidProgress (measureJson (resultDocument walk.answers attempts) RESULT_LIMITS))
  match walk.state with
  | some state => return ⟨attempts, state⟩
  | none => do
    let evaluated ← orInvalidProgress
      (EvaluatedAssessment.new declarations requirements walk.answers)
    if evaluated.attempts ≠ attempts then throw invalidProgress
    return ⟨attempts, .complete evaluated⟩

/-! ### The evaluation loop -/

inductive AttemptFailure where
  | safeTransient | unknown | permanent
  deriving DecidableEq

inductive EvaluationFailureCode where
  | authenticationRejected | rateLimited | providerOverloaded | providerUnavailable
  | deliveryUnknown | invalidResponse | contextRejected | invalidRequest | cancelled
  | storageFailure | invalidDecision | actionFailed
  deriving DecidableEq

structure EvaluationFailure where
  code : EvaluationFailureCode
  kind : AttemptFailure
  detail : String
  attempts : Nat

structure EvaluationDiagnostic where
  code : EvaluationFailureCode
  detail : String
  deriving DecidableEq

def validateAnswer (declarations : List DecisionBlock) (requirements : List QuestionRequirements)
    (attempt : DecisionAttempt) (answer : DecisionResult) (progress : List SavedDecisionAttempt) :
    Except EvaluationFailure DecisionResult := do
  let invalid (detail : String) : EvaluationFailure :=
    ⟨.invalidDecision, .permanent, detail, attempt.number⟩
  match declarations.find? fun block => block.name == attempt.decision with
  -- the source panics here; the attempt comes from progress that validated
  | none => throw (invalid "validated progress names a declared decision")
  | some block =>
    (answer.validateForDeclaration block requirements).mapError fun error => invalid error.message
    if answer.attempts ≠ attempt.number then
      throw (invalid "The answer attempt count does not match its durable intent.")
    discard ((measureDecisionResultsWithNext (savedAnswers progress) answer).mapError
      fun error => invalid error.message)
    return answer

def AttemptFailure.outcome : AttemptFailure → DecisionAttemptOutcome
  | safeTransient => .safeTransient
  | unknown => .unknown
  | permanent => .permanent

def settleDecisionAttempt (declarations : List DecisionBlock)
    (requirements : List QuestionRequirements) (attempt : DecisionAttempt)
    (evaluated : Except EvaluationFailure DecisionResult) (progress : List SavedDecisionAttempt) :
    DecisionAttemptOutcome × Option (AttemptFailure × EvaluationDiagnostic) :=
  match evaluated.bind fun answer =>
    validateAnswer declarations requirements attempt answer progress with
  | .ok answer => (.answer answer, none)
  | .error failure => (failure.kind.outcome, some (failure.kind, ⟨failure.code, failure.detail⟩))

/-- How an attempt ends: the task is gone before it settles, or the evaluator
returned. -/
inductive AttemptEnd where
  | unsettled
  | returned (evaluated : Except EvaluationFailure DecisionResult)

def AttemptEnd.outcome (declarations : List DecisionBlock)
    (requirements : List QuestionRequirements) (attempt : DecisionAttempt)
    (progress : List SavedDecisionAttempt) : AttemptEnd → DecisionAttemptOutcome
  | unsettled => .dispatchIntent
  | returned evaluated =>
    (settleDecisionAttempt declarations requirements attempt evaluated progress).1

/-- The rows of a candidate and the attempts the loop has counted. -/
structure ModelLoop where
  progress : List SavedDecisionAttempt := []
  attempts : Nat := 0

inductive ModelTurn where
  | stopped (state : DecisionProgressState)
  | wrote (loop : ModelLoop)

def ModelLoop.turn (declarations : List DecisionBlock) (requirements : List QuestionRequirements)
    (loop : ModelLoop) (ending : AttemptEnd) : Except StoreError ModelTurn := do
  let validated ← validateDecisionProgress declarations requirements loop.progress
  if validated.attempts ≠ loop.attempts then
    throw ⟨"saved attempt count changed during evaluation"⟩
  match validated.state with
  | .next attempt _ =>
    let outcome := ending.outcome declarations requirements attempt loop.progress
    return .wrote ⟨loop.progress ++ [⟨attempt, outcome⟩], loop.attempts + 1⟩
  | state => return .stopped state

def modelLoop (declarations : List DecisionBlock) (requirements : List QuestionRequirements) :
    Machine ModelLoop AttemptEnd where
  step loop ending loop' := loop.turn declarations requirements ending = .ok (.wrote loop')

end Progress

end Antiburn
