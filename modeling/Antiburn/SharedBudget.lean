/-
One budget under every preparation and every plan of an assessment.

Preparations and plans walk as the evaluator does: a failed charge is an error
on the spot, and no function turns an error into a value.
-/
import Antiburn.Actions
import Antiburn.EvaluationWalk

namespace Antiburn

open EvalM RuntimeValue

/-- Creates an empty budget with an explicit cumulative JSON copy bound. -/
def EvaluationBudget.newWithMaterializationLimit (limits : EvaluationLimits)
    (maxItems maxGeneratedBytes maxMaterializedBytes : Nat) : EvaluationBudget where
  limits
  maxItems
  maxGeneratedBytes
  maxMaterializedBytes
  steps := 0
  visitedItems := 0
  generatedBytes := 0
  materializedBytes := 0
  exhausted := false

def EvaluationBudget.deserialize (saved : EvaluationBudget) : Except String EvaluationBudget :=
  if saved.limits.maxDepth > DEFAULT_MAX_EVALUATION_DEPTH ∨
      saved.limits.maxSteps > DEFAULT_MAX_EVALUATION_STEPS ∨
      saved.maxItems > DEFAULT_MAX_EVALUATION_ITEMS ∨
      saved.maxGeneratedBytes > DEFAULT_MAX_GENERATED_BYTES ∨
      saved.maxMaterializedBytes > DEFAULT_MAX_MATERIALIZED_BYTES ∨
      saved.steps > saved.limits.maxSteps ∨ saved.visitedItems > saved.maxItems ∨
      saved.generatedBytes > saved.maxGeneratedBytes ∨
      saved.materializedBytes > saved.maxMaterializedBytes then
    .error "Invalid saved evaluation counters."
  else .ok saved

/-- A budget of the program: a new one, one that was read back, or one after a charge. -/
inductive EvaluationBudget.Held : EvaluationBudget → Prop where
  | created (limits : EvaluationLimits) (maxItems maxGeneratedBytes maxMaterializedBytes : Nat) :
    Held (newWithMaterializationLimit limits maxItems maxGeneratedBytes maxMaterializedBytes)
  | restored {saved budget : EvaluationBudget} (h : deserialize saved = .ok budget) : Held budget
  | charged {budget : EvaluationBudget} (h : Held budget) (charge : BudgetCharge) :
    Held (charge.run budget).2

lemma EvaluationBudget.Held.within {budget : EvaluationBudget} (h : budget.Held) :
    budget.Within := by
  induction h with
  | created => exact ⟨Nat.zero_le _, Nat.zero_le _, Nat.zero_le _, Nat.zero_le _⟩
  | restored h =>
    unfold deserialize at h
    split at h
    · cases h
    · rename_i hchecks
      cases h
      exact ⟨by omega, by omega, by omega, by omega⟩
  | charged _ charge ih => exact charge.within ih

/-! ### Walks with no depth limit -/

namespace Walks

lemma available (value : Json) : Walks 0 (EvaluatedValue.available value) :=
  (@ofOwned 0 0 _ _ (.inl rfl)).andThen fun _ => pure trivial

lemma withTrace (value : Option Json) (trace : EvaluationTrace) :
    Walks 0 (EvaluatedValue.withTrace value trace) := by
  cases value with
  | some json => exact (available json).andThen fun _ => pure trivial
  | none => exact pure trivial

lemma arrayItem (value : EvaluatedValue) (index : Nat) : Walks 0 (value.arrayItem index) := by
  refine (visitItems _).andThen fun _ => ?_
  split
  · split
    · exact pure trivial
    · exact (copyValue (.inl rfl)).andThen fun _ => pure trivial
  · exact pure trivial

lemma prepareMapItems
    {prepareItem : EvaluatedValue → EvaluationTrace → EvalM (MapItem × EvaluationTrace)}
    (hitem : ∀ item trace, Walks 0 (prepareItem item trace)) (collection : EvaluatedValue)
    (itemAlias : String) : ∀ (count index : Nat) (trace : EvaluationTrace) (values : List Json),
      Walks 0 (Antiburn.prepareMapItems prepareItem collection itemAlias count index trace values)
  | 0, _, _, _ => withTrace _ _
  | count + 1, index, trace, values => by
    refine (arrayItem _ _).andThen fun item => (reserveGeneratedBytes _).andThen fun _ =>
      (hitem item trace).andThen fun result => ?_
    obtain ⟨item, trace⟩ := result
    cases item with
    | excluded => exact prepareMapItems hitem collection itemAlias count _ _ _
    | value =>
      exact (reserveGeneratedBytes _).andThen fun _ =>
        prepareMapItems hitem collection itemAlias count _ _ _
    | unavailable => exact withTrace _ _

section Preparation

variable [Platform]

lemma evaluateExpression (expression : Expression) (ctx : Json) (bindings : EvaluationBindings)
    (depth : Nat) : Walks 0 (Antiburn.evaluateExpressionWithBudget expression ctx bindings depth) :=
  @evaluateExpressionWithBudget 0 0 _ _ _ _ ⟨.inl rfl, fun _ _ _ _ _ => .inl rfl⟩ expression
    (.inl rfl) (.inl rfl) (.inl rfl)

lemma evaluateCondition (cond : Condition) (ctx : Json)
    (bindings : EvaluationBindings) (depth : Nat) :
    Walks 0 (Antiburn.evaluateCondition cond ctx bindings depth) := by
  cases cond with
  | boolean => exact (step (.inl rfl)).andThen fun _ => pure trivial
  | expression => exact (evaluateExpression _ _ _ _).andThen fun _ => pure trivial

lemma evaluateMember (expression : Expression) (ctx : Json) (bindings : EvaluationBindings)
    (depth : Nat) : Walks 0 (Antiburn.evaluateMember expression ctx bindings depth) :=
  (evaluateExpression _ _ _ _).andThen fun _ => pure trivial

lemma prepareTextParts (ctx : Json) (bindings : EvaluationBindings) (depth : Nat) :
    ∀ (parts : List TemplatePart) (text : String) (prepared : EvaluatedValue),
      Walks 0 (Antiburn.prepareTextParts ctx bindings depth parts text prepared)
  | [], _, _ => pure trivial
  | .literal _ :: rest, _, _ => (step (.inl rfl)).andThen fun _ =>
      (reserveGeneratedBytes _).andThen fun _ => prepareTextParts ctx bindings depth rest _ _
  | .expression expression :: rest, text, prepared => by
    refine (step (.inl rfl)).andThen fun _ => (evaluateMember _ _ _ _).andThen fun evaluated => ?_
    dsimp only
    cases evaluated.value with
    | some value => exact (scalarText _).andThen fun _ =>
        prepareTextParts ctx bindings depth rest _ _
    | none => exact pure trivial

lemma prepareText (parts : List TemplatePart) (ctx : Json) (bindings : EvaluationBindings)
    (depth : Nat) : Walks 0 (Antiburn.prepareText parts ctx bindings depth) :=
  (available _).andThen fun _ => prepareTextParts _ _ _ _ _ _

lemma mapCondition (cond : Option Condition) (ctx : Json)
    (bindings : EvaluationBindings) (depth : Nat) (trace : EvaluationTrace) :
    Walks 0 (Antiburn.mapCondition cond ctx bindings depth trace) := by
  cases cond with
  | none => exact pure trivial
  | some cond =>
    refine (evaluateCondition _ _ _ _).andThen fun evaluated => ?_
    dsimp only
    cases evaluated.value with
    | none | some => exact pure trivial

mutual

/-- **A preparation returns only from charges that all succeeded.** -/
lemma prepareTemplate (ctx : Json) :
    ∀ (template : InputTemplate) (bindings : EvaluationBindings) (depth : Nat),
      Walks 0 (Antiburn.prepareTemplate ctx template bindings depth)
  | .literal _, _, _ => (step (.inl rfl)).andThen fun _ =>
      (reserveGeneratedBytes _).andThen fun _ => available _
  | .expression _, _, _ => (step (.inl rfl)).andThen fun _ => evaluateMember _ _ _ _
  | .text _, _, _ => (step (.inl rfl)).andThen fun _ => prepareText _ _ _ _
  | .sequence items, bindings, depth => (step (.inl rfl)).andThen fun _ =>
      (visitItems _).andThen fun _ => (reserveGeneratedBytes _).andThen fun _ =>
        prepareSequence ctx items bindings (depth + 1) {} []
  | .object items, bindings, depth => (step (.inl rfl)).andThen fun _ =>
      (step (.inl rfl)).andThen fun _ => (visitItems _).andThen fun _ =>
        (reserveGeneratedBytes _).andThen fun _ =>
          prepareObject ctx items bindings (depth + 1) {} []
  | .map collection itemAlias cond template, bindings, depth => by
    refine (step (.inl rfl)).andThen fun _ =>
      (evaluateExpression _ _ _ _).andThen fun evaluated => ?_
    split
    · exact pure trivial
    · refine (reserveGeneratedBytes _).andThen fun _ => ite (fun _ => withTrace _ _) fun _ => ?_
      refine prepareMapItems (fun item trace => ?_) _ _ _ _ _ _
      refine (mapCondition _ _ _ _ _).andThen fun result => ?_
      obtain ⟨decided, trace⟩ := result
      cases decided with
      | some item => exact pure trivial
      | none =>
        refine (prepareTemplate ctx template ((itemAlias, item) :: bindings)
          (depth + 1)).andThen fun prepared => ?_
        dsimp only
        cases prepared.value with
        | some | none => exact pure trivial
    · exact fail (by decide)

lemma prepareSequence (ctx : Json) :
    ∀ (items : List InputTemplate) (bindings : EvaluationBindings) (depth : Nat)
      (trace : EvaluationTrace) (values : List Json),
      Walks 0 (Antiburn.prepareSequence ctx items bindings depth trace values)
  | [], _, _, _, _ => withTrace _ _
  | item :: rest, bindings, depth, trace, values => by
    refine (prepareTemplate ctx item bindings depth).andThen fun evaluated => ?_
    dsimp only
    cases evaluated.value with
    | some value => exact prepareSequence ctx rest bindings depth _ _
    | none => exact withTrace _ _

lemma prepareObject (ctx : Json) :
    ∀ (items : List (String × InputTemplate)) (bindings : EvaluationBindings) (depth : Nat)
      (trace : EvaluationTrace) (values : Object),
      Walks 0 (Antiburn.prepareObject ctx items bindings depth trace values)
  | [], _, _, _, _ => withTrace _ _
  | (key, item) :: rest, bindings, depth, trace, values => by
    refine (reserveGeneratedBytes _).andThen fun _ =>
      (prepareTemplate ctx item bindings depth).andThen fun evaluated => ?_
    dsimp only
    cases evaluated.value with
    | some value => exact prepareObject ctx rest bindings depth _ _
    | none => exact withTrace _ _

end

lemma evaluateDecisionInputWithBudget (decision : DecisionBlock) (ctx : Json) :
    Walks 0 (Antiburn.evaluateDecisionInputWithBudget decision ctx) :=
  (prepareTemplate _ _ _ _).andThen fun _ => pure trivial

end Preparation

end Walks

/-! ### One action -/

def ActionOutcomeKind.Legible [Platform] : ActionOutcomeKind → Prop
  | applied _ message => ∀ text ∈ message, text.toList.all Platform.isWhitespace = false
  | failed error => error.message ≠ ""
  | _ => True

/-- How a traced computation that started in `s` ends.  It never fails itself; it keeps the
counters within their limits, its value is one of `P` and there only when no charge failed, and
its error says what went wrong. -/
inductive Traced.Ends {α : Type} (P : α → Prop) (s : EvalState) :
    Except EvaluationError (Except EvaluationError α × EvaluationTrace) × EvalState → Prop where
  | ok {a : α} {trace : EvaluationTrace} {t : EvalState}
    (inv : s.budget.Within → t.budget.Within)
    (live : s.budget.exhausted = false → t.budget.exhausted = false) (value : P a) :
    Ends P s (.ok (.ok a, trace), t)
  | error {error : EvaluationError} {trace : EvaluationTrace} {t : EvalState}
    (inv : s.budget.Within → t.budget.Within) (speaks : error.message ≠ "") :
    Ends P s (.ok (.error error, trace), t)

lemma Traced.Ends.after {α : Type} {P : α → Prop} {s t : EvalState}
    {ended : Except EvaluationError (Except EvaluationError α × EvaluationTrace) × EvalState}
    (h : Traced.Ends P t ended) (hinv : s.budget.Within → t.budget.Within)
    (hlive : s.budget.exhausted = false → t.budget.exhausted = false) :
    Traced.Ends P s ended := by
  cases h with
  | ok inv live value => exact .ok (inv ∘ hinv) (live ∘ hlive) value
  | error inv speaks => exact .error (inv ∘ hinv) speaks

def Traced.Spends {α : Type} (P : α → Prop) (x : Traced α) : Prop :=
  ∀ trace s, Traced.Ends P s ((x trace).run s)

namespace Traced.Spends

variable {α β : Type} {P : α → Prop} {Q : β → Prop}

lemma pure {a : α} (h : P a) : Traced.Spends P (Pure.pure a : Traced α) :=
  fun _ _ => .ok id id h

lemma fail {error : EvaluationError} (h : error.message ≠ "") :
    Traced.Spends P (Traced.fail error : Traced α) := fun _ _ => .error id h

lemma merge (other : EvaluationTrace) : Traced.Spends (fun _ => True) (Traced.merge other) :=
  fun _ _ => .ok id id trivial

lemma ofEval {x : EvalM α} (hx : Walks 0 x) :
    Traced.Spends (fun _ => True) (Traced.ofEval x) := by
  intro trace s
  have hrun : (Traced.ofEval x trace).run s = (.ok ((x.run s).1, trace), (x.run s).2) := rfl
  rw [hrun]
  cases hresult : (x.run s).1 with
  | ok a => exact .ok (hx.inv s) (fun hs => hx.live s hs a hresult) trivial
  | error e => exact .error (hx.inv s) fun hempty => hx.errors s e hresult (.inl hempty)

lemma bind {x : Traced α} {f : α → Traced β} (hx : Traced.Spends P x)
    (hf : ∀ a, Traced.Spends Q (f a)) : Traced.Spends Q (x >>= f) := by
  intro trace s
  have hx := hx trace s
  rcases hrun : (x trace).run s with ⟨reply, t⟩
  rw [hrun] at hx
  cases hx with
  | @ok a trace' _ inv live _ =>
    have hnext : ((x >>= f) trace).run s = (f a trace').run t := Ledger.run_bind_ok hrun
    rw [hnext]
    exact (hf a trace' t).after inv live
  | @error e trace' _ inv speaks =>
    have hnext : ((x >>= f) trace).run s = (.ok (.error e, trace'), t) := Ledger.run_bind_ok hrun
    rw [hnext]
    exact .error inv speaks

section Actions

variable [Platform]

lemma actionMessage (action : StatusAction) (ctx : Json) (result : StatusResult) :
    Traced.Spends ActionOutcomeKind.Legible (Antiburn.actionMessage action ctx result) := by
  unfold Antiburn.actionMessage
  split
  · exact pure fun text h => by cases h
  · refine (ofEval (Walks.prepareTemplate _ _ _ _)).bind fun evaluated =>
      (merge _).bind fun _ => ?_
    split
    · exact pure trivial
    · rename_i message _
      by_cases hblank : message.toList.all Platform.isWhitespace = true
      · rw [if_pos hblank]
        exact fail (by decide)
      · rw [if_neg hblank]
        refine pure fun text h => ?_
        cases h
        exact Bool.eq_false_iff.mpr hblank
    · exact fail (by decide)

lemma actionResult (action : StatusAction) (ctx : Json) :
    Traced.Spends ActionOutcomeKind.Legible (Antiburn.actionResult action ctx) := by
  unfold Antiburn.actionResult
  split
  · exact actionMessage _ _ _
  · refine (ofEval (Walks.evaluateExpression _ _ _ _)).bind fun evaluated =>
      (merge _).bind fun _ => ?_
    split
    · exact pure trivial
    · exact actionMessage _ _ _
    · exact actionMessage _ _ _
    · exact fail (by decide)

lemma planAction (action : StatusAction) (ctx : Json) :
    Traced.Spends ActionOutcomeKind.Legible (Antiburn.planAction action ctx) := by
  refine (ofEval (Walks.step (.inl rfl))).bind fun _ => ?_
  split
  · exact actionResult _ _
  · refine (ofEval (Walks.evaluateCondition _ _ _ _)).bind fun evaluated =>
      (merge _).bind fun _ => ?_
    split
    · exact pure trivial
    · split
      · exact actionResult _ _
      · exact pure trivial

end Actions

end Traced.Spends

/-! ### The plan -/

section Plan

variable [Platform]

structure PlanSpends (x : EvalM (Except ActionPlanningError (ActionPlan × EvaluationTrace)))
    (s : EvalState) : Prop where
  returns : ∃ result, (x.run s).1 = .ok result
  inv : s.budget.Within → (x.run s).2.budget.Within
  planned : ∀ plan, (x.run s).1 = .ok (.ok plan) → (x.run s).2.budget.exhausted = false
  stopped : (x.run s).2.budget.exhausted = true →
    ∃ message, (x.run s).1 = .ok (.error ⟨.evaluationLimitExceeded, message⟩)

lemma planActions_spends (ctx : Json) : ∀ (actions : List StatusAction) (index : Nat)
    (status : Option StatusResult) (outcomes : List ActionOutcome) (trace : EvaluationTrace)
    (s : EvalState), s.budget.exhausted = false →
    PlanSpends (planActions ctx actions index status outcomes trace) s
  | [], _, _, _, _, s, hs => by
    refine ⟨⟨_, rfl⟩, fun h => h, fun _ _ => hs, fun h => ?_⟩
    exact absurd (hs.symm.trans h) (by decide)
  | action :: rest, index, status, outcomes, trace, s, hs => by
    have haction := Traced.Spends.planAction action ctx trace s
    rcases hrun : (planAction action ctx trace).run s with ⟨reply, s'⟩
    rw [hrun] at haction
    cases haction with
    | @ok outcome trace' _ hinv hlive _ =>
      -- an outcome means that no charge of the action failed, so the loop goes on as it began
      have hs' : s'.budget.exhausted = false := hlive hs
      have hrest := fun status outcomes =>
        planActions_spends ctx rest (index + 1) status outcomes trace' s' hs'
      unfold planActions
      constructor <;> rw [Ledger.run_bind_ok hrun]
      · exact (hrest _ _).returns
      · exact fun h => (hrest _ _).inv (hinv h)
      · exact (hrest _ _).planned
      · exact (hrest _ _).stopped
    | @error error trace' _ hinv _ =>
      have hexh : EvalM.exhausted.run s' = (.ok s'.budget.exhausted, s') := rfl
      unfold planActions
      by_cases hlimit : error.code = .evaluationLimitExceeded ∨ s'.budget.exhausted = true
      · -- the plan is dropped, with the outcomes so far
        constructor <;> rw [Ledger.run_bind_ok hrun] <;> dsimp only <;>
          rw [Ledger.run_bind_ok hexh, if_pos hlimit]
        · exact ⟨_, rfl⟩
        · exact hinv
        · exact fun plan h => by cases h
        · exact fun _ => ⟨_, rfl⟩
      · -- an ordinary error is an outcome of its own action
        have hs' : s'.budget.exhausted = false := by
          simpa using fun h => hlimit (.inr h)
        have hrest := fun outcomes =>
          planActions_spends ctx rest (index + 1) status outcomes trace' s' hs'
        constructor <;> rw [Ledger.run_bind_ok hrun] <;> dsimp only <;>
          rw [Ledger.run_bind_ok hexh, if_neg hlimit]
        · exact (hrest _).returns
        · exact fun h => (hrest _).inv (hinv h)
        · exact (hrest _).planned
        · exact (hrest _).stopped

lemma planStatusActionsTraced_spends (actions : List StatusAction) (frozenContext : Json)
    (assessed : EvaluatedAssessment) (priorStatus : Option StatusResult) (s : EvalState) :
    PlanSpends (planStatusActionsTraced actions frozenContext assessed priorStatus) s := by
  have htry : (EvalM.attempt (EvalM.step 1)).run s =
      (.ok ((EvalM.step 1).run s).1, ((EvalM.step 1).run s).2) := rfl
  have hstep := @Walks.step 0 1 (.inl rfl)
  have hinv := hstep.inv s
  unfold planStatusActionsTraced
  cases hresult : ((EvalM.step 1).run s).1 with
  | error error =>
    have hcharge : ((BudgetCharge.step 1).run s.budget).1 = .error error := hresult
    have hcode := (BudgetCharge.exhausted_of_error hcharge).1
    rw [hresult] at htry
    constructor <;> rw [Ledger.run_bind_ok htry]
    · exact ⟨_, rfl⟩
    · exact hinv
    · exact fun plan h => by cases h
    · exact fun _ => ⟨error.message, by rw [← hcode]; rfl⟩
  | ok value =>
    -- the first step went through, so the budget was active
    have hs : s.budget.exhausted = false := by
      by_contra hne
      have hexh : s.budget.exhausted = true := by simpa using hne
      have herror : ((EvalM.step 1).run s).1 =
          .error (limitError "The shared evaluation budget is exhausted.") :=
        congrArg Prod.fst ((BudgetCharge.step 1).run_of_exhausted hexh)
      rw [herror] at hresult
      cases hresult
    have hlive := hstep.live s hs value hresult
    rw [hresult] at htry
    cases hctx : contextWithAssessment frozenContext assessed with
    | error error =>
      constructor <;> rw [Ledger.run_bind_ok htry]
      · exact ⟨_, rfl⟩
      · exact hinv
      · exact fun plan h => by cases h
      · exact fun h => absurd (hlive.symm.trans h) (by decide)
    | ok ctx =>
      have hplan := planActions_spends ctx actions 0 priorStatus [] {} _ hlive
      constructor <;> rw [Ledger.run_bind_ok htry]
      · exact hplan.returns
      · exact fun h => hplan.inv (hinv h)
      · exact hplan.planned
      · exact hplan.stopped

end Plan

/-! ### Sequences of calls -/

section Calls

variable [Platform]

inductive BudgetCall where
  | evaluate (expression : Expression) (context : Json) (bindings : EvaluationBindings)
    (depth : Nat)
  | prepare (decision : DecisionBlock) (context : Json)
  | plan (actions : List StatusAction) (frozenContext : Json) (assessed : EvaluatedAssessment)
    (priorStatus : Option StatusResult)

inductive BudgetReply where
  | evaluated (result : Except EvaluationError EvaluatedValue)
  | prepared (outcome : PreparationOutcome)
  | planned (result : Except ActionPlanningError (ActionPlan × EvaluationTrace))

namespace BudgetReply

inductive Returned : BudgetReply → Prop where
  | evaluated (value : EvaluatedValue) : Returned (.evaluated (.ok value))
  | ready (input : Json) : Returned (.prepared (.ready input))
  | unavailable (detail : String) : Returned (.prepared (.unavailable detail))
  | planned (plan : ActionPlan) (trace : EvaluationTrace) : Returned (.planned (.ok (plan, trace)))

inductive Stopped : BudgetReply → Prop where
  | evaluated (error : EvaluationError) : Stopped (.evaluated (.error error))
  | prepared (detail : String) : Stopped (.prepared (.resourceLimit detail))
  | planned (message : String) : Stopped (.planned (.error ⟨.evaluationLimitExceeded, message⟩))

omit [Platform] in
lemma Stopped.not_returned {reply : BudgetReply} (h : reply.Stopped) : ¬reply.Returned := by
  intro hreturned
  cases h <;> cases hreturned

end BudgetReply

namespace BudgetCall

def run : BudgetCall → EvalState → BudgetReply × EvalState
  | evaluate expression ctx bindings depth, state =>
    let (result, state) :=
      (evaluateExpressionWithBudget expression ctx bindings depth).run state
    (.evaluated result, state)
  | prepare decision ctx, state =>
    let (outcome, state) := prepareDecisionInputWithBudget decision ctx state
    (.prepared outcome, state)
  | plan actions frozenContext assessed priorStatus, state =>
    match (planStatusActionsTraced actions frozenContext assessed priorStatus).run state with
    | (.ok result, state) => (.planned result, state)
    | (.error error, state) => (.planned (.error ⟨error.code, error.message⟩), state)

def runAll (calls : List BudgetCall) (state : EvalState) : EvalState :=
  calls.foldl (fun state call => (call.run state).2) state

structure Conserves (state : EvalState) (reply : BudgetReply) (after : EvalState) : Prop where
  le : state ≤ after
  within : state.budget.Within → after.budget.Within
  returned : reply.Returned → after.budget.exhausted = false
  stopped : after.budget.exhausted = true → reply.Stopped

variable {s : EvalState} {ctx : Json} {depth : Nat}

omit [Platform] in
lemma active_of_step {α : Type} {f : Unit → EvalM α} {a : α}
    (h : ((EvalM.step depth >>= f).run s).1 = .ok a) : s.budget.exhausted = false := by
  by_contra hne
  have hexh : s.budget.exhausted = true := by simpa using hne
  have href : (EvalM.step depth).run s =
      (.error (limitError "The shared evaluation budget is exhausted."), s) := by
    have hcharge := (BudgetCharge.step depth).run_of_exhausted hexh
    show (((BudgetCharge.step depth).run s.budget).1,
      { s with budget := ((BudgetCharge.step depth).run s.budget).2 }) = _
    rw [hcharge]
  rw [Ledger.run_bind_error href] at h
  cases h

lemma active_of_evaluate {expression : Expression}
    {bindings : EvaluationBindings} {value : EvaluatedValue}
    (h : ((evaluateExpressionWithBudget expression ctx bindings depth).run s).1 = .ok value) :
    s.budget.exhausted = false := by
  obtain ⟨runtime, s', hrun, -⟩ := Ledger.run_bind_eq_ok (Prod.ext h rfl)
  cases expression <;> exact active_of_step (congrArg Prod.fst hrun)

lemma active_of_prepare {decision : DecisionBlock}
    {value : EvaluatedValue}
    (h : ((evaluateDecisionInputWithBudget decision ctx).run s).1 = .ok value) :
    s.budget.exhausted = false := by
  obtain ⟨prepared, s', hrun, -⟩ := Ledger.run_bind_eq_ok (Prod.ext h rfl)
  revert hrun
  cases decision.input <;> exact fun hrun => active_of_step (congrArg Prod.fst hrun)

lemma conserves_evaluate (expression : Expression) (ctx : Json)
    (bindings : EvaluationBindings) (depth : Nat) (state : EvalState) :
    Conserves state (run (.evaluate expression ctx bindings depth) state).1
      (run (.evaluate expression ctx bindings depth) state).2 := by
  have hspends := Walks.evaluateExpression expression ctx bindings depth
  have hle := (evaluateExpressionWithBudget expression ctx bindings depth).le_run state
  have hinv := hspends.inv state
  have hok := fun value h => hspends.live state (active_of_evaluate h) value h
  rcases hrun : (evaluateExpressionWithBudget expression ctx bindings depth).run state with
    ⟨result, after⟩
  have hcall : run (.evaluate expression ctx bindings depth) state =
      (.evaluated result, after) := by
    rw [run, hrun]
  rw [hrun] at hle hinv hok
  rw [hcall]
  refine ⟨hle, hinv, fun h => ?_, fun h => ?_⟩
  · cases h with
    | evaluated value => exact hok value rfl
  · cases result with
    | error error => exact .evaluated error
    | ok value => exact absurd ((hok value rfl).symm.trans h) (by decide)

lemma conserves_prepare (decision : DecisionBlock) (ctx : Json) (state : EvalState) :
    Conserves state (run (.prepare decision ctx) state).1
      (run (.prepare decision ctx) state).2 := by
  have hspends := Walks.evaluateDecisionInputWithBudget decision ctx
  have hle := (evaluateDecisionInputWithBudget decision ctx).le_run state
  have hinv := hspends.inv state
  have hok := fun value h => hspends.live state (active_of_prepare h) value h
  rcases hrun : (evaluateDecisionInputWithBudget decision ctx).run state with
    ⟨error | ⟨value, trace, metadata⟩, after⟩
  · rw [hrun] at hle hinv
    have hcall : run (.prepare decision ctx) state =
        (.prepared (if error.code = .evaluationLimitExceeded ∨ after.budget.exhausted = true then
          .resourceLimit error.message else .failed error.message), after) := by
      rw [run, prepareDecisionInputWithBudget, hrun]
      dsimp only
      split <;> rfl
    rw [hcall]
    by_cases hlimit : error.code = .evaluationLimitExceeded ∨ after.budget.exhausted = true
    · rw [if_pos hlimit]
      exact ⟨hle, hinv, (fun h => by cases h), fun _ => .prepared _⟩
    · rw [if_neg hlimit]
      exact ⟨hle, hinv, (fun h => by cases h), fun h => absurd (.inr h) hlimit⟩
  · -- ready or unavailable: in both cases the preparation returned
    rw [hrun] at hle hinv hok
    have hactive : after.budget.exhausted = false := hok _ rfl
    obtain ⟨outcome, hcall⟩ : ∃ outcome, run (.prepare decision ctx) state =
        (.prepared outcome, after) := by
      rw [run, prepareDecisionInputWithBudget, hrun]
      cases value with
      | some | none => exact ⟨_, rfl⟩
    rw [hcall]
    exact ⟨hle, hinv, fun _ => hactive, fun h => absurd (hactive.symm.trans h) (by decide)⟩

lemma conserves_plan (actions : List StatusAction) (frozenContext : Json)
    (assessed : EvaluatedAssessment) (priorStatus : Option StatusResult) (state : EvalState) :
    Conserves state (run (.plan actions frozenContext assessed priorStatus) state).1
      (run (.plan actions frozenContext assessed priorStatus) state).2 := by
  have hle := (planStatusActionsTraced actions frozenContext assessed priorStatus).le_run state
  obtain ⟨⟨result, hresult⟩, hinv, hplanned, hstopped⟩ :=
    planStatusActionsTraced_spends actions frozenContext assessed priorStatus state
  rcases hrun : (planStatusActionsTraced actions frozenContext assessed priorStatus).run state with
    ⟨reply, after⟩
  rw [hrun] at hle hresult hinv hplanned hstopped
  obtain rfl : reply = .ok result := hresult
  have hcall : run (.plan actions frozenContext assessed priorStatus) state =
      (.planned result, after) := by
    rw [run, hrun]
  rw [hcall]
  refine ⟨hle, hinv, fun h => ?_, fun h => ?_⟩
  · cases h with
    | planned plan trace => exact hplanned (plan, trace) rfl
  · obtain ⟨msg, hmsg⟩ := hstopped h
    cases hmsg
    exact .planned msg

/-- **Step lemma.**  One call keeps the limits, and returns only from charges that all
succeeded. -/
lemma conserves (call : BudgetCall) (state : EvalState) :
    Conserves state (call.run state).1 (call.run state).2 := by
  cases call with
  | evaluate => exact conserves_evaluate _ _ _ _ _
  | prepare => exact conserves_prepare _ _ _
  | plan => exact conserves_plan _ _ _ _ _

/-- **Run lemma.**  Every state of a sequence extends the earlier ones, within the limits. -/
lemma runAll_spec (calls : List BudgetCall) (state : EvalState) :
    state ≤ runAll calls state ∧
      (state.budget.Within → (runAll calls state).budget.Within) := by
  induction calls generalizing state with
  | nil => exact ⟨le_rfl, id⟩
  | cons call rest ih =>
    have hcall := call.conserves state
    obtain ⟨hle, hwithin⟩ := ih (call.run state).2
    exact ⟨hcall.le.trans hle, fun h => hwithin (hcall.within h)⟩

end BudgetCall

/-- **The shared budget bounds the whole assessment.**  At every call of a sequence: the
counters stay within their limits and only grow; a failed charge makes every later charge
fail; a call that met one stopped at the limit and returned nothing; and a call that returned
leaves the budget active. -/
theorem shared_budget_bounds_the_assessment {start : EvalState} (hstart : start.budget.Held)
    (before : List BudgetCall) (call : BudgetCall) :
    let state := BudgetCall.runAll before start
    let reply := (call.run state).1
    let after := (call.run state).2
    (state.budget.Within ∧ after.budget.Within) ∧
      (start.budget.Extends state.budget ∧ state.budget.Extends after.budget) ∧
      (∀ (charge later : BudgetCharge) (budget budget' : EvaluationBudget)
        (error : EvaluationError), (charge.run budget).1 = .error error →
        (charge.run budget).2.Extends budget' →
        later.run budget' =
          (.error (limitError "The shared evaluation budget is exhausted."), budget')) ∧
      (∀ (charge : BudgetCharge) (budget : EvaluationBudget) (error : EvaluationError),
        (charge.run budget).1 = .error error → (charge.run budget).2.Extends after.budget →
        reply.Stopped ∧ ¬reply.Returned) ∧
      (reply.Returned → after.budget.exhausted = false) := by
  obtain ⟨hle, hwithin⟩ := BudgetCall.runAll_spec before start
  obtain ⟨hcall, hcallWithin, hreturned, hstopped⟩ :=
    call.conserves (BudgetCall.runAll before start)
  have hstate := hwithin hstart.within
  refine ⟨⟨hstate, hcallWithin hstate⟩,
    ⟨(EvalState.le_def.mp hle).1, (EvalState.le_def.mp hcall).1⟩, ?_, ?_, hreturned⟩
  · intro charge later budget budget' error herror hextends
    exact later.run_of_exhausted (hextends.exhausted (BudgetCharge.exhausted_of_error herror).2)
  · intro charge budget error herror hextends
    have hreply := hstopped (hextends.exhausted (BudgetCharge.exhausted_of_error herror).2)
    exact ⟨hreply, hreply.not_returned⟩

end Calls

def oneStep : EvalState where
  budget := .newWithMaterializationLimit ⟨DEFAULT_MAX_EVALUATION_DEPTH, 1⟩
    DEFAULT_MAX_EVALUATION_ITEMS DEFAULT_MAX_GENERATED_BYTES DEFAULT_MAX_MATERIALIZED_BYTES
  nextRoot := 0

/-- A preparation takes the only step; the plan that follows meets a failed charge. -/
theorem shared_budget_bounds_the_assessment_one_step :
    letI := compactPlatform
    let state := BudgetCall.runAll [.prepare ⟨"d", .literal (.boolean true), []⟩ (.object [])] oneStep
    let call := BudgetCall.plan [⟨none, .literal .success, none⟩] (.object []) ⟨1, [], 0⟩ none
    (call.run state).2.budget.Within ∧ (call.run state).1.Stopped ∧
      ¬(call.run state).1.Returned := by
  let platform := compactPlatform
  let state := BudgetCall.runAll [.prepare ⟨"d", .literal (.boolean true), []⟩ (.object [])] oneStep
  let call := BudgetCall.plan [⟨none, .literal .success, none⟩] (.object []) ⟨1, [], 0⟩ none
  have hheld : oneStep.budget.Held := .created _ _ _ _
  have hspec := shared_budget_bounds_the_assessment hheld
    [.prepare ⟨"d", .literal (.boolean true), []⟩ (.object [])] call
  obtain ⟨⟨-, hwithin⟩, -, -, hmet, -⟩ := hspec
  -- the first step of the plan is the charge that fails
  have hafter : (call.run state).2.budget =
      ((BudgetCharge.step 1).run state.budget).2 := by decide
  have herror : ((BudgetCharge.step 1).run state.budget).1 =
      .error (limitError "Expression evaluation exceeded the step limit.") := by decide
  obtain ⟨hstopped, hreturned⟩ := hmet (.step 1) state.budget _ herror (hafter ▸ .refl _)
  exact ⟨hwithin, hstopped, hreturned⟩

end Antiburn
