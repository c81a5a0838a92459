/-
What a resolved shape promises of every evaluation.

The promise has three parts: available values conform, declared steps meet
values of their JSON kind, and a reference without computed selectors has no
value only where a root, a declared field or an item is absent.  The last two
always hold.  The first fails for a computed selector that gives the text
`length` on an array: the evaluator takes the length, the compiler has declared
an item.
-/
import Antiburn.AccessSoundness
import Antiburn.AsciiPlatform

namespace Antiburn

open Ledger

namespace Validator

variable [Platform]

structure Promise (v : Validator) (phase : ExpressionContext) (context : Json)
    (bindings : EvaluationBindings) (expression : Expression) (shape : ValueShape) : Prop where
  conforms : ∀ depth s t value json,
    (evaluateExpressionWithBudget expression context bindings depth).run s = (.ok value, t) →
      value.value = some json → v.Conforms shape json
  fits : ∀ applied, Applies v phase context bindings expression applied →
    applied.computed = false → applied.shape.holdsOpen = false → applied.fits = true
  lacks : expression.isReference = true → ∀ depth s t value,
    (evaluateExpressionWithBudget expression context bindings depth).run s = (.ok value, t) →
      value.value = none → expression.rootAbsent context bindings = true ∨
        ∃ applied, Applies v phase context bindings expression applied ∧ applied.Lacks

lemma returns_evaluate {expr : Expression} {ctx : Json} {bindings : EvaluationBindings}
    {depth : Nat} {s t : EvalState} {value : EvaluatedValue}
    (h : (evaluateExpressionWithBudget expr ctx bindings depth).run s = (.ok value, t)) :
    ∃ runtime, (evaluate ctx bindings expr depth).Returns runtime ∧
      runtime.value = value.value := by
  have hreturns : (evaluateExpressionWithBudget expr ctx bindings depth).Returns value :=
    ⟨s, t, h⟩
  obtain ⟨runtime, hruntime, hfinish⟩ := hreturns.of_bind
  exact ⟨runtime, hruntime, (returns_finish hfinish).symm⟩

/-- **Soundness of the access checker.**  An accepted expression keeps its
promise in every conforming context, if its value comes through no computed
selector, or none takes a length where an item is declared. -/
theorem accepted_expression_keeps_promise {v : Validator} {phase : ExpressionContext}
    {context : Json} {bindings : EvaluationBindings} {expression : Expression} {shape : ValueShape}
    (hnumbers : ReadsNumbers)
    (hread : ∀ number ∈ expression.numbers, ∃ text, Platform.parseNumber text = some number)
    (hcontext : v.ConformsContext context) (hbinds : v.Binds phase bindings)
    (haccepted : v.resolveExpression phase expression = .ok shape)
    (hcounts : expression.isComputed = false ∨
      ∀ applied, Applies v phase context bindings expression applied → ¬ applied.Miscounts v) :
    Promise v phase context bindings expression shape := by
  have sound : ExpressionSound v phase context bindings
      (∀ applied, Applies v phase context bindings expression applied → ¬ applied.Miscounts v)
      expression shape :=
    expression_sound hnumbers hcontext hbinds expression haccepted hread fun hn => hn
  constructor
  · intro depth s t value json hrun hjson
    obtain ⟨runtime, hruntime, hvalue⟩ := returns_evaluate hrun
    exact sound.holds depth runtime hruntime hcounts json (hvalue.trans hjson)
  · exact sound.fits
  · intro hreference depth s t value hrun hnone
    obtain ⟨runtime, hruntime, hvalue⟩ := returns_evaluate hrun
    exact reference_unavailable expression hreference haccepted sound.fits hruntime
      (hvalue.trans hnone)

end Validator

/-! ### A length where an item is declared -/

def sessionValidator : Validator := ⟨false, [], [], none⟩

def sessionContext : Json :=
  .object [("session", .object [("requests", .array [.object [("text", .string "go")]])])]

lemma sessionContext_conforms : sessionValidator.ConformsContext sessionContext := by
  rintro root record json hroot hjson
  have hentry := Object.mem_of_get? (show Object.get? _ root = some json from hjson)
  cases List.mem_singleton.mp hentry
  cases hroot
  refine .record (fun key value hmem => ?_) (fun key value shape hmem hshape => ?_)
  · cases List.mem_singleton.mp hmem
    exact .inl rfl
  · cases List.mem_singleton.mp hmem
    cases hshape
    refine .array fun item hitem => ?_
    cases List.mem_singleton.mp hitem
    refine .record (fun key value hmem => ?_) (fun key value shape hmem hshape => ?_)
    · cases List.mem_singleton.mp hmem
      exact .inl rfl
    · cases List.mem_singleton.mp hmem
      cases hshape
      exact .scalar rfl

lemma binds_nil (v : Validator) : v.Binds .topLevel [] := fun _ => trivial

/-- The plain platform, which reads the digits 0 and 1 only. -/
@[reducible] def binaryPlatform : Platform :=
  { asciiPlatform with
    parseNumber := fun text => if text = "0" ∨ text = "1" then some ⟨text⟩ else none }

lemma binaryPlatform_readsNumbers : @Validator.ReadsNumbers binaryPlatform := by
  intro text number value hparse hvalue
  have hparse : (if text = "0" ∨ text = "1" then some (⟨text⟩ : Number) else none) = some number :=
    hparse
  split_ifs at hparse with htext
  cases hparse
  rcases htext with rfl | rfl
  · cases hvalue
    exact (decide_eq_false (not_not_intro rfl)).trans (by decide)
  · cases hvalue
    decide +kernel

/-- `(0 || session.requests)[0].text` keeps its promise. -/
theorem promise_of_first_request :
    letI := binaryPlatform
    Validator.Promise sessionValidator .topLevel sessionContext []
      (.access (.binary .or (.literal (.number ⟨"0"⟩)) (.path [.property "session",
        .property "requests"])) [.index 0, .property "text"]) .scalar := by
  let platform := binaryPlatform
  have htruth : Validator.knownTruth (.literal (.number ⟨"0"⟩)) = some false :=
    congrArg some (decide_eq_false (not_not_intro rfl))
  have haccepted : sessionValidator.resolveExpression .topLevel
      (.access (.binary .or (.literal (.number ⟨"0"⟩)) (.path [.property "session",
        .property "requests"])) [.index 0, .property "text"]) = .ok .scalar := by
    simp only [Validator.resolveExpression, htruth]
    rfl
  refine Validator.accepted_expression_keeps_promise binaryPlatform_readsNumbers ?_
    sessionContext_conforms (binds_nil _) haccepted (.inl rfl)
  intro number hnumber
  cases List.mem_singleton.mp hnumber
  exact ⟨"0", rfl⟩

def joinedSelector (key : String) : Except ExpressionError Expression → Bool
  | .ok (.access (.path [.property root, .property field])
      [.dynamic (.call .join [.literal (.string text)])]) =>
    decide (root = "session" ∧ field = "requests" ∧ text = key)
  | _ => false

lemma eq_of_joinedSelector {key : String} {result : Except ExpressionError Expression}
    (h : joinedSelector key result = true) :
    result = .ok (.access (.path [.property "session", .property "requests"])
      [.dynamic (.call .join [.literal (.string key)])]) := by
  unfold joinedSelector at h
  split at h
  · obtain ⟨rfl, rfl, rfl⟩ := of_decide_eq_true h
    rfl
  · cases h

def givesNumber : Except EvaluationError EvaluatedValue × EvalState → Bool
  | (.ok ⟨some (.number _), _, _⟩, _) => true
  | _ => false

lemma exists_of_givesNumber {run : Except EvaluationError EvaluatedValue × EvalState}
    (h : givesNumber run = true) :
    ∃ value number t, run = (.ok value, t) ∧ value.value = some (.number number) := by
  unfold givesNumber at h
  split at h
  · exact ⟨_, _, _, rfl, rfl⟩
  · cases h

/-- `session.requests[join('length')]` is declared a request and is a number. -/
theorem computed_length_is_no_request :
    letI := asciiPlatform
    ∃ expression shape, parseExpression "session.requests[join('length')]" = .ok expression ∧
      sessionValidator.resolveExpression .topLevel expression = .ok shape ∧
      sessionValidator.ConformsContext sessionContext ∧ sessionValidator.Binds .topLevel [] ∧
      ¬ Validator.Promise sessionValidator .topLevel sessionContext [] expression shape := by
  let platform := asciiPlatform
  have hparsed : parseExpression "session.requests[join('length')]" = _ :=
    eq_of_joinedSelector (by decide +kernel : joinedSelector "length" _ = true)
  refine ⟨_, .record .request, hparsed, rfl, sessionContext_conforms, binds_nil _, ?_⟩
  intro promise
  have hrun : givesNumber ((evaluateExpressionWithBudget
      (.access (.path [.property "session", .property "requests"])
        [.dynamic (.call .join [.literal (.string "length")])]) sessionContext [] 0).run .initial) =
      true := by
    decide +kernel
  obtain ⟨value, number, t, hvalue, hnumber⟩ := exists_of_givesNumber hrun
  cases promise.conforms 0 .initial t value _ hvalue hnumber

end Antiburn
