/-
The depth that the parser computes and the depth that an evaluation reaches.

The parser counts a call, an operator and a bracket as one level.  The
evaluator counts more: the base of an access, every step of a chain by its
place in it, and the nesting of a value that is written or copied.  `reach`
is the evaluator's count, for values that nest no deeper than a bound.
-/
import Antiburn.EvaluationWalk
import Antiburn.Paths

namespace Antiburn

open EvalM RuntimeValue

/-! ### Depths of an expression -/

mutual

def Expression.treeDepth : Expression → Nat
  | .literal _ => 1
  | .path _ => 1
  | .access base segments => max base.treeDepth (selectorsDepth segments)
  | .call _ arguments => max 1 (argumentsTreeDepth arguments)
  | .not value => value.treeDepth + 1
  | .binary _ left right => max left.treeDepth right.treeDepth + 1

def selectorsDepth : List AccessSegment → Nat
  | [] => 1
  | .dynamic selector :: rest => max (selector.treeDepth + 1) (selectorsDepth rest)
  | .property _ :: rest => selectorsDepth rest
  | .index _ :: rest => selectorsDepth rest
  | .projection :: rest => selectorsDepth rest

def argumentsTreeDepth : List Expression → Nat
  | [] => 1
  | argument :: rest => max (argument.treeDepth + 1) (argumentsTreeDepth rest)

end

mutual

/-- No access on a computed value, no path beyond two names, no conversion to or from
JSON text. -/
def Expression.Plain : Expression → Prop
  | .literal _ => True
  | .path segments => segments.length ≤ 2
  | .access _ _ => False
  | .call function arguments =>
    function ≠ .toJSON ∧ function ≠ .fromJSON ∧ PlainArguments arguments
  | .not value => value.Plain
  | .binary _ left right => left.Plain ∧ right.Plain

@[inherit_doc Expression.Plain]
def PlainArguments : List Expression → Prop
  | [] => True
  | argument :: rest => argument.Plain ∧ PlainArguments rest

end

namespace Expression

lemma one_le_treeDepth : ∀ expr : Expression, 1 ≤ expr.treeDepth
  | .literal _ => le_rfl
  | .path _ => le_rfl
  | .access base _ => le_max_of_le_left base.one_le_treeDepth
  | .call _ _ => le_max_left _ _
  | .not _ => Nat.le_add_left _ _
  | .binary _ _ _ => Nat.le_add_left _ _

end Expression

lemma one_le_selectorsDepth : ∀ segments : List AccessSegment, 1 ≤ selectorsDepth segments
  | [] => le_rfl
  | .dynamic _ :: rest => le_max_of_le_right (one_le_selectorsDepth rest)
  | .property _ :: rest | .index _ :: rest | .projection :: rest => one_le_selectorsDepth rest

mutual

/-- **On plain expressions the parser's depth is the depth of the evaluation.** -/
lemma Expression.reach_le_treeDepth (room : Nat) :
    ∀ expr : Expression, expr.Plain → expr.reach room ≤ expr.treeDepth
  | .literal _, _ => le_rfl
  | .path segments, h => by
    have hlen : segments.length ≤ 2 := h
    show max 1 (segments.length - 1) ≤ 1
    omega
  | .access _ _, h => h.elim
  | .call function arguments, h => by
    obtain ⟨hto, -, hargs⟩ := h
    have hle := argumentsReach_le_treeDepth room arguments hargs
    show max (argumentsReach room arguments + 1) (if function = .toJSON then room + 2 else 1) ≤
      max 1 (argumentsTreeDepth arguments)
    rw [if_neg hto]
    omega
  | .not value, h => Nat.add_le_add_right (Expression.reach_le_treeDepth room value h) 1
  | .binary _ left right, h =>
    Nat.add_le_add_right (max_le_max (Expression.reach_le_treeDepth room left h.1)
      (Expression.reach_le_treeDepth room right h.2)) 1

lemma argumentsReach_le_treeDepth (room : Nat) :
    ∀ arguments : List Expression, PlainArguments arguments →
      argumentsReach room arguments + 1 ≤ argumentsTreeDepth arguments
  | [], _ => le_rfl
  | argument :: rest, h => by
    have hfirst := Expression.reach_le_treeDepth room argument h.1
    have hrest := argumentsReach_le_treeDepth room rest h.2
    show max (argument.reach room) (argumentsReach room rest) + 1 ≤
      max (argument.treeDepth + 1) (argumentsTreeDepth rest)
    omega

end

mutual

lemma Expression.readsNoText_of_plain :
    ∀ expr : Expression, expr.Plain → expr.ReadsNoText
  | .literal _, _ => trivial
  | .path _, _ => trivial
  | .access _ _, h => h.elim
  | .call _ arguments, h => ⟨h.2.1, argumentsReadNoText_of_plain arguments h.2.2⟩
  | .not value, h => Expression.readsNoText_of_plain value h
  | .binary _ left right, h =>
    ⟨Expression.readsNoText_of_plain left h.1, Expression.readsNoText_of_plain right h.2⟩

lemma argumentsReadNoText_of_plain :
    ∀ arguments : List Expression, PlainArguments arguments → ArgumentsReadNoText arguments
  | [], _ => trivial
  | argument :: rest, h =>
    ⟨Expression.readsNoText_of_plain argument h.1, argumentsReadNoText_of_plain rest h.2⟩

end

/-! ### The parser bounds its own depth -/

namespace Parser

lemma selectorsDepth_append (segments more : List AccessSegment) :
    selectorsDepth (segments ++ more) = max (selectorsDepth segments) (selectorsDepth more) := by
  induction segments with
  | nil =>
    show selectorsDepth more = max 1 (selectorsDepth more)
    rw [max_eq_right (one_le_selectorsDepth more)]
  | cons seg rest ih =>
    cases seg with
    | dynamic selector =>
      show max (selector.treeDepth + 1) (selectorsDepth (rest ++ more)) = _
      rw [ih, ← max_assoc]
      rfl
    | property | index | projection => exact ih

lemma treeDepth_pushAccess (expr : Expression) (seg : AccessSegment) (grouped : Bool) :
    (pushAccess expr seg grouped).treeDepth ≤
      max expr.treeDepth (selectorsDepth [seg]) := by
  have hsingle : (Expression.access expr [seg]).treeDepth ≤
      max expr.treeDepth (selectorsDepth [seg]) := le_rfl
  have hchain : ∀ base segments, (Expression.access base (segments ++ [seg])).treeDepth ≤
      max (Expression.access base segments).treeDepth (selectorsDepth [seg]) := by
    intro base segments
    show max base.treeDepth (selectorsDepth (segments ++ [seg])) ≤
      max (max base.treeDepth (selectorsDepth segments)) (selectorsDepth [seg])
    rw [selectorsDepth_append, max_assoc]
  cases expr with
  | path segments =>
    cases seg with
    | property | index => cases grouped <;> exact le_max_left _ _
    | dynamic | projection => cases grouped <;> exact hsingle
  | access base segments =>
    cases grouped with
    | true => exact hsingle
    | false => exact hchain base segments
  | literal | call | not | binary => cases grouped <;> exact hsingle

lemma selectorsDepth_bracketSegment (selector : Expression) :
    selectorsDepth [bracketSegment selector] ≤ selector.treeDepth + 1 := by
  have hdynamic : selectorsDepth [.dynamic selector] ≤ selector.treeDepth + 1 :=
    max_le le_rfl (Nat.le_add_left _ _)
  have hone : 1 ≤ selector.treeDepth + 1 := Nat.le_add_left _ _
  cases selector with
  | literal value =>
    cases value with
    | string => exact hone
    | boolean | null => exact hdynamic
    | number number =>
      unfold bracketSegment
      dsimp only
      cases number.asU64 with
      | some index => exact hone
      | none => exact hdynamic
  | path | access | call | not | binary => exact hdynamic

lemma argumentsTreeDepth_le (values : List ParsedExpression) (depth : Nat) (hdepth : 1 ≤ depth)
    (h : ∀ value ∈ values, value.expression.treeDepth ≤ value.depth) :
    max depth (argumentsTreeDepth (values.map (·.expression))) ≤ argumentsDepth depth values := by
  induction values generalizing depth with
  | nil => exact max_le le_rfl hdepth
  | cons value rest ih =>
    have hvalue := h value List.mem_cons_self
    have hrest := ih (max depth (value.depth + 1)) (le_max_of_le_left hdepth)
      fun other hother => h other (List.mem_cons_of_mem _ hother)
    refine le_trans ?_ hrest
    show max depth (max (value.expression.treeDepth + 1) _) ≤ max (max depth (value.depth + 1)) _
    omega

lemma treeDepth_builds : Builds fun value => value.expression.treeDepth ≤ value.depth where
  literal _ := le_rfl
  root _ := le_rfl
  call _ values h := argumentsTreeDepth_le values 1 le_rfl h
  not _ h := Nat.add_le_add_right h 1
  binary _ _ _ hleft hright := Nat.add_le_add_right (max_le_max hleft hright) 1
  named expr depth grouped name h := by
    have hone := expr.one_le_treeDepth
    refine (treeDepth_pushAccess expr (.property name) grouped).trans ?_
    exact max_le h (hone.trans h)
  projected expr depth grouped h := by
    have hone := expr.one_le_treeDepth
    refine (treeDepth_pushAccess expr .projection grouped).trans ?_
    exact max_le h (hone.trans h)
  bracketed expr depth grouped selector h hselr := by
    refine (treeDepth_pushAccess expr _ grouped).trans (max_le_max h ?_)
    exact (selectorsDepth_bracketSegment _).trans (Nat.add_le_add_right hselr 1)

end Parser

lemma treeDepth_le_of_parseExpression [Platform] {source : String} {expr : Expression}
    (h : parseExpression source = .ok expr) :
    expr.treeDepth ≤ MAX_EXPRESSION_DEPTH := by
  obtain ⟨depth, hdepth, htree⟩ := checked_of_parseExpression Parser.treeDepth_builds h
  exact htree.trans hdepth

section Result

variable [Platform]

def evaluateExpression (expression : Expression) (ctx : Json) :
    Except EvaluationError (Option Json) :=
  ((evaluateExpressionWithBudget expression ctx [] 1).run .initial).1.map (·.value)

lemma evaluateExpression_ne_depthError {expr : Expression} {ctx : Json}
    (htext : expr.ReadsNoText)
    (hreach : expr.reach ctx.nesting ≤ DEFAULT_MAX_EVALUATION_DEPTH)
    (hcopy : ctx.nesting < DEFAULT_MAX_EVALUATION_DEPTH) :
    evaluateExpression expr ctx ≠ .error depthError := by
  have hinput : Walks.ShallowInput DEFAULT_MAX_EVALUATION_DEPTH ctx.nesting ctx [] :=
    ⟨.inr le_rfl, fun name binding hlookup => by cases hlookup⟩
  have hwalk := @Walks.evaluateExpressionWithBudget _ _ 1 _ _ _ hinput expr (.inr htext)
    (by omega) (by omega)
  intro h
  unfold evaluateExpression at h
  cases hrun : ((evaluateExpressionWithBudget expr ctx [] 1).run .initial).1 with
  | error error =>
    rw [hrun] at h
    injection h with h
    exact hwalk.errors .initial error hrun (.inr ⟨by decide, rfl, h⟩)
  | ok value =>
    rw [hrun] at h
    cases h

/-- **An accepted expression meets the depth limit only by its reach or by reading text.**
On plain expressions the parser's depth bounds the reach. -/
theorem accepted_expression_stays_within_depth {source : String} {expression : Expression}
    (hparse : parseExpression source = .ok expression) :
    (∀ ctx : Json, expression.ReadsNoText →
      expression.reach ctx.nesting ≤ DEFAULT_MAX_EVALUATION_DEPTH →
      ctx.nesting < DEFAULT_MAX_EVALUATION_DEPTH →
      evaluateExpression expression ctx ≠ .error depthError) ∧
    (expression.Plain → ∀ ctx : Json, ctx.nesting < DEFAULT_MAX_EVALUATION_DEPTH →
      expression.reach ctx.nesting ≤ expression.treeDepth ∧
        evaluateExpression expression ctx ≠ .error depthError) := by
  have htree := treeDepth_le_of_parseExpression hparse
  refine ⟨fun ctx htext hreach hcopy => evaluateExpression_ne_depthError htext hreach hcopy,
    fun hplain ctx hcopy => ?_⟩
  have hreach := expression.reach_le_treeDepth ctx.nesting hplain
  exact ⟨hreach, evaluateExpression_ne_depthError (expression.readsNoText_of_plain hplain)
    (hreach.trans htree) hcopy⟩

end Result

def comparisonSource : String := "!(data.count == 1)"

def isComparison : Except ExpressionError Expression → Bool
  | .ok (.not (.binary .equal (.path [_, _]) (.literal _))) => true
  | _ => false

theorem accepted_expression_stays_within_depth_comparison :
    letI := compactPlatform
    ∃ expression, parseExpression comparisonSource = .ok expression ∧
      evaluateExpression expression (.object [("data", .object [("count", .number ⟨"1"⟩)])]) ≠
        .error depthError := by
  let platform := compactPlatform
  have hshape : isComparison (parseExpression comparisonSource) = true := by decide +kernel
  unfold isComparison at hshape
  split at hshape
  · rename_i first second literal hparse
    refine ⟨_, hparse, ?_⟩
    refine ((accepted_expression_stays_within_depth hparse).2 ⟨?_, ?_⟩ _ ?_).2
    · exact Nat.le_refl 2
    · exact trivial
    · decide
  · cases hshape

def negatedConversion : String :=
  String.ofList (List.replicate 30 '!') ++ "toJSON(data)"

def deepTextSource : String :=
  "fromJSON('" ++ String.ofList (List.replicate 33 '[') ++ "0" ++
    String.ofList (List.replicate 33 ']') ++ "')"

def failsWith [Platform] (source : String) (ctx : Json) (error : EvaluationError) : Bool :=
  match parseExpression source with
  | .error _ => false
  | .ok expression =>
    match evaluateExpression expression ctx with
    | .error other => other == error
    | .ok _ => false

/-- Conversions charge the nesting of the value or of the text below their own depth. -/
theorem conversions_exceed_the_parsed_depth :
    letI := compactPlatform
    failsWith negatedConversion (.object [("data", .array [.number ⟨"1"⟩])]) depthError = true ∧
      failsWith deepTextSource (.object [])
        (limitError "JSON parsing exhausted the shared evaluation budget.") = true := by
  decide +kernel

end Antiburn
