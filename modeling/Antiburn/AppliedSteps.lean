/-
The access steps that an evaluation takes.

A step is recorded with the value it is applied to, the shape that the compiler
gave that value, and whether a computed selector stands before it.  The
relations follow the evaluator: a segment behind a missing value is not
applied, the right side of a logical operator only where the left one does not
decide, and items of a projection up to the first missing one.
-/
import Antiburn.Conformance

namespace Antiburn

open Ledger

/-! ### Steps -/

inductive ReferenceStep where
  | property (key : String)
  | index (index : Nat)
  | number (number : Number)
  | computed (key : Json)
  | projection

def AccessSegment.staticStep : AccessSegment → Option ReferenceStep
  | .property key => some (.property key)
  | .index position => some (.index position)
  | .dynamic _ => none
  | .projection => some .projection

def selectorStep (key : Json) : Expression → ReferenceStep
  | .literal (.string key) => .property key
  | .literal (.number number) => .number number
  | _ => .computed key

def AccessSegment.isComputed : AccessSegment → Bool
  | .dynamic (.literal (.string _)) | .dynamic (.literal (.number _)) => false
  | .dynamic _ => true
  | _ => false

def Expression.isComputed : Expression → Bool
  | .access base segments => base.isComputed || segments.any AccessSegment.isComputed
  | .binary .and left right | .binary .or left right => left.isComputed || right.isComputed
  | _ => false

def PathSegment.asAccess : PathSegment → AccessSegment
  | .property key => .property key
  | .index position => .index position

structure AppliedStep where
  step : ReferenceStep
  shape : ValueShape
  json : Json
  computed : Bool

/-- Whether the value has the JSON kind that the step needs. -/
def AppliedStep.fits (applied : AppliedStep) : Bool :=
  match applied.step, applied.json with
  | .property key, json | .computed (.string key), json => Validator.hasProperties key json
  | .index _, .array _ | .number _, .array _ | .computed (.number _), .array _ => true
  | .projection, json => json.isContainer
  | _, _ => false

/-- The number that a computed selector takes when it asks an array for its
length. -/
def AppliedStep.count (applied : AppliedStep) : Option Json :=
  match applied.step, applied.json with
  | .computed (.string key), .array items =>
    if key = "length" then some (.number (.ofNat items.length)) else none
  | _, _ => none

/-- A computed selector takes a length where the compiler declares an item
that is no number. -/
def AppliedStep.Miscounts (v : Validator) (applied : AppliedStep) : Prop :=
  ∃ count next, applied.count = some count ∧
    Validator.dynamicRule.shape applied.shape = .ok next ∧ ¬ v.Conforms next count

/-- A declared property that the object does not hold, or an index that names
no item of the array. -/
def AppliedStep.absent (applied : AppliedStep) : Bool :=
  match applied.step, applied.json with
  | .property key, .object entries => (Object.get? entries key).isNone
  | .index index, .array items => items[index]?.isNone
  | .number number, .array items => (number.integralIndex.bind fun index => items[index]?).isNone
  | _, _ => false

/-- The step finds nothing, and that is all that can be said before it runs:
its part is open, or a declared field or index is absent. -/
def AppliedStep.Lacks (applied : AppliedStep) : Prop :=
  applied.computed = false ∧ (applied.shape.holdsOpen = true ∨ applied.absent = true)

/-! ### Evaluations -/

section Applies

variable [Platform]
variable (v : Validator) (phase : ExpressionContext) (ctx : Json)
  (bindings : EvaluationBindings)

mutual

inductive Applies : Expression → AppliedStep → Prop
  | path {root : String} {rest : List PathSegment} {shape : ValueShape} {applied : AppliedStep}
      (resolved : v.rootShape root phase = .ok shape)
      (steps : AccessApplies (rest.map PathSegment.asAccess) false shape
        (pathRoot ctx bindings root) applied) :
      Applies (.path (.property root :: rest)) applied
  | base {base : Expression} {segments : List AccessSegment} {applied : AppliedStep}
      (inner : Applies base applied) : Applies (.access base segments) applied
  | access {base : Expression} {segments : List AccessSegment} {shape : ValueShape} {depth : Nat}
      {value : RuntimeValue} {applied : AppliedStep}
      (resolved : v.resolveExpression phase base = .ok shape)
      (evaluated : (evaluate ctx bindings base depth).Returns value)
      (steps : AccessApplies segments base.isComputed shape value applied) :
      Applies (.access base segments) applied
  | argument {function : ExpressionFunction} {arguments : List Expression} {applied : AppliedStep}
      (inner : ArgumentsApply arguments applied) : Applies (.call function arguments) applied
  | not {value : Expression} {applied : AppliedStep} (inner : Applies value applied) :
      Applies (.not value) applied
  | left {operator : BinaryOperator} {left right : Expression} {applied : AppliedStep}
      (inner : Applies left applied) : Applies (.binary operator left right) applied
  | right {operator : BinaryOperator} {left right : Expression} {depth : Nat}
      {value : RuntimeValue} {json : Json} {applied : AppliedStep}
      (evaluated : (evaluate ctx bindings left depth).Returns value)
      (available : value.value = some json) (continues : shortCircuits operator json = false)
      (inner : Applies right applied) : Applies (.binary operator left right) applied

inductive AccessApplies :
    List AccessSegment → Bool → ValueShape → RuntimeValue → AppliedStep → Prop
  | here {segment : AccessSegment} {rest : List AccessSegment} {computed : Bool}
      {shape : ValueShape} {value : RuntimeValue} {json : Json} {step : ReferenceStep}
      (static : segment.staticStep = some step) (available : value.value = some json) :
      AccessApplies (segment :: rest) computed shape value ⟨step, shape, json, computed⟩
  | bracket {selector : Expression} {rest : List AccessSegment} {computed : Bool}
      {shape : ValueShape} {value key : RuntimeValue} {json keyJson : Json} {depth : Nat}
      (available : value.value = some json)
      (evaluated : (evaluate ctx bindings selector depth).Returns key)
      (keyAvailable : key.value = some keyJson) :
      AccessApplies (.dynamic selector :: rest) computed shape value
        ⟨selectorStep keyJson selector, shape, json,
          computed || (AccessSegment.dynamic selector).isComputed⟩
  | selector {selector : Expression} {rest : List AccessSegment} {computed : Bool}
      {shape : ValueShape} {value : RuntimeValue} {applied : AppliedStep}
      (available : value.value.isSome = true) (inner : Applies selector applied) :
      AccessApplies (.dynamic selector :: rest) computed shape value applied
  | property {key : String} {rest : List AccessSegment} {computed : Bool}
      {shape next : ValueShape} {value : RuntimeValue} {applied : AppliedStep}
      (resolved : v.propertyShape key shape = .ok next)
      (steps : AccessApplies rest computed next (select value (.property key)) applied) :
      AccessApplies (.property key :: rest) computed shape value applied
  | index {index : Nat} {rest : List AccessSegment} {computed : Bool}
      {shape next : ValueShape} {value : RuntimeValue} {applied : AppliedStep}
      (resolved : (Validator.indexRule (some index)).shape shape = .ok next)
      (steps : AccessApplies rest computed next (select value (.index index)) applied) :
      AccessApplies (.index index :: rest) computed shape value applied
  | dynamic {selector : Expression} {rest : List AccessSegment} {computed : Bool}
      {shape next : ValueShape} {value key : RuntimeValue} {json : Json} {depth : Nat}
      {segment : PathSegment} {applied : AppliedStep}
      (evaluated : (evaluate ctx bindings selector depth).Returns key)
      (keyAvailable : key.value = some json)
      (denoted : (dynamicSegment json).Returns (some segment))
      (resolved : v.selectorShape selector shape = .ok next)
      (steps : AccessApplies rest (computed || (AccessSegment.dynamic selector).isComputed) next
        (select { value with
          metadata := { value.metadata with
            dependencies := value.metadata.dependencies.merge key.trace } } segment) applied) :
      AccessApplies (.dynamic selector :: rest) computed shape value applied
  | projection {rest : List AccessSegment} {computed : Bool} {shape item : ValueShape}
      {value : RuntimeValue} {json : Json} {entries : List (PathSegment × Json)}
      {applied : AppliedStep} (resolved : v.projectionRule.shape shape = .ok item)
      (available : value.value = some json) (projected : projectionEntries json = some entries)
      (steps : ItemsApply rest computed item value entries applied) :
      AccessApplies (.projection :: rest) computed shape value applied

inductive ItemsApply : List AccessSegment → Bool → ValueShape → RuntimeValue →
    List (PathSegment × Json) → AppliedStep → Prop
  | here {rest : List AccessSegment} {computed : Bool} {shape : ValueShape} {source : RuntimeValue}
      {segment : PathSegment} {item : Json} {entries : List (PathSegment × Json)}
      {applied : AppliedStep}
      (steps : AccessApplies rest computed shape
        ⟨some item, source.owned, source.metadata.child segment⟩ applied) :
      ItemsApply rest computed shape source ((segment, item) :: entries) applied
  | later {rest : List AccessSegment} {computed : Bool} {shape : ValueShape}
      {source selected : RuntimeValue} {segment : PathSegment} {item : Json}
      {entries : List (PathSegment × Json)} {depth position : Nat} {applied : AppliedStep}
      (evaluated : (access ctx bindings rest depth position
        ⟨some item, source.owned, source.metadata.child segment⟩).Returns selected)
      (available : selected.value.isSome = true)
      (steps : ItemsApply rest computed shape source entries applied) :
      ItemsApply rest computed shape source ((segment, item) :: entries) applied

inductive ArgumentsApply : List Expression → AppliedStep → Prop
  | here {argument : Expression} {rest : List Expression} {applied : AppliedStep}
      (inner : Applies argument applied) : ArgumentsApply (argument :: rest) applied
  | later {argument : Expression} {rest : List Expression} {depth : Nat} {value : RuntimeValue}
      {applied : AppliedStep} (evaluated : (evaluate ctx bindings argument depth).Returns value)
      (available : value.value.isSome = true) (inner : ArgumentsApply rest applied) :
      ArgumentsApply (argument :: rest) applied

end

end Applies

/-! ### References -/

def Expression.isReference : Expression → Bool
  | .path _ => true
  | .access base segments => base.isReference && !segments.any AccessSegment.isComputed
  | _ => false

def Expression.rootAbsent (ctx : Json) (bindings : EvaluationBindings) : Expression → Bool
  | .path (.property root :: _) => (pathRoot ctx bindings root).value.isNone
  | .access base _ => base.rootAbsent ctx bindings
  | _ => false

mutual

/-- The number literals of an expression. -/
def Expression.numbers : Expression → List Number
  | .literal (.number number) => [number]
  | .literal _ | .path _ => []
  | .access base segments => base.numbers ++ segmentNumbers segments
  | .call _ arguments => argumentNumbers arguments
  | .not value => value.numbers
  | .binary _ left right => left.numbers ++ right.numbers

@[inherit_doc Expression.numbers]
def segmentNumbers : List AccessSegment → List Number
  | [] => []
  | .dynamic selector :: rest => selector.numbers ++ segmentNumbers rest
  | .property _ :: rest | .index _ :: rest | .projection :: rest => segmentNumbers rest

@[inherit_doc Expression.numbers]
def argumentNumbers : List Expression → List Number
  | [] => []
  | argument :: rest => argument.numbers ++ argumentNumbers rest

end

/-! ### Contexts -/

namespace Validator

variable (v : Validator)

def contextRecord : String → Option ContextRecord
  | "session" => some .session
  | "message" => some .message
  | "agent" => some .agent
  | "global" => some .global
  | "repo" => some .repo
  | "window" => some .window
  | "decisions" => some .decisions
  | "turn" => some .turn
  | _ => none

def ConformsContext (ctx : Json) : Prop :=
  ∀ root record json, contextRecord root = some record → ctx.get? root = some json →
    v.Conforms (.record record) json

def phaseAliases (phase : ExpressionContext) : List (String × ValueShape) :=
  if phase = .decisionInput then v.aliases else []

/-- Exactly the aliases in scope are bound, to values of their shapes. -/
def Binds (phase : ExpressionContext) (bindings : EvaluationBindings) : Prop :=
  ∀ name, match (v.phaseAliases phase).lookup name, bindings.lookup name with
    | some shape, some binding => ∀ json, binding.value = some json → v.Conforms shape json
    | none, none => True
    | _, _ => False

end Validator

end Antiburn
