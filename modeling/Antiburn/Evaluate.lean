/-
Pure, bounded evaluation of expressions with source traces.

The evaluator follows the source function by function: every node, path step
and copy is charged to the shared budget at the point where the source charges
it, and missing evidence (`none`) stays distinct from JSON null.  Evaluation is
structurally recursive over the syntax; the loop of a projection calls back
into the access steps behind it, once for each item.
-/
import Antiburn.Decimal
import Antiburn.Provenance

namespace Antiburn

open EvalM RuntimeValue

/-! ### Copies -/

mutual

/-- Charge the copy of a value. -/
def checkCopy (depth : Nat) : Json → EvalM Unit
  | .array items => do
    step depth
    visitItems items.length
    reserveMaterializedBytes (items.length + 2)
    checkCopyItems (depth + 1) items
  | .object entries => do
    step depth
    visitItems entries.length
    reserveMaterializedBytes (entries.length + 2)
    checkCopyEntries (depth + 1) entries
  | .string text => do
    step depth
    reserveMaterializedBytes text.utf8ByteSize
  | _ => do
    step depth
    reserveMaterializedBytes 32

@[inherit_doc checkCopy]
def checkCopyItems (depth : Nat) : List Json → EvalM Unit
  | [] => pure ()
  | item :: rest => do
    checkCopy depth item
    checkCopyItems depth rest

@[inherit_doc checkCopy]
def checkCopyEntries (depth : Nat) : List (String × Json) → EvalM Unit
  | [] => pure ()
  | (key, value) :: rest => do
    reserveMaterializedBytes (key.utf8ByteSize + 3)
    checkCopy depth value
    checkCopyEntries depth rest

end

def copyValue (value : Json) (depth : Nat) : EvalM Json := do
  checkCopy depth value
  return value

def RuntimeValue.finish (value : RuntimeValue) (depth : Nat) : EvalM EvaluatedValue := do
  match value.value, value.owned with
  | some json, false =>
    let json ← copyValue json depth
    return ⟨some json, value.trace, value.metadata⟩
  | json, _ => return ⟨json, value.trace, value.metadata⟩

/-! ### Scalars -/

def isTruthy : Json → Bool
  | .null => false
  | .bool value => value
  | .number number => number.isNonzero
  | .string text => !text.isEmpty
  | .array _ | .object _ => true

def literalValue : ExpressionLiteral → Json
  | .string value => .string value
  | .number value => .number value
  | .boolean value => .bool value
  | .null => .null

def scalarText : Json → EvalM String
  | .null => pure ""
  | .bool value => do
    let text := if value then "true" else "false"
    reserveGeneratedBytes text.utf8ByteSize
    return text
  | .number number => do
    reserveGeneratedBytes number.text.utf8ByteSize
    return number.text
  | .string text => do
    reserveGeneratedBytes text.utf8ByteSize
    return text
  | .array _ | .object _ =>
    Ledger.fail (invalidError "Arrays and objects require explicit toJSON conversion.")

def append (output text : String) : EvalM String := do
  reserveGeneratedBytes text.utf8ByteSize
  return output ++ text

section Comparison

variable [Platform]

def lowercase (value : String) : EvalM String := do
  reserveGeneratedBytes (Platform.lowercaseBytes value)
  return Platform.lowercase value

/-- The number that a scalar of another type compares as. -/
def coerceNumber : Json → Option DecimalNumber
  | .null | .bool false => DecimalNumber.parse "0"
  | .bool true => DecimalNumber.parse "1"
  | .number number => number.decimal
  | .string text =>
    if text.isEmpty then DecimalNumber.parse "0"
    else (Platform.parseNumber text).bind Number.decimal
  | .array _ | .object _ => none

/-- Equality by the check language's rules; containers compare by identity. -/
def equal (left right : Json) (sameOrigin : Bool) : EvalM Bool :=
  match left, right with
  | .null, .null => pure true
  | .bool left, .bool right => pure (left == right)
  | .number left, .number right => pure (left.decimal == right.decimal)
  | .string left, .string right => do
    let left ← lowercase left
    let right ← lowercase right
    return left == right
  | left, right =>
    if left.isContainer && right.isContainer then pure sameOrigin
    else match coerceNumber left, coerceNumber right with
      | some left, some right => pure (left == right)
      | _, _ => pure false

/-- Order by the check language's rules; `none` where values do not compare. -/
def ordered (left right : Json) : EvalM (Option Ordering) :=
  match left, right with
  | .string left, .string right => do
    let left ← lowercase left
    let right ← lowercase right
    return some (compare left right)
  | .number left, .number right =>
    pure (left.decimal.bind fun left => right.decimal.map left.cmp)
  | .bool left, .bool right => pure (some (compare left.toNat right.toNat))
  | .null, .null | .array _, .array _ | .object _, .object _ => pure none
  | left, right => pure ((coerceNumber left).bind fun left => (coerceNumber right).map left.cmp)

def sameIdentity (left right : ValueMetadata) : Bool :=
  match left.identity, right.identity with
  | some left, some right => left == right
  | _, _ => false

def orderHolds (operator : BinaryOperator) (order : Option Ordering) : Bool :=
  match operator, order with
  | _, none => false
  | .less, some order => order.isLT
  | .lessOrEqual, some order => order.isLE
  | .greater, some order => order.isGT
  | .greaterOrEqual, some order => order.isGE
  | _, some _ => false

def compareValues (operator : BinaryOperator) (left right : RuntimeValue) : EvalM RuntimeValue := do
  let trace := left.trace.merge right.trace
  match left.value, right.value with
  | some leftValue, some rightValue =>
    let same := sameIdentity left.metadata right.metadata
    let result ← match operator with
      | .equal => equal leftValue rightValue same
      | .notEqual => Bool.not <$> equal leftValue rightValue same
      | _ => orderHolds operator <$> ordered leftValue rightValue
    return .scalar (.bool result) trace
  | _, _ => return .unavailable (.derived trace)

end Comparison

/-! ### JSON text -/

/-- Write the characters of a JSON string; `pending` holds the unescaped run
read so far, in reverse. -/
def writeCharacters : List Char → (pending : List Char) → String → EvalM String
  | [], pending, output => append output (String.ofList pending.reverse)
  | c :: rest, pending, output =>
    match jsonEscape c with
    | none => writeCharacters rest (c :: pending) output
    | some escape => do
      let output ← append output (String.ofList pending.reverse)
      let output ← append output escape
      writeCharacters rest [] output

def writeString (value output : String) : EvalM String := do
  let output ← append output "\""
  let output ← writeCharacters value.toList [] output
  append output "\""

structure JsonOutput where
  text : String
  sources : EvaluationTrace

def JsonOutput.append (output : JsonOutput) (text : String) : EvalM JsonOutput := do
  return { output with text := ← Antiburn.append output.text text }

mutual

/-- Write a value as JSON text. -/
def writeJson (depth : Nat) : Json → ValueProvenance → JsonOutput → EvalM JsonOutput
  | .array items, provenance, output => do
    step depth
    let output := { output with sources := provenance.collectSources (.array items) output.sources }
    visitItems items.length
    let output ← output.append "["
    let output ← writeItems depth provenance 0 items output
    output.append "]"
  | .object entries, provenance, output => do
    step depth
    let output :=
      { output with sources := provenance.collectSources (.object entries) output.sources }
    visitItems entries.length
    let output ← output.append "\x7b"
    let output ← writeEntries depth provenance true entries output
    output.append "\x7d"
  | .string text, provenance, output => do
    step depth
    let sources := provenance.collectSources (.string text) output.sources
    return ⟨← writeString text output.text, sources⟩
  | value, provenance, output => do
    step depth
    let output := { output with sources := provenance.collectSources value output.sources }
    match value with
    | .null => output.append "null"
    | .bool value => output.append (if value then "true" else "false")
    | value =>
      let text ← scalarText value
      output.append text

@[inherit_doc writeJson]
def writeItems (depth : Nat) (provenance : ValueProvenance) :
    Nat → List Json → JsonOutput → EvalM JsonOutput
  | _, [], output => pure output
  | index, item :: rest, output => do
    let output ← if 0 < index then output.append "," else pure output
    let output ← writeJson (depth + 1) item (provenance.child (.index index)) output
    writeItems depth provenance (index + 1) rest output

@[inherit_doc writeJson]
def writeEntries (depth : Nat) (provenance : ValueProvenance) :
    Bool → List (String × Json) → JsonOutput → EvalM JsonOutput
  | _, [], output => pure output
  | first, (key, value) :: rest, output => do
    let output ← if first then pure output else output.append ","
    let output : JsonOutput := { output with text := ← writeString key output.text }
    let output ← output.append ":"
    let output ← writeJson (depth + 1) value (provenance.child (.property key)) output
    writeEntries depth provenance false rest output

end

section Text

variable [Platform]

def chargeVisits (depth : Nat) : List JsonVisit → EvalM Unit
  | [] => pure ()
  | visit :: rest => do
    step (depth + visit.depth)
    if visit.item then visitItems 1
    chargeVisits depth rest

def parseJson (text : String) (depth : Nat) : EvalM Json := do
  reserveGeneratedBytes text.utf8ByteSize
  let reading := Platform.readJson text
  match ← attempt (chargeVisits depth reading.visits), reading.value with
  | .ok (), some value => return value
  | _, _ =>
    if ← EvalM.exhausted then
      Ledger.fail (limitError "JSON parsing exhausted the shared evaluation budget.")
    else Ledger.fail (invalidError "fromJSON requires valid finite JSON.")

/-! ### Selection -/

def select (value : RuntimeValue) (segment : PathSegment) : RuntimeValue :=
  match value.value with
  | none => .unavailable value.metadata
  | some json =>
    match segment, json with
    | .property "length", .array items =>
      .scalar (.number (.ofNat items.length)) value.metadata.membershipTrace
    | _, _ =>
      let child := value.metadata.child segment
      let metadata := match json with
        | .array _ =>
          { child with
            dependencies := child.dependencies.merge value.metadata.membershipTrace }
        | _ => child
      let selected := match segment, json with
        | .property name, .object entries => Object.get? entries name
        | .index index, .array items => items[index]?
        | _, _ => none
      ⟨selected, value.owned, metadata⟩

/-- The fixed step that an evaluated selector denotes. -/
def dynamicSegment : Json → EvalM (Option PathSegment)
  | .string key => do
    reserveGeneratedBytes key.utf8ByteSize
    return some (.property key)
  | .number number => pure (number.integralIndex.map .index)
  | _ => pure none

def projectionEntries : Json → Option (List (PathSegment × Json))
  | .array items => some (items.zipIdx.map fun (item, index) => (.index index, item))
  | .object entries => some (entries.map fun (key, value) => (.property key, value))
  | _ => none

def reserveKeys : List (PathSegment × Json) → EvalM Unit
  | (.property key, _) :: rest => do
    reserveGeneratedBytes key.utf8ByteSize
    reserveKeys rest
  | _ => pure ()

/-- Select from every item in order; the first missing one makes the whole
projection unavailable. -/
def projectItems (accessItem : RuntimeValue → EvalM RuntimeValue) (depth : Nat)
    (source : RuntimeValue) (dependencies : EvaluationTrace) :
    List (PathSegment × Json) → List Json → List ValueMetadata → EvalM RuntimeValue
  | [], output, metadata => do
    let result ← ofOwned (.array output) dependencies
    return { result with metadata := { result.metadata with items := metadata } }
  | (segment, item) :: rest, output, metadata => do
    let selected ← accessItem ⟨some item, source.owned, source.metadata.child segment⟩
    match selected.value with
    | none =>
      let dependencies := metadata.foldl (fun acc item => acc.merge item.trace)
        (dependencies.merge selected.trace)
      return .unavailable (.derived dependencies)
    | some _ =>
      let finished ← selected.finish depth
      match finished.value with
      | some json =>
        projectItems accessItem depth source dependencies rest (output ++ [json])
          (metadata ++ [finished.metadata])
      | none => return .unavailable (.derived dependencies)

/-- Projection over an array or object; `depth` is the depth of the items. -/
def project (accessItem : RuntimeValue → EvalM RuntimeValue) (depth : Nat)
    (value : RuntimeValue) : EvalM RuntimeValue := do
  step depth
  let dependencies := value.metadata.membershipTrace
  match value.value with
  | none => return .unavailable (.derived dependencies)
  | some json =>
    match projectionEntries json with
    | none => return .unavailable (.derived value.trace)
    | some entries =>
      visitItems entries.length
      reserveGeneratedBytes (entries.length + 2)
      if !value.owned then reserveKeys entries
      projectItems accessItem depth value dependencies entries [] []

def pathRoot (context : Json) (bindings : EvaluationBindings) (root : String) : RuntimeValue :=
  match bindings.lookup root with
  | some binding => ⟨binding.value, false, binding.metadata⟩
  | none => ⟨context.get? root, false, .frozen [.property root]⟩

def pathSteps : List PathSegment → Nat → RuntimeValue → EvalM RuntimeValue
  | [], _, value => pure value
  | segment :: rest, depth, value => do
    step depth
    pathSteps rest (depth + 1) (select value segment)

def evaluatePath (context : Json) (bindings : EvaluationBindings) (path : List PathSegment)
    (depth : Nat) : EvalM RuntimeValue :=
  match path with
  | .property root :: rest => pathSteps rest depth (pathRoot context bindings root)
  | _ => pure (.unavailable {})

/-! ### Functions -/

def containsItem (items : RuntimeValue) (needle : RuntimeValue) (right : Json) (depth : Nat) :
    List (Json × Nat) → EvaluationTrace → EvalM RuntimeValue
  | [], trace => pure (.scalar (.bool false) trace)
  | (item, index) :: rest, trace => do
    visitItems 1
    step (depth + 1)
    let metadata := items.metadata.child (.index index)
    let trace := trace.merge metadata.trace
    if ← equal item right (sameIdentity metadata needle.metadata) then
      return .scalar (.bool true) trace
    else containsItem items needle right depth rest trace

def joinItems (items : RuntimeValue) (separator : String) (separatorSources : EvaluationTrace)
    (depth : Nat) : List (Json × Nat) → String → EvaluationTrace → EvalM (String × EvaluationTrace)
  | [], text, sources => pure (text, sources)
  | (item, index) :: rest, text, sources => do
    step (depth + 1)
    let sources := sources.merge (items.metadata.child (.index index)).textSourceTrace
    let text ← if 0 < index then append text separator else pure text
    let sources := if 0 < index then sources.merge separatorSources else sources
    let item ← scalarText item
    let text ← append text item
    joinItems items separator separatorSources depth rest text sources

/-- Expand a format template.  `fuel` bounds the rounds by the characters left;
each round consumes at least one. -/
def renderFormat (values : List String) (evaluated : List RuntimeValue) (depth : Nat) :
    (fuel : Nat) → List Char → String → EvaluationTrace → EvalM (String × EvaluationTrace)
  | 0, _, output, sources => pure (output, sources)
  | _, [], output, sources => pure (output, sources)
  | fuel + 1, c :: rest, output, sources => do
    step depth
    if (c == '{' || c == '}') && rest.head? == some c then
      let output ← append output (String.ofList [c])
      renderFormat values evaluated depth fuel (rest.drop 1) output sources
    else if c == '{' then
      let digits := rest.takeWhile (· != '}')
      if digits.length == rest.length then
        Ledger.fail (invalidError "format has an unmatched opening brace.")
      else if digits.isEmpty || !digits.all Char.isDigit then
        Ledger.fail (invalidError "format placeholders require a nonnegative integer.")
      else
        let index := Number.digitsValue digits
        match values[index]?, evaluated[index]? with
        | some value, some source =>
          let sources := sources.merge source.metadata.textSourceTrace
          let output ← append output value
          renderFormat values evaluated depth fuel (rest.drop (digits.length + 1)) output sources
        | _, _ => Ledger.fail (invalidError "format references an unavailable argument.")
    else if c == '}' then
      Ledger.fail (invalidError "format has an unmatched closing brace.")
    else
      let run := (c :: rest).takeWhile fun c => c != '{' && c != '}'
      let output ← append output (String.ofList run)
      renderFormat values evaluated depth fuel ((c :: rest).drop run.length) output sources

/-- Equality of primitive values without coercion. -/
def strictEqual : Json → Json → Bool
  | .null, .null => true
  | .bool left, .bool right => left == right
  | .number left, .number right => left.decimal == right.decimal
  | .string left, .string right => left == right
  | _, _ => false

def lowercaseTexts (text part : Json) : EvalM (String × String) := do
  let text ← scalarText text
  let part ← scalarText part
  let text ← lowercase text
  let part ← lowercase part
  return (text, part)

/-- Whether `part` occurs in `text`. -/
def isSubstring (part text : List Char) : Bool := text.tails.any part.isPrefixOf

/-- Scalar texts of the arguments of `format`. -/
def scalarTexts : List RuntimeValue → EvalM (List String)
  | [] => pure []
  | value :: rest => do
    let text ← scalarText (value.value.getD .null)
    let texts ← scalarTexts rest
    return text :: texts

/-- Apply a function to its available arguments; the arity was checked. -/
def applyFunction (function : ExpressionFunction) (values : List RuntimeValue)
    (trace : EvaluationTrace) (depth : Nat) : EvalM RuntimeValue :=
  let first := values.headD (.unavailable {})
  let second := values.tail.headD (.unavailable {})
  let left := first.value.getD .null
  let right := second.value.getD .null
  match function with
  | .strictEquals =>
    if left.isContainer || right.isContainer then
      Ledger.fail (invalidError "strictEquals requires primitive arguments.")
    else return .scalar (.bool (strictEqual left right)) trace
  | .contains =>
    match left with
    | .array items =>
      let trace := first.metadata.membershipTrace.merge second.trace
      containsItem first second right depth items.zipIdx trace
    | left => do
      let (text, needle) ← lowercaseTexts left right
      return .scalar (.bool (isSubstring needle.toList text.toList)) trace
  | .startsWith => do
    let (text, part) ← lowercaseTexts left right
    return .scalar (.bool (part.toList.isPrefixOf text.toList)) trace
  | .endsWith => do
    let (text, part) ← lowercaseTexts left right
    return .scalar (.bool (part.toList.isSuffixOf text.toList)) trace
  | .join => do
    let separator ← match values.tail with
      | [] => pure ","
      | value :: _ => scalarText (value.value.getD .null)
    match left with
    | .string _ =>
      return { first with
        metadata := { first.metadata with dependencies := first.metadata.dependencies.merge trace } }
    | .array items =>
      let trace := trace.merge first.metadata.membershipTrace
      visitItems items.length
      let separatorSources := match values.tail with
        | [] => {}
        | value :: _ => value.metadata.textSourceTrace
      let (text, sources) ← joinItems first separator separatorSources depth items.zipIdx ""
        first.metadata.textSourceTrace
      return ⟨some (.string text), true, { dependencies := trace, textSources := sources }⟩
    | _ => Ledger.fail (invalidError "join requires an array or a string.")
  | .format => do
    let template ← scalarText left
    let replacements ← scalarTexts values.tail
    let (text, sources) ← renderFormat replacements values.tail depth template.toList.length
      template.toList "" first.metadata.textSourceTrace
    return ⟨some (.string text), true, { dependencies := trace, textSources := sources }⟩
  | .toJSON => do
    let provenance := first.metadata.sourceProvenance
    let output ← writeJson (depth + 1) left provenance ⟨"", {}⟩
    return ⟨some (.string output.text), true,
      { dependencies := trace, encodedProvenance := some provenance,
        textSources := output.sources }⟩
  | .fromJSON =>
    match left with
    | .string text => do
      let value ← parseJson text (depth + 1)
      let result ← ofOwned value trace
      match first.metadata.encodedProvenance with
      | some provenance =>
        return { result with metadata := result.metadata.restoreProvenance provenance }
      | none =>
        return { result with
          metadata := { result.metadata with
            membershipSources := first.metadata.textSourceTrace } }
    | _ => Ledger.fail (invalidError "fromJSON requires a string.")

/-! ### The evaluator -/

def shortCircuits (operator : BinaryOperator) (left : Json) : Bool :=
  (operator == .and && !isTruthy left) || (operator == .or && isTruthy left)

mutual

def evaluate (context : Json) (bindings : EvaluationBindings) :
    Expression → (depth : Nat) → EvalM RuntimeValue
  | .literal literal, depth => do
    step depth
    match literal with
    | .string text => reserveGeneratedBytes text.utf8ByteSize
    | _ => pure ()
    return .scalar (literalValue literal) {}
  | .path path, depth => do
    step depth
    evaluatePath context bindings path depth
  | .access base segments, depth => do
    step depth
    let value ← evaluate context bindings base (depth + 1)
    access context bindings segments depth 0 value
  | .call function arguments, depth => do
    step depth
    if !function.acceptsArity arguments.length then
      Ledger.fail (invalidError "Wrong number of expression function arguments.")
    else
      match ← evaluateArguments context bindings arguments depth {} [] with
      | (trace, none) => return .unavailable (.derived trace)
      | (trace, some values) => applyFunction function values trace depth
  | .not value, depth => do
    step depth
    let value ← evaluate context bindings value (depth + 1)
    match value.value with
    | some json => return .scalar (.bool (!isTruthy json)) value.trace
    | none => return .unavailable (.derived value.trace)
  | .binary operator left right, depth => do
    step depth
    let left ← evaluate context bindings left (depth + 1)
    match left.value with
    | none => return left
    | some json =>
      if shortCircuits operator json then return left
      else
        let right ← evaluate context bindings right (depth + 1)
        match operator with
        | .and | .or =>
          return { right with
            metadata := { right.metadata with
              dependencies := right.metadata.dependencies.merge left.trace } }
        | operator => compareValues operator left right

/-- The steps of an access chain; `position` counts the steps behind. -/
def access (context : Json) (bindings : EvaluationBindings) :
    List AccessSegment → (depth position : Nat) → RuntimeValue → EvalM RuntimeValue
  | [], _, _, value => pure value
  | .property name :: rest, depth, position, value => do
    step (depth + position)
    if value.value.isNone then return value
    else access context bindings rest depth (position + 1) (select value (.property name))
  | .index index :: rest, depth, position, value => do
    step (depth + position)
    if value.value.isNone then return value
    else access context bindings rest depth (position + 1) (select value (.index index))
  | .dynamic expression :: rest, depth, position, value => do
    step (depth + position)
    if value.value.isNone then return value
    else
      let selector ← evaluate context bindings expression (depth + 1)
      let value := { value with
        metadata := { value.metadata with
          dependencies := value.metadata.dependencies.merge selector.trace } }
      match selector.value with
      | none => return .unavailable (.derived value.trace)
      | some json =>
        match ← dynamicSegment json with
        | none => return .unavailable (.derived value.trace)
        | some segment =>
          access context bindings rest depth (position + 1) (select value segment)
  | .projection :: rest, depth, position, value => do
    step (depth + position)
    if value.value.isNone then return value
    else project (access context bindings rest (depth + 1) 0) (depth + 1) value

def evaluateArguments (context : Json) (bindings : EvaluationBindings) :
    List Expression → (depth : Nat) → EvaluationTrace → List RuntimeValue →
      EvalM (EvaluationTrace × Option (List RuntimeValue))
  | [], _, trace, values => pure (trace, some values)
  | argument :: rest, depth, trace, values => do
    let value ← evaluate context bindings argument (depth + 1)
    let trace := trace.merge value.trace
    if value.value.isNone then return (trace, none)
    else evaluateArguments context bindings rest depth trace (values ++ [value])

end

/-- Evaluate one leaf under the assessment's shared budget and alias scope. -/
def evaluateExpressionWithBudget (expression : Expression) (context : Json)
    (bindings : EvaluationBindings) (depth : Nat) : EvalM EvaluatedValue := do
  let value ← evaluate context bindings expression depth
  value.finish depth

end Text

end Antiburn
