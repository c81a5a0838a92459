/-
Fitting a decision input into a model request.

Targets are expanded once against the input and then reduced in place, one turn
each in every round, until the validator accepts the request.
-/
import Antiburn.Fit
import Antiburn.Lib.Saturating
import Antiburn.Locations
import Antiburn.Measure

namespace Antiburn

/-! ### Paths -/

def isFieldChar (c : Char) : Bool := c.isAlphanum || c == '_'

/-- Count and drop leading `[*]` traversals. -/
def dropTraversals : List Char → Nat × List Char
  | '[' :: '*' :: ']' :: rest => ((dropTraversals rest).1 + 1, (dropTraversals rest).2)
  | chars => (0, chars)

def parseFitFields : Nat → Bool → List Char → Option (List FitPathSegment)
  | 0, _, _ => none
  | fuel + 1, first, chars =>
    let field := chars.takeWhile isFieldChar
    if !(chars.head?.any fun c => c.isAlpha || c == '_') then none
    else if first && (!(chars.head?.any Char.isLower) || field.any Char.isUpper) then none
    else
      let (count, rest) := dropTraversals (chars.dropWhile isFieldChar)
      let segments := .field (String.ofList field) :: List.replicate count .each
      match rest with
      | [] => some segments
      | '.' :: rest => (parseFitFields fuel false rest).map (segments ++ ·)
      | _ => none

/-- Parses dot fields and `[*]` traversals without accepting indexes or expressions. -/
def parseFitPath (path : String) : Option (List FitPathSegment) :=
  if path.utf8ByteSize > MAX_FIT_PATH_BYTES then none
  else parseFitFields (path.toList.length + 1) true path.toList

/-- Prefix targets overlap because reducing a parent changes its descendants. -/
def pathsOverlap (left right : List FitPathSegment) : Bool :=
  (left.zip right).all fun (left, right) => left == right

/-! ### Resource limits -/

def resourceLimit (budget : PreparationBudget) : PreparationFailure where
  code := .preparationResourceLimit
  detail := "Input preparation reached a local resource limit. Select less input or fewer fitting targets. The model request was not sent."
  context :=
    { field :=
        match budget.kind with
        | .inputBytes | .inputNodes | .inputDepth => some "input"
        | .fitRules | .pathDepth | .pathBytes | .expandedTargets | .traversalNodes | .turns =>
          some "fit"
        | .workBytes | .requestBytes | .estimatedTokens | .residentBytes | .criteria => none
      budget := some budget }

def checkCount (kind : PreparationBudgetKind) (observed maximum : Nat) :
    Except PreparationFailure Unit :=
  if observed > maximum then .error (resourceLimit ⟨kind, observed, maximum⟩) else .ok ()

/-- Counts serialized bytes without exceeding the limit. -/
def measurePreparationBytes (value : Json) (maximum : Nat) (kind : PreparationBudgetKind) :
    Except PreparationFailure Nat :=
  match value.writes.foldlM (writeBytes maximum) 0 with
  | .ok observed => .ok observed
  | .error (.bytes observed _) => .error (resourceLimit ⟨kind, observed, maximum⟩)
  | .error _ =>
    .error
      { code := .invalidInput
        detail := "The decision input cannot be serialized." }

/-- One bounded preparation or immutable saved-validation pass. -/
structure FittingWorkBudget where
  consumed : Nat := 0
  deriving DecidableEq

namespace FittingWorkBudget

def MAXIMUM : Nat := 64 * 1024 * 1024

def charge (work : FittingWorkBudget) (bytes : Nat) :
    Except PreparationFailure Unit × FittingWorkBudget :=
  let observed := saturatingAdd work.consumed bytes
  (if observed > MAXIMUM then .error (resourceLimit ⟨.workBytes, observed, MAXIMUM⟩) else .ok (),
    ⟨observed⟩)

def measure (work : FittingWorkBudget) (value : Json) :
    Except PreparationFailure Nat × FittingWorkBudget :=
  match work.charge 0 with
  | (.error error, work) => (.error error, work)
  | (.ok (), work) =>
    match measurePreparationBytes value (MAXIMUM - work.consumed) .workBytes with
    | .error error =>
      match error.context.budget with
      | none => (.error error, work)
      | some budget =>
        let observed := saturatingAdd work.consumed budget.observed
        let budget := { budget with observed, maximum := MAXIMUM }
        (.error { error with context := { error.context with budget := some budget } }, ⟨observed⟩)
    | .ok bytes =>
      match work.charge bytes with
      | (.error error, work) => (.error error, work)
      | (.ok (), work) => (.ok bytes, work)

end FittingWorkBudget

/-- Values and text bytes seen by admission. -/
structure AdmittedCounts where
  nodes : Nat := 0
  textBytes : Nat := 0

def addTextBytes (counts : AdmittedCounts) (text : String) :
    Except PreparationFailure AdmittedCounts :=
  let total := saturatingAdd counts.textBytes text.utf8ByteSize
  if total > MAX_FIT_INPUT_BYTES then
    .error (resourceLimit ⟨.inputBytes, total, MAX_FIT_INPUT_BYTES⟩)
  else .ok { counts with textBytes := total }

/-- The checks that admission makes at every value. -/
def admitNode (depth : Nat) (counts : AdmittedCounts) : Except PreparationFailure AdmittedCounts := do
  checkCount .inputDepth depth MAX_FIT_INPUT_DEPTH
  checkCount .inputNodes (counts.nodes + 1) MAX_FIT_INPUT_NODES
  return { counts with nodes := counts.nodes + 1 }

mutual

/-- Admission of a value below the limits on depth, values and text. -/
def admitValue (depth : Nat) (counts : AdmittedCounts) :
    Json → Except PreparationFailure AdmittedCounts
  | .string text => do
    let counts ← admitNode depth counts
    addTextBytes counts text
  | .object fields => do
    let counts ← admitNode depth counts
    admitFields (depth + 1) counts fields
  | .array items => do
    let counts ← admitNode depth counts
    admitItems (depth + 1) counts items
  | .null | .bool _ | .number _ => admitNode depth counts

@[inherit_doc admitValue]
def admitItems (depth : Nat) (counts : AdmittedCounts) :
    List Json → Except PreparationFailure AdmittedCounts
  | [] => .ok counts
  | item :: rest => do
    let counts ← admitValue depth counts item
    admitItems depth counts rest

@[inherit_doc admitValue]
def admitFields (depth : Nat) (counts : AdmittedCounts) :
    List (String × Json) → Except PreparationFailure AdmittedCounts
  | [] => .ok counts
  | (key, value) :: rest => do
    let counts ← addTextBytes counts key
    let counts ← admitValue depth counts value
    admitFields depth counts rest

end

def admitInput (input : Json) : Except PreparationFailure Unit := do
  let _ ← admitValue 0 {} input
  let _ ← measurePreparationBytes input MAX_FIT_INPUT_BYTES .inputBytes

/-! ### Targets -/

structure FitTarget where
  pointer : String
  path : String
  strategy : FitStrategy
  originalCount : Nat
  retainedCount : Nat
  originalText : Option String := none
  exhausted : Bool := false
  deriving DecidableEq

structure Expansion where
  targets : List FitTarget := []
  visited : Nat := 0
  matched : Nat := 0

def invalidFit (detail path : String) : PreparationFailure where
  code := .invalidFit
  detail := detail
  context := { field := some "fit", inputPath := some path }

/-- The number that a strategy reduces, if the value has it. -/
def FitStrategy.count : FitStrategy → Json → Option Nat
  | .recent, .array items => some items.length
  | .truncate, .string text => some text.utf8ByteSize
  | _, _ => none

def FitStrategy.minimum : FitStrategy → Nat
  | .recent => 1
  | .truncate => MINIMUM_TEXT_BYTES

def expandTarget (value : Json) (pointer path : String) (strategy : FitStrategy)
    (expansion : Expansion) : Except PreparationFailure Expansion :=
  match strategy.count value with
  | none =>
    .error (invalidFit ("Fit target `" ++ path ++ "` has an incompatible value type.") path)
  | some count => do
    let expansion := { expansion with matched := expansion.matched + 1 }
    checkCount .expandedTargets expansion.matched MAX_FIT_TARGETS
    if count ≤ strategy.minimum then return expansion
    else
      let target : FitTarget :=
        { pointer, path, strategy, originalCount := count, retainedCount := count }
      return { expansion with targets := expansion.targets ++ [target] }

def extendPath (path : String) : Step → String
  | .key field => if path.isEmpty then field else path ++ "." ++ field
  | .index i => path ++ "[" ++ toString i ++ "]"

def expand : List FitPathSegment → Json → String → String → FitStrategy → Expansion →
    Except PreparationFailure Expansion
  | [], value, pointer, path, strategy, expansion => do
    let expansion := { expansion with visited := expansion.visited + 1 }
    checkCount .traversalNodes expansion.visited MAX_FIT_TRAVERSAL_NODES
    expandTarget value pointer path strategy expansion
  | segment :: rest, value, pointer, path, strategy, expansion => do
    let expansion := { expansion with visited := expansion.visited + 1 }
    checkCount .traversalNodes expansion.visited MAX_FIT_TRAVERSAL_NODES
    match segment, value with
    | .field field, .object object =>
      match Object.get? object field with
      | none => return expansion
      | some value =>
        expand rest value (pointer ++ "/" ++ escapeToken field) (extendPath path (.key field))
          strategy expansion
    | .each, .array items =>
      items.zipIdx.foldlM
        (fun expansion (value, index) =>
          expand rest value (pointer ++ "/" ++ toString index) (extendPath path (.index index))
            strategy expansion)
        expansion
    | _, _ =>
      .error (invalidFit ("Fit path `" ++ path ++ "` traverses an incompatible value type.") path)

def FitRule.pathBytes (rule : FitRule) : Nat :=
  rule.segments.foldl
    (fun total segment =>
      saturatingAdd total
        (match segment with
        | .field field => saturatingAdd field.utf8ByteSize 1
        | .each => 3))
    0 - 1

def expandRule (input : Json) (previous : List FitRule) (rule : FitRule) (expansion : Expansion) :
    Except PreparationFailure Expansion := do
  checkCount .pathDepth rule.segments.length MAX_FIT_PATH_SEGMENTS
  checkCount .pathBytes rule.pathBytes MAX_FIT_PATH_BYTES
  if previous.any fun previous => pathsOverlap previous.segments rule.segments then
    .error (invalidFit "Fit targets must not overlap." rule.path)
  else
    match expand rule.segments input "" "" rule.strategy expansion with
    | .ok expansion => .ok expansion
    | .error error =>
      let inputPath := error.context.inputPath.or (some rule.path)
      .error { error with context := { error.context with inputPath } }

/-- Expands the rules that follow `previous`. -/
def expandRules (input : Json) (previous : List FitRule) :
    List FitRule → Expansion → Except PreparationFailure Expansion
  | [], expansion => .ok expansion
  | rule :: rest, expansion => do
    let expansion ← expandRule input previous rule expansion
    expandRules input (previous ++ [rule]) rest expansion

/-! ### One reduction -/

def splitBytes : List Char → Nat → Option (List Char × List Char)
  | text, 0 => some ([], text)
  | [], _ + 1 => none
  | c :: rest, n + 1 =>
    if c.utf8Size ≤ n + 1 then
      (splitBytes rest (n + 1 - c.utf8Size)).map fun (before, after) => (c :: before, after)
    else none

def isCharBoundary (text : String) (n : Nat) : Bool := (splitBytes text.toList n).isSome

def headBoundary (text : String) : Nat → Nat → Nat
  | 0, head => head
  | fuel + 1, head => if isCharBoundary text head then head else headBoundary text fuel (head + 1)

def tailBoundary (text : String) : Nat → Nat
  | 0 => 0
  | tail + 1 => if isCharBoundary text (tail + 1) then tail + 1 else tailBoundary text tail

/-- Text around the bytes from `head` to `tail`: what is before, between and after. -/
def cutText (text : String) (head tail : Nat) : Option (String × String × String) := do
  let (before, after) ← splitBytes text.toList tail
  let (start, omitted) ← splitBytes before head
  return (String.ofList start, String.ofList omitted, String.ofList after)

/-- One turn of a target: whether it was reduced, the input and the target.
`none` is a panic. -/
def reduce (input : Json) (target : FitTarget) : Option (Bool × Json × FitTarget) := do
  let location ← input.pointerMut target.pointer
  let value ← input.at? location
  match target.strategy with
  | .recent =>
    let items ← value.asArray
    if items.length ≤ 1 then return (false, input, { target with exhausted := true })
    else
      let items := items.drop 1
      return (true, input.setAt location (.array items),
        { target with
          retainedCount := target.retainedCount - 1
          exhausted := items.length == 1 })
  | .truncate =>
    if target.retainedCount ≤ MINIMUM_TEXT_BYTES then
      return (false, input, { target with exhausted := true })
    else
      let original ← target.originalText.or value.asStr
      let target := { target with originalText := some original }
      let keep := max (target.retainedCount - TRUNCATE_CHUNK_BYTES) MINIMUM_TEXT_BYTES
      let head := headBoundary original (original.utf8ByteSize - (keep + 1) / 2) ((keep + 1) / 2)
      let tail := tailBoundary original (original.utf8ByteSize - keep / 2)
      let retained := head + original.utf8ByteSize - tail
      if retained ≥ target.retainedCount then
        return (false, input, { target with exhausted := true })
      else
        let (start, omitted, rest) ← cutText original head tail
        if target.retainedCount = target.originalCount ∧
            (renderString omitted).utf8ByteSize ≤ (renderString OMISSION_MARKER).utf8ByteSize then
          return (false, input, { target with exhausted := true })
        else
          return (true, input.setAt location (.string (start ++ OMISSION_MARKER ++ rest)),
            { target with
              retainedCount := retained
              exhausted := keep == MINIMUM_TEXT_BYTES })

/-! ### Rounds -/

/-- Complete-request validation distinguishes size from other local failures. -/
inductive FitValidationError where
  | overBudget (estimate : PreparationBudget)
  | resourceLimit (budget : PreparationBudget)
  | unavailable (detail : String)
  | invalidRequest (detail : String) (context : PreparationFailureContext)
  deriving DecidableEq

inductive FitOutcome where
  | fitted (value : Json) (report : FitReport)
  | failed (error : PreparationFailure)
  | panicked
  /-- Rounds without an end. -/
  | unfinished

/-- The end of a fitting run, with the work it spent and what its validator became. -/
structure FitExit (σ : Type) where
  outcome : FitOutcome
  work : FittingWorkBudget
  validator : σ

section Rounds

variable {σ : Type}

/-- A validator with its own state, which also spends from the shared work. -/
abbrev FitValidator (σ : Type) :=
  σ → FittingWorkBudget → Json → FitReport →
    Except FitValidationError Unit × FittingWorkBudget × σ

/-- The variables of a fitting run. -/
structure FitState (σ : Type) where
  input : Json
  report : FitReport := {}
  budget : Option PreparationBudget := none
  turns : Nat := 0
  work : FittingWorkBudget
  validator : σ

def FitState.exit (state : FitState σ) (outcome : FitOutcome) : FitExit σ :=
  ⟨outcome, state.work, state.validator⟩

def validateRequest (validate : FitValidator σ) (state : FitState σ) :
    Except (FitExit σ) (Bool × FitState σ) :=
  let (result, work, validator) := validate state.validator state.work state.input state.report
  let state := { state with work, validator }
  match result with
  | .ok () => .ok (true, state)
  | .error (.overBudget estimate) => .ok (false, { state with budget := some estimate })
  | .error (.resourceLimit budget) =>
    .error (state.exit (.failed { resourceLimit budget with report := some state.report }))
  | .error (.unavailable detail) =>
    .error (state.exit (.failed
      { code := .providerUnavailable, detail, report := some state.report }))
  | .error (.invalidRequest detail context) =>
    .error (state.exit (.failed
      { code := .invalidRequest, detail, context, report := some state.report }))

def FitTarget.omission (target : FitTarget) : FitOmission :=
  ⟨target.path, target.strategy, target.originalCount, target.retainedCount⟩

/-- Replace the first entry with the path of the omission, or add it at the end. -/
def saveOmission (omission : FitOmission) : List FitOmission → List FitOmission
  | [] => [omission]
  | saved :: rest =>
    if saved.path = omission.path then omission :: rest else saved :: saveOmission omission rest

/-- Charge the work of serializing the input. -/
def FitState.measure (state : FitState σ) : Except (FitExit σ) (FitState σ) :=
  match state.work.measure state.input with
  | (.error error, work) => .error ({ state with work }.exit (.failed error))
  | (.ok _, work) => .ok { state with work }

def fitTurn (validate : FitValidator σ) (target : FitTarget) (state : FitState σ) :
    Except (FitExit σ) (Bool × FitTarget × FitState σ) :=
  if target.exhausted then .ok (false, target, state)
  else
    let state := { state with turns := state.turns + 1 }
    match checkCount .turns state.turns MAX_FIT_TURNS with
    | .error error =>
      .error (state.exit (.failed
        { error with
          report := some state.report
          context := { error.context with inputPath := some target.path } }))
    | .ok () =>
      match reduce state.input target with
      | none => .error (state.exit .panicked)
      | some (false, input, target) => .ok (false, target, { state with input })
      | some (true, input, target) => do
        let state ← FitState.measure { state with input }
        let state :=
          { state with report := ⟨saveOmission target.omission state.report.omissions⟩ }
        let (accepted, state) ← validateRequest validate state
        if accepted then .error (state.exit (.fitted state.input state.report))
        else .ok (true, target, state)

def fitRound (validate : FitValidator σ) :
    List FitTarget → FitState σ → Except (FitExit σ) (Bool × List FitTarget × FitState σ)
  | [], state => .ok (false, [], state)
  | target :: rest, state => do
    let (reduced, target, state) ← fitTurn validate target state
    let (changed, rest, state) ← fitRound validate rest state
    return (reduced || changed, target :: rest, state)

/-- The failure of a run in which no target can be reduced further. -/
def noFit (rules : List FitRule) (matched : Nat) (report : FitReport)
    (budget : Option PreparationBudget) : PreparationFailure :=
  let (reason, detail) :=
    if rules.isEmpty then
      (NoFitReason.noRules,
        "The complete request exceeds the local model budget. No input fitting rules permit reductions.")
    else if matched = 0 then
      (.noMatchingTargets,
        "The complete request exceeds the local model budget. The selected fit paths do not match present values.")
    else if report.omissions.isEmpty then
      (.targetsAtMinimum,
        "The complete request exceeds the local model budget. Selected targets are at their retention limits or cannot become smaller after marking omissions.")
    else
      (.reductionsExhausted,
        "The complete request still exceeds the local model budget after all permitted reductions.")
  { code := .noFit
    detail
    report := some report
    context :=
      { field := some (if rules.isEmpty then "input" else "fit")
        inputPath := if rules.length = 1 then rules.head?.map (·.path) else none
        noFitReason := some reason
        budget } }

/-- Rounds until the request is accepted or nothing changes.  A round that changes
something takes a turn, so the limit on turns bounds them. -/
def fitRounds (validate : FitValidator σ) (rules : List FitRule) (matched : Nat) :
    Nat → List FitTarget → FitState σ → FitExit σ
  | 0, _, state => state.exit .unfinished
  | fuel + 1, targets, state =>
    match fitRound validate targets state with
    | .error exit => exit
    | .ok (false, _, state) =>
      state.exit (.failed (noFit rules matched state.report state.budget))
    | .ok (true, targets, state) => fitRounds validate rules matched fuel targets state

/-- Fits one block against the shared complete-preparation work allowance. -/
def fitInputWithWorkBudget (input : Json) (rules : List FitRule) (work : FittingWorkBudget)
    (validate : FitValidator σ) (validator : σ) : FitExit σ :=
  match admitInput input with
  | .error error => ⟨.failed error, work, validator⟩
  | .ok () =>
    match work.measure input with
    | (.error error, work) => ⟨.failed error, work, validator⟩
    | (.ok _, work) =>
      let expanded := do
        checkCount .fitRules rules.length MAX_FIT_RULES
        expandRules input [] rules {}
      match expanded with
      | .error error => ⟨.failed error, work, validator⟩
      | .ok expansion =>
        match validateRequest validate { input, work, validator } with
        | .error exit => exit
        | .ok (true, state) => state.exit (.fitted state.input state.report)
        | .ok (false, state) =>
          fitRounds validate rules expansion.matched (MAX_FIT_TURNS + 1) expansion.targets state

/-- Expands once, then gives each concrete target one turn per round. -/
def fitInput (input : Json) (rules : List FitRule)
    (validate : σ → Json → FitReport → Except FitValidationError Unit × σ) (validator : σ) :
    FitExit σ :=
  fitInputWithWorkBudget input rules {}
    (fun validator work input report =>
      let (result, validator) := validate validator input report
      (result, work, validator))
    validator

end Rounds

end Antiburn
