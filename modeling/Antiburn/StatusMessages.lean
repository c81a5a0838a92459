/-
The message of a current status, read back from the plan that wrote it.

A plan is stored as text.  The projection of a session reads it into types of
its own, and checks the order of the outcomes, their texts and the last write.
What the plan holds follows from one statement about each action: it ends with
an outcome that the projection accepts, or with an error that says what went
wrong.
-/
import Antiburn.SavedResults
import Antiburn.SharedBudget

namespace Antiburn

/-! ### The stored plan -/

/-- The name of the variant. -/
def DiagnosticCode.variant : DiagnosticCode → String
  | configInvalidValue => "ConfigInvalidValue"
  | compileUnsupportedFeature => "CompileUnsupportedFeature"
  | compileInvalidExpression => "CompileInvalidExpression"
  | compileUnknownReference => "CompileUnknownReference"
  | compileInvalidWindow => "CompileInvalidWindow"
  | compileInvalidDecision => "CompileInvalidDecision"
  | compileInvalidAction => "CompileInvalidAction"
  | runtimeInvalidDecision => "RuntimeInvalidDecision"
  | runtimeInvalidContext => "RuntimeInvalidContext"
  | evaluationLimitExceeded => "EvaluationLimitExceeded"

@[inherit_doc DiagnosticCode.variant]
def StatusResult.variant : StatusResult → String
  | success => "Success"
  | failure => "Failure"

def StatusResult.name : StatusResult → String
  | success => "success"
  | failure => "failure"

def ActionOutcomeKind.json : ActionOutcomeKind → Json
  | applied result message => .object [("Applied", .object [("result", .string result.variant),
      ("message", message.elim .null .string)])]
  | skippedConditionFalse => .string "SkippedConditionFalse"
  | skippedConditionUnavailable => .string "SkippedConditionUnavailable"
  | skippedInputUnavailable => .string "SkippedInputUnavailable"
  | failed error => .object [("Failed", .object [("code", .string error.code.variant),
      ("message", .string error.message)])]

def ActionOutcome.json (outcome : ActionOutcome) : Json :=
  .object [("index", .number (.ofNat outcome.index)), ("outcome", outcome.outcome.json)]

def ActionPlan.json (plan : ActionPlan) : Json :=
  .object [("current_status", plan.currentStatus.elim .null fun result => .string result.variant),
    ("outcomes", .array (plan.outcomes.map ActionOutcome.json))]

def ActionOutcomeKind.write? : ActionOutcomeKind → Option (StatusResult × Option String)
  | applied result message => some (result, message)
  | _ => none

def lastWrite? (outcomes : List ActionOutcome) : Option (StatusResult × Option String) :=
  (outcomes.filterMap fun outcome => outcome.outcome.write?).getLast?

/-! ### Its reader -/

inductive CheckStatus where
  | failure
  | success
  deriving DecidableEq

def CheckStatus.name : CheckStatus → String
  | failure => "failure"
  | success => "success"

inductive StoredActionOutcome where
  | applied (result : CheckStatus) (message : Option String)
  | skippedConditionFalse
  | skippedConditionUnavailable
  | skippedInputUnavailable
  | failed (code message : String)

structure StoredAction where
  index : Nat
  outcome : StoredActionOutcome

structure StoredPlan where
  currentStatus : CheckStatus
  outcomes : List StoredAction

def recordFields (names : List String) : Json → Option (List Json)
  | .object entries =>
    if (entries.map Prod.fst).Nodup then structFields names (.object entries) else none
  | json => structFields names json

def variantContent : Json → Option (String × Json)
  | .string name => some (name, .null)
  | .object [(name, content)] => some (name, content)
  | _ => none

def CheckStatus.read (json : Json) : Option CheckStatus := do
  match ← variantContent json with
  | ("Failure", .null) => some .failure
  | ("Success", .null) => some .success
  | _ => none

def withMessage : Json → Json
  | .object entries =>
    .object (if (Object.get? entries "message").isSome then entries
      else entries ++ [("message", .null)])
  | json => json

def optionalText : Json → Option (Option String)
  | .null => some none
  | .string text => some (some text)
  | _ => none

def StoredActionOutcome.read (json : Json) : Option StoredActionOutcome := do
  let (name, content) ← variantContent json
  match name with
  | "Applied" =>
    match ← recordFields ["result", "message"] (withMessage content) with
    | [result, message] => do
      let result ← CheckStatus.read result
      let message ← optionalText message
      return .applied result message
    | _ => none
  | "Failed" =>
    match ← recordFields ["code", "message"] content with
    | [code, message] => do
      let code ← code.asStr
      let message ← message.asStr
      return .failed code message
    | _ => none
  | "SkippedConditionFalse" => if content matches .null then some .skippedConditionFalse else none
  | "SkippedConditionUnavailable" =>
    if content matches .null then some .skippedConditionUnavailable else none
  | "SkippedInputUnavailable" =>
    if content matches .null then some .skippedInputUnavailable else none
  | _ => none

def StoredAction.read (json : Json) : Option StoredAction := do
  match ← recordFields ["index", "outcome"] json with
  | [index, outcome] => do
    let index ← readUnsigned (2 ^ 64) index
    let outcome ← StoredActionOutcome.read outcome
    return ⟨index, outcome⟩
  | _ => none

def StoredPlan.read (json : Json) : Option StoredPlan := do
  match ← recordFields ["current_status", "outcomes"] json with
  | [status, outcomes] => do
    let status ← CheckStatus.read status
    let outcomes ← outcomes.asArray
    let outcomes ← outcomes.mapM StoredAction.read
    return ⟨status, outcomes⟩
  | _ => none

def MAX_STATUS_MESSAGE_BYTES : Nat := 4096

section Reader

variable [Platform]

/-- One outcome of a stored plan, after the `last` write before it. -/
def storedWrite (last : Option (CheckStatus × Option String)) (index : Nat)
    (action : StoredAction) : Except String (Option (CheckStatus × Option String)) :=
  if action.index ≠ index then .error "stored status action order is invalid"
  else match action.outcome with
    | .applied result message =>
      -- `message.trim().is_empty()`
      if message.any fun message => message.toList.all Platform.isWhitespace then
        .error "stored status message is blank"
      else .ok (some (result, message))
    | .failed code message =>
      if code = "" ∨ message = "" then .error "stored action error is invalid" else .ok last
    | _ => .ok last

/-- The last write of the outcomes from `index` on. -/
def storedWrites : Nat → List StoredAction → Option (CheckStatus × Option String) →
    Except String (Option (CheckStatus × Option String))
  | _, [], last => .ok last
  | index, action :: rest, last => do
    let last ← storedWrite last index action
    storedWrites (index + 1) rest last

omit [Platform] in
def CheckStatus.ofName : String → Except String CheckStatus
  | "failure" => .ok .failure
  | "success" => .ok .success
  | _ => .error "unknown current check status"

/-- `document` is the reading of a text by `serde_json`, its members in their order. -/
def statusMessage (document : String → Option Json) (actions : Option String) (status : String) :
    Except String (Option String) :=
  match actions with
  | none => .ok none
  | some actions => do
    let expected ← CheckStatus.ofName status
    match (document actions).bind StoredPlan.read with
    | none => throw "decode status actions"
    | some plan =>
      if plan.currentStatus ≠ expected then throw "stored plan does not match current status"
      else match ← storedWrites 0 plan.outcomes none with
        | none => throw "current status has no applied action"
        | some (result, message) =>
          if result ≠ expected then
            throw "stored status action does not match current status"
          else if message.any fun message => MAX_STATUS_MESSAGE_BYTES < message.utf8ByteSize then
            throw "check status message exceeds the projection limit"
          else return message

def rowMessage (document : String → Option Json) (ready : Bool) (historyValid : Option Bool)
    (status actions : Option String) : Except String (Option CheckStatus × Option String) :=
  if status.isSome && historyValid.isNone then
    .error "current status has no matching assessment"
  else do
    let status ← if ready && historyValid == some true then status.mapM CheckStatus.ofName
      else pure none
    let message ← match status, actions with
      | none, _ => pure none
      | some _, none => throw "current status has no saved actions"
      | some status, some actions => statusMessage document (some actions) status.name
    if message.any fun message => MAX_STATUS_MESSAGE_BYTES < message.utf8ByteSize then
      throw "check status message exceeds the projection limit"
    else return (status, message)

end Reader

/-! ### What is stored is read -/

def StatusResult.stored : StatusResult → CheckStatus
  | success => .success
  | failure => .failure

def ActionOutcomeKind.stored : ActionOutcomeKind → StoredActionOutcome
  | applied result message => .applied result.stored message
  | skippedConditionFalse => .skippedConditionFalse
  | skippedConditionUnavailable => .skippedConditionUnavailable
  | skippedInputUnavailable => .skippedInputUnavailable
  | failed error => .failed error.code.variant error.message

def ActionOutcome.stored (outcome : ActionOutcome) : StoredAction :=
  ⟨outcome.index, outcome.outcome.stored⟩

lemma CheckStatus.read_variant (result : StatusResult) :
    CheckStatus.read (.string result.variant) = some result.stored := by
  cases result <;> rfl

lemma StoredActionOutcome.read_json (outcome : ActionOutcomeKind) :
    StoredActionOutcome.read outcome.json = some outcome.stored := by
  cases outcome with
  | applied result message =>
    cases message <;> cases result <;> rfl
  | skippedConditionFalse | skippedConditionUnavailable | skippedInputUnavailable | failed => rfl

lemma StoredAction.read_json {outcome : ActionOutcome} (h : outcome.index < 2 ^ 64) :
    StoredAction.read outcome.json = some outcome.stored := by
  have hindex : readUnsigned (2 ^ 64) (.number (.ofNat outcome.index)) = some outcome.index := by
    show (Number.ofNat outcome.index).asU64.filter (· < 2 ^ 64) = some outcome.index
    rw [JsonCodec.asU64_ofNat]
    exact if_pos (decide_eq_true h)
  have hout := StoredActionOutcome.read_json outcome.outcome
  show (do
    let index ← readUnsigned (2 ^ 64) (.number (.ofNat outcome.index))
    let kind ← StoredActionOutcome.read outcome.outcome.json
    return (⟨index, kind⟩ : StoredAction)) = _
  rw [hindex, hout]
  rfl

lemma StoredPlan.read_json {plan : ActionPlan} {result : StatusResult}
    (hstatus : plan.currentStatus = some result)
    (hindex : ∀ outcome ∈ plan.outcomes, outcome.index < 2 ^ 64) :
    StoredPlan.read plan.json = some ⟨result.stored, plan.outcomes.map ActionOutcome.stored⟩ := by
  have houtcomes : (plan.outcomes.map ActionOutcome.json).mapM StoredAction.read =
      some (plan.outcomes.map ActionOutcome.stored) := by
    generalize plan.outcomes = outcomes at hindex
    induction outcomes with
    | nil => rfl
    | cons outcome rest ih =>
      rw [List.map_cons, List.mapM_cons, StoredAction.read_json (hindex outcome List.mem_cons_self),
        ih fun other hother => hindex other (List.mem_cons_of_mem _ hother)]
      rfl
  show (do
    let status ← CheckStatus.read (plan.currentStatus.elim .null fun result =>
      .string result.variant)
    let outcomes ← (plan.outcomes.map ActionOutcome.json).mapM StoredAction.read
    return (⟨status, outcomes⟩ : StoredPlan)) = _
  rw [hstatus, houtcomes]
  show (CheckStatus.read (.string result.variant)).bind _ = _
  rw [CheckStatus.read_variant]
  rfl

/-! ### The loop over the actions -/

section Loop

variable [Platform]

/-- The outcomes are numbered in their order, their texts are accepted, and the status is that
of the last write, or the one before the plan. -/
structure LegiblePlan (prior status : Option StatusResult) (outcomes : List ActionOutcome) : Prop where
  indexed : outcomes.map ActionOutcome.index = List.range outcomes.length
  legible : ∀ outcome ∈ outcomes, outcome.outcome.Legible
  status : status = ((lastWrite? outcomes).map Prod.fst).or prior

variable {prior status : Option StatusResult} {outcomes : List ActionOutcome}

lemma LegiblePlan.snoc (h : LegiblePlan prior status outcomes) {outcome : ActionOutcomeKind}
    (hlegib : outcome.Legible) :
    LegiblePlan prior ((outcome.write?.map Prod.fst).or status)
      (outcomes ++ [⟨outcomes.length, outcome⟩]) where
  indexed := by
    rw [List.map_append, h.indexed, List.length_append, List.length_singleton, List.range_succ]
    rfl
  legible := by
    intro other hother
    rcases List.mem_append.mp hother with hother | hother
    · exact h.legible other hother
    · rw [List.mem_singleton.mp hother]
      exact hlegib
  status := by
    unfold lastWrite?
    rw [h.status, List.filterMap_append]
    cases hwrite : outcome.write? with
    | none => simp [hwrite, lastWrite?]
    | some write => simp [hwrite]

lemma planActions_planned (context : Json) : ∀ (actions : List StatusAction)
    (status : Option StatusResult) (outcomes : List ActionOutcome) (trace : EvaluationTrace)
    (s : EvalState) (plan : ActionPlan) (trace' : EvaluationTrace),
    LegiblePlan prior status outcomes →
    ((planActions context actions outcomes.length status outcomes trace).run s).1 =
      .ok (.ok (plan, trace')) →
    LegiblePlan prior plan.currentStatus plan.outcomes ∧
      plan.outcomes.length = outcomes.length + actions.length
  | [], status, outcomes, _, _, _, _, h, hplan => by
    cases hplan
    exact ⟨h, rfl⟩
  | action :: rest, status, outcomes, trace, s, plan, trace', h, hplan => by
    have haction := Traced.Spends.planAction action context trace s
    rcases hrun : (planAction action context trace).run s with ⟨reply, s'⟩
    rw [hrun] at haction
    have hnext : ∀ outcome : ActionOutcome, (outcomes ++ [outcome]).length =
        outcomes.length + 1 := fun outcome => List.length_append
    have hlength : ∀ outcome : ActionOutcome, (outcomes ++ [outcome]).length + rest.length =
        outcomes.length + (action :: rest).length := by
      intro outcome
      rw [hnext, List.length_cons]
      omega
    unfold planActions at hplan
    cases haction with
    | @ok outcome t _ _ _ hlegib =>
      rw [Ledger.run_bind_ok hrun] at hplan
      have hsnoc := h.snoc hlegib
      rw [← hlength ⟨outcomes.length, outcome⟩]
      refine planActions_planned context rest _ _ t s' plan trace' hsnoc ?_
      rw [hnext]
      -- the status is that of the write, or stays
      cases outcome <;> exact hplan
    | @error error t _ _ speaks =>
      rw [Ledger.run_bind_ok hrun] at hplan
      have hlegib : (ActionOutcomeKind.failed error).Legible := speaks
      have hsnoc := h.snoc hlegib
      rw [← hlength ⟨outcomes.length, .failed error⟩]
      refine planActions_planned context rest _ _ t s' plan trace' hsnoc ?_
      rw [hnext]
      dsimp only at hplan
      have hexh : EvalM.exhausted.run s' = (.ok s'.budget.exhausted, s') := rfl
      rw [Ledger.run_bind_ok hexh] at hplan
      split at hplan
      · cases hplan
      · exact hplan

lemma planStatusActionsTraced_planned {actions : List StatusAction} {context : Json}
    {assessed : EvaluatedAssessment} {s : EvalState} {plan : ActionPlan} {trace : EvaluationTrace}
    (hplan : ((planStatusActionsTraced actions context assessed prior).run s).1 =
      .ok (.ok (plan, trace))) :
    LegiblePlan prior plan.currentStatus plan.outcomes ∧ plan.outcomes.length = actions.length := by
  have hstart : LegiblePlan prior prior [] := ⟨rfl, fun _ h => (by cases h), rfl⟩
  have htry : (EvalM.attempt (EvalM.step 1)).run s =
      (.ok ((EvalM.step 1).run s).1, ((EvalM.step 1).run s).2) := rfl
  unfold planStatusActionsTraced at hplan
  rw [Ledger.run_bind_ok htry] at hplan
  cases hstep : ((EvalM.step 1).run s).1 with
  | error error =>
    rw [hstep] at hplan
    cases hplan
  | ok value =>
    rw [hstep] at hplan
    cases hctx : contextWithAssessment context assessed with
    | error error =>
      simp only [hctx] at hplan
      cases hplan
    | ok context =>
      simp only [hctx] at hplan
      obtain ⟨hplanned, hlength⟩ :=
        planActions_planned context actions prior [] {} _ plan trace hstart hplan
      exact ⟨hplanned, hlength.trans (Nat.zero_add _)⟩

end Loop

/-! ### The message that is read -/

section Message

variable [Platform] {document : String → Option Json}

def storedPair (write : StatusResult × Option String) : CheckStatus × Option String :=
  (write.1.stored, write.2)

omit [Platform] in
lemma lastWrite?_cons (outcome : ActionOutcome) (rest : List ActionOutcome) :
    lastWrite? (outcome :: rest) = (lastWrite? rest).or outcome.outcome.write? := by
  unfold lastWrite?
  rw [List.filterMap_cons]
  cases outcome.outcome.write? with
  | none => exact (Option.or_none).symm
  | some write =>
    dsimp only
    rw [List.getLast?_cons]
    cases (rest.filterMap fun outcome => outcome.outcome.write?).getLast? <;> rfl

lemma storedWrite_stored (last : Option (StatusResult × Option String)) {outcome : ActionOutcome}
    (hlegib : outcome.outcome.Legible) :
    storedWrite (last.map storedPair) outcome.index outcome.stored =
      .ok ((outcome.outcome.write?.or last).map storedPair) := by
  obtain ⟨index, outcome⟩ := outcome
  refine (if_neg (not_not.mpr rfl)).trans ?_
  cases outcome with
  | applied result message =>
    cases message with
    | none => rfl
    | some text =>
      have hblank : text.toList.all Platform.isWhitespace = false := hlegib text rfl
      show (if text.toList.all Platform.isWhitespace then _ else _) = _
      rw [hblank]
      rfl
  | failed error =>
    have hcode : error.code.variant ≠ "" := by
      cases error.code <;> decide
    exact if_neg (not_or.mpr ⟨hcode, hlegib⟩)
  | skippedConditionFalse | skippedConditionUnavailable | skippedInputUnavailable => rfl

lemma storedWrites_stored : ∀ (outcomes : List ActionOutcome) (index : Nat)
    (last : Option (StatusResult × Option String)),
    outcomes.map ActionOutcome.index = List.range' index outcomes.length →
    (∀ outcome ∈ outcomes, outcome.outcome.Legible) →
    storedWrites index (outcomes.map ActionOutcome.stored) (last.map storedPair) =
      .ok (((lastWrite? outcomes).or last).map storedPair)
  | [], _, _, _, _ => rfl
  | outcome :: rest, index, last, hindex, hlegib => by
    rw [List.map_cons, List.length_cons, List.range'_succ] at hindex
    injection hindex with hfirst hrest
    have hwrite := storedWrite_stored last (hlegib outcome List.mem_cons_self)
    rw [hfirst] at hwrite
    have hwrites := storedWrites_stored rest (index + 1) (outcome.outcome.write?.or last) hrest
      fun other hother => hlegib other (List.mem_cons_of_mem _ hother)
    rw [List.map_cons, storedWrites, hwrite, lastWrite?_cons, Option.or_assoc]
    exact hwrites

variable {prior : Option StatusResult} {plan : ActionPlan} {result : StatusResult}
  {message : Option String}

section

variable (hread : document plan.json.render = some plan.json)
  (h : LegiblePlan prior plan.currentStatus plan.outcomes) (hcount : plan.outcomes.length ≤ 2 ^ 64)
  (hlast : lastWrite? plan.outcomes = some (result, message))
include hread h hcount hlast

lemma statusMessage_planned :
    statusMessage document (some plan.json.render) result.name =
      if message.any fun message => MAX_STATUS_MESSAGE_BYTES < message.utf8ByteSize then
        .error "check status message exceeds the projection limit"
      else .ok message := by
  have hstatus : plan.currentStatus = some result := by
    rw [h.status, hlast]
    rfl
  have hindex : ∀ outcome ∈ plan.outcomes, outcome.index < 2 ^ 64 := by
    intro outcome hout
    have hmem : outcome.index ∈ List.range plan.outcomes.length :=
      h.indexed ▸ List.mem_map_of_mem hout
    exact (List.mem_range.mp hmem).trans_le hcount
  have hstored : (document plan.json.render).bind StoredPlan.read =
      some ⟨result.stored, plan.outcomes.map ActionOutcome.stored⟩ := by
    rw [hread]
    exact StoredPlan.read_json hstatus hindex
  have hwrites : storedWrites 0 (plan.outcomes.map ActionOutcome.stored) none =
      .ok (some (result.stored, message)) := by
    have hwrites := storedWrites_stored plan.outcomes 0 none
      (h.indexed.trans List.range_eq_range') h.legible
    rw [hlast] at hwrites
    exact hwrites
  have hexpected : CheckStatus.ofName result.name = .ok result.stored := by
    cases result <;> rfl
  have hsame : ¬result.stored ≠ result.stored := not_not.mpr rfl
  unfold statusMessage
  dsimp only
  rw [hexpected]
  dsimp only [bind, Except.bind]
  rw [hstored]
  dsimp only
  rw [if_neg hsame, hwrites]
  dsimp only
  rw [if_neg hsame]
  rfl

lemma rowMessage_planned :
    rowMessage document true (some true) (some result.name) (some plan.json.render) =
      if message.any fun message => MAX_STATUS_MESSAGE_BYTES < message.utf8ByteSize then
        .error "check status message exceeds the projection limit"
      else .ok (some result.stored, message) := by
  have hmessage := statusMessage_planned hread h hcount hlast
  have hname : result.name = result.stored.name := by
    cases result <;> rfl
  have hstatus : (some result.name).mapM CheckStatus.ofName = .ok (some result.stored) := by
    cases result <;> rfl
  show ((some result.name).mapM CheckStatus.ofName >>= _) = _
  rw [hstatus]
  show (statusMessage document (some plan.json.render) result.stored.name >>= _) = _
  rw [← hname, hmessage]
  by_cases hlong : (message.any fun message =>
      MAX_STATUS_MESSAGE_BYTES < message.utf8ByteSize) = true
  · rw [if_pos hlong, if_pos hlong]
    rfl
  · rw [if_neg hlong, if_neg hlong]
    exact if_neg hlong

end

omit [Platform] in
lemma any_long_iff : (message.any fun message =>
    MAX_STATUS_MESSAGE_BYTES < message.utf8ByteSize) = true ↔
      ¬∀ text ∈ message, text.utf8ByteSize ≤ MAX_STATUS_MESSAGE_BYTES := by
  cases message <;> simp

/-- **A stored plan is read back when its last message is within the limit.**  For every plan
with an applied outcome, whatever the actions, the context and the status before, and for every
reader of JSON that reads the text of the plan as it was written: the current status is that of
the last applied outcome, the message of that outcome is returned exactly when it is within the
limit of the projection, and only beyond it does a check with that status fail its session. -/
theorem last_message_is_read_iff (actions : List StatusAction)
    (hactions : actions.length ≤ 2 ^ 64) (context : Json)
    (assessed : EvaluatedAssessment) (prior : Option StatusResult) (s : EvalState)
    (plan : ActionPlan) (trace : EvaluationTrace)
    (hplan : ((planStatusActionsTraced actions context assessed prior).run s).1 =
      .ok (.ok (plan, trace)))
    (document : String → Option Json) (hread : document plan.json.render = some plan.json)
    (result : StatusResult) (message : Option String)
    (hlast : lastWrite? plan.outcomes = some (result, message)) :
    plan.currentStatus = some result ∧
      (statusMessage document (some plan.json.render) result.name = .ok message ↔
        ∀ text ∈ message, text.utf8ByteSize ≤ MAX_STATUS_MESSAGE_BYTES) ∧
      ∀ ready valid : Bool, (∃ shown, rowMessage document ready (some valid) (some result.name)
          (some plan.json.render) = .ok shown) ↔
        (ready = true → valid = true →
          ∀ text ∈ message, text.utf8ByteSize ≤ MAX_STATUS_MESSAGE_BYTES) := by
  obtain ⟨hplanned, hlength⟩ := planStatusActionsTraced_planned hplan
  have hcount : plan.outcomes.length ≤ 2 ^ 64 := hlength.trans_le hactions
  have hmessage := statusMessage_planned hread hplanned hcount hlast
  have hrow := rowMessage_planned hread hplanned hcount hlast
  have hstatus : plan.currentStatus = some result := by
    rw [hplanned.status, hlast]
    rfl
  refine ⟨hstatus, ?_, fun ready valid => ?_⟩
  · rw [hmessage]
    by_cases hlong : ∀ text ∈ message, text.utf8ByteSize ≤ MAX_STATUS_MESSAGE_BYTES
    · rw [if_neg fun h => any_long_iff.mp h hlong]
      exact iff_of_true rfl hlong
    · rw [if_pos (any_long_iff.mpr hlong)]
      exact iff_of_false (by simp) hlong
  · -- a status that is not shown has no message
    cases ready with
    | false => exact iff_of_true ⟨_, rfl⟩ fun h => by cases h
    | true =>
      cases valid with
      | false => exact iff_of_true ⟨_, rfl⟩ fun _ h => by cases h
      | true =>
        rw [hrow]
        by_cases hlong : ∀ text ∈ message, text.utf8ByteSize ≤ MAX_STATUS_MESSAGE_BYTES
        · rw [if_neg fun h => any_long_iff.mp h hlong]
          exact iff_of_true ⟨_, rfl⟩ fun _ _ => hlong
        · rw [if_pos (any_long_iff.mpr hlong)]
          exact iff_of_false (by simp) fun h => hlong (h rfl rfl)

end Message

/-! ### A long message -/

/-- One action that writes `success` with a literal message. -/
def saying (text : String) : List StatusAction :=
  [⟨none, .literal .success, some (.literal (.string text))⟩]

lemma Traced.run_bind_ok {α β : Type} {x : Traced α} {f : α → Traced β} {a : α}
    {trace trace' : EvaluationTrace} {s s' : EvalState}
    (h : (x trace).run s = (.ok (.ok a, trace'), s')) :
    ((x >>= f) trace).run s = (f a trace').run s' := Ledger.run_bind_ok h

def stepped (steps : Nat) : EvalState := ⟨{ EvaluationBudget.default with steps }, 0⟩

section

variable {text : String} (hblank : text.toList.all Char.isWhitespace = false)
  (hsize : text.utf8ByteSize ≤ 2 ^ 16)
include hblank hsize

lemma plan_saying :
    letI := compactPlatform
    ∃ trace, ((planStatusActionsTraced (saying text) (.object []) ⟨1, [], 0⟩ none).run
      (stepped 0)).1 = .ok (.ok (⟨some .success, [⟨0, .applied .success (some text)⟩]⟩, trace)) := by
  let platform := compactPlatform
  let after : EvalState :=
    ⟨{ (stepped 3).budget with generatedBytes := 0 + text.utf8ByteSize }, 0⟩
  have hreserve : (EvalM.reserveGeneratedBytes text.utf8ByteSize).run (stepped 3) =
      (.ok (), after) := by
    have hfits : ¬text.utf8ByteSize > 8 * 1024 * 1024 - 0 := by
      omega
    have hcharge : EvaluationBudget.reserveGeneratedBytes text.utf8ByteSize (stepped 3).budget =
        (.ok (), after.budget) := by
      unfold EvaluationBudget.reserveGeneratedBytes
      show EvaluationBudget.charge _ (if text.utf8ByteSize > 8 * 1024 * 1024 - 0 then _ else none) _ = _
      rw [if_neg hfits]
      rfl
    show ((EvaluationBudget.reserveGeneratedBytes text.utf8ByteSize (stepped 3).budget).1, _) = _
    rw [hcharge]
    rfl
  have hprep : ∃ value, value.value = some (.string text) ∧
      (prepareTemplate (.object []) (.literal (.string text)) [] 1).run (stepped 2) =
        (.ok value, after) := by
    refine ⟨_, ?_, (Ledger.run_bind_ok (show (EvalM.step 1).run (stepped 2) =
      (.ok (), stepped 3) from rfl)).trans ((Ledger.run_bind_ok hreserve).trans rfl)⟩
    rfl
  obtain ⟨value, hvalue, hprep⟩ := hprep
  have hmessage : ∃ trace, (actionMessage ⟨none, .literal .success,
      some (.literal (.string text))⟩ (.object []) .success {}).run (stepped 2) =
      (.ok (.ok (.applied .success (some text)), trace), after) := by
    have hofEval : (Traced.ofEval (prepareTemplate (.object []) (.literal (.string text)) [] 1)
        {}).run (stepped 2) = (.ok (.ok value, {}), after) := by
      show (Except.ok (((prepareTemplate (.object []) (.literal (.string text)) [] 1).run
        (stepped 2)).1, ({} : EvaluationTrace)), _) = _
      rw [hprep]
    refine ⟨({} : EvaluationTrace).merge value.trace, (Traced.run_bind_ok hofEval).trans ?_⟩
    refine (@Traced.run_bind_ok _ _ _ _ () _ _ _ after rfl).trans ?_
    rw [hvalue]
    have hwrites : (if text.toList.all Char.isWhitespace then
        Traced.fail (invalidActionInput "Status message must be a nonblank string.")
        else pure (.applied .success (some text)) : Traced ActionOutcomeKind) =
        pure (.applied .success (some text)) := if_neg (Bool.eq_false_iff.mp hblank)
    exact congrArg (fun x : Traced ActionOutcomeKind => (x _).run after) hwrites
  obtain ⟨trace, hmessage⟩ := hmessage
  have haction : (planAction ⟨none, .literal .success, some (.literal (.string text))⟩ (.object [])
      {}).run (stepped 1) = (.ok (.ok (.applied .success (some text)), trace), after) :=
    (Traced.run_bind_ok (show (Traced.ofEval (EvalM.step 1) {}).run (stepped 1) =
      (.ok (.ok (), {}), stepped 2) from rfl)).trans hmessage
  have htry : (EvalM.attempt (EvalM.step 1)).run (stepped 0) =
      (.ok (.ok ()), stepped 1) := rfl
  refine ⟨trace, ?_⟩
  unfold planStatusActionsTraced
  rw [Ledger.run_bind_ok htry]
  show ((planActions (.object []) (saying text) 0 none [] {}).run (stepped 1)).1 = _
  unfold planActions saying
  rw [Ledger.run_bind_ok haction]
  rfl

lemma saying_is_refused (hlong : MAX_STATUS_MESSAGE_BYTES < text.utf8ByteSize) :
    letI := compactPlatform
    ∃ (plan : ActionPlan) (trace : EvaluationTrace),
      ((planStatusActionsTraced (saying text) (.object []) ⟨1, [], 0⟩ none).run (stepped 0)).1 =
        .ok (.ok (plan, trace)) ∧
      lastWrite? plan.outcomes = some (.success, some text) ∧
      ∀ document : String → Option Json, document plan.json.render = some plan.json →
        statusMessage document (some plan.json.render) "success" =
          .error "check status message exceeds the projection limit" := by
  let platform := compactPlatform
  obtain ⟨trace, hplan⟩ := plan_saying hblank hsize
  obtain ⟨hplanned, -⟩ := planStatusActionsTraced_planned hplan
  refine ⟨_, trace, hplan, rfl, fun document hread => ?_⟩
  refine (statusMessage_planned hread hplanned (show 1 ≤ 2 ^ 64 by decide) rfl).trans (if_pos ?_)
  exact decide_eq_true hlong

end

/-- A plan of one message of 4097 bytes is accepted, and the projection refuses it. -/
theorem long_message_is_refused :
    letI := compactPlatform
    ∃ (plan : ActionPlan) (trace : EvaluationTrace),
      ((planStatusActionsTraced (saying (String.ofList (List.replicate 4097 'a'))) (.object [])
        ⟨1, [], 0⟩ none).run (stepped 0)).1 = .ok (.ok (plan, trace)) ∧
      lastWrite? plan.outcomes = some (.success, some (String.ofList (List.replicate 4097 'a'))) ∧
      ∀ document : String → Option Json, document plan.json.render = some plan.json →
        statusMessage document (some plan.json.render) "success" =
          .error "check status message exceeds the projection limit" := by
  have hsize : ∀ n : Nat, (String.ofList (List.replicate n 'a')).utf8ByteSize = n := by
    intro n
    induction n with
    | zero => rfl
    | succ n ih =>
      have hcons : String.ofList (List.replicate (n + 1) 'a') =
          String.ofList ['a'] ++ String.ofList (List.replicate n 'a') := by
        rw [← String.ofList_append]
        rfl
      rw [hcons, String.utf8ByteSize_append, ih]
      exact Nat.add_comm 1 n
  have hblank : ∀ n : Nat, (String.ofList (List.replicate (n + 1) 'a')).toList.all
      Char.isWhitespace = false := by
    intro n
    rw [String.toList_ofList]
    rfl
  have hbytes := hsize 4097
  exact saying_is_refused (hblank 4096) (by omega) (by rw [hbytes]; decide)

def donePlan : ActionPlan := ⟨some .success, [⟨0, .applied .success (some "done")⟩]⟩

def doneDocument (text : String) : Option Json :=
  if text = donePlan.json.render then some donePlan.json else none

theorem last_message_is_read_iff_short :
    letI := compactPlatform
    statusMessage doneDocument (some donePlan.json.render) "success" = .ok (some "done") := by
  let platform := compactPlatform
  obtain ⟨trace, hplan⟩ := @plan_saying "done" (by decide) (by decide)
  obtain ⟨-, hread, -⟩ := last_message_is_read_iff (saying "done") (by decide) (.object [])
    ⟨1, [], 0⟩ none (stepped 0) donePlan trace hplan doneDocument (if_pos rfl) .success (some "done") rfl
  exact hread.mpr fun text h => by cases h; decide

end Antiburn
