/-
A compiled check: its trigger, condition, decisions and status actions.

A rolling window carries its admission rule as a field, so every window the
selector sees has a positive size of at most forty messages and a reachable
minimum.
-/
import Antiburn.Evaluate

namespace Antiburn

/-! ### Decisions -/

/-- The question forms a provider can answer. -/
inductive QuestionKind where
  | choice | score | noul
  deriving DecidableEq

inductive Question where
  | choice (question : String) (criteria : List (String × String))
  | score (question : String) (criteria : List String)
  | noul (question : String)
  deriving DecidableEq

def Question.kind : Question → QuestionKind
  | choice .. => .choice
  | score .. => .score
  | noul .. => .noul

def Question.criteriaCount : Question → Nat
  | choice _ criteria => criteria.length
  | score _ criteria => criteria.length
  | noul _ => 0

def Question.labels : Question → List String
  | choice _ criteria => criteria.map Prod.fst
  | _ => []

structure NamedQuestion where
  name : String
  question : Question
  deriving DecidableEq

inductive Condition where
  | boolean (value : Bool)
  | expression (value : Expression)

inductive InputLiteral where
  | null
  | boolean (value : Bool)
  | number (value : Number)
  | string (value : String)
  deriving DecidableEq

inductive TemplatePart where
  | literal (text : String)
  | expression (value : Expression)

inductive InputTemplate where
  | literal (value : InputLiteral)
  | expression (value : Expression)
  | text (parts : List TemplatePart)
  | sequence (items : List InputTemplate)
  | object (items : List (String × InputTemplate))
  | map (collection : Expression) (itemAlias : String) (condition : Option Condition)
      (value : InputTemplate)

structure DecisionBlock where
  name : String
  input : InputTemplate
  outputs : List NamedQuestion

structure QuestionRequirements where
  decision : String
  question : String
  kind : QuestionKind
  criteriaCount : Nat
  probabilities : Bool
  confidence : Bool
  deriving DecidableEq

/-! ### Triggers -/

inductive ToolCategory where
  | shell | read | search | edit | write | delegate | skill | mcp | other
  deriving DecidableEq

inductive ToolResultStatus where
  | completed | error | cancelled | unknown
  deriving DecidableEq

inductive SessionStartReason where
  | new | resumed | attached
  deriving DecidableEq

/-- A validated repository-relative glob with only segment wildcards. -/
structure RepositoryGlob where
  pattern : String
  deriving DecidableEq

structure EventFilters where
  tools : Option (List ToolCategory) := none
  statuses : Option (List ToolResultStatus) := none
  models : Option (List String) := none
  fastMode : Option Bool := none
  paths : Option (List RepositoryGlob) := none
  pathsIgnore : Option (List RepositoryGlob) := none
  reasons : Option (List SessionStartReason) := none

inductive TriggerFamily where
  | messages (toolResult : Bool) (userMessage assistantMessage toolCall : Option EventFilters)
  | responseCycle (filters : EventFilters)
  | session (sessionStart sessionIdle : Option EventFilters)

def TriggerFamily.isMessages : TriggerFamily → Bool
  | messages .. => true
  | _ => false

def MAX_WINDOW_SIZE : Nat := 40

structure RollingWindow where
  size : Nat
  minimum : Nat
  minimum_pos : 0 < minimum
  minimum_le_size : minimum ≤ size
  size_le : size ≤ MAX_WINDOW_SIZE

lemma RollingWindow.size_pos (window : RollingWindow) : 0 < window.size :=
  window.minimum_pos.trans_le window.minimum_le_size

lemma one_le_MAX_WINDOW_SIZE : 1 ≤ MAX_WINDOW_SIZE := by decide

def RollingWindow.single : RollingWindow where
  size := 1
  minimum := 1
  minimum_pos := Nat.one_pos
  minimum_le_size := le_rfl
  size_le := one_le_MAX_WINDOW_SIZE

/-- Event alternatives and scheduling settings.  The flat filters apply to
result events. -/
structure Trigger where
  family : TriggerFamily
  tools : Option (List ToolCategory)
  statuses : Option (List ToolResultStatus)
  models : Option (List String)
  fastMode : Option Bool
  paths : Option (List RepositoryGlob)
  pathsIgnore : Option (List RepositoryGlob)
  window : Option RollingWindow
  /-- Run cooldown in seconds. -/
  cooldown : Nat

/-! ### Actions and checks -/

inductive StatusResult where
  | failure | success
  deriving DecidableEq

inductive StatusResultTemplate where
  | literal (result : StatusResult)
  | expression (value : Expression)

structure StatusAction where
  condition : Option Condition
  result : StatusResultTemplate
  message : Option InputTemplate

structure CompiledCheck where
  name : String
  description : Option String
  condition : Option Condition
  trigger : Trigger
  decisions : List DecisionBlock
  actions : List StatusAction

/-- Whether actions run without model decisions. -/
def CompiledCheck.isLocal (check : CompiledCheck) : Bool := check.decisions.isEmpty

/-! ### Inventory demand -/

/-- Capture points for current files.  Neither flag requires complete inventories. -/
structure CurrentInventoryDemand where
  /-- The pre-selection condition reads current inventories. -/
  condition : Bool
  /-- Decision inputs or status actions read current inventories. -/
  candidate : Bool
  deriving DecidableEq

inductive ScopeMember where
  | whole
  | named (name : String)
  | unknown
  deriving DecidableEq

def accessMember : List AccessSegment → ScopeMember
  | .property name :: _ => .named name
  | .dynamic (.literal (.string name)) :: _ => .named name
  | _ => .unknown

def scopePath (aliases : List String) : Expression → Option (String × ScopeMember)
  | .path (.property root :: rest) =>
    if aliases.contains root || !(root == "global" || root == "repo") then none
    else
      let member := match rest with
        | .property name :: _ => .named name
        | [] => .whole
        | _ => .unknown
      some (root, member)
  | .access base segments =>
    (scopePath aliases base).map fun (root, member) =>
      match member with
      | .whole => (root, accessMember segments)
      | member => (root, member)
  | _ => none

lemma scopePath_access (aliases : List String) (base : Expression) (segments : List AccessSegment) :
    scopePath aliases (.access base segments) =
      (scopePath aliases base).map fun (root, member) =>
        match member with
        | .whole => (root, accessMember segments)
        | member => (root, member) := by
  rw [scopePath]

mutual

/-- Whether an expression can read captured inventories.  Only the repository
root path is exempt within the two scopes. -/
def expressionReads (aliases : List String) : Expression → Bool
  | .literal _ => false
  | .path path =>
    match scopePath aliases (.path path) with
    | some (root, member) => root == "global" || member != .named "root"
    | none => false
  | .access base segments =>
    match scopePath aliases (.access base segments) with
    | some (root, member) =>
      accessKeysRead aliases base || segmentsRead aliases segments ||
        root == "global" || member != .named "root"
    | none => expressionReads aliases base || segmentsRead aliases segments
  | .call _ arguments => argumentsRead aliases arguments
  | .not value => expressionReads aliases value
  | .binary _ left right => expressionReads aliases left || expressionReads aliases right

/-- Whether a dynamic key of an access chain reads inventories. -/
def accessKeysRead (aliases : List String) : Expression → Bool
  | .access base segments => accessKeysRead aliases base || segmentsRead aliases segments
  | _ => false

@[inherit_doc accessKeysRead]
def segmentsRead (aliases : List String) : List AccessSegment → Bool
  | [] => false
  | .dynamic value :: rest => expressionReads aliases value || segmentsRead aliases rest
  | _ :: rest => segmentsRead aliases rest

@[inherit_doc expressionReads]
def argumentsRead (aliases : List String) : List Expression → Bool
  | [] => false
  | value :: rest => expressionReads aliases value || argumentsRead aliases rest

end

def conditionReads (aliases : List String) : Option Condition → Bool
  | some (.expression value) => expressionReads aliases value
  | _ => false

mutual

/-- Whether a template reads inventories; map aliases shadow the roots. -/
def templateReads (aliases : List String) : InputTemplate → Bool
  | .literal _ => false
  | .expression value => expressionReads aliases value
  | .text parts => parts.any fun
    | .expression value => expressionReads aliases value
    | .literal _ => false
  | .sequence items => templatesRead aliases items
  | .object items => entriesRead aliases items
  | .map collection itemAlias condition value =>
    expressionReads aliases collection ||
      (conditionReads (itemAlias :: aliases) condition || templateReads (itemAlias :: aliases) value)

@[inherit_doc templateReads]
def templatesRead (aliases : List String) : List InputTemplate → Bool
  | [] => false
  | item :: rest => templateReads aliases item || templatesRead aliases rest

@[inherit_doc templateReads]
def entriesRead (aliases : List String) : List (String × InputTemplate) → Bool
  | [] => false
  | (_, item) :: rest => templateReads aliases item || entriesRead aliases rest

end

def StatusAction.readsInventories (action : StatusAction) : Bool :=
  conditionReads [] action.condition ||
    (match action.result with
      | .expression value => expressionReads [] value
      | .literal _ => false) ||
    action.message.any (templateReads [])

def CompiledCheck.currentInventoryDemand (check : CompiledCheck) : CurrentInventoryDemand where
  condition := conditionReads [] check.condition
  candidate := check.decisions.any (fun decision => templateReads [] decision.input) ||
    check.actions.any StatusAction.readsInventories

end Antiburn
