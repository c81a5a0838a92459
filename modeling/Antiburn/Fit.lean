/-
Ordered, explicitly authorized reductions of a decision input: the rules, the
report of what was removed, and the local failures of a preparation.
-/
import Antiburn.Json

namespace Antiburn

/-! ### Limits -/

def MAX_FIT_INPUT_BYTES : Nat := 8 * 1024 * 1024

def MAX_FIT_INPUT_NODES : Nat := 16384

def MAX_FIT_INPUT_DEPTH : Nat := 64

def MAX_FIT_RULES : Nat := 128

def MAX_FIT_PATH_SEGMENTS : Nat := 64

def MAX_FIT_PATH_BYTES : Nat := 2048

def MAX_FIT_TARGETS : Nat := 4096

def MAX_FIT_TRAVERSAL_NODES : Nat := 32768

def MAX_FIT_TURNS : Nat := 4096

/-- Original bytes removed from a string in one turn, before Unicode alignment. -/
def TRUNCATE_CHUNK_BYTES : Nat := 1024

/-- Minimum retained original text, excluding the omission marker. -/
def MINIMUM_TEXT_BYTES : Nat := 256

/-- One marker replaces all omitted middle text. -/
def OMISSION_MARKER : String := "\n[... omitted ...]\n"

/-! ### Rules and reports -/

inductive FitStrategy where
  /-- Remove the oldest whole array record, retaining at least one. -/
  | recent
  /-- Remove middle text, retaining its head and tail. -/
  | truncate
  deriving DecidableEq

/-- One parsed field or array traversal in an authored input path. -/
inductive FitPathSegment where
  | field (name : String)
  | each
  deriving DecidableEq

structure FitRule where
  path : String
  segments : List FitPathSegment
  strategy : FitStrategy

/-- Counts use array records for recent and original UTF-8 bytes for truncate. -/
structure FitOmission where
  path : String
  strategy : FitStrategy
  originalCount : Nat
  retainedCount : Nat
  deriving DecidableEq

/-- Only changed concrete targets appear, in expansion order. -/
structure FitReport where
  omissions : List FitOmission := []
  deriving DecidableEq

/-! ### Local failures -/

/-- Closed classifications for local failures before provider dispatch. -/
inductive PreparationFailureCode where
  | conditionFalse
  | inputUnavailable
  | invalidInput
  | invalidRequest
  | noFit
  | preparationResourceLimit
  | invalidFit
  | providerUnavailable
  | incompatibleProfile
  deriving DecidableEq

inductive NoFitReason where
  | noRules
  | noMatchingTargets
  | targetsAtMinimum
  | reductionsExhausted
  deriving DecidableEq

inductive PreparationBudgetKind where
  | inputBytes
  | inputNodes
  | inputDepth
  | fitRules
  | pathDepth
  | pathBytes
  | expandedTargets
  | traversalNodes
  | turns
  | workBytes
  | requestBytes
  | estimatedTokens
  | residentBytes
  | criteria
  deriving DecidableEq

structure PreparationBudget where
  kind : PreparationBudgetKind
  observed : Nat
  maximum : Nat
  deriving DecidableEq

structure PreparationFailureContext where
  decision : Option String := none
  field : Option String := none
  inputPath : Option String := none
  noFitReason : Option NoFitReason := none
  budget : Option PreparationBudget := none
  deriving DecidableEq

/-- A local rejection with safe detail and any attempted reductions. -/
structure PreparationFailure where
  code : PreparationFailureCode
  detail : String
  report : Option FitReport := none
  context : PreparationFailureContext := {}
  deriving DecidableEq

end Antiburn
