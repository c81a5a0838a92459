/-
The shared work budget, and the computations that spend it.

Every expression of one assessment draws on one `EvaluationBudget`: steps,
visited items, generated and copied bytes.  A charge that does not fit fails
and marks the budget exhausted, and an exhausted budget refuses every later
charge.  `EvalM` is the `Ledger` of this state, so "limits stay, counters only
grow, exhaustion is final" is part of the type of every evaluation.
-/
import Antiburn.Lib.Ledger
import Antiburn.Expression
import Mathlib

namespace Antiburn

/-- An evaluation diagnostic for invalid runtime work or exhausted limits. -/
structure EvaluationError where
  code : DiagnosticCode
  message : String
  deriving DecidableEq

def limitError (message : String) : EvaluationError := ⟨.evaluationLimitExceeded, message⟩

def invalidError (message : String) : EvaluationError := ⟨.runtimeInvalidContext, message⟩

structure EvaluationLimits where
  maxDepth : Nat
  maxSteps : Nat
  deriving DecidableEq

def DEFAULT_MAX_EVALUATION_DEPTH : Nat := 32
def DEFAULT_MAX_EVALUATION_STEPS : Nat := 10000
def DEFAULT_MAX_EVALUATION_ITEMS : Nat := 1000
def DEFAULT_MAX_GENERATED_BYTES : Nat := 8 * 1024 * 1024
def DEFAULT_MAX_MATERIALIZED_BYTES : Nat := 8 * 1024 * 1024

/-- Shared work counters for input preparation and action planning. -/
structure EvaluationBudget where
  limits : EvaluationLimits
  maxItems : Nat
  maxGeneratedBytes : Nat
  maxMaterializedBytes : Nat
  steps : Nat
  visitedItems : Nat
  generatedBytes : Nat
  materializedBytes : Nat
  exhausted : Bool
  deriving DecidableEq

namespace EvaluationBudget

def default : EvaluationBudget where
  limits := ⟨DEFAULT_MAX_EVALUATION_DEPTH, DEFAULT_MAX_EVALUATION_STEPS⟩
  maxItems := DEFAULT_MAX_EVALUATION_ITEMS
  maxGeneratedBytes := DEFAULT_MAX_GENERATED_BYTES
  maxMaterializedBytes := DEFAULT_MAX_MATERIALIZED_BYTES
  steps := 0
  visitedItems := 0
  generatedBytes := 0
  materializedBytes := 0
  exhausted := false

/-- `a.Extends b`: `b` is `a` after more work under the same limits. -/
structure Extends (a b : EvaluationBudget) : Prop where
  limits : b.limits = a.limits
  maxItems : b.maxItems = a.maxItems
  maxGeneratedBytes : b.maxGeneratedBytes = a.maxGeneratedBytes
  maxMaterializedBytes : b.maxMaterializedBytes = a.maxMaterializedBytes
  steps : a.steps ≤ b.steps
  visitedItems : a.visitedItems ≤ b.visitedItems
  generatedBytes : a.generatedBytes ≤ b.generatedBytes
  materializedBytes : a.materializedBytes ≤ b.materializedBytes
  exhausted : a.exhausted = true → b.exhausted = true

lemma Extends.refl (a : EvaluationBudget) : a.Extends a :=
  ⟨rfl, rfl, rfl, rfl, le_rfl, le_rfl, le_rfl, le_rfl, id⟩

lemma Extends.trans {a b c : EvaluationBudget} (h : a.Extends b) (h' : b.Extends c) :
    a.Extends c where
  limits := h'.limits.trans h.limits
  maxItems := h'.maxItems.trans h.maxItems
  maxGeneratedBytes := h'.maxGeneratedBytes.trans h.maxGeneratedBytes
  maxMaterializedBytes := h'.maxMaterializedBytes.trans h.maxMaterializedBytes
  steps := h.steps.trans h'.steps
  visitedItems := h.visitedItems.trans h'.visitedItems
  generatedBytes := h.generatedBytes.trans h'.generatedBytes
  materializedBytes := h.materializedBytes.trans h'.materializedBytes
  exhausted := h'.exhausted ∘ h.exhausted

/-- Common shape of the four charges: refuse when exhausted, fail and mark the
budget when a limit refuses, otherwise take the charged budget. -/
def charge (budget : EvaluationBudget) (refusal : Option String) (charged : EvaluationBudget) :
    Except EvaluationError Unit × EvaluationBudget :=
  if budget.exhausted then
    (.error (limitError "The shared evaluation budget is exhausted."), budget)
  else match refusal with
    | some message => (.error (limitError message), { budget with exhausted := true })
    | none => (.ok (), charged)

lemma extends_charge {budget charged : EvaluationBudget} (h : budget.Extends charged)
    (refusal : Option String) : budget.Extends (budget.charge refusal charged).2 := by
  unfold charge
  split_ifs
  · exact .refl _
  · cases refusal with
    | some msg =>
      exact ⟨rfl, rfl, rfl, rfl, le_rfl, le_rfl, le_rfl, le_rfl, fun _ => rfl⟩
    | none => exact h

/-- Charge a node before work starts.  Depth includes enclosing templates. -/
def step (depth : Nat) (budget : EvaluationBudget) :
    Except EvaluationError Unit × EvaluationBudget :=
  budget.charge
    (if depth > budget.limits.maxDepth then
      some "Expression evaluation exceeded the depth limit."
    else if budget.steps ≥ budget.limits.maxSteps then
      some "Expression evaluation exceeded the step limit."
    else none)
    { budget with steps := budget.steps + 1 }

/-- Charge iteration items before a loop allocates its output. -/
def visitItems (count : Nat) (budget : EvaluationBudget) :
    Except EvaluationError Unit × EvaluationBudget :=
  budget.charge
    (if count > budget.maxItems - budget.visitedItems then
      some "Expression evaluation exceeded the visited-item limit."
    else none)
    { budget with visitedItems := budget.visitedItems + count }

/-- Reserve generated payload bytes before allocation or append. -/
def reserveGeneratedBytes (count : Nat) (budget : EvaluationBudget) :
    Except EvaluationError Unit × EvaluationBudget :=
  budget.charge
    (if count > budget.maxGeneratedBytes - budget.generatedBytes then
      some "Expression evaluation exceeded the generated-byte limit."
    else none)
    { budget with generatedBytes := budget.generatedBytes + count }

/-- Reserve cumulative JSON copy bytes before cloning a value. -/
def reserveMaterializedBytes (count : Nat) (budget : EvaluationBudget) :
    Except EvaluationError Unit × EvaluationBudget :=
  budget.charge
    (if count > budget.maxMaterializedBytes - budget.materializedBytes then
      some "Expression evaluation exceeded the materialized-byte limit."
    else none)
    { budget with materializedBytes := budget.materializedBytes + count }

lemma extends_step (depth : Nat) (budget : EvaluationBudget) :
    budget.Extends (step depth budget).2 := by
  refine extends_charge ?_ _
  exact ⟨rfl, rfl, rfl, rfl, Nat.le_succ _, le_rfl, le_rfl, le_rfl, id⟩

section

variable (count : Nat) (budget : EvaluationBudget)
include count budget

lemma extends_visitItems :
    budget.Extends (visitItems count budget).2 := by
  refine extends_charge ?_ _
  exact ⟨rfl, rfl, rfl, rfl, le_rfl, Nat.le_add_right _ _, le_rfl, le_rfl, id⟩

lemma extends_reserveGeneratedBytes :
    budget.Extends (reserveGeneratedBytes count budget).2 := by
  refine extends_charge ?_ _
  exact ⟨rfl, rfl, rfl, rfl, le_rfl, le_rfl, Nat.le_add_right _ _, le_rfl, id⟩

lemma extends_reserveMaterializedBytes :
    budget.Extends (reserveMaterializedBytes count budget).2 := by
  refine extends_charge ?_ _
  exact ⟨rfl, rfl, rfl, rfl, le_rfl, le_rfl, le_rfl, Nat.le_add_right _ _, id⟩

end

end EvaluationBudget

/-! ### Evaluations -/

/-- The state an evaluation threads: the budget, and how many roots of
generated containers exist. -/
structure EvalState where
  budget : EvaluationBudget
  nextRoot : Nat

namespace EvalState

def initial : EvalState := ⟨.default, 0⟩

instance : Preorder EvalState where
  le s t := s.budget.Extends t.budget ∧ s.nextRoot ≤ t.nextRoot
  le_refl s := ⟨.refl _, le_rfl⟩
  le_trans _ _ _ h h' := ⟨h.1.trans h'.1, h.2.trans h'.2⟩

lemma le_def {s t : EvalState} :
    s ≤ t ↔ s.budget.Extends t.budget ∧ s.nextRoot ≤ t.nextRoot := Iff.rfl

/-- Some shared limit has failed. -/
def Exhausted (s : EvalState) : Prop := s.budget.exhausted = true

end EvalState

abbrev EvalM := Ledger EvalState EvaluationError

namespace EvalM

def ofCharge (charge : EvaluationBudget → Except EvaluationError Unit × EvaluationBudget)
    (h : ∀ budget : EvaluationBudget, budget.Extends (charge budget).2) : EvalM Unit where
  run s := ((charge s.budget).1, { s with budget := (charge s.budget).2 })
  le_run s := EvalState.le_def.mpr ⟨h s.budget, le_rfl⟩

@[inherit_doc EvaluationBudget.step]
def step (depth : Nat) : EvalM Unit :=
  ofCharge (EvaluationBudget.step depth) (EvaluationBudget.extends_step depth)

@[inherit_doc EvaluationBudget.visitItems]
def visitItems (count : Nat) : EvalM Unit :=
  ofCharge (EvaluationBudget.visitItems count) (EvaluationBudget.extends_visitItems count)

@[inherit_doc EvaluationBudget.reserveGeneratedBytes]
def reserveGeneratedBytes (count : Nat) : EvalM Unit :=
  ofCharge (EvaluationBudget.reserveGeneratedBytes count)
    (EvaluationBudget.extends_reserveGeneratedBytes count)

@[inherit_doc EvaluationBudget.reserveMaterializedBytes]
def reserveMaterializedBytes (count : Nat) : EvalM Unit :=
  ofCharge (EvaluationBudget.reserveMaterializedBytes count)
    (EvaluationBudget.extends_reserveMaterializedBytes count)

def freshRoot : EvalM Nat where
  run s := (.ok s.nextRoot, { s with nextRoot := s.nextRoot + 1 })
  le_run _ := EvalState.le_def.mpr ⟨.refl _, Nat.le_succ _⟩

def exhausted : EvalM Bool where
  run s := (.ok s.budget.exhausted, s)
  le_run _ := le_rfl

/-- Run a computation and hand on its outcome instead of failing. -/
def attempt {α : Type} (x : EvalM α) : EvalM (Except EvaluationError α) where
  run s := (.ok (x.run s).1, (x.run s).2)
  le_run := x.le_run

end EvalM

end Antiburn
