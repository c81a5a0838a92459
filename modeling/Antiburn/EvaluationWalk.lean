/-
What every computation of the evaluator keeps.

A walk over the evaluator shows three things of each function at once: it
moves no counter of the budget beyond its limit, it returns only from charges
that all succeeded, and, given how deep its values nest, it stays within the
depth limit.  `reach` counts the deepest step of an evaluation.
-/
import Antiburn.JsonReader

namespace Antiburn

open EvalM RuntimeValue

structure EvaluationBudget.Within (budget : EvaluationBudget) : Prop where
  steps : budget.steps ≤ budget.limits.maxSteps
  visitedItems : budget.visitedItems ≤ budget.maxItems
  generatedBytes : budget.generatedBytes ≤ budget.maxGeneratedBytes
  materializedBytes : budget.materializedBytes ≤ budget.maxMaterializedBytes

/-! ### The four charges -/

inductive BudgetCharge where
  | step (depth : Nat)
  | visitItems (count : Nat)
  | reserveGeneratedBytes (count : Nat)
  | reserveMaterializedBytes (count : Nat)

namespace BudgetCharge

def run : BudgetCharge → EvaluationBudget → Except EvaluationError Unit × EvaluationBudget
  | step depth => EvaluationBudget.step depth
  | visitItems count => EvaluationBudget.visitItems count
  | reserveGeneratedBytes count => EvaluationBudget.reserveGeneratedBytes count
  | reserveMaterializedBytes count => EvaluationBudget.reserveMaterializedBytes count

lemma run_eq (charge : BudgetCharge) (budget : EvaluationBudget) :
    ∃ refusal charged, charge.run budget = budget.charge refusal charged ∧
      charged.exhausted = budget.exhausted ∧
      (budget.Within → refusal = none → charged.Within) := by
  cases charge with
  | step depth =>
    refine ⟨_, _, rfl, rfl, fun h hrefl => ?_⟩
    split at hrefl
    · cases hrefl
    · split at hrefl
      · cases hrefl
      · rename_i hsteps
        exact { h with steps := not_le.mp hsteps }
  | visitItems count =>
    refine ⟨_, _, rfl, rfl, fun h hrefl => ?_⟩
    split at hrefl
    · cases hrefl
    · rename_i hcount
      exact { h with visitedItems := Nat.add_le_of_le_sub' h.visitedItems (not_lt.mp hcount) }
  | reserveGeneratedBytes count =>
    refine ⟨_, _, rfl, rfl, fun h hrefl => ?_⟩
    split at hrefl
    · cases hrefl
    · rename_i hcount
      exact { h with generatedBytes := Nat.add_le_of_le_sub' h.generatedBytes (not_lt.mp hcount) }
  | reserveMaterializedBytes count =>
    refine ⟨_, _, rfl, rfl, fun h hrefl => ?_⟩
    split at hrefl
    · cases hrefl
    · rename_i hcount
      exact { h with
        materializedBytes := Nat.add_le_of_le_sub' h.materializedBytes (not_lt.mp hcount) }

variable {budget : EvaluationBudget}

lemma run_of_exhausted (charge : BudgetCharge)
    (h : budget.exhausted = true) :
    charge.run budget = (.error (limitError "The shared evaluation budget is exhausted."), budget) := by
  obtain ⟨refusal, charged, heq, -, -⟩ := charge.run_eq budget
  rw [heq]
  exact if_pos h

variable {charge : BudgetCharge}

lemma exhausted_of_error
    {error : EvaluationError} (h : (charge.run budget).1 = .error error) :
    error.code = .evaluationLimitExceeded ∧ (charge.run budget).2.exhausted = true := by
  obtain ⟨refusal, charged, heq, -, -⟩ := charge.run_eq budget
  rw [heq] at h ⊢
  unfold EvaluationBudget.charge at h ⊢
  by_cases hexh : budget.exhausted = true
  · rw [if_pos hexh] at h ⊢
    cases h
    exact ⟨rfl, hexh⟩
  · rw [if_neg hexh] at h ⊢
    cases refusal with
    | some msg =>
      cases h
      exact ⟨rfl, rfl⟩
    | none => cases h

lemma message_of_error {error : EvaluationError}
    (h : (charge.run budget).1 = .error error) : error.message ≠ "" ∧
      (error.message = "Expression evaluation exceeded the depth limit." →
        ∃ depth, charge = .step depth ∧ budget.limits.maxDepth < depth) := by
  have hcharge : ∀ (P : String → Prop) (refusal : Option String) (charged : EvaluationBudget),
      P "The shared evaluation budget is exhausted." → (∀ message ∈ refusal, P message) →
      (budget.charge refusal charged).1 = .error error → P error.message := by
    intro P refusal charged hexh hrefl hresult
    unfold EvaluationBudget.charge at hresult
    split at hresult
    · cases hresult
      exact hexh
    · cases refusal with
      | some message =>
        cases hresult
        exact hrefl message rfl
      | none => cases hresult
  cases charge <;>
    refine hcharge (fun message => message ≠ "" ∧ (message = _ → _)) _ _
      ⟨by decide, fun heq => absurd heq (by decide)⟩ (fun message hmessage => ?_) h <;>
    split_ifs at hmessage with hdepth <;> cases hmessage <;> refine ⟨by decide, fun heq => ?_⟩
  · exact ⟨_, rfl, hdepth⟩
  all_goals exact absurd heq (by decide)

lemma within (charge : BudgetCharge) (h : budget.Within) :
    (charge.run budget).2.Within := by
  obtain ⟨refusal, charged, heq, -, hcharged⟩ := charge.run_eq budget
  rw [heq]
  unfold EvaluationBudget.charge
  split
  · exact h
  · cases refusal with
    | some msg => exact { h with }
    | none => exact hcharged h rfl

lemma active_of_ok {a : Unit}
    (hactive : budget.exhausted = false) (h : (charge.run budget).1 = .ok a) :
    (charge.run budget).2.exhausted = false := by
  obtain ⟨refusal, charged, heq, hexh, -⟩ := charge.run_eq budget
  have hne : ¬budget.exhausted = true := by rw [hactive]; decide
  rw [heq] at h ⊢
  unfold EvaluationBudget.charge at h ⊢
  rw [if_neg hne] at h ⊢
  cases refusal with
  | some msg => cases h
  | none => exact hexh.trans hactive

end BudgetCharge

mutual

/-- Deepest step of an evaluation that starts at depth one, when no value nests deeper
than `room`. -/
def Expression.reach (room : Nat) : Expression → Nat
  | .literal _ => 1
  | .path segments => max 1 (segments.length - 1)
  | .access base segments => max (base.reach room + 1) (chainReach room 0 segments)
  | .call function arguments =>
    max (argumentsReach room arguments + 1) (if function = .toJSON then room + 2 else 1)
  | .not value => value.reach room + 1
  | .binary _ left right => max (left.reach room) (right.reach room) + 1

def chainReach (room position : Nat) : List AccessSegment → Nat
  | [] => 1
  | .property _ :: rest => max (position + 1) (chainReach room (position + 1) rest)
  | .index _ :: rest => max (position + 1) (chainReach room (position + 1) rest)
  | .dynamic selector :: rest =>
    max (max (position + 1) (selector.reach room + 1)) (chainReach room (position + 1) rest)
  | .projection :: rest =>
    max (position + 1) (max (chainReach room 0 rest + 1) (room + 1))

/-- Deepest step of arguments that start at depth one. -/
def argumentsReach (room : Nat) : List Expression → Nat
  | [] => 0
  | argument :: rest => max (argument.reach room) (argumentsReach room rest)

end

mutual

/-- The expression reads no JSON text. -/
def Expression.ReadsNoText : Expression → Prop
  | .literal _ => True
  | .path _ => True
  | .access base segments => base.ReadsNoText ∧ ChainReadsNoText segments
  | .call function arguments => function ≠ .fromJSON ∧ ArgumentsReadNoText arguments
  | .not value => value.ReadsNoText
  | .binary _ left right => left.ReadsNoText ∧ right.ReadsNoText

@[inherit_doc Expression.ReadsNoText]
def ChainReadsNoText : List AccessSegment → Prop
  | [] => True
  | .dynamic selector :: rest => selector.ReadsNoText ∧ ChainReadsNoText rest
  | .property _ :: rest => ChainReadsNoText rest
  | .index _ :: rest => ChainReadsNoText rest
  | .projection :: rest => ChainReadsNoText rest

@[inherit_doc Expression.ReadsNoText]
def ArgumentsReadNoText : List Expression → Prop
  | [] => True
  | argument :: rest => argument.ReadsNoText ∧ ArgumentsReadNoText rest

end

lemma Expression.one_le_reach (room : Nat) : ∀ expr : Expression, 1 ≤ expr.reach room
  | .literal _ => le_rfl
  | .path _ => le_max_left _ _
  | .access _ _ | .call _ _ => le_max_of_le_left (Nat.le_add_left _ _)
  | .not _ => Nat.le_add_left _ _
  | .binary _ _ _ => Nat.le_add_left _ _

lemma argumentsReach_pos (room : Nat) {arguments : List Expression} (h : arguments ≠ []) :
    1 ≤ argumentsReach room arguments := by
  cases arguments with
  | nil => exact absurd rfl h
  | cons argument rest => exact le_max_of_le_left (argument.one_le_reach room)

lemma one_le_chainReach (room position : Nat) : ∀ segments : List AccessSegment,
    1 ≤ chainReach room position segments
  | [] => le_rfl
  | .property _ :: _ | .index _ :: _ => le_max_of_le_left (Nat.le_add_left _ _)
  | .dynamic _ :: _ => le_max_of_le_left (le_max_of_le_left (Nat.le_add_left _ _))
  | .projection :: _ => le_max_of_le_left (Nat.le_add_left _ _)

/-! ### Walks -/

def depthError : EvaluationError := limitError "Expression evaluation exceeded the depth limit."

/-- An error that says nothing, or the depth limit where it is `limit`. -/
def Refused (limit : Nat) (s : EvalState) (error : EvaluationError) : Prop :=
  error.message = "" ∨ limit ≠ 0 ∧ s.budget.limits.maxDepth = limit ∧ error = depthError

lemma Refused.mono {limit : Nat} {s t : EvalState} {error : EvaluationError} (hle : s ≤ t)
    (h : Refused limit s error) : Refused limit t error := by
  rw [Refused, (EvalState.le_def.mp hle).1.limits]
  exact h

/-- The computation keeps the counters within their limits, returns only when no charge
failed and then a value with `Post`, and says what went wrong when it fails: not that it
went below the depth `limit`, where that is not zero. -/
def Walks {α : Type} (limit : Nat) (x : EvalM α) (Post : α → Prop := fun _ => True) : Prop :=
  Ledger.Keeps (fun s : EvalState => s.budget.Within) (fun s => s.budget.exhausted = false)
    (Refused limit) x Post

/-- The value of a runtime value nests no deeper than `room`, where there is a depth limit. -/
def RuntimeValue.Nests (limit room : Nat) (value : RuntimeValue) : Prop :=
  ∀ json ∈ value.value, limit = 0 ∨ json.nesting ≤ room

variable {value : RuntimeValue}

namespace Walks

variable {α β : Type} {limit room depth : Nat} {Post : α → Prop} {PostB : β → Prop}

lemma pure {a : α} (h : Post a) : Walks limit (Pure.pure a : EvalM α) Post :=
  Ledger.Keeps.pure h

lemma fail {error : EvaluationError} (h : error.message ≠ "" ∧ error ≠ depthError) :
    Walks limit (Ledger.fail error : EvalM α) Post :=
  Ledger.Keeps.fail fun _ hbad => hbad.elim h.1 fun hdepth => h.2 hdepth.2.2

variable {x : EvalM α}

lemma bind {f : α → EvalM β} (hx : Walks limit x Post)
    (hf : ∀ a, Post a → Walks limit (f a) PostB) : Walks limit (x >>= f) PostB :=
  Ledger.Keeps.bind (fun _ _ _ => Refused.mono) hx hf

lemma andThen {f : α → EvalM β} (hx : Walks limit x Post)
    (hf : ∀ a, Walks limit (f a) PostB) : Walks limit (x >>= f) PostB :=
  hx.bind fun a _ => hf a

lemma mono {Post' : α → Prop} (h : Walks limit x Post)
    (hpost : ∀ a, Post a → Post' a) : Walks limit x Post' :=
  { h with ensures := fun a ha => hpost a (h.ensures a ha) }

lemma map {f : α → β} (h : Walks limit x) : Walks limit (f <$> x) :=
  h.andThen fun _ => pure trivial

lemma ite {c : Prop} [Decidable c] {x y : EvalM α} (hx : c → Walks limit x Post)
    (hy : ¬c → Walks limit y Post) : Walks limit (if c then x else y) Post := by
  by_cases h : c
  · rw [if_pos h]
    exact hx h
  · rw [if_neg h]
    exact hy h

/-! ### Charges -/

lemma ofCharge (charge : BudgetCharge)
    {hle : ∀ budget : EvaluationBudget, budget.Extends (charge.run budget).2}
    (h : ∀ depth, charge = .step depth → limit = 0 ∨ depth ≤ limit) :
    Walks limit (EvalM.ofCharge charge.run hle) where
  inv _ hs := charge.within hs
  live _ hs _ hok := BudgetCharge.active_of_ok hs hok
  ensures _ _ := trivial
  errors s error he hbad := by
    obtain ⟨hmessage, hstep⟩ := BudgetCharge.message_of_error he
    obtain hempty | ⟨hlimit, hdepth, herror⟩ := hbad
    · exact hmessage hempty
    · obtain ⟨depth, hcharge, hlt⟩ := hstep (congrArg EvaluationError.message herror)
      have hle := h depth hcharge
      omega

lemma step (h : limit = 0 ∨ depth ≤ limit) : Walks limit (EvalM.step depth) :=
  ofCharge (.step depth) fun _ heq => by cases heq; exact h

lemma visitItems (count : Nat) : Walks limit (EvalM.visitItems count) :=
  ofCharge (.visitItems count) fun _ heq => by cases heq

lemma reserveGeneratedBytes (count : Nat) : Walks limit (EvalM.reserveGeneratedBytes count) :=
  ofCharge (.reserveGeneratedBytes count) fun _ heq => by cases heq

lemma reserveMaterializedBytes (count : Nat) :
    Walks limit (EvalM.reserveMaterializedBytes count) :=
  ofCharge (.reserveMaterializedBytes count) fun _ heq => by cases heq

lemma freshRoot : Walks limit EvalM.freshRoot :=
  ⟨fun _ h => h, fun _ h _ _ => h, fun _ _ => trivial, fun _ _ h => by cases h⟩

lemma exhausted : Walks limit EvalM.exhausted :=
  ⟨fun _ h => h, fun _ h _ _ => h, fun _ _ => trivial, fun _ _ h => by cases h⟩

/-- A caught error is gone, with the depth it met; then the second half must not return. -/
lemma attempt {f : Except EvaluationError α → EvalM β} (hx : Walks 0 x)
    (hf : ∀ result, Walks limit (f result) PostB)
    (hfails : ∀ e s b, ((f (.error e)).run s).1 ≠ .ok b) :
    Walks limit (EvalM.attempt x >>= f) PostB := by
  have hrun : ∀ s, (EvalM.attempt x >>= f).run s = (f (x.run s).1).run (x.run s).2 :=
    fun _ => rfl
  refine ⟨fun s hs => ?_, fun s hs b hb => ?_, fun b hb => ?_, fun s error he hbad => ?_⟩
  · rw [hrun]
    exact (hf _).inv _ (hx.inv s hs)
  · rw [hrun] at hb ⊢
    have hlive := hx.live s hs
    -- a value comes from the branch of a first half that succeeded
    cases hresult : (x.run s).1 with
    | ok a =>
      rw [hresult] at hb
      exact (hf _).live _ (hlive a hresult) b hb
    | error e =>
      rw [hresult] at hb
      exact absurd hb (hfails e _ b)
  · obtain ⟨s, t, hb⟩ := hb
    exact (hf _).ensures b ⟨_, t, hb⟩
  · rw [hrun] at he
    exact (hf _).errors _ error he (hbad.mono (x.le_run s))

/-! ### Copies -/

mutual

/-- A copy goes as deep as the value nests. -/
lemma checkCopy (depth : Nat) : ∀ value : Json, limit = 0 ∨ depth + value.nesting ≤ limit →
    Walks limit (Antiburn.checkCopy depth value)
  | .array items, h => by
    have h : limit = 0 ∨ depth + (Json.nestingItems items + 1) ≤ limit := h
    refine (step (by omega)).andThen fun _ => (visitItems _).andThen fun _ =>
      (reserveMaterializedBytes _).andThen fun _ => ?_
    exact checkCopyItems (depth + 1) items (by omega)
  | .object entries, h => by
    have h : limit = 0 ∨ depth + (Json.nestingEntries entries + 1) ≤ limit := h
    refine (step (by omega)).andThen fun _ => (visitItems _).andThen fun _ =>
      (reserveMaterializedBytes _).andThen fun _ => ?_
    exact checkCopyEntries (depth + 1) entries (by omega)
  | .string _, h | .null, h | .bool _, h | .number _, h =>
    (step (by omega)).andThen fun _ => reserveMaterializedBytes _

lemma checkCopyItems (depth : Nat) : ∀ items : List Json,
    limit = 0 ∨ depth + Json.nestingItems items ≤ limit →
    Walks limit (Antiburn.checkCopyItems depth items)
  | [], _ => pure trivial
  | item :: rest, h => by
    have h : limit = 0 ∨ depth + max item.nesting (Json.nestingItems rest) ≤ limit := h
    exact (checkCopy depth item (by omega)).andThen fun _ => checkCopyItems depth rest (by omega)

lemma checkCopyEntries (depth : Nat) : ∀ entries : List (String × Json),
    limit = 0 ∨ depth + Json.nestingEntries entries ≤ limit →
    Walks limit (Antiburn.checkCopyEntries depth entries)
  | [], _ => pure trivial
  | (key, value) :: rest, h => by
    have h : limit = 0 ∨ depth + max value.nesting (Json.nestingEntries rest) ≤ limit := h
    exact (reserveMaterializedBytes _).andThen fun _ =>
      (checkCopy depth value (by omega)).andThen fun _ => checkCopyEntries depth rest (by omega)

end

lemma copyValue {json : Json} (h : limit = 0 ∨ depth + json.nesting ≤ limit) :
    Walks limit (Antiburn.copyValue json depth) (· = json) :=
  (checkCopy depth json h).andThen fun _ => pure rfl

lemma finish (hvalue : value.Nests limit room) (h : limit = 0 ∨ depth + room ≤ limit) :
    Walks limit (value.finish depth) fun finished => finished.value = value.value := by
  obtain ⟨json, owned, metadata⟩ := value
  cases json with
  | none => exact pure rfl
  | some json =>
    have hjson : limit = 0 ∨ json.nesting ≤ room := hvalue json rfl
    cases owned with
    | true => exact pure rfl
    | false =>
      refine (copyValue (by omega)).bind fun copied hcopied => pure ?_
      rw [hcopied]

/-! ### Text -/

lemma append (output text : String) : Walks limit (Antiburn.append output text) :=
  (reserveGeneratedBytes _).andThen fun _ => pure trivial

lemma appendOutput (output : JsonOutput) (text : String) :
    Walks limit (output.append text) :=
  (append _ _).andThen fun _ => pure trivial

lemma scalarText (value : Json) : Walks limit (Antiburn.scalarText value) := by
  cases value with
  | null => exact pure trivial
  | bool value | number number | string text =>
    exact (reserveGeneratedBytes _).andThen fun _ => pure trivial
  | array | object => exact fail (by decide)

lemma scalarTexts : ∀ values : List RuntimeValue,
    Walks limit (Antiburn.scalarTexts values)
  | [] => pure trivial
  | _ :: rest => (scalarText _).andThen fun _ => (scalarTexts rest).andThen fun _ => pure trivial

lemma writeCharacters : ∀ (chars pending : List Char) (output : String),
    Walks limit (Antiburn.writeCharacters chars pending output)
  | [], _, _ => append _ _
  | c :: rest, pending, output => by
    unfold Antiburn.writeCharacters
    cases jsonEscape c with
    | none => exact writeCharacters rest (c :: pending) output
    | some escape =>
      exact (append _ _).andThen fun _ => (append _ _).andThen fun _ => writeCharacters rest [] _

lemma writeString (value output : String) :
    Walks limit (Antiburn.writeString value output) :=
  (append _ _).andThen fun _ => (writeCharacters _ _ _).andThen fun _ => append _ _

mutual

/-- A written value goes as deep as it nests. -/
lemma writeJson (depth : Nat) : ∀ (value : Json) (prov : ValueProvenance)
    (output : JsonOutput), limit = 0 ∨ depth + value.nesting ≤ limit →
    Walks limit (Antiburn.writeJson depth value prov output)
  | .array items, prov, output, h => by
    have h : limit = 0 ∨ depth + (Json.nestingItems items + 1) ≤ limit := h
    exact (step (by omega)).andThen fun _ => (visitItems _).andThen fun _ =>
      (appendOutput _ _).andThen fun _ =>
        (writeItems depth prov 0 items _ (by omega)).andThen fun _ => appendOutput _ _
  | .object entries, prov, output, h => by
    have h : limit = 0 ∨ depth + (Json.nestingEntries entries + 1) ≤ limit := h
    exact (step (by omega)).andThen fun _ => (visitItems _).andThen fun _ =>
      (appendOutput _ _).andThen fun _ =>
        (writeEntries depth prov true entries _ (by omega)).andThen fun _ => appendOutput _ _
  | .string _, _, _, h =>
    (step (by omega)).andThen fun _ => (writeString _ _).andThen fun _ => pure trivial
  | .null, _, _, h | .bool _, _, _, h => (step (by omega)).andThen fun _ => appendOutput _ _
  | .number _, _, _, h =>
    (step (by omega)).andThen fun _ => (scalarText _).andThen fun _ => appendOutput _ _

lemma writeItems (depth : Nat) (prov : ValueProvenance) : ∀ (index : Nat)
    (items : List Json) (output : JsonOutput),
    limit = 0 ∨ depth + 1 + Json.nestingItems items ≤ limit →
    Walks limit (Antiburn.writeItems depth prov index items output)
  | _, [], _, _ => pure trivial
  | index, item :: rest, output, h => by
    have h : limit = 0 ∨ depth + 1 + max item.nesting (Json.nestingItems rest) ≤ limit := h
    have hitem : ∀ output, Walks limit (Antiburn.writeJson (depth + 1) item
        (prov.child (.index index)) output >>= Antiburn.writeItems depth prov
          (index + 1) rest) := fun output =>
      (writeJson (depth + 1) item _ output (by omega)).andThen fun _ =>
        writeItems depth prov (index + 1) rest _ (by omega)
    unfold Antiburn.writeItems
    exact ite (fun _ => (appendOutput _ _).andThen hitem) fun _ => hitem output

lemma writeEntries (depth : Nat) (prov : ValueProvenance) : ∀ (first : Bool)
    (entries : List (String × Json)) (output : JsonOutput),
    limit = 0 ∨ depth + 1 + Json.nestingEntries entries ≤ limit →
    Walks limit (Antiburn.writeEntries depth prov first entries output)
  | _, [], _, _ => pure trivial
  | first, (key, value) :: rest, output, h => by
    have h : limit = 0 ∨ depth + 1 + max value.nesting (Json.nestingEntries rest) ≤ limit := h
    have hentry : ∀ output : JsonOutput, Walks limit (do
        let output : JsonOutput :=
          { output with text := ← Antiburn.writeString key output.text }
        let output ← output.append ":"
        let output ← Antiburn.writeJson (depth + 1) value (prov.child (.property key)) output
        Antiburn.writeEntries depth prov false rest output) := fun output =>
      (writeString _ _).andThen fun _ => (appendOutput _ _).andThen fun _ =>
        (writeJson (depth + 1) value _ _ (by omega)).andThen fun _ =>
          writeEntries depth prov false rest _ (by omega)
    unfold Antiburn.writeEntries
    exact ite (fun _ => hentry output) fun _ => (appendOutput _ _).andThen hentry

end

/-! ### Values -/

lemma ofOwned {json : Json} (deps : EvaluationTrace) (h : limit = 0 ∨ json.nesting ≤ room) :
    Walks limit (RuntimeValue.ofOwned json deps) (·.Nests limit room) := by
  have hnests : ∀ value : RuntimeValue, value.value = some json → value.Nests limit room := by
    intro value hvalue other hother
    rw [hvalue, Option.mem_def, Option.some.injEq] at hother
    exact hother ▸ h
  exact ite (fun _ => freshRoot.andThen fun _ => pure (hnests _ rfl)) fun _ => pure (hnests _ rfl)

end Walks

variable {limit room : Nat}

lemma RuntimeValue.nests_unavailable (metadata : ValueMetadata) :
    (RuntimeValue.unavailable metadata).Nests limit room := by
  intro json hjson
  cases hjson

lemma RuntimeValue.nests_scalar {json : Json} (trace : EvaluationTrace)
    (h : json.nesting = 0) : (RuntimeValue.scalar json trace).Nests limit room := by
  intro other hother
  cases hother
  omega

lemma RuntimeValue.nests_text (text : String) (metadata : ValueMetadata) :
    RuntimeValue.Nests limit room ⟨some (.string text), true, metadata⟩ := by
  intro other hother
  cases hother
  exact .inr (Nat.zero_le room)

lemma literalValue_nesting (literal : ExpressionLiteral) : (literalValue literal).nesting = 0 := by
  cases literal <;> simp [literalValue, Json.nesting]

lemma RuntimeValue.Nests.withMetadata (h : value.Nests limit room) (metadata : ValueMetadata) :
    RuntimeValue.Nests limit room { value with metadata } := h

lemma RuntimeValue.Nests.select (h : value.Nests limit room)
    (seg : PathSegment) : (Antiburn.select value seg).Nests limit room := by
  obtain ⟨json, owned, metadata⟩ := value
  cases json with
  | none => exact nests_unavailable _
  | some json =>
    have hjson : limit = 0 ∨ json.nesting ≤ room := h json rfl
    have hkey : ∀ name entries child, json = .object entries →
        Object.get? entries name = some child → limit = 0 ∨ child.nesting ≤ room := by
      rintro name entries child rfl hchild
      have hle := Json.nestingEntries_le_iff.mp le_rfl _ (Object.mem_of_get? hchild)
      have hobject : limit = 0 ∨ Json.nestingEntries entries + 1 ≤ room := hjson
      have hchild : child.nesting ≤ Json.nestingEntries entries := hle
      omega
    have hindex : ∀ (index : Nat) items child, json = .array items → items[index]? = some child →
        limit = 0 ∨ child.nesting ≤ room := by
      rintro index items child rfl hchild
      have hle := Json.nestingItems_le_iff.mp le_rfl _ (List.mem_of_getElem? hchild)
      have harray : limit = 0 ∨ Json.nestingItems items + 1 ≤ room := hjson
      omega
    intro child hchild
    unfold Antiburn.select at hchild
    dsimp only at hchild
    split at hchild
    · cases hchild
      exact .inr (Nat.zero_le _)
    · dsimp only at hchild
      split at hchild
      · exact hkey _ _ _ rfl hchild
      · exact hindex _ _ _ rfl hchild
      · cases hchild

lemma nesting_projectionEntries {json : Json}
    {entries : List (PathSegment × Json)} (h : limit = 0 ∨ json.nesting ≤ room)
    (hents : projectionEntries json = some entries) :
    (limit = 0 ∨ 1 ≤ room) ∧ ∀ entry ∈ entries, limit = 0 ∨ entry.2.nesting ≤ room - 1 := by
  cases json with
  | array items =>
    have harray : limit = 0 ∨ Json.nestingItems items + 1 ≤ room := h
    cases hents
    refine ⟨by omega, fun entry hentry => ?_⟩
    obtain ⟨⟨item, index⟩, hitem, rfl⟩ := List.mem_map.mp hentry
    have hle := Json.nestingItems_le_iff.mp le_rfl item (List.fst_mem_of_mem_zipIdx hitem)
    show limit = 0 ∨ item.nesting ≤ room - 1
    omega
  | object fields =>
    have hobject : limit = 0 ∨ Json.nestingEntries fields + 1 ≤ room := h
    cases hents
    refine ⟨by omega, fun entry hentry => ?_⟩
    obtain ⟨⟨key, item⟩, hitem, rfl⟩ := List.mem_map.mp hentry
    have hle : item.nesting ≤ Json.nestingEntries fields :=
      Json.nestingEntries_le_iff.mp le_rfl (key, item) hitem
    show limit = 0 ∨ item.nesting ≤ room - 1
    omega
  | null | bool | number | string => cases hents

namespace Walks

variable {limit room depth : Nat}

lemma dynamicSegment (json : Json) :
    Walks limit (Antiburn.dynamicSegment json) := by
  cases json with
  | string key => exact (reserveGeneratedBytes _).andThen fun _ => pure trivial
  | null | bool | number | array | object => exact pure trivial

lemma reserveKeys : ∀ entries : List (PathSegment × Json),
    Walks limit (Antiburn.reserveKeys entries)
  | [] => pure trivial
  | (.index _, _) :: _ => pure trivial
  | (.property _, _) :: rest => (reserveGeneratedBytes _).andThen fun _ => reserveKeys rest

lemma projectItems {accessItem : RuntimeValue → EvalM RuntimeValue} {inner : Nat}
    (haccess : ∀ value : RuntimeValue, value.Nests limit inner →
      Walks limit (accessItem value) (·.Nests limit inner))
    (hdepth : limit = 0 ∨ depth + inner ≤ limit) (source : RuntimeValue) (deps : EvaluationTrace) :
    ∀ (entries : List (PathSegment × Json)) (output : List Json) (metadata : List ValueMetadata),
      (∀ entry ∈ entries, limit = 0 ∨ entry.2.nesting ≤ inner) →
      (∀ json ∈ output, limit = 0 ∨ json.nesting ≤ inner) →
      Walks limit (Antiburn.projectItems accessItem depth source deps entries output
        metadata) (·.Nests limit (inner + 1))
  | [], output, metadata, _, houtput => by
    have harray : limit = 0 ∨ (Json.array output).nesting ≤ inner + 1 := by
      by_cases hlimit : limit = 0
      · exact .inl hlimit
      · rw [Json.nesting, Nat.add_le_add_iff_right, Json.nestingItems_le_iff]
        exact .inr fun json hjson => (houtput json hjson).resolve_left hlimit
    exact (ofOwned deps harray).bind fun result hresult => pure hresult
  | (seg, item) :: rest, output, metadata, hents, houtput => by
    have hitem : limit = 0 ∨ item.nesting ≤ inner := hents (seg, item) List.mem_cons_self
    have hstart : RuntimeValue.Nests limit inner
        ⟨some item, source.owned, source.metadata.child seg⟩ := by
      intro json hjson
      cases hjson
      exact hitem
    refine (haccess _ hstart).bind fun selected hsel => ?_
    obtain ⟨value, owned, selectedMetadata⟩ := selected
    cases value with
    | none => exact pure (RuntimeValue.nests_unavailable _)
    | some json =>
      refine (finish hsel hdepth).bind fun finished hfin => ?_
      dsimp only at hfin
      rw [hfin]
      have hjson : limit = 0 ∨ json.nesting ≤ inner := hsel json rfl
      refine projectItems haccess hdepth source deps rest _ _
        (fun entry hentry => hents entry (List.mem_cons_of_mem _ hentry)) fun other hother => ?_
      rcases List.mem_append.mp hother with hother | hother
      · exact houtput other hother
      · rw [List.mem_singleton.mp hother]
        exact hjson

lemma project {accessItem : RuntimeValue → EvalM RuntimeValue}
    (haccess : ∀ item : RuntimeValue, item.Nests limit (room - 1) →
      Walks limit (accessItem item) (·.Nests limit (room - 1)))
    (hvalue : value.Nests limit room) (hstep : limit = 0 ∨ depth ≤ limit)
    (hdepth : limit = 0 ∨ depth + room ≤ limit + 1) :
    Walks limit (Antiburn.project accessItem depth value) (·.Nests limit room) := by
  refine (step hstep).andThen fun _ => ?_
  obtain ⟨json, owned, metadata⟩ := value
  cases json with
  | none => exact pure (RuntimeValue.nests_unavailable _)
  | some json =>
    have hjson : limit = 0 ∨ json.nesting ≤ room := hvalue json rfl
    cases hents : projectionEntries json with
    | none =>
      dsimp only
      rw [hents]
      exact pure (RuntimeValue.nests_unavailable _)
    | some entries =>
      obtain ⟨hroom, hinner⟩ := nesting_projectionEntries hjson hents
      have hitems : Walks limit (Antiburn.projectItems accessItem depth ⟨some json, owned, metadata⟩
          metadata.membershipTrace entries [] []) (·.Nests limit room) := by
        have hbound : limit = 0 ∨ depth + (room - 1) ≤ limit := by omega
        have hproj := projectItems haccess hbound ⟨some json, owned, metadata⟩
          metadata.membershipTrace entries [] [] hinner fun other hother => by cases hother
        refine hproj.mono fun result hresult json hjson => ?_
        have hle := hresult json hjson
        omega
      dsimp only
      rw [hents]
      refine (visitItems _).andThen fun _ => (reserveGeneratedBytes _).andThen fun _ => ?_
      exact ite (fun _ => (reserveKeys entries).andThen fun _ => hitems) fun _ => hitems

lemma pathSteps : ∀ (segments : List PathSegment) (depth : Nat) {value : RuntimeValue},
    value.Nests limit room → limit = 0 ∨ depth + segments.length ≤ limit + 1 →
    Walks limit (Antiburn.pathSteps segments depth value) (·.Nests limit room)
  | [], _, _, hvalue, _ => pure hvalue
  | seg :: rest, depth, value, hvalue, h => by
    rw [List.length_cons] at h
    exact (step (by omega)).andThen fun _ =>
      pathSteps rest (depth + 1) (hvalue.select seg) (by omega)

/-! ### Functions and operators -/

section Functions

variable [Platform]

omit [Platform] in
lemma chargeVisits (depth : Nat) : ∀ visits : List JsonVisit,
    Walks 0 (Antiburn.chargeVisits depth visits)
  | [] => pure trivial
  | _ :: rest => (step (.inl rfl)).andThen fun _ =>
      ite (fun _ => (visitItems 1).andThen fun _ => chargeVisits depth rest) fun _ =>
        chargeVisits depth rest

lemma lowercase (text : String) : Walks limit (Antiburn.lowercase text) :=
  (reserveGeneratedBytes _).andThen fun _ => pure trivial

lemma lowercaseTexts (text part : Json) :
    Walks limit (Antiburn.lowercaseTexts text part) :=
  (scalarText _).andThen fun _ => (scalarText _).andThen fun _ => (lowercase _).andThen fun _ =>
    (lowercase _).andThen fun _ => pure trivial

lemma equal (left right : Json) (same : Bool) :
    Walks limit (Antiburn.equal left right same) := by
  unfold Antiburn.equal
  split
  · exact pure trivial
  · exact pure trivial
  · exact pure trivial
  · exact (lowercase _).andThen fun _ => (lowercase _).andThen fun _ => pure trivial
  · refine ite (fun _ => pure trivial) fun _ => ?_
    split
    · exact pure trivial
    · exact pure trivial

lemma ordered (left right : Json) :
    Walks limit (Antiburn.ordered left right) := by
  unfold Antiburn.ordered
  split
  · exact (lowercase _).andThen fun _ => (lowercase _).andThen fun _ => pure trivial
  all_goals exact pure trivial

lemma compareValues (operator : BinaryOperator) (left right : RuntimeValue) :
    Walks limit (Antiburn.compareValues operator left right) (·.Nests limit room) := by
  unfold Antiburn.compareValues
  dsimp only
  split
  · rename_i leftValue rightValue _ _
    have hscalar : ∀ result : Bool, (RuntimeValue.scalar (.bool result)
        (left.trace.merge right.trace)).Nests limit room :=
      fun result => RuntimeValue.nests_scalar _ rfl
    have hequal := @equal limit _ leftValue rightValue
      (sameIdentity left.metadata right.metadata)
    have hord := @ordered limit _ leftValue rightValue
    cases operator with
    | equal => exact hequal.andThen fun _ => pure (hscalar _)
    | notEqual =>
      exact (hequal.map).andThen fun _ => pure (hscalar _)
    | less | lessOrEqual | greater | greaterOrEqual | and | or =>
      exact (hord.map).andThen fun _ => pure (hscalar _)
  · exact pure (RuntimeValue.nests_unavailable _)

lemma containsItem (items needle : RuntimeValue) (right : Json)
    (h : limit = 0 ∨ depth + 1 ≤ limit) :
    ∀ (entries : List (Json × Nat)) (trace : EvaluationTrace),
      Walks limit (Antiburn.containsItem items needle right depth entries trace)
        (·.Nests limit room)
  | [], _ => pure (RuntimeValue.nests_scalar _ rfl)
  | _ :: rest, _ =>
    (visitItems _).andThen fun _ => (step h).andThen fun _ => (equal _ _ _).andThen fun _ =>
      ite (fun _ => pure (RuntimeValue.nests_scalar _ rfl)) fun _ =>
        containsItem items needle right h rest _

omit [Platform] in
lemma joinItems (items : RuntimeValue) (separator : String) (separatorSources : EvaluationTrace)
    (h : limit = 0 ∨ depth + 1 ≤ limit) : ∀ (entries : List (Json × Nat)) (text : String)
      (sources : EvaluationTrace),
      Walks limit (Antiburn.joinItems items separator separatorSources depth entries text sources)
       
  | [], _, _ => pure trivial
  | (item, index) :: rest, text, sources => by
    have hitem : ∀ (text : String) (sources : EvaluationTrace), Walks limit (do
        let item ← Antiburn.scalarText item
        let text ← Antiburn.append text item
        Antiburn.joinItems items separator separatorSources depth rest text sources)
        := fun text sources =>
      (scalarText _).andThen fun _ => (append _ _).andThen fun _ =>
        joinItems items separator separatorSources h rest _ _
    refine (step h).andThen fun _ => ?_
    exact ite (fun _ => (append _ _).andThen fun text => hitem text _) fun _ => hitem text _

omit [Platform] in
lemma renderFormat (values : List String) (evaluated : List RuntimeValue)
    (h : limit = 0 ∨ depth ≤ limit) :
    ∀ (fuel : Nat) (chars : List Char) (output : String) (sources : EvaluationTrace),
      Walks limit (Antiburn.renderFormat values evaluated depth fuel chars output sources)
       
  | 0, _, _, _ => by
    unfold Antiburn.renderFormat
    exact pure trivial
  | _ + 1, [], _, _ => pure trivial
  | fuel + 1, c :: rest, output, sources => by
    unfold Antiburn.renderFormat
    refine (step h).andThen fun _ => ?_
    refine ite (fun _ => (append _ _).andThen fun _ =>
      renderFormat values evaluated h fuel _ _ _) fun _ => ?_
    refine ite (fun _ => ?_) fun _ => ?_
    · refine ite (fun _ => fail (by decide)) fun _ => ite (fun _ => fail (by decide)) fun _ => ?_
      dsimp only
      split
      · exact (append _ _).andThen fun _ => renderFormat values evaluated h fuel _ _ _
      · exact fail (by decide)
    · exact ite (fun _ => fail (by decide)) fun _ => (append _ _).andThen fun _ =>
        renderFormat values evaluated h fuel _ _ _

lemma parseJson (text : String) (depth : Nat) : Walks limit (Antiburn.parseJson text depth) := by
  have href : ∀ other : EvalM Json, other = (do
      if ← EvalM.exhausted then
        Ledger.fail (limitError "JSON parsing exhausted the shared evaluation budget.")
      else Ledger.fail (invalidError "fromJSON requires valid finite JSON.")) →
      Walks limit other ∧ ∀ s b, (other.run s).1 ≠ .ok b := by
    rintro other rfl
    refine ⟨exhausted.andThen fun _ => ite (fun _ => fail (by decide)) fun _ => fail (by decide),
      fun s b h => ?_⟩
    obtain ⟨_, _, -, hfail⟩ := Ledger.run_bind_eq_ok (Prod.ext h rfl)
    split at hfail <;> cases hfail
  refine (reserveGeneratedBytes _).andThen fun _ =>
    attempt (chargeVisits depth _) (fun result => ?_) fun _ => (href _ rfl).2
  cases result with
  | error error => exact (href _ rfl).1
  | ok charged =>
    cases (Platform.readJson text).value with
    | some value => exact pure trivial
    | none => exact (href _ rfl).1

lemma applyFunction {function : ExpressionFunction} {values : List RuntimeValue}
    {trace : EvaluationTrace} (hvalues : ∀ value ∈ values, value.Nests limit room)
    (hfun : limit = 0 ∨ function ≠ .fromJSON) (hdepth : limit = 0 ∨ depth + 1 ≤ limit)
    (hwrite : function = .toJSON → limit = 0 ∨ depth + 1 + room ≤ limit) :
    Walks limit (Antiburn.applyFunction function values trace depth) (·.Nests limit room) := by
  have hfirst : (values.headD (.unavailable {})).Nests limit room := by
    cases values with
    | nil => exact RuntimeValue.nests_unavailable _
    | cons first rest => exact hvalues first List.mem_cons_self
  have hleft : limit = 0 ∨ ((values.headD (.unavailable {})).value.getD .null).nesting ≤ room := by
    cases hvalue : (values.headD (.unavailable {})).value with
    | none => exact .inr (Nat.zero_le room)
    | some json => exact hfirst json hvalue
  unfold Antiburn.applyFunction
  dsimp only
  cases function with
  | strictEquals =>
    exact ite (fun _ => fail (by decide)) fun _ => pure (RuntimeValue.nests_scalar _ rfl)
  | contains =>
    dsimp only
    split
    · exact containsItem _ _ _ hdepth _ _
    · exact (lowercaseTexts _ _).andThen fun _ => pure (RuntimeValue.nests_scalar _ rfl)
  | startsWith | endsWith =>
    exact (lowercaseTexts _ _).andThen fun _ => pure (RuntimeValue.nests_scalar _ rfl)
  | join =>
    have hcomma : Walks limit (Pure.pure "," : EvalM String) := pure trivial
    dsimp only
    split
    · refine hcomma.andThen fun _ => ?_
      split
      · exact pure hfirst
      · exact (visitItems _).andThen fun _ => (joinItems _ _ _ hdepth _ _ _).andThen fun _ =>
          pure (RuntimeValue.nests_text _ _)
      · exact fail (by decide)
    · refine (scalarText _).andThen fun _ => ?_
      split
      · exact pure hfirst
      · exact (visitItems _).andThen fun _ => (joinItems _ _ _ hdepth _ _ _).andThen fun _ =>
          pure (RuntimeValue.nests_text _ _)
      · exact fail (by decide)
  | format =>
    exact (scalarText _).andThen fun _ => (scalarTexts _).andThen fun _ =>
      (renderFormat _ _ (by omega) _ _ _ _).andThen fun _ => pure (RuntimeValue.nests_text _ _)
  | toJSON =>
    have hdeep := hwrite rfl
    exact (writeJson (depth + 1) _ _ _ (by omega)).andThen fun _ =>
      pure (RuntimeValue.nests_text _ _)
  | fromJSON =>
    obtain rfl : limit = 0 := hfun.resolve_right fun hne => hne rfl
    have hany : ∀ value : RuntimeValue, value.Nests 0 room := fun _ _ _ => .inl rfl
    dsimp only
    split
    · refine (parseJson _ _).andThen fun _ => (@ofOwned 0 room _ _ (.inl rfl)).andThen fun _ => ?_
      split
      · exact pure (hany _)
      · exact pure (hany _)
    · exact fail (by decide)

end Functions

/-! ### The evaluator -/

section Evaluator

variable [Platform]

/-- The context and the aliases nest no deeper than `room`. -/
structure ShallowInput (limit room : Nat) (context : Json)
    (bindings : EvaluationBindings) : Prop where
  context : limit = 0 ∨ context.nesting ≤ room
  bindings : ∀ name binding, bindings.lookup name = some binding →
    ∀ json ∈ binding.value, limit = 0 ∨ json.nesting ≤ room

variable {ctx : Json} {bindings : EvaluationBindings}

omit [Platform] in
lemma pathRoot (h : ShallowInput limit room ctx bindings) (root : String) :
    (Antiburn.pathRoot ctx bindings root).Nests limit room := by
  intro json hjson
  unfold Antiburn.pathRoot at hjson
  cases hlookup : bindings.lookup root with
  | some binding =>
    rw [hlookup] at hjson
    exact h.bindings root binding hlookup json hjson
  | none =>
    rw [hlookup] at hjson
    have hget : ctx.get? root = some json := hjson
    cases ctx with
    | object entries =>
      have hlt : json.nesting < (Json.object entries).nesting :=
        Json.nesting_lt_of_mem_entries (Object.mem_of_get? hget)
      have hctx := h.context
      omega
    | null | bool | number | string | array => cases hget

omit [Platform] in
lemma evaluatePath (h : ShallowInput limit room ctx bindings) (path : List PathSegment)
    (hpath : limit = 0 ∨ depth + path.length ≤ limit + 2) :
    Walks limit (Antiburn.evaluatePath ctx bindings path depth) (·.Nests limit room) := by
  unfold Antiburn.evaluatePath
  split
  · rename_i root rest
    rw [List.length_cons] at hpath
    exact pathSteps rest depth (pathRoot h root) (by omega)
  · exact pure (RuntimeValue.nests_unavailable _)

mutual

/-- **No step of an evaluation goes deeper than the reach of its expression.** -/
lemma evaluate (h : ShallowInput limit room ctx bindings) : ∀ (expr : Expression)
    (depth : Nat), limit = 0 ∨ expr.ReadsNoText → limit = 0 ∨ depth + expr.reach room ≤ limit + 1 →
    Walks limit (Antiburn.evaluate ctx bindings expr depth) (·.Nests limit room)
  | .literal literal, depth, _, hreach => by
    have hdepth : limit = 0 ∨ depth + 1 ≤ limit + 1 := hreach
    have hvalue := @RuntimeValue.nests_scalar limit room _ {} (literalValue_nesting literal)
    cases literal with
    | string text =>
      exact (step (by omega)).andThen fun _ =>
        (reserveGeneratedBytes _).andThen fun _ => pure hvalue
    | number | boolean | null => exact (step (by omega)).andThen fun _ => pure hvalue
  | .path path, depth, _, hreach => by
    have hdepth : limit = 0 ∨ depth + max 1 (path.length - 1) ≤ limit + 1 := hreach
    exact (step (by omega)).andThen fun _ => evaluatePath h path (by omega)
  | .access base segments, depth, htext, hreach => by
    have hdepth : limit = 0 ∨
        depth + max (base.reach room + 1) (chainReach room 0 segments) ≤ limit + 1 := hreach
    have hbase := base.one_le_reach room
    exact (step (by omega)).andThen fun _ =>
      (evaluate h base (depth + 1) (htext.imp_right And.left) (by omega)).bind fun value hvalue =>
        access h segments depth 0 le_rfl hvalue (htext.imp_right And.right) (by omega)
  | .call function arguments, depth, htext, hreach => by
    have hdepth : limit = 0 ∨ depth + max (argumentsReach room arguments + 1)
        (if function = .toJSON then room + 2 else 1) ≤ limit + 1 := hreach
    refine (step (by omega)).andThen fun _ => ite (fun _ => fail (by decide)) fun harity => ?_
    have hne : arguments ≠ [] := by
      rintro rfl
      refine harity ?_
      cases function <;> rfl
    have hpos := argumentsReach_pos room hne
    refine (evaluateArguments h arguments depth {} [] (htext.imp_right And.right) (by omega)
      fun value hvalue => by cases hvalue).bind fun result hresult => ?_
    obtain ⟨trace, values⟩ := result
    cases values with
    | none => exact pure (RuntimeValue.nests_unavailable _)
    | some values =>
      refine applyFunction (hresult values rfl) (htext.imp_right And.left) (by omega) fun hto => ?_
      rw [if_pos hto] at hdepth
      omega
  | .not value, depth, htext, hreach => by
    have hdepth : limit = 0 ∨ depth + (value.reach room + 1) ≤ limit + 1 := hreach
    have hvalue := value.one_le_reach room
    refine (step (by omega)).andThen fun _ =>
      (evaluate h value (depth + 1) htext (by omega)).bind fun result _ => ?_
    cases result.value with
    | some json => exact pure (RuntimeValue.nests_scalar _ rfl)
    | none => exact pure (RuntimeValue.nests_unavailable _)
  | .binary operator left right, depth, htext, hreach => by
    have hdepth : limit = 0 ∨
        depth + (max (left.reach room) (right.reach room) + 1) ≤ limit + 1 := hreach
    have hleft := left.one_le_reach room
    refine (step (by omega)).andThen fun _ =>
      (evaluate h left (depth + 1) (htext.imp_right And.left) (by omega)).bind
        fun leftValue hleftValue => ?_
    cases leftValue.value with
    | none => exact pure hleftValue
    | some json =>
      refine ite (fun _ => pure hleftValue) fun _ => ?_
      refine (evaluate h right (depth + 1) (htext.imp_right And.right) (by omega)).bind
        fun rightValue hrightValue => ?_
      cases operator with
      | and | or => exact pure hrightValue
      | less | lessOrEqual | greater | greaterOrEqual | equal | notEqual =>
        exact compareValues _ _ _

lemma access (h : ShallowInput limit room ctx bindings) : ∀ (segments : List AccessSegment)
    (depth position : Nat) {inner : Nat} {value : RuntimeValue}, inner ≤ room →
    value.Nests limit inner → limit = 0 ∨ ChainReadsNoText segments →
    limit = 0 ∨ depth + chainReach room position segments ≤ limit + 1 →
    Walks limit (Antiburn.access ctx bindings segments depth position value) (·.Nests limit inner)
  | [], _, _, _, _, _, hvalue, _, _ => pure hvalue
  | .property name :: rest, depth, position, _, _, hinner, hvalue, htext, hreach
  | .index index :: rest, depth, position, _, _, hinner, hvalue, htext, hreach => by
    have hdepth : limit = 0 ∨
        depth + max (position + 1) (chainReach room (position + 1) rest) ≤ limit + 1 := hreach
    exact (step (by omega)).andThen fun _ => ite (fun _ => pure hvalue) fun _ =>
      access h rest depth (position + 1) hinner (hvalue.select _) htext (by omega)
  | .dynamic selector :: rest, depth, position, _, _, hinner, hvalue, htext, hreach => by
    have hdepth : limit = 0 ∨ depth + max (max (position + 1) (selector.reach room + 1))
        (chainReach room (position + 1) rest) ≤ limit + 1 := hreach
    refine (step (by omega)).andThen fun _ => ite (fun _ => pure hvalue) fun _ => ?_
    refine (evaluate h selector (depth + 1) (htext.imp_right And.left) (by omega)).bind
      fun chosen _ => ?_
    dsimp only
    cases chosen.value with
    | none => exact pure (RuntimeValue.nests_unavailable _)
    | some json =>
      refine (dynamicSegment json).andThen fun seg => ?_
      cases seg with
      | none => exact pure (RuntimeValue.nests_unavailable _)
      | some seg =>
        exact access h rest depth (position + 1) hinner ((hvalue.withMetadata _).select seg)
          (htext.imp_right And.right) (by omega)
  | .projection :: rest, depth, position, inner, _, hinner, hvalue, htext, hreach => by
    have hdepth : limit = 0 ∨
        depth + max (position + 1) (max (chainReach room 0 rest + 1) (room + 1)) ≤ limit + 1 :=
      hreach
    have hrest := one_le_chainReach room 0 rest
    refine (step (by omega)).andThen fun _ => ite (fun _ => pure hvalue) fun _ => ?_
    refine project (fun item hitem => ?_) hvalue (by omega) (by omega)
    exact access h rest (depth + 1) 0 (by omega) hitem htext (by omega)

lemma evaluateArguments (h : ShallowInput limit room ctx bindings) :
    ∀ (arguments : List Expression) (depth : Nat) (trace : EvaluationTrace)
    (values : List RuntimeValue), limit = 0 ∨ ArgumentsReadNoText arguments →
    limit = 0 ∨ depth + argumentsReach room arguments ≤ limit →
    (∀ value ∈ values, value.Nests limit room) →
    Walks limit (Antiburn.evaluateArguments ctx bindings arguments depth trace values)
      fun result => ∀ values ∈ result.2, ∀ value ∈ values, value.Nests limit room
  | [], _, _, values, _, _, hvalues => pure fun other hother => by
    cases hother
    exact hvalues
  | argument :: rest, depth, trace, values, htext, hreach, hvalues => by
    have hdepth : limit = 0 ∨
        depth + max (argument.reach room) (argumentsReach room rest) ≤ limit := hreach
    refine (evaluate h argument (depth + 1) (htext.imp_right And.left) (by omega)).bind
      fun value hvalue => ?_
    refine ite (fun _ => pure fun other hother => by cases hother) fun _ => ?_
    refine evaluateArguments h rest depth _ _ (htext.imp_right And.right) (by omega)
      fun other hother => ?_
    rcases List.mem_append.mp hother with hother | hother
    · exact hvalues other hother
    · rw [List.mem_singleton.mp hother]
      exact hvalue

end

lemma evaluateExpressionWithBudget (h : ShallowInput limit room ctx bindings) (expr : Expression)
    (htext : limit = 0 ∨ expr.ReadsNoText)
    (hreach : limit = 0 ∨ depth + expr.reach room ≤ limit + 1) (hcopy : limit = 0 ∨ depth + room ≤ limit) :
    Walks limit (Antiburn.evaluateExpressionWithBudget expr ctx bindings depth) :=
  (evaluate h expr depth htext hreach).bind fun _ hvalue =>
    (finish hvalue hcopy).mono fun _ _ => trivial

end Evaluator

end Walks

end Antiburn
