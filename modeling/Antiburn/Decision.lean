/-
Validation of declared decisions and of their question requirements.

The loops that refuse a repeated name are one function, `forUnique`; what it
accepts is stated once, in `forUnique_ok_iff`.
-/
import Antiburn.Check

namespace Antiburn

/-! ### Loops that refuse a repeated key -/

section ForUnique

variable {α κ ε : Type} [DecidableEq κ]

def forUnique (key : α → κ) (duplicate : ε) (before after : α → Except ε Unit) :
    List κ → List α → Except ε Unit
  | _, [] => .ok ()
  | seen, item :: rest => do
    before item
    if key item ∈ seen then throw duplicate
    after item
    forUnique key duplicate before after (key item :: seen) rest

lemma forUnique_ok_iff {key : α → κ} {duplicate : ε} {before after : α → Except ε Unit}
    {seen : List κ} {items : List α} :
    forUnique key duplicate before after seen items = .ok () ↔
      (∀ item ∈ items, before item = .ok () ∧ after item = .ok ()) ∧
        (items.map key).Nodup ∧ ∀ item ∈ items, key item ∉ seen := by
  induction items generalizing seen with
  | nil => simp [forUnique]
  | cons item rest ih =>
    rw [List.forall_mem_cons, List.forall_mem_cons, List.map_cons, List.nodup_cons, forUnique]
    rcases hbefore : before item with error | ⟨⟩
    · exact iff_of_false (fun h => by cases h) fun h => by cases h.1.1.1
    by_cases hseen : key item ∈ seen
    · simp only [if_pos hseen]
      exact iff_of_false (fun h => by cases h) fun h => h.2.2.1 hseen
    rcases hafter : after item with error | ⟨⟩
    · simp only [if_neg hseen]
      exact iff_of_false (fun h => by cases h) fun h => by cases h.1.1.2
    simp only [if_neg hseen]
    refine Iff.trans ih ?_
    constructor
    · rintro ⟨hchecks, hnodup, hnew⟩
      have hnot : key item ∉ rest.map key := by
        intro hmem
        obtain ⟨other, hother, heq⟩ := List.mem_map.mp hmem
        exact hnew other hother (heq ▸ List.mem_cons_self)
      exact ⟨⟨⟨trivial, trivial⟩, hchecks⟩, ⟨hnot, hnodup⟩, hseen,
        fun other hother hmem => hnew other hother (List.mem_cons_of_mem _ hmem)⟩
    · rintro ⟨⟨-, hchecks⟩, ⟨hnot, hnodup⟩, -, hrest⟩
      refine ⟨hchecks, hnodup, fun other hother hmem => ?_⟩
      rcases List.mem_cons.mp hmem with heq | hmem
      · exact hnot (heq ▸ List.mem_map_of_mem hother)
      · exact hrest other hother hmem

end ForUnique

/-! ### Declarations -/

structure DecisionContractError where
  message : String
  deriving DecidableEq

def MAX_QUESTIONS_PER_DECISION : Nat := 8

/-- A lowercase letter, then lowercase letters, digits and underscores. -/
def isIdentifier (value : String) : Bool :=
  match value.toList with
  | [] => false
  | first :: rest => first.isLower && rest.all fun c => c.isLower || c.isDigit || c == '_'

section Validation

variable [Platform]

def isFixedText (value : String) : Bool :=
  !value.toList.all Platform.isWhitespace && !decide ("$\x7b\x7b".toList <:+: value.toList)

def Question.text : Question → String
  | choice question _ => question
  | score question _ => question
  | noul question => question

/-- Checks language rules without applying a provider's limits. -/
def Question.validate (question : Question) : Except DecisionContractError Unit := do
  match question with
  | choice _ criteria =>
    if criteria.length < 2 ||
        criteria.any (fun entry => !isIdentifier entry.1 || !isFixedText entry.2) ||
        !decide (criteria.map Prod.fst).Nodup then
      throw ⟨"Choice requires at least two unique labels with fixed descriptions."⟩
  | score _ criteria =>
    if criteria.length < 2 || criteria.any fun text => !isFixedText text then
      throw ⟨"Score requires at least two fixed criterion descriptions."⟩
  | noul _ => pure ()
  if !isFixedText question.text then
    throw ⟨"Question text must be nonblank and fixed."⟩

def DecisionBlock.validate (block : DecisionBlock) : Except DecisionContractError Unit := do
  if !isIdentifier block.name then
    throw ⟨"Decision name must be a valid identifier."⟩
  if block.outputs.isEmpty || MAX_QUESTIONS_PER_DECISION < block.outputs.length then
    throw ⟨"Each decision requires one to eight questions."⟩
  forUnique NamedQuestion.name ⟨"Question names must be valid and unique."⟩
    (fun output => if isIdentifier output.name then .ok ()
      else .error ⟨"Question names must be valid and unique."⟩)
    (fun output => output.question.validate) [] block.outputs

def QuestionRequirements.validateForQuestion (required : QuestionRequirements) (decision : String)
    (question : NamedQuestion) : Except DecisionContractError Unit := do
  question.question.validate
  if !isIdentifier decision || !isIdentifier question.name || required.decision != decision ||
      required.question != question.name || required.kind != question.question.kind ||
      required.criteriaCount != question.question.criteriaCount then
    throw ⟨"Question requirements do not match the declaration."⟩
  if required.kind == .noul && (required.probabilities || required.confidence) then
    throw ⟨"Noul has no probability distribution or confidence detail."⟩

def validateDeclarations (declarations : List DecisionBlock) : Except DecisionContractError Unit :=
  forUnique DecisionBlock.name ⟨"Decision names must be unique."⟩ DecisionBlock.validate
    (fun _ => .ok ()) [] declarations

/-- Every declared question under its decision.  Names are unique once the
declarations validate, so the list has the entries of the source's map. -/
def expectedQuestions (declarations : List DecisionBlock) : List (String × NamedQuestion) :=
  declarations.flatMap fun block => block.outputs.map fun question => (block.name, question)

def validateRequirements (declarations : List DecisionBlock)
    (requirements : List QuestionRequirements) : Except DecisionContractError Unit := do
  validateDeclarations declarations
  let expected := expectedQuestions declarations
  if expected.length ≠ requirements.length then
    throw ⟨"Requirements must match the exact declared question set."⟩
  forUnique (fun required => (required.decision, required.question))
    ⟨"Question requirements must be unique."⟩ (fun _ => .ok ())
    (fun required =>
      match expected.find? fun entry =>
        entry.1 == required.decision && entry.2.name == required.question with
      | none => .error ⟨"Requirements contain an undeclared question."⟩
      | some (_, question) => required.validateForQuestion required.decision question)
    [] requirements

lemma DecisionBlock.isIdentifier_of_validate {block : DecisionBlock}
    (h : block.validate = .ok ()) : isIdentifier block.name = true := by
  by_contra hname
  rw [DecisionBlock.validate, Bool.eq_false_iff.mpr hname] at h
  cases h

lemma validateDeclarations_of_validateRequirements {decls : List DecisionBlock}
    {reqs : List QuestionRequirements}
    (h : validateRequirements decls reqs = .ok ()) :
    (decls.map DecisionBlock.name).Nodup ∧
      ∀ block ∈ decls, isIdentifier block.name = true := by
  have hdecl : validateDeclarations decls = .ok () := by
    rw [validateRequirements] at h
    rcases hresult : validateDeclarations decls with error | ⟨⟩
    · rw [hresult] at h
      cases h
    · rfl
  obtain ⟨hblocks, hnodup, -⟩ := forUnique_ok_iff.mp hdecl
  exact ⟨hnodup, fun block hblock => DecisionBlock.isIdentifier_of_validate (hblocks block hblock).1⟩

end Validation

/-! ### Attempts -/

structure DecisionAttempt where
  decision : String
  number : Nat
  deriving DecidableEq

def DecisionAttempt.validate (attempt : DecisionAttempt) : Except DecisionContractError Unit :=
  if isIdentifier attempt.decision && (attempt.number == 1 || attempt.number == 2) then .ok ()
  else .error ⟨"A decision attempt requires a valid name and number one or two."⟩

def DecisionAttempt.new (decision : String) (number : Nat) :
    Except DecisionContractError DecisionAttempt := do
  let attempt : DecisionAttempt := ⟨decision, number⟩
  attempt.validate
  return attempt

lemma DecisionAttempt.validate_ok_iff {attempt : DecisionAttempt} :
    attempt.validate = .ok () ↔
      isIdentifier attempt.decision = true ∧ (attempt.number = 1 ∨ attempt.number = 2) := by
  rw [DecisionAttempt.validate]
  split
  case isTrue h => simpa using h
  case isFalse h => simpa using h

lemma DecisionAttempt.new_eq {decision : String} (number : Nat)
    (hdec : isIdentifier decision = true) (hnumber : number = 1 ∨ number = 2) :
    DecisionAttempt.new decision number = .ok ⟨decision, number⟩ := by
  rw [DecisionAttempt.new, DecisionAttempt.validate_ok_iff.mpr ⟨hdec, hnumber⟩]
  rfl

end Antiburn
