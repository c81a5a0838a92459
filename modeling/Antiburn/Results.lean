/-
Typed results of decisions and their size limits.

A floating-point value prints as `f64Number` says; the constructors of the
results keep values that do not print out of them.
-/
import Antiburn.Decision
import Antiburn.Fit
import Antiburn.Lib.Except
import Antiburn.Measure
import Antiburn.Lib.TreeMap
import Mathlib

namespace Antiburn

def RESULT_VERSION : Nat := 1
def MAX_RESULT_BYTES : Nat := 512 * 1024

def RESULT_LIMITS : JsonLimits where
  maxBytes := MAX_RESULT_BYTES
  maxNodes := 65536
  maxDepth := MAX_FIT_INPUT_DEPTH

structure ResultError where
  message : String
  deriving DecidableEq

/-- `?` on a contract error. -/
def orResultError {α : Type} (result : Except DecisionContractError α) : Except ResultError α :=
  result.mapError fun error => ⟨error.message⟩

/-- `?` on a size error. -/
def orSizeError {α : Type} (result : Except BoundedJsonError α) : Except ResultError α :=
  result.mapError fun error => ⟨error.message⟩

section Results

variable [Platform]

/-! ### Answers to one question -/

structure ChoiceResult where
  output : String
  probabilities : Option (Std.ExtTreeMap String Platform.F64)
  confidence : Option Platform.F64

structure ScoreResult where
  output : Platform.F64
  probabilities : Option (List Platform.F64)
  confidence : Option Platform.F64

structure NoulResult where
  output : Platform.F64

inductive QuestionResult where
  | choice (result : ChoiceResult)
  | score (result : ScoreResult)
  | noul (result : NoulResult)

structure NamedAnswer where
  name : String
  result : QuestionResult

structure DecisionResult where
  decision : String
  answers : List NamedAnswer
  attempts : Nat

structure EvaluatedAssessment where
  version : Nat
  decisions : List DecisionResult
  attempts : Nat

/-! ### Validation -/

/-- Whether a value is finite and from zero to `maximum`. -/
def inRange (value maximum : Platform.F64) : Bool :=
  Platform.isFinite value && Platform.f64Le (Platform.f64OfDecimal "0") value &&
    Platform.f64Le value maximum

def validateProbability (value : Platform.F64) : Except ResultError Unit :=
  if inRange value (Platform.f64OfDecimal "1") then .ok ()
  else .error ⟨"Probabilities and confidence must be finite values from zero to one."⟩

def validateConfidence (confidence : Option Platform.F64) : Except ResultError Unit :=
  confidence.elim (.ok ()) validateProbability

/-- The probabilities sum to one, up to the fixed tolerance. -/
def validateDistribution (probabilities : List Platform.F64) : Except ResultError Unit := do
  let sum ← probabilities.foldlM (fun sum probability => do
    validateProbability probability
    return Platform.f64Add sum probability) (Platform.f64OfDecimal "0")
  if !Platform.f64Le (Platform.f64AbsDiff sum (Platform.f64OfDecimal "1"))
      (Platform.f64OfDecimal "0.02") then
    throw ⟨"Probability sum must differ from one by no more than 0.02 under f64 arithmetic."⟩

def ChoiceResult.validate (result : ChoiceResult) (question : Question) :
    Except ResultError Unit := do
  orResultError question.validate
  let .choice _ criteria := question
    | throw ⟨"Choice result requires a Choice declaration."⟩
  if !criteria.any fun entry => entry.1 == result.output then
    throw ⟨"Choice output is not a declared label."⟩
  match result.probabilities with
  | some probabilities =>
    if probabilities.size != criteria.length ||
        criteria.any fun entry => !probabilities.contains entry.1 then
      throw ⟨"Choice probabilities must match the exact declared labels."⟩
    validateDistribution (probabilities.toList.map Prod.snd)
  | none => pure ()
  validateConfidence result.confidence

def ScoreResult.validate (result : ScoreResult) (question : Question) :
    Except ResultError Unit := do
  orResultError question.validate
  let .score _ criteria := question
    | throw ⟨"Score result requires a Score declaration."⟩
  if !inRange result.output (Platform.f64OfDecimal (toString (criteria.length - 1))) then
    throw ⟨"Score output must be finite and within the declared criterion range."⟩
  match result.probabilities with
  | some probabilities =>
    if probabilities.length != criteria.length then
      throw ⟨"Score probabilities must match the declared criterion count."⟩
    validateDistribution probabilities
  | none => pure ()
  validateConfidence result.confidence

def QuestionResult.validate (result : QuestionResult) (question : Question)
    (required : QuestionRequirements) : Except ResultError Unit := do
  let (probabilities, confidence) ← match result, question with
    | choice result, .choice .. => do
      result.validate question
      pure (result.probabilities.isSome, result.confidence.isSome)
    | score result, .score .. => do
      result.validate question
      pure (result.probabilities.isSome, result.confidence.isSome)
    | noul result, .noul _ => do
      validateProbability result.output
      pure (false, false)
    | _, _ => throw ⟨"Result type does not match the declared question."⟩
  if (required.probabilities && !probabilities) || (required.confidence && !confidence) then
    throw ⟨"Result is missing required probability or confidence details."⟩

def validateAnswers (declaration : DecisionBlock) (requirements : List QuestionRequirements)
    (answers : List NamedAnswer) (attempts : Nat) : Except ResultError Unit := do
  orResultError declaration.validate
  if attempts ≠ 1 ∧ attempts ≠ 2 then
    throw ⟨"Decision attempts must be one or two."⟩
  if answers.length ≠ declaration.outputs.length then
    throw ⟨"Answers must match the exact declared question set."⟩
  let required := requirements.filter fun required => required.decision == declaration.name
  if required.length ≠ declaration.outputs.length then
    throw ⟨"Requirements must match the exact declared question set."⟩
  forUnique QuestionRequirements.question ⟨"Question requirements must be unique."⟩
    (fun _ => .ok ())
    (fun required =>
      match declaration.outputs.find? fun question => question.name == required.question with
      | none => .error ⟨"Requirements contain an undeclared question."⟩
      | some question => orResultError (required.validateForQuestion declaration.name question))
    [] required
  forUnique NamedAnswer.name ⟨"Answer names must be unique."⟩ (fun _ => .ok ())
    (fun answer =>
      match declaration.outputs.find? fun question => question.name == answer.name with
      | none => .error ⟨"Answer contains an undeclared question."⟩
      | some question =>
        match required.find? fun required => required.question == answer.name with
        | none => .error ⟨"Answer requirements are missing."⟩
        | some required => answer.result.validate question.question required)
    [] answers

/-! ### Documents -/

def floatJson (value : Platform.F64) : Json :=
  (Platform.f64Number value).elim .null .number

def optionalField {α : Type} (name : String) (json : α → Json) (value : Option α) :
    List (String × Json) :=
  (value.map fun value => (name, json value)).toList

def QuestionResult.json : QuestionResult → Json
  | choice result => .object ([("type", .string "choice"), ("output", .string result.output)] ++
      optionalField "probabilities" (fun probabilities : Std.ExtTreeMap String Platform.F64 =>
        .object (probabilities.toList.map fun entry => (entry.1, floatJson entry.2)))
        result.probabilities ++
      optionalField "confidence" floatJson result.confidence)
  | score result => .object ([("type", .string "score"), ("output", floatJson result.output)] ++
      optionalField "probabilities" (fun probabilities => .array (probabilities.map floatJson))
        result.probabilities ++
      optionalField "confidence" floatJson result.confidence)
  | noul result => .object [("type", .string "noul"), ("output", floatJson result.output)]

def NamedAnswer.json (answer : NamedAnswer) : Json :=
  .object [("name", .string answer.name), ("result", answer.result.json)]

def DecisionResult.json (result : DecisionResult) : Json :=
  .object [("decision", .string result.decision),
    ("answers", .array (result.answers.map NamedAnswer.json)),
    ("attempts", .number (.ofNat result.attempts))]

def resultDocument (results : List DecisionResult) (attempts : Nat) : Json :=
  .object [("version", .number (.ofNat RESULT_VERSION)),
    ("decisions", .array (results.map DecisionResult.json)),
    ("attempts", .number (.ofNat attempts))]

def totalAttempts (results : List DecisionResult) : Except ResultError Nat :=
  results.foldlM (fun total result =>
    if total + result.attempts < 2 ^ 64 then .ok (total + result.attempts)
    else .error ⟨"Assessment attempt total overflowed."⟩) 0

/-- Checks the complete result wrapper before a caller appends a partial result. -/
def measureDecisionResultsWithNext (results : List DecisionResult) (next : DecisionResult) :
    Except ResultError JsonMeasurement := do
  if results.any fun result => result.decision == next.decision then
    throw ⟨"Decision results must be unique."⟩
  let total ← totalAttempts results
  if 2 ^ 64 ≤ total + next.attempts then
    throw ⟨"Assessment attempt total overflowed."⟩
  orSizeError (measureJson (resultDocument (results ++ [next]) (total + next.attempts))
    RESULT_LIMITS)

def DecisionResult.validateForDeclaration (result : DecisionResult) (declaration : DecisionBlock)
    (reqs : List QuestionRequirements) : Except ResultError Unit := do
  if result.decision ≠ declaration.name then
    throw ⟨"Decision result does not match the declared block."⟩
  validateAnswers declaration reqs result.answers result.attempts
  if (result.answers.zip declaration.outputs).any fun pair => pair.1.name != pair.2.name then
    throw ⟨"Answers must follow declared question order."⟩
  discard (measureDecisionResultsWithNext [] result)

def declaredIndex (declarations : List DecisionBlock) (decision : String) : Nat :=
  declarations.findIdx fun declaration => declaration.name == decision

def validateDeclared (declarations : List DecisionBlock) (reqs : List QuestionRequirements)
    (result : DecisionResult) : Except ResultError Unit :=
  match declarations.find? fun declaration => declaration.name == result.decision with
  | none => .error ⟨"Results contain an undeclared decision."⟩
  | some declaration => result.validateForDeclaration declaration reqs

def EvaluatedAssessment.new (declarations : List DecisionBlock)
    (reqs : List QuestionRequirements) (decisions : List DecisionResult) :
    Except ResultError EvaluatedAssessment := do
  orResultError (validateRequirements declarations reqs)
  if decisions.length ≠ declarations.length then
    throw ⟨"Results must match the exact declared decision set."⟩
  forUnique DecisionResult.decision ⟨"Decision results must be unique."⟩ (fun _ => .ok ())
    (validateDeclared declarations reqs) [] decisions
  let attempts ← totalAttempts decisions
  let ordered := decisions.mergeSort fun a b =>
    declaredIndex declarations a.decision ≤ declaredIndex declarations b.decision
  discard (orSizeError (measureJson (resultDocument ordered attempts) RESULT_LIMITS))
  return ⟨RESULT_VERSION, ordered, attempts⟩

def EvaluatedAssessment.validateForDeclarations (evaluated : EvaluatedAssessment)
    (declarations : List DecisionBlock) (reqs : List QuestionRequirements) : Except ResultError Unit := do
  orResultError (validateRequirements declarations reqs)
  if evaluated.version ≠ RESULT_VERSION then
    throw ⟨"Saved result version is unsupported."⟩
  if evaluated.decisions.length ≠ declarations.length then
    throw ⟨"Results must match the exact declared decision set."⟩
  (evaluated.decisions.zip declarations).forM fun (result, declaration) =>
    result.validateForDeclaration declaration reqs
  if evaluated.attempts ≠ (← totalAttempts evaluated.decisions) then
    throw ⟨"Assessment attempt total does not match its decision results."⟩
  discard (orSizeError
    (measureJson (resultDocument evaluated.decisions evaluated.attempts) RESULT_LIMITS))

/-! ### Size of a document -/

def FitsResultLimits (results : List DecisionResult) (attempts : Nat) : Prop :=
  (resultDocument results attempts).Fits RESULT_LIMITS

lemma measureJson_resultDocument (results : List DecisionResult) (attempts : Nat) :
    (measureJson (resultDocument results attempts) RESULT_LIMITS).isOk = true ↔
      FitsResultLimits results attempts :=
  measureJson_isOk_iff (by decide) _

end Results

def countBytes (n : Nat) : Nat := (toString n).utf8ByteSize

lemma countBytes_of_lt {n : Nat} (h : n < 10) : countBytes n = 1 := by
  interval_cases n <;> rfl

lemma countBytes_of_ge {n : Nat} (h : 10 ≤ n) : countBytes n = countBytes (n / 10) + 1 := by
  have hdigit : (String.singleton (n % 10).digitChar).utf8ByteSize = 1 := by
    have hlt : n % 10 < 10 := Nat.mod_lt _ (by decide)
    interval_cases n % 10 <;> rfl
  show n.repr.utf8ByteSize = (n / 10).repr.utf8ByteSize + 1
  rw [Nat.repr_of_ge h, String.utf8ByteSize_append, hdigit]

lemma countBytes_mono {n m : Nat} (h : n ≤ m) : countBytes n ≤ countBytes m := by
  induction m using Nat.strong_induction_on generalizing n with
  | _ m ih =>
    by_cases hm : m < 10
    · rw [countBytes_of_lt hm, countBytes_of_lt (h.trans_lt hm)]
    rw [countBytes_of_ge (Nat.not_lt.mp hm)]
    by_cases hn : n < 10
    · rw [countBytes_of_lt hn]
      exact Nat.le_add_left 1 _
    · rw [countBytes_of_ge (Nat.not_lt.mp hn)]
      exact Nat.add_le_add_right (ih (m / 10) (by omega) (Nat.div_le_div_right h)) 1

section Size

variable [Platform]

/-- Bytes of a result document around its results and its attempt count. -/
def documentOverhead : Nat := (resultDocument [] 0).byteSize - 1

/-- **The size of a result document.**  Nodes and bytes are sums over the
results; depth is a bound on each of them. -/
lemma fitsResultLimits_iff (results : List DecisionResult) (attempts : Nat) :
    FitsResultLimits results attempts ↔
      (∀ result ∈ results, ∀ depth ∈ result.json.visits 3, depth ≤ RESULT_LIMITS.maxDepth) ∧
      4 + (results.map fun result => (result.json.visits 3).length).sum ≤
        RESULT_LIMITS.maxNodes ∧
      documentOverhead + ((results.map fun result => result.json.byteSize + 1).sum - 1) +
        countBytes attempts ≤ RESULT_LIMITS.maxBytes := by
  have hdepth : ∀ {P : Nat → Prop}, P 1 → P 2 →
      ((∀ depth ∈ (resultDocument results attempts).visits 1, P depth) ↔
        ∀ result ∈ results, ∀ depth ∈ result.json.visits 3, P depth) := by
    intro P h₁ h₂
    simp only [resultDocument, Json.visits, Json.visitsEntries, List.cons_append, List.nil_append,
      List.append_nil, List.mem_cons, List.mem_append, Json.mem_visitsItems, List.mem_map,
      List.not_mem_nil, or_false]
    constructor
    · intro h result hresult depth hmem
      exact h depth (.inr (.inr (.inr (.inl ⟨_, ⟨result, hresult, rfl⟩, hmem⟩))))
    · rintro h depth (rfl | rfl | rfl | ⟨_, ⟨result, hresult, rfl⟩, hmem⟩ | rfl)
      · exact h₁
      · exact h₂
      · exact h₂
      · exact h result hresult depth hmem
      · exact h₂
  have hnodes : ((resultDocument results attempts).visits 1).length =
      4 + (results.map fun result => (result.json.visits 3).length).sum := by
    simp only [resultDocument, Json.visits, Json.visitsEntries, List.length_cons,
      List.length_append, List.length_nil, Json.length_visitsItems, List.map_map]
    show 0 + 1 + ((results.map fun result => (result.json.visits 3).length).sum + 1 +
      (0 + 1 + 0)) + 1 = _
    omega
  have hbytes : (resultDocument results attempts).byteSize =
      documentOverhead + ((results.map fun result => result.json.byteSize + 1).sum - 1) +
        countBytes attempts := by
    have hcount : (Number.ofNat attempts).text.utf8ByteSize = countBytes attempts := rfl
    have hzero : countBytes 0 = 1 := rfl
    have hcount₀ : (Number.ofNat 0).text.utf8ByteSize = countBytes 0 := rfl
    have hsum : (results.map ((fun item : Json => item.byteSize + 1) ∘ DecisionResult.json)).sum =
        (results.map fun result => result.json.byteSize + 1).sum := rfl
    show Json.writtenBytes (resultDocument results attempts).writes =
      Json.writtenBytes (resultDocument [] 0).writes - 1 + _ + _
    simp only [resultDocument, Json.writes, Json.writesEntries, Json.writtenBytes_cons, Json.writtenBytes_append, Json.writtenBytes_nil,
      Json.writtenBytes_writesItems_true, List.map_map, List.map_nil, List.sum_nil, hcount,
      hcount₀, hzero, hsum]
    omega
  constructor
  · intro h
    exact ⟨(hdepth (by decide) (by decide)).mp h.depth, hnodes ▸ h.nodes, hbytes ▸ h.bytes⟩
  · rintro ⟨h₁, h₂, h₃⟩
    exact ⟨(hdepth (by decide) (by decide)).mpr h₁, hnodes ▸ h₂, hbytes ▸ h₃⟩

variable {results results' : List DecisionResult} {attempts : Nat}

lemma FitsResultLimits.perm
    (hperm : results.Perm results') (h : FitsResultLimits results attempts) :
    FitsResultLimits results' attempts := by
  rw [fitsResultLimits_iff] at h ⊢
  obtain ⟨hdepth, hnodes, hbytes⟩ := h
  refine ⟨fun result hresult => hdepth result (hperm.mem_iff.mpr hresult), ?_, ?_⟩
  · rwa [← (hperm.map _).sum_eq]
  · rwa [← (hperm.map _).sum_eq]

lemma FitsResultLimits.mono {attempts' : Nat}
    (hress : results.Sublist results') (htries : attempts ≤ attempts')
    (h : FitsResultLimits results' attempts') : FitsResultLimits results attempts := by
  rw [fitsResultLimits_iff] at h ⊢
  obtain ⟨hdepth, hnodes, hbytes⟩ := h
  have hsum : ∀ size : DecisionResult → Nat, (results.map size).sum ≤ (results'.map size).sum :=
    fun size => (hress.map size).sum_le_sum fun _ _ => Nat.zero_le _
  have hcount := countBytes_mono htries
  refine ⟨fun result hresult => hdepth result (hress.subset hresult), ?_, ?_⟩
  · have := hsum fun result => (result.json.visits 3).length
    omega
  · have := hsum fun result => result.json.byteSize + 1
    omega

lemma FitsResultLimits.length_le
    (h : FitsResultLimits results attempts) : results.length ≤ RESULT_LIMITS.maxNodes := by
  obtain ⟨-, hnodes, -⟩ := (fitsResultLimits_iff _ _).mp h
  have hlen := List.length_le_sum_of_one_le
    (results.map fun result => (result.json.visits 3).length) (by
      intro n hn
      obtain ⟨result, -, rfl⟩ := List.mem_map.mp hn
      exact Json.visits_pos 3 _)
  rw [List.length_map] at hlen
  omega

end Size

/-! ### What validated results are -/

section Validated

variable [Platform]

variable {declaration : DecisionBlock} {reqs : List QuestionRequirements}

lemma DecisionResult.of_validateForDeclaration {result : DecisionResult}
    (h : result.validateForDeclaration declaration reqs = .ok ()) :
    result.decision = declaration.name ∧ (result.attempts = 1 ∨ result.attempts = 2) := by
  rw [validateForDeclaration] at h
  by_cases hname : result.decision = declaration.name
  · refine ⟨hname, ?_⟩
    by_contra htries
    rw [not_or] at htries
    have hans : ∃ error, validateAnswers declaration reqs result.answers
        result.attempts = .error error := by
      rw [validateAnswers]
      rcases orResultError declaration.validate with error | ⟨⟩
      · exact ⟨error, rfl⟩
      · exact ⟨_, if_pos htries⟩
    obtain ⟨error, herror⟩ := hans
    rw [if_neg (not_not.mpr hname), herror] at h
    cases h
  · rw [if_pos hname] at h
    cases h

lemma foldlM_attempts (results : List DecisionResult) (total : Nat)
    (h : total + (results.map DecisionResult.attempts).sum < 2 ^ 64) :
    results.foldlM (fun total result =>
      if total + result.attempts < 2 ^ 64 then .ok (total + result.attempts)
      else .error ⟨"Assessment attempt total overflowed."⟩) total =
        (.ok (total + (results.map DecisionResult.attempts).sum) : Except ResultError Nat) := by
  induction results generalizing total with
  | nil => rfl
  | cons result rest ih =>
    rw [List.map_cons, List.sum_cons, ← Nat.add_assoc] at h
    have hhead : total + result.attempts < 2 ^ 64 := by omega
    rw [List.foldlM_cons, if_pos hhead, List.map_cons, List.sum_cons, ← Nat.add_assoc]
    exact ih _ h

lemma totalAttempts_eq (results : List DecisionResult)
    (h : (results.map DecisionResult.attempts).sum < 2 ^ 64) :
    totalAttempts results = .ok (results.map DecisionResult.attempts).sum := by
  have hfold := foldlM_attempts results 0 (by rwa [Nat.zero_add])
  rwa [Nat.zero_add] at hfold

variable {declarations : List DecisionBlock} {results : List DecisionResult}

lemma FitsResultLimits.sum_lt {attempts : Nat}
    (h : FitsResultLimits results attempts) (htries : ∀ result ∈ results, result.attempts ≤ 2) :
    (results.map DecisionResult.attempts).sum < 2 ^ 32 := by
  have hsum : (results.map DecisionResult.attempts).sum ≤ results.length * 2 := by
    have := List.sum_le_card_nsmul (results.map DecisionResult.attempts) 2 (by
      intro n hn
      obtain ⟨result, hresult, rfl⟩ := List.mem_map.mp hn
      exact htries result hresult)
    rwa [List.length_map, nsmul_eq_mul] at this
  have hlen : results.length ≤ 65536 := h.length_le
  omega

lemma measureDecisionResultsWithNext_isOk {next : DecisionResult}
    (hunique : ∀ result ∈ results, result.decision ≠ next.decision)
    (hsum : (results.map DecisionResult.attempts).sum + next.attempts < 2 ^ 64)
    (hfits : FitsResultLimits (results ++ [next])
      ((results.map DecisionResult.attempts).sum + next.attempts)) :
    (measureDecisionResultsWithNext results next).isOk = true := by
  have hany : (results.any fun result => result.decision == next.decision) = false := by
    rw [List.any_eq_false]
    intro result hresult
    rw [beq_iff_eq]
    exact hunique result hresult
  have htotal := totalAttempts_eq results (by omega)
  rw [measureDecisionResultsWithNext, hany, htotal]
  show Except.isOk (if 2 ^ 64 ≤ (results.map DecisionResult.attempts).sum + next.attempts
    then _ else _) = true
  rw [if_neg (Nat.not_le.mpr hsum), orSizeError, Except.isOk_mapError]
  exact (measureJson_resultDocument _ _).mpr hfits

lemma fits_of_measureDecisionResultsWithNext
    {next : DecisionResult} {measurement : JsonMeasurement}
    (h : measureDecisionResultsWithNext results next = .ok measurement) :
    ∃ total, totalAttempts results = .ok total ∧
      FitsResultLimits (results ++ [next]) (total + next.attempts) := by
  rw [measureDecisionResultsWithNext] at h
  by_cases hany : (results.any fun result => result.decision == next.decision) = true
  · cases (if_pos hany).symm.trans h
  obtain ⟨total, htotal, h⟩ := Except.of_bind_ok ((if_neg hany).symm.trans h)
  by_cases hsum : 2 ^ 64 ≤ total + next.attempts
  · cases (if_pos hsum).symm.trans h
  replace h := Except.mapError_ok_iff.mp ((if_neg hsum).symm.trans h)
  exact ⟨total, htotal, (measureJson_resultDocument _ _).mp (Except.isOk_iff.mpr ⟨_, h⟩)⟩

omit [Platform] in
lemma find?_declaration
    (hnames : (declarations.map DecisionBlock.name).Nodup)
    (h : declaration ∈ declarations) :
    declarations.find? (fun other => other.name == declaration.name) = some declaration := by
  induction declarations with
  | nil => cases h
  | cons first rest ih =>
    rw [List.map_cons, List.nodup_cons] at hnames
    rcases List.mem_cons.mp h with rfl | h
    · exact List.find?_cons_of_pos (beq_iff_eq.mpr rfl)
    · rw [List.find?_cons_of_neg, ih hnames.2 h]
      rw [beq_iff_eq]
      exact fun heq => hnames.1 (List.mem_map.mpr ⟨declaration, h, heq.symm⟩)

omit [Platform] in
lemma declaredIndex_eq
    (hnames : (declarations.map DecisionBlock.name).Nodup) {i : Nat}
    (hi : i < declarations.length) : declaredIndex declarations declarations[i].name = i := by
  have hindex := hnames.idxOf_getElem i (by rwa [List.length_map])
  rwa [List.getElem_map, List.idxOf, List.findIdx_map] at hindex

/-- **Results for all declarations, in declared order, make an assessment.** -/
lemma EvaluatedAssessment.new_eq
    (hreqs : validateRequirements declarations reqs = .ok ())
    (hress : List.Forall₂ (fun (result : DecisionResult) declaration =>
      result.validateForDeclaration declaration reqs = .ok ()) results declarations)
    (hfits : FitsResultLimits results (results.map DecisionResult.attempts).sum) :
    EvaluatedAssessment.new declarations reqs results =
      .ok ⟨RESULT_VERSION, results, (results.map DecisionResult.attempts).sum⟩ := by
  obtain ⟨hnames, -⟩ := validateDeclarations_of_validateRequirements hreqs
  obtain ⟨hlen, hvalid⟩ := List.forall₂_iff_get.mp hress
  have hdec : ∀ i (hi : i < results.length) (hi' : i < declarations.length),
      results[i].decision = declarations[i].name := fun i hi hi' =>
    (DecisionResult.of_validateForDeclaration (hvalid i hi hi')).1
  have hdecs : results.map DecisionResult.decision = declarations.map DecisionBlock.name := by
    refine List.ext_getElem (by simpa using hlen) fun i hi hi' => ?_
    rw [List.getElem_map, List.getElem_map]
    exact hdec i _ _
  have htries : ∀ result ∈ results, result.attempts ≤ 2 := by
    intro result hresult
    obtain ⟨i, hi, rfl⟩ := List.getElem_of_mem hresult
    rcases (DecisionResult.of_validateForDeclaration (hvalid i hi (hlen ▸ hi))).2 with h | h
    · exact h.le.trans (by decide)
    · exact h.le
  have htotal := totalAttempts_eq results (by
    have := hfits.sum_lt htries
    omega)
  have hchecks : forUnique DecisionResult.decision
      ⟨"Decision results must be unique."⟩ (fun _ => .ok ())
      (validateDeclared declarations reqs) [] results = .ok () := by
    rw [forUnique_ok_iff]
    refine ⟨fun result hresult => ⟨rfl, ?_⟩, hdecs ▸ hnames, fun _ _ h => by cases h⟩
    obtain ⟨i, hi, rfl⟩ := List.getElem_of_mem hresult
    have hi' : i < declarations.length := hlen ▸ hi
    rw [validateDeclared, hdec i hi hi', find?_declaration hnames (List.getElem_mem hi')]
    exact hvalid i hi hi'
  have hsorted : results.mergeSort (fun a b =>
      declaredIndex declarations a.decision ≤ declaredIndex declarations b.decision) = results := by
    refine List.mergeSort_of_pairwise (List.pairwise_iff_getElem.mpr fun i j hi hj hij => ?_)
    rw [hdec i hi (hlen ▸ hi), hdec j hj (hlen ▸ hj),
      declaredIndex_eq hnames, declaredIndex_eq hnames]
    exact decide_eq_true hij.le
  have hmsr := (measureJson_resultDocument _ _).mpr hfits
  rw [EvaluatedAssessment.new, hreqs, if_neg (not_not.mpr hlen), hchecks, htotal]
  show (do
    discard (orSizeError (measureJson (resultDocument (results.mergeSort _) _) RESULT_LIMITS))
    _) = _
  rw [hsorted, orSizeError, Except.discard_ok_iff.mpr ((Except.isOk_mapError _ _).trans hmsr)]
  rfl

end Validated

end Antiburn
